import DataCache.Capture.Holes
import DataCache.Capture.Ledger
import DataCache.Capture.Window

/-!
# What a capture records

Runs in which the ledger only changes by additions.  Whatever arrives between
the trigger and the harvest, the batches of a capture stay inside its window
and share neither a frame nor a pair.
-/

namespace DataCache.Capture

open DataCache.Foundation

/-! ## Runs -/

/-- The synchronizer behind the flush adds to the ledger and nothing else. -/
def Ledgered : Prog.Effect CaptureOp.Res System := fun s op r s' =>
  Interleaved s op r s' ∧ s.pairIndex.Grows s'.pairIndex

/-- The states between callbacks. -/
inductive Recorded (settings : Settings) : System → Prop
  | start (maxSize : Nat) (maxAge : Int) (maxBytes : Nat) :
      Recorded settings (initial settings maxSize maxAge maxBytes)
  | frame {s : System} (data : SensorData) (h : Recorded settings s) :
      Recorded settings { s with
        buffer := s.buffer.addData data
        arrivals := s.arrivals ++ [data] }
  | ledger {s : System} {pairIndex : PairIndex} (h : Recorded settings s)
      (hgrows : s.pairIndex.Grows pairIndex) :
      Recorded settings { s with pairIndex }
  | consume {s : System} (count : Nat) (h : Recorded settings s) :
      Recorded settings (s.pop count)
  | trigger {s s' : System} {result : CaptureResult} (clock : Clock)
      (eventName : Text) (h : Recorded settings s)
      (hexec : Prog.Exec Ledgered s
        (recordDataAroundEventDetailed settings clock eventName) s' (.ret result)) :
      Recorded settings (logCapture settings clock eventName s s' result)
  | scheduler {s s' : System} (clock : Clock) (h : Recorded settings s)
      (hexec : Prog.Exec Ledgered s (processExpiredCaptures settings clock) s'
        (.ret ())) :
      Recorded settings s'

/-- The states between and inside callbacks. -/
inductive Recording (settings : Settings) : System → Prop
  | between {s : System} (h : Recorded settings s) : Recording settings s
  | trigger {s s' : System} {rest : Callback CaptureResult} (clock : Clock)
      (eventName : Text) (h : Recorded settings s)
      (hexec : Prog.Exec Ledgered s
        (recordDataAroundEventDetailed settings clock eventName) s' rest) :
      Recording settings s'
  | scheduler {s s' : System} {rest : Callback Unit} (clock : Clock)
      (h : Recorded settings s)
      (hexec : Prog.Exec Ledgered s (processExpiredCaptures settings clock) s'
        rest) :
      Recording settings s'

theorem Recorded.reachable {settings : Settings} {s : System}
    (h : Recorded settings s) : Reachable settings s := by
  induction h with
  | start maxSize maxAge maxBytes => exact .start maxSize maxAge maxBytes
  | frame data _ ih => exact .frame data ih
  | ledger _ _ ih => exact .ledger _ ih
  | consume count _ ih => exact .consume count ih
  | trigger clock eventName _ hexec ih =>
      exact .trigger clock eventName ih (hexec.mono fun _ _ _ _ h => h.1)
  | scheduler clock _ hexec ih =>
      exact .scheduler clock ih (hexec.mono fun _ _ _ _ h => h.1)

theorem Recording.midway {settings : Settings} {s : System}
    (h : Recording settings s) : Midway settings s := by
  cases h with
  | between h => exact .between h.reachable
  | trigger clock eventName h hexec =>
      exact .trigger clock eventName h.reachable
        (hexec.mono fun _ _ _ _ h => h.1)
  | scheduler clock h hexec =>
      exact .scheduler clock h.reachable (hexec.mono fun _ _ _ _ h => h.1)

/-! ## Windows -/

/-- What a job's frames and pairs are selected by. -/
def stampsOf (job : Job) : List Int :=
  job.records.map timestampOf ++ job.pairs.map PairRecord.timestamp

/-- The first batch ends at the event, and a later one begins after it. -/
structure Windowed (capture : AcceptedTrigger) (job : Job) : Prop where
  early : (job.finalJob = false ∨ capture.postSeconds ≤ 0) →
    ∀ stamp ∈ stampsOf job,
      capture.eventTime - capture.preSeconds * nanosPerSecond ≤ stamp ∧
      stamp ≤ capture.eventTime
  late : job.finalJob = true → 0 < capture.postSeconds →
    ∀ stamp ∈ stampsOf job, capture.eventTime < stamp ∧
      stamp ≤ capture.eventTime + capture.postSeconds * nanosPerSecond

/-- The capture's jobs stay inside its window, and nothing is in them twice. -/
structure RecordedOnce (s : System) (capture : AcceptedTrigger) : Prop where
  inWindow : ∀ entry ∈ batchesOf s.accepted capture.directory,
    ∀ stamp ∈ stampsOf entry.job,
      capture.eventTime - capture.preSeconds * nanosPerSecond ≤ stamp ∧
      stamp ≤ capture.eventTime + capture.postSeconds * nanosPerSecond
  frames : ((batchesOf s.accepted capture.directory).flatMap
    fun entry => entry.job.records).Subperm s.arrivals
  pairs : (((batchesOf s.accepted capture.directory).flatMap
    fun entry => entry.job.pairs).map PairRecord.pairId).Nodup

/-! ## One callback -/

/-- What no callback changes, and how the ledger changes. -/
structure Kept (s s' : System) : Prop where
  buffer : s'.buffer = s.buffer
  arrivals : s'.arrivals = s.arrivals
  captures : s'.captures = s.captures
  ledger : s.pairIndex.Grows s'.pairIndex

theorem Kept.refl (s : System) : Kept s s := ⟨rfl, rfl, rfl, .refl⟩

theorem Kept.trans {s s' s'' : System} (h : Kept s s') (h' : Kept s' s'') :
    Kept s s'' :=
  ⟨h'.buffer.trans h.buffer, h'.arrivals.trans h.arrivals,
    h'.captures.trans h.captures, h.ledger.trans h'.ledger⟩

/-- The operations besides handing over a job. -/
def Quiet (op : CaptureOp) : Prop := ∀ job reserved, op ≠ .enqueue job reserved

theorem Performs.kept {s s' : System} {op : CaptureOp} {r : op.Res}
    (h : Performs s op r s') : s'.buffer = s.buffer ∧
      s'.arrivals = s.arrivals ∧ s'.captures = s.captures := by
  cases op with
  | flushPendingPairs =>
      obtain ⟨pairIndex, rfl⟩ := h
      exact ⟨rfl, rfl, rfl⟩
  | latestSensorTimestamp => obtain ⟨-, rfl⟩ := h; exact ⟨rfl, rfl, rfl⟩
  | takeCaptureId => obtain ⟨-, rfl⟩ := h; exact ⟨rfl, rfl, rfl⟩
  | framesWithin => obtain ⟨-, rfl⟩ := h; exact ⟨rfl, rfl, rfl⟩
  | pairsWithin => obtain ⟨-, rfl⟩ := h; exact ⟨rfl, rfl, rfl⟩
  | reserve => obtain ⟨-, rfl⟩ := h; exact ⟨rfl, rfl, rfl⟩
  | releaseReservation => cases h; exact ⟨rfl, rfl, rfl⟩
  | enqueue job reserved =>
      obtain ⟨-, rfl⟩ := h
      unfold System.enqueue
      split <;> exact ⟨rfl, rfl, rfl⟩
  | activeCaptures => obtain ⟨-, rfl⟩ := h; exact ⟨rfl, rfl, rfl⟩
  | emplaceCapture task =>
      cases h
      unfold System.emplaceCapture
      split <;> exact ⟨rfl, rfl, rfl⟩
  | eraseCapture => cases h; exact ⟨rfl, rfl, rfl⟩
  | harvestExpired => obtain ⟨-, rfl⟩ := h; exact ⟨rfl, rfl, rfl⟩
  | beginEvent => cases h; exact ⟨rfl, rfl, rfl⟩
  | failEvent => cases h; exact ⟨rfl, rfl, rfl⟩

theorem Performs.accepted {s s' : System} {op : CaptureOp} {r : op.Res}
    (h : Performs s op r s') (hquiet : Quiet op) : s'.accepted = s.accepted := by
  cases op with
  | enqueue job reserved => exact absurd rfl (hquiet job reserved)
  | flushPendingPairs =>
      obtain ⟨pairIndex, rfl⟩ := h
      rfl
  | emplaceCapture task =>
      cases h
      unfold System.emplaceCapture
      split <;> rfl
  | releaseReservation => cases h; rfl
  | eraseCapture => cases h; rfl
  | beginEvent => cases h; rfl
  | failEvent => cases h; rfl
  | _ => obtain ⟨-, rfl⟩ := h; rfl

/-- Only the flush changes the ledger. -/
theorem Performs.pairIndex {s s' : System} {op : CaptureOp} {r : op.Res}
    (h : Performs s op r s') (hflush : op ≠ .flushPendingPairs) :
    s'.pairIndex = s.pairIndex := by
  cases op with
  | flushPendingPairs => exact absurd rfl hflush
  | enqueue job reserved =>
      obtain ⟨-, rfl⟩ := h
      unfold System.enqueue
      split <;> rfl
  | emplaceCapture task =>
      cases h
      unfold System.emplaceCapture
      split <;> rfl
  | releaseReservation => cases h; rfl
  | eraseCapture => cases h; rfl
  | beginEvent => cases h; rfl
  | failEvent => cases h; rfl
  | _ => obtain ⟨-, rfl⟩ := h; rfl

theorem Performs.nextCaptureId {s s' : System} {op : CaptureOp} {r : op.Res}
    (h : Performs s op r s') (htake : op ≠ .takeCaptureId) :
    s'.nextCaptureId = s.nextCaptureId := by
  cases op with
  | takeCaptureId => exact absurd rfl htake
  | flushPendingPairs =>
      obtain ⟨pairIndex, rfl⟩ := h
      rfl
  | enqueue job reserved =>
      obtain ⟨-, rfl⟩ := h
      unfold System.enqueue
      split <;> rfl
  | emplaceCapture task =>
      cases h
      unfold System.emplaceCapture
      split <;> rfl
  | releaseReservation => cases h; rfl
  | eraseCapture => cases h; rfl
  | beginEvent => cases h; rfl
  | failEvent => cases h; rfl
  | _ => obtain ⟨-, rfl⟩ := h; rfl

section Ledgered

variable {s s' : System}

theorem Ledgered.kept {op : CaptureOp} {r : op.Res} (h : Ledgered s op r s') :
    Kept s s' := by
  obtain ⟨⟨before, after, between, hperforms, rfl⟩, hgrows⟩ := h
  obtain ⟨hbuffer, harrivals, hcaptures⟩ := hperforms.kept
  exact ⟨hbuffer, harrivals, hcaptures, hgrows⟩

theorem Ledgered.accepted {op : CaptureOp} {r : op.Res}
    (h : Ledgered s op r s') (hquiet : Quiet op) :
    s'.accepted = s.accepted := by
  obtain ⟨⟨before, after, between, hperforms, rfl⟩, -⟩ := h
  exact hperforms.accepted hquiet

theorem Ledgered.pairIndex {op : CaptureOp} {r : op.Res}
    (h : Ledgered s op r s') (hflush : op ≠ .flushPendingPairs) :
    s'.pairIndex = s.pairIndex := by
  obtain ⟨⟨before, after, between, hperforms, rfl⟩, -⟩ := h
  exact hperforms.pairIndex hflush

theorem Ledgered.nextCaptureId {op : CaptureOp} {r : op.Res}
    (h : Ledgered s op r s') (htake : op ≠ .takeCaptureId) :
    s'.nextCaptureId = s.nextCaptureId := by
  obtain ⟨⟨before, after, between, hperforms, rfl⟩, -⟩ := h
  exact hperforms.nextCaptureId htake

theorem Ledgered.enqueue {job : Job} {reserved accepted : Bool}
    (h : Ledgered s (.enqueue job reserved) accepted s') :
    s'.accepted = s.accepted ∨
      s'.accepted = s.accepted ++ [⟨job, s.buffer.getAllData⟩] := by
  obtain ⟨⟨before, after, between, ⟨-, rfl⟩, rfl⟩, -⟩ := h
  unfold System.enqueue
  split
  · exact .inr rfl
  · exact .inl rfl

end Ledgered

theorem Ledgered.latestSensorTimestamp {s s' : System} {sensorNow : Option Int}
    (h : Ledgered s .latestSensorTimestamp sensorNow s') :
    sensorNow = s.buffer.latestSensorTimestamp := by
  obtain ⟨⟨before, after, between, ⟨hsensorNow, -⟩, -⟩, -⟩ := h
  exact hsensorNow

theorem Ledgered.takeCaptureId {s s' : System} {captureId : Nat}
    (h : Ledgered s .takeCaptureId captureId s') :
    captureId = s.nextCaptureId := by
  obtain ⟨⟨before, after, between, ⟨hcaptureId, -⟩, -⟩, -⟩ := h
  exact hcaptureId

theorem Ledgered.framesWithin {s s' : System} {first last : Int}
    {records : List SensorData}
    (h : Ledgered s (.framesWithin first last) records s') :
    records = s.buffer.getDataWithinTimeRange first last := by
  obtain ⟨⟨before, after, between, ⟨hrecords, -⟩, -⟩, -⟩ := h
  exact hrecords

theorem Ledgered.pairsWithin {s s' : System} {first last : Int}
    {pairs : List PairRecord}
    (h : Ledgered s (.pairsWithin first last) pairs s') :
    pairs = s.pairIndex.getDataWithinTimeRange first last := by
  obtain ⟨⟨before, after, between, ⟨hpairs, -⟩, -⟩, -⟩ := h
  exact hpairs

/-- What has been handed over since `base`: at most one allowed job. -/
structure HandsOver (allowed : Job → Prop) (base s : System) : Prop where
  kept : Kept base s
  accepted : s.accepted = base.accepted ∨ ∃ job, allowed job ∧
    job.records.Sublist base.buffer.getAllData ∧
    job.pairs.Sublist s.pairIndex.records ∧
    s.accepted = base.accepted ++ [⟨job, base.buffer.getAllData⟩]

/-- Nothing yet, and the ledger is as the flush left it. -/
structure Ready (base : System) (pairIndex : PairIndex) (s : System) : Prop where
  kept : Kept base s
  accepted : s.accepted = base.accepted
  pairIndex : s.pairIndex = pairIndex

section Rules

variable {α : Type} {allowed : Job → Prop} {base s : System}
  {pairIndex : PairIndex} {op : CaptureOp} {next : op.Res → Callback α}
  {post : α → System → Prop} {fail : Empty → System → Prop}

theorem Ready.handsOver (h : Ready base pairIndex s) :
    HandsOver allowed base s :=
  ⟨h.kept, .inl h.accepted⟩

theorem Ready.wp (h : Ready base pairIndex s) (hquiet : Quiet op)
    (hflush : op ≠ .flushPendingPairs)
    (hnext : ∀ r s', Ledgered s op r s' → Ready base pairIndex s' →
      Prog.wp Ledgered (HandsOver allowed base) post fail (next r) s') :
    Prog.wp Ledgered (HandsOver allowed base) post fail
      (perform op >>= next) s := by
  intro r s' heffect
  have hready : Ready base pairIndex s' :=
    ⟨h.kept.trans heffect.kept, (heffect.accepted hquiet).trans h.accepted,
      (heffect.pairIndex hflush).trans h.pairIndex⟩
  exact ⟨hready.handsOver, hnext r s' heffect hready⟩

theorem Ready.wp_enqueue {job : Job} {reserved : Bool}
    {next : Bool → Callback α} (h : Ready base pairIndex s) (hallowed : allowed job)
    (hrecords : job.records.Sublist base.buffer.getAllData)
    (hpairs : job.pairs.Sublist pairIndex.records)
    (hnext : ∀ accepted s', HandsOver allowed base s' →
      Prog.wp Ledgered (HandsOver allowed base) post fail (next accepted) s') :
    Prog.wp Ledgered (HandsOver allowed base) post fail
      (perform (.enqueue job reserved) >>= next) s := by
  intro accepted s' heffect
  have hpairIndex := (heffect.pairIndex (by simp)).trans h.pairIndex
  have hhands : HandsOver allowed base s' := by
    refine ⟨h.kept.trans heffect.kept, ?_⟩
    rcases heffect.enqueue with hsame | hadded
    · exact .inl (hsame.trans h.accepted)
    · refine .inr ⟨job, hallowed, hrecords, ?_, ?_⟩
      · rwa [hpairIndex]
      · rw [hadded, h.accepted, h.kept.buffer]
  exact ⟨hhands, hnext accepted s' hhands⟩

theorem HandsOver.wp (h : HandsOver allowed base s) (hquiet : Quiet op)
    (hflush : op ≠ .flushPendingPairs)
    (hnext : ∀ r s', HandsOver allowed base s' →
      Prog.wp Ledgered (HandsOver allowed base) post fail (next r) s') :
    Prog.wp Ledgered (HandsOver allowed base) post fail
      (perform op >>= next) s := by
  intro r s' heffect
  have hhands : HandsOver allowed base s' := by
    refine ⟨h.kept.trans heffect.kept, ?_⟩
    rw [heffect.accepted hquiet, heffect.pairIndex hflush]
    exact h.accepted
  exact ⟨hhands, hnext r s' hhands⟩

end Rules

/-! ### The trigger -/

/-- A job of the window up to the event. -/
structure EarlyJob (directory : Text) (first eventTime : Int) (final : Bool)
    (job : Job) : Prop where
  directory : job.directory = directory
  final : job.finalJob = final
  stamps : ∀ stamp ∈ stampsOf job, first ≤ stamp ∧ stamp ≤ eventTime

theorem stamps_within {job : Job} {buffer : DataBuffer} {index : PairIndex}
    {first last : Int}
    (hrecords : job.records.Sublist (buffer.getDataWithinTimeRange first last))
    (hpairs : job.pairs.Sublist (index.getDataWithinTimeRange first last)) :
    ∀ stamp ∈ stampsOf job, first ≤ stamp ∧ stamp ≤ last := by
  intro stamp hstamp
  rcases List.mem_append.mp hstamp with hframe | hpair
  · obtain ⟨frame, hmem, rfl⟩ := List.mem_map.mp hframe
    exact within_iff.mp (List.mem_filter.mp (hrecords.subset hmem)).2
  · obtain ⟨pair, hmem, rfl⟩ := List.mem_map.mp hpair
    simpa using (List.mem_filter.mp (hpairs.subset hmem)).2

section Trigger

variable {settings : Settings} {clock : Clock} {eventName directory : Text}
  {first eventTime : Int} {base s : System} {index : PairIndex}

/-- The result names the directory whose job was handed over. -/
def Answers (allowed : Job → Prop) (base : System) (directory : Text)
    (result : CaptureResult) (s : System) : Prop :=
  HandsOver allowed base s ∧ result.directory = directory

theorem captureImmediately_hands (h : Ready base index s) :
    Prog.wp Ledgered (HandsOver (EarlyJob directory first eventTime true) base)
      (Answers (EarlyJob directory first eventTime true) base directory)
      (fun _ _ => False)
      (captureImmediately settings clock eventName directory first eventTime
        (index.getDataWithinTimeRange first eventTime)) s := by
  unfold captureImmediately
  refine h.wp (by simp [Quiet]) (by simp) fun reserved s₁ _ h₁ => ?_
  split
  · exact ⟨h₁.handsOver, rfl⟩
  refine h₁.wp (by simp [Quiet]) (by simp) fun begun s₂ _ h₂ => ?_
  split
  · exact h₂.wp (by simp [Quiet]) (by simp) fun _ s₃ _ h₃ => ⟨h₃.handsOver, rfl⟩
  refine h₂.wp (by simp [Quiet]) (by simp) fun records s₃ hframes h₃ => ?_
  obtain rfl := hframes.framesWithin
  rw [h₂.kept.buffer]
  refine h₃.wp_enqueue ⟨rfl, rfl, ?_⟩ List.filter_sublist List.filter_sublist
    fun accepted s₄ h₄ => ?_
  · exact stamps_within (List.Sublist.refl _) (List.Sublist.refl _)
  split
  · exact h₄.wp (by simp [Quiet]) (by simp) fun _ s₅ h₅ => ⟨h₅, rfl⟩
  · exact ⟨h₄, rfl⟩

theorem enqueuePreBatch_hands {taskId : Text} (h : Ready base index s) :
    Prog.wp Ledgered (HandsOver (EarlyJob directory first eventTime false) base)
      (Answers (EarlyJob directory first eventTime false) base directory)
      (fun _ _ => False)
      (enqueuePreBatch settings eventName directory taskId first eventTime
        (index.getDataWithinTimeRange first eventTime)) s := by
  unfold enqueuePreBatch
  refine h.wp (by simp [Quiet]) (by simp) fun records s₁ hframes h₁ => ?_
  obtain rfl := hframes.framesWithin
  rw [h.kept.buffer]
  refine h₁.wp_enqueue ⟨rfl, rfl, ?_⟩ List.filter_sublist List.filter_sublist
    fun accepted s₂ h₂ => ?_
  · exact stamps_within (List.Sublist.refl _) (List.Sublist.refl _)
  split
  · refine h₂.wp (by simp [Quiet]) (by simp) fun _ s₃ h₃ => ?_
    refine h₃.wp (by simp [Quiet]) (by simp) fun _ s₄ h₄ => ?_
    exact h₄.wp (by simp [Quiet]) (by simp) fun _ s₅ h₅ => ⟨h₅, rfl⟩
  · exact ⟨h₂, rfl⟩

theorem captureWithPost_hands {task : CaptureTask}
    (hdirectory : task.directory = directory) (htime : task.eventTime = eventTime)
    (h : Ready base index s) :
    Prog.wp Ledgered (HandsOver (EarlyJob directory first eventTime false) base)
      (Answers (EarlyJob directory first eventTime false) base directory)
      (fun _ _ => False)
      (captureWithPost settings clock eventName task first
        (index.getDataWithinTimeRange first eventTime)) s := by
  subst hdirectory htime
  unfold captureWithPost
  refine h.wp (by simp [Quiet]) (by simp) fun reserved s₁ _ h₁ => ?_
  split
  · exact ⟨h₁.handsOver, rfl⟩
  refine h₁.wp (by simp [Quiet]) (by simp) fun active s₂ _ h₂ => ?_
  split
  · exact h₂.wp (by simp [Quiet]) (by simp) fun _ s₃ _ h₃ => ⟨h₃.handsOver, rfl⟩
  refine h₂.wp (by simp [Quiet]) (by simp) fun begun s₃ _ h₃ => ?_
  split
  · exact h₃.wp (by simp [Quiet]) (by simp) fun _ s₄ _ h₄ => ⟨h₄.handsOver, rfl⟩
  exact h₃.wp (by simp [Quiet]) (by simp) fun _ s₄ _ h₄ =>
    enqueuePreBatch_hands h₄

/-- The job a trigger of this state may hand over. -/
def TriggerJob (settings : Settings) (clock : Clock) (eventName : Text)
    (base : System) : Job → Prop :=
  EarlyJob (eventDirectoryName eventName base.nextCaptureId clock.systemNowNs)
    (eventTimeOf base clock - settings.preSeconds eventName * nanosPerSecond)
    (eventTimeOf base clock) (decide (settings.postSeconds eventName ≤ 0))

theorem recordDataAroundEventDetailed_hands (settings : Settings)
    (clock : Clock) (eventName : Text) (base : System) :
    Prog.wp Ledgered
      (HandsOver (TriggerJob settings clock eventName base) base)
      (Answers (TriggerJob settings clock eventName base) base
        (eventDirectoryName eventName base.nextCaptureId clock.systemNowNs))
      (fun _ _ => False)
      (recordDataAroundEventDetailed settings clock eventName) base := by
  intro _ s₁ hflush
  have h₁ : Ready base s₁.pairIndex s₁ :=
    ⟨hflush.kept, hflush.accepted (by simp [Quiet]), rfl⟩
  refine ⟨h₁.handsOver, ?_⟩
  refine h₁.wp (by simp [Quiet]) (by simp) fun sensorNow s₂ hlatest h₂ => ?_
  refine h₂.wp (by simp [Quiet]) (by simp) fun captureId s₃ htake h₃ => ?_
  have htime : sensorNow.getD clock.wallNow = eventTimeOf base clock := by
    rw [hlatest.latestSensorTimestamp, h₁.kept.buffer]
    rfl
  have hid : captureId = base.nextCaptureId := by
    rw [htake.takeCaptureId, hlatest.nextCaptureId (by simp),
      hflush.nextCaptureId (by simp)]
  subst hid
  dsimp only
  rw [htime]
  refine h₃.wp (by simp [Quiet]) (by simp) fun pairs s₄ hpairs h₄ => ?_
  obtain rfl := hpairs.pairsWithin
  rw [h₃.pairIndex]
  split
  · exact ⟨h₄.handsOver, rfl⟩
  split
  next hpost =>
    unfold TriggerJob
    rw [decide_eq_true hpost]
    exact captureImmediately_hands h₄
  next hpost =>
    unfold TriggerJob
    rw [decide_eq_false hpost]
    exact captureWithPost_hands rfl rfl h₄

end Trigger

/-! ### The scheduler -/

/-- A job of the window after the event of this task. -/
structure LateJob (task : CaptureTask) (job : Job) : Prop where
  directory : job.directory = task.directory
  final : job.finalJob = true
  stamps : ∀ stamp ∈ stampsOf job, task.eventTime < stamp ∧ stamp ≤ task.endTime

theorem storePostBatch_hands (settings : Settings) (task : CaptureTask)
    (base : System) :
    Prog.wp Ledgered (HandsOver (LateJob task) base)
      (fun _ => HandsOver (LateJob task) base) (fun _ _ => False)
      (storePostBatch settings task) base := by
  intro _ s₁ hflush
  have h₁ : Ready base s₁.pairIndex s₁ :=
    ⟨hflush.kept, hflush.accepted (by simp [Quiet]), rfl⟩
  refine ⟨h₁.handsOver, ?_⟩
  refine h₁.wp (by simp [Quiet]) (by simp) fun records s₂ hframes h₂ => ?_
  refine h₂.wp (by simp [Quiet]) (by simp) fun pairs s₃ hpairs h₃ => ?_
  obtain rfl := hframes.framesWithin
  obtain rfl := hpairs.pairsWithin
  rw [h₁.kept.buffer, h₂.pairIndex]
  refine h₃.wp_enqueue ⟨rfl, rfl, fun stamp hstamp => ?_⟩
    (List.filter_sublist.trans List.filter_sublist)
    (List.filter_sublist.trans List.filter_sublist) fun accepted s₄ h₄ => ?_
  · obtain ⟨hlower, hupper⟩ :=
      stamps_within List.filter_sublist List.filter_sublist stamp hstamp
    have hboundary : stamp ≠ task.eventTime := by
      rcases List.mem_append.mp hstamp with hframe | hpair
      · obtain ⟨frame, hmem, rfl⟩ := List.mem_map.mp hframe
        exact of_decide_eq_true (List.mem_filter.mp hmem).2
      · obtain ⟨pair, hmem, rfl⟩ := List.mem_map.mp hpair
        exact of_decide_eq_true (List.mem_filter.mp hmem).2
    omega
  split
  · exact h₄.wp (by simp [Quiet]) (by simp) fun _ s₅ h₅ => h₅
  · exact h₄

/-! ## What holds throughout -/

/-- `history` is everything that was ever in the ledger. -/
structure Sound (s : System) (history : List PairRecord) : Prop where
  remembers : s.pairIndex.Remembers history
  buffered : s.buffer.getAllData.Subperm s.arrivals
  selected : ∀ entry ∈ s.accepted, entry.job.records.Subperm s.arrivals ∧
    entry.job.pairs.Sublist history
  windows : ∀ capture ∈ s.captures,
    ∀ entry ∈ batchesOf s.accepted capture.directory, Windowed capture entry.job
  single : ∀ capture ∈ s.captures, capture.postSeconds ≤ 0 →
    (batchesOf s.accepted capture.directory).length ≤ 1
  spans : ∀ capture ∈ s.captures,
    0 ≤ capture.preSeconds ∧ 0 ≤ capture.postSeconds

theorem sound_initial (settings : Settings) (maxSize : Nat) (maxAge : Int)
    (maxBytes : Nat) : Sound (initial settings maxSize maxAge maxBytes) [] := by
  refine ⟨PairIndex.remembers_empty, List.nil_subperm, ?_, ?_, ?_, ?_⟩ <;>
    simp [initial]

theorem subperm_getAllData (buffer : DataBuffer) (data : SensorData) :
    (buffer.addData data).getAllData.Subperm (data :: buffer.getAllData) := by
  have hparts := (buffer.subperm_addData data .camera).append
    (buffer.subperm_addData data .lidar)
  refine hparts.trans ?_
  unfold DataBuffer.offered
  cases data with
  | camera timestamp image => exact List.Subperm.refl _
  | lidar timestamp cloud => exact List.perm_middle.subperm

theorem Sound.frame {s : System} {history : List PairRecord}
    (h : Sound s history) (data : SensorData) :
    Sound { s with
      buffer := s.buffer.addData data
      arrivals := s.arrivals ++ [data] } history := by
  have hgrown : ∀ {frames : List SensorData}, frames.Subperm s.arrivals →
      frames.Subperm (s.arrivals ++ [data]) := fun hframes =>
    hframes.trans (List.sublist_append_left _ _).subperm
  refine ⟨h.remembers, ?_, fun entry hentry => ?_, h.windows, h.single, h.spans⟩
  · refine (subperm_getAllData s.buffer data).trans ?_
    refine ((List.subperm_cons data).mpr h.buffered).trans ?_
    exact (List.perm_append_singleton data s.arrivals).symm.subperm
  · exact (h.selected entry hentry).imp_left hgrown

theorem Sound.ledger {s : System} {history : List PairRecord}
    (h : Sound s history) {pairIndex : PairIndex}
    (hgrows : s.pairIndex.Grows pairIndex) :
    ∃ history', Sound { s with pairIndex } history' := by
  obtain ⟨history', hbefore, hremembers⟩ := h.remembers.grows hgrows
  exact ⟨history', hremembers, h.buffered, fun entry hentry =>
    (h.selected entry hentry).imp_right (·.trans hbefore.sublist), h.windows,
    h.single, h.spans⟩

/-- One more job, which fits the capture whose directory it goes to. -/
theorem Sound.handOver {allowed : Job → Prop} {base s : System}
    {history : List PairRecord} (h : Sound base history)
    (hhands : HandsOver allowed base s)
    (hfits : ∀ job, allowed job → ∀ capture ∈ base.captures,
      capture.directory = job.directory →
        0 < capture.postSeconds ∧ Windowed capture job) :
    ∃ history', Sound s history' := by
  obtain ⟨history', hbefore, hremembers⟩ :=
    h.remembers.grows hhands.kept.ledger
  have hselected : ∀ entry ∈ base.accepted,
      entry.job.records.Subperm s.arrivals ∧
        entry.job.pairs.Sublist history' := by
    intro entry hentry
    rw [hhands.kept.arrivals]
    exact (h.selected entry hentry).imp_right (·.trans hbefore.sublist)
  have hbuffered : s.buffer.getAllData.Subperm s.arrivals := by
    rw [hhands.kept.buffer, hhands.kept.arrivals]
    exact h.buffered
  have hcaptures := hhands.kept.captures
  refine ⟨history', hremembers, hbuffered, ?_, ?_, ?_, hcaptures ▸ h.spans⟩
  all_goals rcases hhands.accepted with
    hsame | ⟨job, hallowed, hrecords, hpairs, hadded⟩
  · rw [hsame]
    exact hselected
  · rw [hadded]
    intro entry hentry
    rcases List.mem_append.mp hentry with hold | hnew
    · exact hselected entry hold
    · rw [List.mem_singleton.mp hnew, hhands.kept.arrivals]
      exact ⟨hrecords.subperm.trans h.buffered,
        hpairs.trans hremembers.kept.sublist⟩
  · rw [hsame, hcaptures]
    exact h.windows
  · rw [hadded, hcaptures]
    intro capture hcapture entry hentry
    by_cases hdirectory : capture.directory = job.directory
    · rw [batchesOf_append_self hdirectory.symm] at hentry
      rcases List.mem_append.mp hentry with hold | hnew
      · exact h.windows capture hcapture entry hold
      · rw [List.mem_singleton.mp hnew]
        exact (hfits job hallowed capture hcapture hdirectory).2
    · rw [batchesOf_append_ne (Ne.symm hdirectory)] at hentry
      exact h.windows capture hcapture entry hentry
  · rw [hsame, hcaptures]
    exact h.single
  · rw [hadded, hcaptures]
    intro capture hcapture hpost
    have hother : job.directory ≠ capture.directory := fun hdirectory => by
      have hfitted := hfits job hallowed capture hcapture hdirectory.symm
      omega
    rw [batchesOf_append_ne hother]
    exact h.single capture hcapture hpost

section Runs

variable {settings : Settings} {s s' : System} {history : List PairRecord}

/-- A trigger's directory is new, so its job disturbs no capture. -/
theorem Sound.triggering (h : Sound s history)
    (hsettled : Settled settings s.core) {clock : Clock} {eventName : Text}
    (hhands : HandsOver (TriggerJob settings clock eventName s) s s') :
    ∃ history', Sound s' history' := by
  have hunused := hsettled.unused eventName clock.systemNowNs
  refine h.handOver hhands fun job hjob capture hcapture hdirectory => ?_
  exact absurd (hdirectory.trans hjob.directory)
    (hunused.captures capture hcapture)

theorem Sound.logCapture (h : Sound s history)
    (hsettled : Settled settings s.core) {clock : Clock} {eventName : Text}
    {result : CaptureResult}
    (hanswers : Answers (TriggerJob settings clock eventName s) s
      (eventDirectoryName eventName s.nextCaptureId clock.systemNowNs) result
      s') :
    ∃ history', Sound (logCapture settings clock eventName s s' result)
      history' := by
  obtain ⟨hhands, hdirectory⟩ := hanswers
  obtain ⟨history', hsound⟩ := h.triggering hsettled hhands
  refine ⟨history', ?_⟩
  unfold Capture.logCapture
  split
  swap
  · exact hsound
  have hfresh : batchesOf s.accepted result.directory = [] := by
    rw [hdirectory]
    exact (hsettled.unused eventName clock.systemNowNs).accepted
  have hpre : 0 ≤ settings.preSeconds eventName := le_max_left _ _
  have hpost : 0 ≤ settings.postSeconds eventName := le_max_left _ _
  have hbatches : batchesOf s'.accepted result.directory = [] ∨
      ∃ job, TriggerJob settings clock eventName s job ∧
        batchesOf s'.accepted result.directory =
          [⟨job, s.buffer.getAllData⟩] := by
    rcases hhands.accepted with hsame | ⟨job, hjob, -, -, hadded⟩
    · exact .inl (by rw [hsame, hfresh])
    · refine .inr ⟨job, hjob, ?_⟩
      rw [hadded, batchesOf_append_self (hjob.directory.trans hdirectory.symm),
        hfresh, List.nil_append]
  refine ⟨hsound.remembers, hsound.buffered, hsound.selected,
    fun capture hcapture => ?_, fun capture hcapture hnone => ?_,
    fun capture hcapture => ?_⟩
  all_goals rcases List.mem_append.mp hcapture with hold | hnew
  · exact hsound.windows capture hold
  · rw [List.mem_singleton.mp hnew]
    intro entry hentry
    rcases hbatches with hempty | ⟨job, hjob, hone⟩
    · exact absurd (hempty ▸ hentry) List.not_mem_nil
    · rw [hone, List.mem_singleton] at hentry
      rw [hentry]
      refine ⟨fun _ => hjob.stamps, fun hfinal hlong => ?_⟩
      have hshort := of_decide_eq_true (hjob.final.symm.trans hfinal)
      exact absurd hlong (not_lt.mpr hshort)
  · exact hsound.single capture hold hnone
  · rw [List.mem_singleton.mp hnew]
    rcases hbatches with hempty | ⟨job, -, hone⟩
    · simp [hempty]
    · simp [hone]
  · exact hsound.spans capture hold
  · rw [List.mem_singleton.mp hnew]
    exact ⟨hpre, hpost⟩

/-- The task belongs to one of the captures. -/
def Belongs (captures : List AcceptedTrigger) (task : CaptureTask) : Prop :=
  ∃ capture ∈ captures, 0 < capture.postSeconds ∧
    capture.directory = task.directory ∧ capture.eventTime = task.eventTime ∧
    task.endTime = capture.eventTime + capture.postSeconds * nanosPerSecond

/-- The captures are these, and everything handed over is sound. -/
def SoundWith (captures : List AcceptedTrigger) (s : System) : Prop :=
  s.captures = captures ∧ ∃ history, Sound s history

theorem SoundWith.storing {captures : List AcceptedTrigger} {task : CaptureTask}
    (hunique : (captures.map AcceptedTrigger.directory).Nodup)
    (hbelongs : Belongs captures task) (h : SoundWith captures s)
    (hhands : HandsOver (LateJob task) s s') : SoundWith captures s' := by
  obtain ⟨hcaptures, history, hsound⟩ := h
  refine ⟨hhands.kept.captures.trans hcaptures, hsound.handOver hhands ?_⟩
  rw [hcaptures]
  intro job hjob capture hcapture hdirectory
  obtain ⟨owner, howner, hpost, hname, htime, hend⟩ := hbelongs
  obtain rfl : capture = owner := List.inj_on_of_nodup_map hunique hcapture
    howner (hdirectory.trans (hjob.directory.trans hname.symm))
  refine ⟨hpost, fun hearly => ?_, fun _ _ stamp hstamp => ?_⟩
  · rcases hearly with hfinal | hshort
    · rw [hjob.final] at hfinal
      cases hfinal
    · exact absurd hpost (not_lt.mpr hshort)
  · have hstamps := hjob.stamps stamp hstamp
    rwa [← htime, hend] at hstamps

theorem storePostBatches_sound {captures : List AcceptedTrigger}
    (hunique : (captures.map AcceptedTrigger.directory).Nodup) :
    ∀ {tasks : List CaptureTask} {s : System},
      (∀ task ∈ tasks, Belongs captures task) → SoundWith captures s →
      Prog.wp Ledgered (SoundWith captures) (fun _ => SoundWith captures)
        (fun _ _ => False) (storePostBatches settings tasks) s
  | [], _, _, h => h
  | task :: rest, s, hbelongs, h => by
      have hstoring : ∀ s', HandsOver (LateJob task) s s' →
          SoundWith captures s' := fun s' =>
        h.storing hunique (hbelongs task List.mem_cons_self)
      refine Prog.wp_bind (Prog.wp_mono hstoring ?_ (fun _ _ => id)
        (storePostBatch_hands settings task s))
      intro _ s' hhands
      exact storePostBatches_sound hunique
        (fun other hother => hbelongs other (List.mem_cons_of_mem _ hother))
        (hstoring s' hhands)

/-- Nothing but the captures in progress changes in a quiet step. -/
theorem SoundWith.quiet {captures : List AcceptedTrigger} {op : CaptureOp}
    {r : op.Res} (h : SoundWith captures s) (hquiet : Quiet op)
    (heffect : Ledgered s op r s') : SoundWith captures s' := by
  obtain ⟨hcaptures, history, hsound⟩ := h
  have hhands : HandsOver (fun _ => False) s s' :=
    ⟨heffect.kept, .inl (heffect.accepted hquiet)⟩
  exact ⟨heffect.kept.captures.trans hcaptures,
    hsound.handOver hhands fun _ hfalse => hfalse.elim⟩

theorem processExpiredCaptures_sound (h : Sound s history)
    (hsettled : Settled settings s.core) (clock : Clock) :
    Prog.wp Ledgered (SoundWith s.captures) (fun _ => SoundWith s.captures)
      (fun _ _ => False) (processExpiredCaptures settings clock) s := by
  have hstart : SoundWith s.captures s := ⟨rfl, history, h⟩
  intro sensorNow s₁ hlatest
  have h₁ := hstart.quiet (by simp [Quiet]) hlatest
  refine ⟨h₁, ?_⟩
  intro (expired : List CaptureTask) s₂ hharvest
  have h₂ := h₁.quiet (by simp [Quiet]) hharvest
  refine ⟨h₂, storePostBatches_sound hsettled.ok.unique (fun task htask => ?_) h₂⟩
  obtain ⟨⟨_, _, _, ⟨-, rfl⟩, rfl⟩, -⟩ := hlatest
  obtain ⟨⟨_, _, _, ⟨hperm, -⟩, -⟩, -⟩ := hharvest
  obtain ⟨key, hget⟩ := mem_expiredTasks (hperm.mem_iff.mp htask)
  obtain ⟨-, capture, hcapture, hpost, hdirectory, htime, hend, -⟩ :=
    hsettled.tasks key task hget
  exact ⟨capture, hcapture, hpost, hdirectory, htime, hend⟩

theorem Recorded.sound (h : Recorded settings s) :
    ∃ history, Sound s history := by
  induction h with
  | start maxSize maxAge maxBytes => exact ⟨[], sound_initial _ _ _ _⟩
  | frame data _ ih =>
      obtain ⟨history, hsound⟩ := ih
      exact ⟨history, hsound.frame data⟩
  | ledger _ hgrows ih =>
      obtain ⟨history, hsound⟩ := ih
      exact hsound.ledger hgrows
  | consume count _ ih =>
      obtain ⟨history, hsound⟩ := ih
      exact ⟨history, hsound.remembers, hsound.buffered, hsound.selected,
        hsound.windows, hsound.single, hsound.spans⟩
  | @trigger base s' result clock eventName hbase hexec ih =>
      obtain ⟨history, hsound⟩ := ih
      have hanswers := (Prog.wp_exec hexec ⟨.refl _, .inl rfl⟩
        (recordDataAroundEventDetailed_hands settings clock eventName base)).2
      exact hsound.logCapture hbase.reachable.settled.2 hanswers
  | scheduler clock hbase hexec ih =>
      obtain ⟨history, hsound⟩ := ih
      exact (Prog.wp_exec hexec ⟨rfl, history, hsound⟩
        (processExpiredCaptures_sound hsound hbase.reachable.settled.2
          clock)).1.2

theorem Recording.sound (h : Recording settings s) :
    ∃ history, Sound s history := by
  cases h with
  | between h => exact h.sound
  | trigger clock eventName h hexec =>
      obtain ⟨history, hsound⟩ := h.sound
      have hhands := (Prog.wp_exec hexec ⟨.refl _, .inl rfl⟩
        (recordDataAroundEventDetailed_hands settings clock eventName _)).1
      exact hsound.triggering h.reachable.settled.2 hhands
  | scheduler clock h hexec =>
      obtain ⟨history, hsound⟩ := h.sound
      exact (Prog.wp_exec hexec ⟨rfl, history, hsound⟩
        (processExpiredCaptures_sound hsound h.reachable.settled.2
          clock)).1.2

end Runs

/-! ## Nothing is recorded twice -/

theorem Windowed.within {capture : AcceptedTrigger} {job : Job}
    (h : Windowed capture job) (hpre : 0 ≤ capture.preSeconds)
    (hpost : 0 ≤ capture.postSeconds) :
    ∀ stamp ∈ stampsOf job,
      capture.eventTime - capture.preSeconds * nanosPerSecond ≤ stamp ∧
      stamp ≤ capture.eventTime + capture.postSeconds * nanosPerSecond := by
  have hbefore : 0 ≤ capture.preSeconds * nanosPerSecond :=
    mul_nonneg hpre (by decide)
  have hafter : 0 ≤ capture.postSeconds * nanosPerSecond :=
    mul_nonneg hpost (by decide)
  intro stamp hstamp
  by_cases hlate : job.finalJob = true ∧ 0 < capture.postSeconds
  · have hstamps := h.late hlate.1 hlate.2 stamp hstamp
    omega
  · have hearly : job.finalJob = false ∨ capture.postSeconds ≤ 0 := by
      rw [not_and_or, Bool.not_eq_true, not_lt] at hlate
      exact hlate
    have hstamps := h.early hearly stamp hstamp
    omega

/-- Parts of one list that a test tells apart fit into it together. -/
theorem subperm_append_of_test {α : Type} (test : α → Bool)
    {first second whole : List α} (hfirst : first.Subperm whole)
    (hsecond : second.Subperm whole) (hpasses : ∀ x ∈ first, test x = true)
    (hfails : ∀ x ∈ second, test x = false) :
    (first ++ second).Subperm whole := by
  have hkept := hfirst.filter test
  have hrest := hsecond.filter fun x => !test x
  rw [List.filter_eq_self.mpr hpasses] at hkept
  rw [List.filter_eq_self.mpr (by simpa using hfails)] at hrest
  exact (hkept.append hrest).trans (List.filter_append_perm test whole).subperm

theorem Sound.nodup_pairs {s : System} {history pairs : List PairRecord}
    (h : Sound s history) (hpairs : pairs.Sublist history) :
    (pairs.map PairRecord.pairId).Nodup :=
  h.remembers.unique.sublist (hpairs.map _)

/-- The two batches of a capture are on the two sides of the event. -/
theorem Sound.disjoint {s : System} {history : List PairRecord}
    (h : Sound s history) {capture : AcceptedTrigger}
    (hcapture : capture ∈ s.captures) (hseconds : 0 < capture.postSeconds)
    {pre post : HandedOver} (hpre : pre.job.finalJob = false)
    (hpost : post.job.finalJob = true)
    (hbatches : batchesOf s.accepted capture.directory = [pre, post]) :
    (pre.job.records ++ post.job.records).Subperm s.arrivals ∧
      ((pre.job.pairs ++ post.job.pairs).map PairRecord.pairId).Nodup := by
  have hmem : ∀ entry ∈ [pre, post], entry ∈ s.accepted ∧
      Windowed capture entry.job := by
    rw [← hbatches]
    exact fun entry hentry =>
      ⟨(List.mem_filter.mp hentry).1, h.windows capture hcapture entry hentry⟩
  obtain ⟨hpreMem, hpreWindow⟩ := hmem pre (by simp)
  obtain ⟨hpostMem, hpostWindow⟩ := hmem post (by simp)
  have hearly := hpreWindow.early (.inl hpre)
  have hlate := hpostWindow.late hpost hseconds
  obtain ⟨hpreRecords, hprePairs⟩ := h.selected pre hpreMem
  obtain ⟨hpostRecords, hpostPairs⟩ := h.selected post hpostMem
  constructor
  · refine subperm_append_of_test
      (fun frame => decide (timestampOf frame ≤ capture.eventTime)) hpreRecords
      hpostRecords (fun frame hframe => ?_) (fun frame hframe => ?_)
    · exact decide_eq_true (hearly _ (List.mem_append_left _
        (List.mem_map_of_mem hframe))).2
    · exact decide_eq_false (not_le.mpr (hlate _ (List.mem_append_left _
        (List.mem_map_of_mem hframe))).1)
  · rw [List.map_append, List.nodup_append]
    refine ⟨h.nodup_pairs hprePairs, h.nodup_pairs hpostPairs,
      fun id hid other hother heq => ?_⟩
    obtain ⟨first, hfirst, rfl⟩ := List.mem_map.mp hid
    obtain ⟨second, hsecond, rfl⟩ := List.mem_map.mp hother
    obtain rfl := h.remembers.eq_of_pairId (hprePairs.subset hfirst)
      (hpostPairs.subset hsecond) heq
    have hbefore := (hearly _ (List.mem_append_right _
      (List.mem_map_of_mem hfirst))).2
    have hafter := (hlate _ (List.mem_append_right _
      (List.mem_map_of_mem hsecond))).1
    omega

/-- At every moment of a run, whatever arrives and whatever else is captured. -/
theorem recordedOnce {settings : Settings} {s : System}
    (h : Recording settings s) {capture : AcceptedTrigger}
    (hcapture : capture ∈ s.captures) : RecordedOnce s capture := by
  obtain ⟨history, hsound⟩ := h.sound
  obtain ⟨hpre, hpost⟩ := hsound.spans capture hcapture
  have hsingle : ∀ entry, batchesOf s.accepted capture.directory = [entry] →
      entry.job.records.Subperm s.arrivals ∧
        (entry.job.pairs.map PairRecord.pairId).Nodup := by
    intro entry hbatches
    have hmem : entry ∈ batchesOf s.accepted capture.directory := by
      simp [hbatches]
    obtain ⟨hrecords, hpairs⟩ :=
      hsound.selected entry (List.mem_filter.mp hmem).1
    exact ⟨hrecords, hsound.nodup_pairs hpairs⟩
  have honce : ((batchesOf s.accepted capture.directory).flatMap
        fun entry => entry.job.records).Subperm s.arrivals ∧
      (((batchesOf s.accepted capture.directory).flatMap
        fun entry => entry.job.pairs).map PairRecord.pairId).Nodup := by
    by_cases hseconds : 0 < capture.postSeconds
    · rcases h.midway.inv.2.delivered capture hcapture hseconds with
        ⟨pre, -, hbatches⟩ | ⟨pre, post, hfirst, hlast, hbatches⟩
      · have hone := hsingle pre hbatches
        change batchesOf s.accepted _ = _ at hbatches
        simpa [hbatches] using hone
      · have hboth := hsound.disjoint hcapture hseconds hfirst.notFinal
          hlast.final hbatches
        change batchesOf s.accepted _ = _ at hbatches
        simpa [hbatches] using hboth
    · have hfew := hsound.single capture hcapture (not_lt.mp hseconds)
      cases hbatches : batchesOf s.accepted capture.directory with
      | nil => simp
      | cons entry rest =>
          rw [hbatches, List.length_cons] at hfew
          obtain rfl : rest = [] := List.length_eq_zero_iff.mp (by omega)
          simpa using hsingle entry hbatches
  exact ⟨fun entry hentry => (hsound.windows capture hcapture entry
    hentry).within hpre hpost, honce.1, honce.2⟩

theorem ledgered_respond (s : System) (op : CaptureOp) :
    Ledgered s op (s.respond op).1 (s.respond op).2 := by
  refine ⟨interleaved_respond s op, ?_⟩
  have hsame : (s.respond op).2.pairIndex = s.pairIndex := by
    by_cases hflush : op = .flushPendingPairs
    · subst hflush
      rfl
    · exact (performs_respond s op).pairIndex hflush
  rw [hsame]

theorem Recorded.respondTrigger {settings : Settings} {s : System}
    (h : Recorded settings s) (clock : Clock) (eventName : Text) :
    Recorded settings (s.trigger settings clock eventName) := by
  have hexec := Prog.exec_runWith ledgered_respond
    (recordDataAroundEventDetailed settings clock eventName) s
  unfold System.trigger
  cases hrun : Prog.runWith System.respond
      (recordDataAroundEventDetailed settings clock eventName) s with
  | mk outcome s' =>
      rw [hrun] at hexec
      cases outcome with
      | ok result => exact .trigger clock eventName h hexec
      | error error => exact error.elim

theorem Recorded.respondSchedule {settings : Settings} {s : System}
    (h : Recorded settings s) (clock : Clock) :
    Recorded settings (s.schedule settings clock) := by
  have hexec := Prog.exec_runWith ledgered_respond
    (processExpiredCaptures settings clock) s
  unfold System.schedule
  cases hrun : Prog.runWith System.respond
      (processExpiredCaptures settings clock) s with
  | mk outcome s' =>
      rw [hrun] at hexec
      cases outcome with
      | ok value => exact .scheduler clock h hexec
      | error error => exact error.elim

/-- A frame and a pair with the stamp of the event, before and after the trigger. -/
def boundaryRun : System :=
  let pair : PairIndex → PairIndex := fun index =>
    index.addMatched (10 * nanosPerSecond) (9 * nanosPerSecond) nanosPerSecond
  let before := (initial sampleSettings 100 0 0).arrive (cameraFrame 10)
  let triggered := System.trigger sampleSettings sampleClock "brake"
    { before with pairIndex := pair before.pairIndex }
  let after := (triggered.arrive (cameraFrame 10)).arrive (cameraFrame 16)
  System.schedule sampleSettings sampleClock
    { after with pairIndex := pair after.pairIndex }

theorem recorded_boundaryRun : Recorded sampleSettings boundaryRun :=
  .respondSchedule (.ledger (.frame _ (.frame _ (.respondTrigger
    (.ledger (.frame _ (.start 100 0 0)) (.single (.matched _ _ _))) _ _)))
    (.single (.matched _ _ _))) _

theorem recordedOnce_boundaryRun :
    (batchesOf boundaryRun.accepted laggingCapture.directory).length = 2 ∧
      RecordedOnce boundaryRun laggingCapture :=
  ⟨by decide +kernel,
    recordedOnce (.between recorded_boundaryRun) (by decide +kernel)⟩

end DataCache.Capture
