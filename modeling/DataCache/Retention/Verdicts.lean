import DataCache.Capture.Batches
import DataCache.Foundation.Rely

/-!
# One verdict for each directory

Every capture names a directory of its own.  Its callbacks begin it, and either
fail it or hand over one final job for it, never both; so a directory gets one
verdict at most, from the callbacks or from the storage worker.
-/

namespace DataCache.Retention

open DataCache.Foundation DataCache.Capture

/-! ## The ledger -/

/-- The directories named by triggers, and those the callbacks have failed. -/
structure Ledger where
  monitor : System
  named : List Text
  refused : List Text

/-- The directories of the final jobs handed over so far. -/
def finals (monitor : System) : List Text :=
  ((monitor.consumed ++ monitor.storage.jobs).filter Job.finalJob).map
    Job.directory

/-- Named, and without a verdict or a final job. -/
structure Open (s : Ledger) (directory : Text) : Prop where
  named : directory ∈ s.named
  unfinished : directory ∉ finals s.monitor
  unrefused : directory ∉ s.refused

def logRefused (refused : List Text) : CaptureOp → List Text
  | .failEvent directory _ => refused ++ [directory]
  | _ => refused

def Recording : Prog.Effect CaptureOp.Res Ledger := fun s op r s' =>
  Performs s.monitor op r s'.monitor ∧ s'.named = s.named ∧
    s'.refused = logRefused s.refused op

/-- The storage worker takes jobs off the queue. -/
def Pops (s s' : Ledger) : Prop :=
  ∃ count, s' = { s with monitor := s.monitor.pop count }

/-- Markers and final jobs are only for open directories. -/
def ForOpen (s : Ledger) : CaptureOp → Prop
  | .beginEvent directory _ _ => Open s directory
  | .failEvent directory _ => Open s directory
  | .enqueue job _ => job.finalJob = true → Open s job.directory
  | _ => True

theorem finals_pop (monitor : System) (count : Nat) :
    finals (monitor.pop count) = finals monitor := by
  simp only [finals, System.pop, List.append_assoc, List.take_append_drop]

theorem Pops.refl (s : Ledger) : Pops s s :=
  ⟨0, by rw [System.pop_zero]⟩

theorem Pops.trans (s s' s'' : Ledger) (h : Pops s s') (h' : Pops s' s'') :
    Pops s s'' := by
  obtain ⟨count, rfl⟩ := h
  obtain ⟨count', rfl⟩ := h'
  refine ⟨count + count', ?_⟩
  simp only [System.pop, List.drop_drop, List.append_assoc, List.take_add]

/-! ## What a callback holds -/

/-- The active captures are open, and the names so far are of earlier captures. -/
structure Ready (s : Ledger) : Prop where
  tasks : ∀ key task, s.monitor.activeCaptures.get? key = some task →
    key = filename task.directory ∧ Open s task.directory
  below : ∀ directory ∈ s.named,
    NamedBelow s.monitor.nextCaptureId directory

/-- Open, and not waiting for a final job of its own. -/
structure Free (s : Ledger) (directory : Text) : Prop where
  isOpen : Open s directory
  inactive : ∀ key task, s.monitor.activeCaptures.get? key = some task →
    task.directory ≠ directory

/-- The callback holds some directories, and knows that others are open. -/
structure Holding (held lent : List Text) (s : Ledger) : Prop where
  ready : Ready s
  nodup : held.Nodup
  free : ∀ directory ∈ held, Free s directory
  isOpen : ∀ directory ∈ lent, Open s directory

/-- Operations that hand over and settle nothing. -/
def Quiet : CaptureOp → Prop
  | .enqueue job _ => job.finalJob = false
  | .takeCaptureId => False
  | .emplaceCapture _ => False
  | .eraseCapture _ => False
  | .harvestExpired _ _ => False
  | .failEvent _ _ => False
  | _ => True

/-- What the predicates above depend on. -/
structure Alike (s s' : Ledger) : Prop where
  active : s'.monitor.activeCaptures = s.monitor.activeCaptures
  nextId : s'.monitor.nextCaptureId = s.monitor.nextCaptureId
  finals : finals s'.monitor = finals s.monitor
  named : s'.named = s.named
  refused : s'.refused = s.refused

theorem Pops.alike {s s' : Ledger} (h : Pops s s') : Alike s s' := by
  obtain ⟨count, rfl⟩ := h
  exact ⟨rfl, rfl, finals_pop _ _, rfl, rfl⟩

section Alike

variable {s s' : Ledger}

theorem Open.alike {directory : Text} (h : Open s directory)
    (halike : Alike s s') : Open s' directory :=
  ⟨halike.named ▸ h.named, halike.finals ▸ h.unfinished,
    halike.refused ▸ h.unrefused⟩

theorem Ready.alike (h : Ready s) (halike : Alike s s') : Ready s' := by
  refine ⟨fun key task hget => ?_, ?_⟩
  · rw [halike.active] at hget
    obtain ⟨hkey, hopen⟩ := h.tasks key task hget
    exact ⟨hkey, hopen.alike halike⟩
  · rw [halike.named, halike.nextId]
    exact h.below

theorem Free.alike {directory : Text} (h : Free s directory)
    (halike : Alike s s') : Free s' directory := by
  refine ⟨h.isOpen.alike halike, ?_⟩
  rw [halike.active]
  exact h.inactive

theorem Holding.alike {held lent : List Text} (h : Holding held lent s)
    (halike : Alike s s') : Holding held lent s' :=
  ⟨h.ready.alike halike, h.nodup,
    fun directory hmem => (h.free directory hmem).alike halike,
    fun directory hmem => (h.isOpen directory hmem).alike halike⟩

end Alike

/-- An accepted job joins the queue; a refused one leaves no trace there. -/
theorem enqueue_cases (monitor : System) (job : Job) (reserved : Bool) :
    (monitor.enqueue job reserved).2.activeCaptures = monitor.activeCaptures ∧
    (monitor.enqueue job reserved).2.nextCaptureId = monitor.nextCaptureId ∧
    ((monitor.enqueue job reserved).1 = true ∧
        finals (monitor.enqueue job reserved).2 = finals monitor ++
          (if job.finalJob then [job.directory] else []) ∨
      (monitor.enqueue job reserved).1 = false ∧
        finals (monitor.enqueue job reserved).2 = finals monitor) := by
  unfold System.enqueue StorageQueue.enqueue
  dsimp only
  by_cases hfull : (monitor.storage.stopping ||
      (!reserved && monitor.storage.full)) = true
  · rw [if_pos hfull]
    exact ⟨rfl, rfl, .inr ⟨rfl, rfl⟩⟩
  · rw [if_neg hfull]
    refine ⟨rfl, rfl, .inl ⟨rfl, ?_⟩⟩
    simp only [finals, ← List.append_assoc]
    cases hfinal : job.finalJob <;> simp [List.filter_append, hfinal]

theorem Recording.alike {s s' : Ledger} {op : CaptureOp} {r : op.Res}
    (h : Recording s op r s') (hquiet : Quiet op) : Alike s s' := by
  obtain ⟨hperforms, hnamed, hrefused⟩ := h
  have hsame : s'.monitor = s.monitor → s'.refused = s.refused → Alike s s' := by
    intro hmonitor hrefused
    exact ⟨by rw [hmonitor], by rw [hmonitor], by rw [hmonitor], hnamed, hrefused⟩
  cases op with
  | enqueue job reserved =>
      obtain ⟨-, hmonitor⟩ := hperforms
      obtain ⟨hactive, hnext, hfinals⟩ := enqueue_cases s.monitor job reserved
      have hplain : job.finalJob = false := hquiet
      rw [hplain] at hfinals
      refine ⟨by rw [hmonitor, hactive], by rw [hmonitor, hnext], ?_, hnamed,
        hrefused⟩
      rw [hmonitor]
      rcases hfinals with ⟨-, hfinals⟩ | ⟨-, hfinals⟩
      · simpa using hfinals
      · exact hfinals
  | flushPendingPairs =>
      obtain ⟨pairIndex, hmonitor⟩ := hperforms
      exact ⟨by rw [hmonitor], by rw [hmonitor], by rw [hmonitor]; rfl, hnamed,
        hrefused⟩
  | reserve =>
      obtain ⟨-, hmonitor⟩ := hperforms
      refine ⟨by rw [hmonitor], by rw [hmonitor], ?_, hnamed, hrefused⟩
      rw [hmonitor]
      unfold finals StorageQueue.reserve
      dsimp only
      split <;> rfl
  | releaseReservation =>
      have hmonitor : s'.monitor = { s.monitor with
          storage := s.monitor.storage.releaseReservation } := hperforms
      exact ⟨by rw [hmonitor], by rw [hmonitor], by rw [hmonitor]; rfl, hnamed,
        hrefused⟩
  | beginEvent directory eventName acceptedAtNs => exact hsame hperforms hrefused
  | takeCaptureId => exact absurd hquiet id
  | emplaceCapture task => exact absurd hquiet id
  | eraseCapture taskId => exact absurd hquiet id
  | harvestExpired sensorNow steadyNow => exact absurd hquiet id
  | failEvent directory reason => exact absurd hquiet id
  | latestSensorTimestamp => exact hsame hperforms.2 hrefused
  | framesWithin first last => exact hsame hperforms.2 hrefused
  | pairsWithin first last => exact hsame hperforms.2 hrefused
  | activeCaptures => exact hsame hperforms.2 hrefused

/-! ## Rules for the operations -/

/-- From any state with `before`, the program respects `ForOpen` and ends ready. -/
def Settles {α : Type} (before : Ledger → Prop) (p : Callback α) : Prop :=
  ∀ s, before s → Prog.Safe Recording Pops ForOpen (fun _ => Ready) p s

section Rules

variable {α : Type} {held lent : List Text} {directory : Text}

theorem Settles.ret (value : α) :
    Settles (Holding held lent) (.ret value : Callback α) :=
  fun _ h _ hpops => h.ready.alike hpops.alike

theorem Settles.call {op : CaptureOp} {next : op.Res → Callback α}
    (hopen : ∀ s, Holding held lent s → ForOpen s op)
    (h : ∀ s r s', Holding held lent s → Recording s op r s' →
      Prog.Safe Recording Pops ForOpen (fun _ => Ready) (next r) s') :
    Settles (Holding held lent) (.call op next) := fun s hs s' hpops => by
  have hs' := hs.alike hpops.alike
  exact ⟨hopen s' hs', fun r s'' heffect => h s' r s'' hs' heffect⟩

theorem Settles.quiet {op : CaptureOp} {next : op.Res → Callback α}
    (hquiet : Quiet op) (hopen : ∀ s, Holding held lent s → ForOpen s op)
    (h : ∀ r, Settles (Holding held lent) (next r)) :
    Settles (Holding held lent) (.call op next) :=
  .call hopen fun _ r s' hs heffect =>
    h r s' (hs.alike (heffect.alike hquiet))

/-- Another directory stays open when this one is settled. -/
theorem Free.settled {s s' : Ledger} {other : Text} (h : Free s other)
    (hne : directory ≠ other)
    (hactive : s'.monitor.activeCaptures = s.monitor.activeCaptures)
    (hnamed : s'.named = s.named)
    (hfinals : ∀ name ∈ finals s'.monitor,
      name ∈ finals s.monitor ∨ name = directory)
    (hrefused : ∀ name ∈ s'.refused, name ∈ s.refused ∨ name = directory) :
    Free s' other := by
  refine ⟨⟨hnamed ▸ h.isOpen.named, fun hmem => ?_, fun hmem => ?_⟩, ?_⟩
  · rcases hfinals _ hmem with hold | rfl
    · exact h.isOpen.unfinished hold
    · exact hne rfl
  · rcases hrefused _ hmem with hold | rfl
    · exact h.isOpen.unrefused hold
    · exact hne rfl
  · rw [hactive]
    exact h.inactive

/-- The callback settles a directory it holds, by a final job or a failure. -/
theorem Holding.settle {s s' : Ledger} (h : Holding (directory :: held) [] s)
    (hactive : s'.monitor.activeCaptures = s.monitor.activeCaptures)
    (hnext : s'.monitor.nextCaptureId = s.monitor.nextCaptureId)
    (hnamed : s'.named = s.named)
    (hfinals : ∀ name ∈ finals s'.monitor,
      name ∈ finals s.monitor ∨ name = directory)
    (hrefused : ∀ name ∈ s'.refused, name ∈ s.refused ∨ name = directory) :
    Holding held [] s' := by
  obtain ⟨hnotMem, hnodup⟩ := List.nodup_cons.mp h.nodup
  have hinactive := (h.free directory List.mem_cons_self).inactive
  refine ⟨⟨fun key task hget => ?_, ?_⟩, hnodup, fun other hother => ?_, nofun⟩
  · rw [hactive] at hget
    obtain ⟨hkey, hopen⟩ := h.ready.tasks key task hget
    refine ⟨hkey, hnamed ▸ hopen.named, fun hmem => ?_, fun hmem => ?_⟩
    · rcases hfinals _ hmem with hold | heq
      · exact hopen.unfinished hold
      · exact hinactive key task hget heq
    · rcases hrefused _ hmem with hold | heq
      · exact hopen.unrefused hold
      · exact hinactive key task hget heq
  · rw [hnamed, hnext]
    exact h.ready.below
  · refine (h.free other (List.mem_cons_of_mem _ hother)).settled ?_ hactive
      hnamed hfinals hrefused
    rintro rfl
    exact hnotMem hother

theorem Settles.final {job : Job} {reserved : Bool}
    {next : Bool → Callback α} (hdirectory : job.directory = directory)
    (haccepted : Settles (Holding held []) (next true))
    (hrefused : Settles (Holding (directory :: held) []) (next false)) :
    Settles (Holding (directory :: held) [])
      (.call (.enqueue job reserved) next) := by
  refine .call (fun s hs _ => ?_) fun s r s' hs heffect => ?_
  · rw [hdirectory]
    exact (hs.free directory List.mem_cons_self).isOpen
  · obtain ⟨⟨hr, hmonitor⟩, hnamed, hrefused'⟩ := heffect
    obtain ⟨hactive, hnext, ⟨htrue, hfinals⟩ | ⟨hfalse, hfinals⟩⟩ :=
      enqueue_cases s.monitor job reserved
    · rw [htrue] at hr
      cases hr
      refine haccepted s' (hs.settle (by rw [hmonitor, hactive])
        (by rw [hmonitor, hnext]) hnamed (fun name hmem => ?_)
        fun name hmem => ?_)
      · rw [hmonitor, hfinals, hdirectory] at hmem
        rcases List.mem_append.mp hmem with hold | hnew
        · exact .inl hold
        · split at hnew
          · exact .inr (List.mem_singleton.mp hnew)
          · cases hnew
      · rw [hrefused'] at hmem
        exact .inl hmem
    · rw [hfalse] at hr
      cases hr
      exact hrefused s' (hs.alike ⟨by rw [hmonitor, hactive],
        by rw [hmonitor, hnext], by rw [hmonitor, hfinals], hnamed, hrefused'⟩)

theorem Settles.fail {reason : Text} {next : Bool → Callback α}
    (h : ∀ r, Settles (Holding held []) (next r)) :
    Settles (Holding (directory :: held) [])
      (.call (.failEvent directory reason) next) := by
  refine .call (fun s hs => (hs.free directory List.mem_cons_self).isOpen)
    fun s r s' hs heffect => ?_
  obtain ⟨hmonitor, hnamed, hrefused⟩ := heffect
  have hsame : s'.monitor = s.monitor := hmonitor
  refine h r s' (hs.settle (by rw [hsame]) (by rw [hsame]) hnamed
    (fun name hmem => .inl (hsame ▸ hmem)) fun name hmem => ?_)
  rw [hrefused] at hmem
  exact (List.mem_append.mp hmem).imp id List.mem_singleton.mp

/-- The table takes over; where the id is already in it, nothing changes. -/
theorem Settles.emplace {task : CaptureTask} {next : Unit → Callback α}
    (hkey : task.taskId = filename task.directory)
    (h : Settles (Holding [] [task.directory]) (next ())) :
    Settles (Holding [task.directory] []) (.call (.emplaceCapture task) next) := by
  refine .call (fun _ _ => trivial) fun s r s' hs heffect => ?_
  obtain ⟨hmonitor, hnamed, hrefused⟩ := heffect
  have hfree := hs.free task.directory List.mem_cons_self
  have hfinals : finals s'.monitor = finals s.monitor := by
    rw [hmonitor, System.emplaceCapture]
    split <;> rfl
  have hsame : ∀ {name}, Open s name → Open s' name := fun hopen =>
    ⟨hnamed ▸ hopen.named, hfinals ▸ hopen.unfinished,
      hrefused ▸ hopen.unrefused⟩
  refine h s' ⟨⟨fun key found hget => ?_, ?_⟩, List.nodup_nil,
    fun _ hnone => absurd hnone List.not_mem_nil, fun name hname => ?_⟩
  · rw [hmonitor, System.emplaceCapture] at hget
    split at hget
    · obtain ⟨hfound, hopen⟩ := hs.ready.tasks key found hget
      exact ⟨hfound, hsame hopen⟩
    · change (s.monitor.activeCaptures.set _ _).get? key = some found at hget
      rw [Dict.get?_set] at hget
      split at hget
      next heq =>
        cases hget
        exact ⟨heq ▸ hkey, hsame hfree.isOpen⟩
      · obtain ⟨hfound, hopen⟩ := hs.ready.tasks key found hget
        exact ⟨hfound, hsame hopen⟩
  · have hnext : s'.monitor.nextCaptureId = s.monitor.nextCaptureId := by
      rw [hmonitor, System.emplaceCapture]
      split <;> rfl
    rw [hnamed, hnext]
    exact hs.ready.below
  · rw [List.mem_singleton.mp hname]
    exact hsame hfree.isOpen

/-- Off the table the directory is the callback's again. -/
theorem Settles.erase {next : Unit → Callback α}
    (h : Settles (Holding [directory] []) (next ())) :
    Settles (Holding [] [directory])
      (.call (.eraseCapture (filename directory)) next) := by
  refine .call (fun _ _ => trivial) fun s r s' hs heffect => ?_
  obtain ⟨hmonitor, hnamed, hrefused⟩ := heffect
  have herased : s'.monitor = { s.monitor with
      activeCaptures := s.monitor.activeCaptures.erase (filename directory) } :=
    hmonitor
  have hfinals : finals s'.monitor = finals s.monitor := by
    rw [herased]
    rfl
  have hsame : ∀ {name}, Open s name → Open s' name := fun hopen =>
    ⟨hnamed ▸ hopen.named, hfinals ▸ hopen.unfinished,
      hrefused ▸ hopen.unrefused⟩
  have hkept : ∀ key task, s'.monitor.activeCaptures.get? key = some task →
      key ≠ filename directory ∧
        s.monitor.activeCaptures.get? key = some task := by
    intro key task hget
    rw [herased, Dict.get?_erase] at hget
    split at hget
    · cases hget
    next hne => exact ⟨Ne.symm hne, hget⟩
  refine h s' ⟨⟨fun key task hget => ?_, ?_⟩, List.nodup_singleton _,
    fun name hname => ?_, nofun⟩
  · obtain ⟨hkey, hopen⟩ := hs.ready.tasks key task (hkept key task hget).2
    exact ⟨hkey, hsame hopen⟩
  · rw [hnamed, herased]
    exact hs.ready.below
  · rw [List.mem_singleton.mp hname]
    refine ⟨hsame (hs.isOpen directory List.mem_cons_self),
      fun key task hget heq => ?_⟩
    obtain ⟨hne, hold⟩ := hkept key task hget
    exact hne (heq ▸ (hs.ready.tasks key task hold).1)

end Rules

/-! ## The trigger -/

/-- The trigger's capture is named, but its id is not taken yet. -/
structure Starting (eventName : Text) (systemNowNs : Int) (s : Ledger) :
    Prop where
  tasks : ∀ key task, s.monitor.activeCaptures.get? key = some task →
    key = filename task.directory ∧ Open s task.directory
  below : ∀ directory ∈ s.named,
    NamedBelow s.monitor.nextCaptureId directory ∨ directory =
      eventDirectoryName eventName s.monitor.nextCaptureId systemNowNs
  free : Free s
    (eventDirectoryName eventName s.monitor.nextCaptureId systemNowNs)

theorem Starting.alike {eventName : Text} {systemNowNs : Int} {s s' : Ledger}
    (h : Starting eventName systemNowNs s) (halike : Alike s s') :
    Starting eventName systemNowNs s' := by
  refine ⟨fun key task hget => ?_, ?_, ?_⟩
  · rw [halike.active] at hget
    obtain ⟨hkey, hopen⟩ := h.tasks key task hget
    exact ⟨hkey, hopen.alike halike⟩
  · rw [halike.named, halike.nextId]
    exact h.below
  · rw [halike.nextId]
    exact h.free.alike halike

section Trigger

variable {α : Type} {eventName : Text} {systemNowNs : Int}

theorem Settles.quietStart {op : CaptureOp} {next : op.Res → Callback α}
    (hquiet : Quiet op) (hopen : ∀ s, ForOpen s op)
    (h : ∀ r, Settles (Starting eventName systemNowNs) (next r)) :
    Settles (Starting eventName systemNowNs) (.call op next) :=
  fun _ hs s' hpops => ⟨hopen s', fun r s'' heffect =>
    h r s'' ((hs.alike hpops.alike).alike (heffect.alike hquiet))⟩

theorem Settles.takeId {next : Nat → Callback α}
    (h : ∀ id, Settles
      (Holding [eventDirectoryName eventName id systemNowNs] []) (next id)) :
    Settles (Starting eventName systemNowNs) (.call .takeCaptureId next) := by
  intro s hs s' hpops
  refine ⟨trivial, fun r s'' heffect => ?_⟩
  have hstart := hs.alike hpops.alike
  obtain ⟨⟨rfl, hmonitor⟩, hnamed, hrefused⟩ := heffect
  have hsame : ∀ {name}, Open s' name → Open s'' name := fun hopen =>
    ⟨hnamed ▸ hopen.named, by rw [hmonitor]; exact hopen.unfinished,
      hrefused ▸ hopen.unrefused⟩
  refine h _ s'' ⟨⟨fun key task hget => ?_, fun directory hmem => ?_⟩,
    List.nodup_singleton _, fun directory hmem => ?_, nofun⟩
  · rw [hmonitor] at hget
    obtain ⟨hkey, hopen⟩ := hstart.tasks key task hget
    exact ⟨hkey, hsame hopen⟩
  · rw [hnamed] at hmem
    rw [hmonitor]
    rcases hstart.below directory hmem with hold | rfl
    · exact hold.mono (Nat.le_succ _)
    · exact ⟨_, _, _, Nat.lt_succ_self _, rfl⟩
  · rw [List.mem_singleton.mp hmem]
    refine ⟨hsame hstart.free.isOpen, ?_⟩
    rw [hmonitor]
    exact hstart.free.inactive

variable {held lent : List Text}

theorem Settles.begin {directory : Text} {next : Bool → Callback α}
    {acceptedAtNs : Int}
    (h : ∀ r, Settles (Holding (directory :: held) lent) (next r)) :
    Settles (Holding (directory :: held) lent)
      (.call (.beginEvent directory eventName acceptedAtNs) next) :=
  .quiet trivial (fun _ hs => (hs.free directory List.mem_cons_self).isOpen) h

theorem captureImmediately_settles (settings : Settings) (clock : Clock)
    (directory : Text) (startTime eventTime : Int) (pairs : List PairRecord) :
    Settles (Holding [directory] [])
      (captureImmediately settings clock eventName directory startTime eventTime
        pairs) := by
  unfold captureImmediately
  refine .quiet trivial (fun _ _ => trivial) fun reserved => ?_
  cases reserved with
  | false => exact .ret _
  | true =>
      refine .begin fun begun => ?_
      cases begun with
      | false => exact .quiet trivial (fun _ _ => trivial) fun _ => .ret _
      | true =>
          refine .quiet trivial (fun _ _ => trivial) fun records => ?_
          refine .final rfl (.ret _) ?_
          exact .fail fun _ => .ret _

theorem captureWithPost_settles (settings : Settings) (clock : Clock)
    (directory : Text) (eventTime startTime : Int) (pairs : List PairRecord) :
    Settles (Holding [directory] [])
      (captureWithPost settings clock eventName
        (makeTask settings clock eventName directory eventTime) startTime
        pairs) := by
  unfold captureWithPost
  refine .quiet trivial (fun _ _ => trivial) fun reserved => ?_
  cases reserved with
  | false => exact .ret _
  | true =>
      refine .quiet trivial (fun _ _ => trivial) fun active => ?_
      change Settles _ (@ite _ _ (Nat.decLe _ _) _ _)
      split
      · exact .quiet trivial (fun _ _ => trivial) fun _ => .ret _
      · refine .begin fun begun => ?_
        cases begun with
        | false => exact .quiet trivial (fun _ _ => trivial) fun _ => .ret _
        | true =>
            refine @Settles.emplace _
              (makeTask settings clock eventName directory eventTime) _ rfl ?_
            refine .quiet trivial (fun _ _ => trivial) fun records => ?_
            refine .quiet rfl (fun _ _ hfinal => nomatch hfinal)
              fun accepted => ?_
            cases accepted with
            | true => exact .ret _
            | false =>
                refine .erase (.quiet trivial (fun _ _ => trivial) fun _ => ?_)
                exact .fail fun _ => .ret _

theorem recordDataAroundEventDetailed_settles (settings : Settings)
    (clock : Clock) :
    Settles (Starting eventName clock.systemNowNs)
      (recordDataAroundEventDetailed settings clock eventName) := by
  unfold recordDataAroundEventDetailed
  refine .quietStart trivial (fun _ => trivial) fun _ =>
    .quietStart trivial (fun _ => trivial) fun sensorNow => .takeId fun id => ?_
  refine .quiet trivial (fun _ _ => trivial) fun pairs => ?_
  change Settles _ (ite _ _ _)
  split
  · exact .ret _
  · split
    · exact captureImmediately_settles _ _ _ _ _ _
    · exact captureWithPost_settles _ _ _ _ _ _

end Trigger

/-! ## The scheduler -/

theorem Settles.harvest {α : Type} {sensorNow : Option Int} {steadyNow : Int}
    {next : List CaptureTask → Callback α}
    (h : ∀ tasks, Settles (Holding (tasks.map CaptureTask.directory) [])
      (next tasks)) :
    Settles (Holding [] []) (.call (.harvestExpired sensorNow steadyNow) next) := by
  refine .call (fun _ _ => trivial)
    fun s (r : List CaptureTask) s' hs heffect => ?_
  obtain ⟨⟨hperm, hmonitor⟩, hnamed, hrefused⟩ := heffect
  let expiredKey := s.monitor.expiredKey sensorNow steadyNow
  have hsame : ∀ {name}, Open s name → Open s' name := fun hopen =>
    ⟨hnamed ▸ hopen.named, by rw [hmonitor]; exact hopen.unfinished,
      hrefused ▸ hopen.unrefused⟩
  have hkept : ∀ key task, s'.monitor.activeCaptures.get? key = some task →
      expiredKey key = false ∧
        s.monitor.activeCaptures.get? key = some task := by
    intro key task hget
    rw [hmonitor, Dict.get?_filterKeys] at hget
    split at hget
    next hkey => exact ⟨by simpa using hkey, hget⟩
    · cases hget
  have hexpired : ∀ task ∈ r, ∃ key,
      expiredKey key = true ∧
        s.monitor.activeCaptures.get? key = some task := by
    intro task htask
    obtain ⟨⟨key, found⟩, hmem, rfl⟩ := List.mem_map.mp (hperm.mem_iff.mp htask)
    have hget := (Dict.mem_entries_iff _).mp hmem
    rw [Dict.get?_filterKeys] at hget
    split at hget
    next hkey => exact ⟨key, hkey, hget⟩
    · cases hget
  refine h r s' ⟨⟨fun key task hget => ?_, ?_⟩, ?_, fun directory hmem => ?_,
    nofun⟩
  · obtain ⟨hkey, hopen⟩ := hs.ready.tasks key task (hkept key task hget).2
    exact ⟨hkey, hsame hopen⟩
  · rw [hnamed, hmonitor]
    exact hs.ready.below
  · -- Keys are the file names of the directories, and keys differ.
    have hkeys : ((s.monitor.activeCaptures.filterKeys expiredKey).values.map
        CaptureTask.directory).map filename =
        (s.monitor.activeCaptures.filterKeys expiredKey).keys := by
      rw [Dict.values, Dict.keys, List.map_map, List.map_map]
      refine List.map_congr_left fun entry hentry => ?_
      have hmem := (List.mem_filter.mp hentry).1
      exact (hs.ready.tasks entry.1 entry.2
        ((Dict.mem_entries_iff _).mp hmem)).1.symm
    have hnodup :=
      (s.monitor.activeCaptures.filterKeys expiredKey).keys_nodup
    rw [← hkeys] at hnodup
    exact ((hperm.map CaptureTask.directory).nodup_iff).mpr hnodup.of_map
  · obtain ⟨task, htask, rfl⟩ := List.mem_map.mp hmem
    obtain ⟨key, hkey, hget⟩ := hexpired task htask
    obtain ⟨hname, hopen⟩ := hs.ready.tasks key task hget
    refine ⟨hsame hopen, fun other found hfound heq => ?_⟩
    obtain ⟨hlive, hold⟩ := hkept other found hfound
    have hother := (hs.ready.tasks other found hold).1
    rw [heq, ← hname] at hother
    rw [hother, hkey] at hlive
    cases hlive

theorem storePostBatches_settles (settings : Settings) :
    ∀ tasks : List CaptureTask,
      Settles (Holding (tasks.map CaptureTask.directory) [])
        (storePostBatches settings tasks)
  | [] => .ret _
  | task :: rest => by
      have hrest := storePostBatches_settles settings rest
      change Settles (Holding (task.directory :: _) [])
        ((storePostBatch settings task).bind _)
      refine .quiet trivial (fun _ _ => trivial) fun _ =>
        .quiet trivial (fun _ _ => trivial) fun records =>
          .quiet trivial (fun _ _ => trivial) fun pairs => ?_
      exact .final rfl hrest (.fail fun _ => hrest)

theorem processExpiredCaptures_settles (settings : Settings) (clock : Clock) :
    Settles (Holding [] []) (processExpiredCaptures settings clock) :=
  .quiet trivial (fun _ _ => trivial) fun _ =>
    .harvest fun tasks => storePostBatches_settles settings tasks

/-! ## The ledger is in order -/

/-- No directory is failed and finished, and none is finished twice. -/
structure Books (s : Ledger) : Prop where
  finals : ∀ directory ∈ finals s.monitor, directory ∈ s.named
  refused : ∀ directory ∈ s.refused, directory ∈ s.named
  nodup : (Retention.finals s.monitor).Nodup
  apart : ∀ directory ∈ s.refused, directory ∉ Retention.finals s.monitor

theorem Books.congr {s s' : Ledger} (h : Books s)
    (hfinals : Retention.finals s'.monitor = Retention.finals s.monitor)
    (hnamed : s'.named = s.named) (hrefused : s'.refused = s.refused) :
    Books s' := by
  refine ⟨fun directory hmem => ?_, fun directory hmem => ?_, ?_, ?_⟩
  · rw [hfinals] at hmem
    exact hnamed ▸ h.finals directory hmem
  · rw [hrefused] at hmem
    exact hnamed ▸ h.refused directory hmem
  · rw [hfinals]
    exact h.nodup
  · rw [hfinals, hrefused]
    exact h.apart

theorem Books.record {s s' : Ledger} {op : CaptureOp} {r : op.Res}
    (h : Books s) (hopen : ForOpen s op) (heffect : Recording s op r s') :
    Books s' := by
  by_cases hquiet : Quiet op
  · have halike := heffect.alike hquiet
    exact h.congr halike.finals halike.named halike.refused
  obtain ⟨hperforms, hnamed, hrefused⟩ := heffect
  cases op with
  | enqueue job reserved =>
      have hfinal : job.finalJob = true := by simpa [Quiet] using hquiet
      obtain ⟨-, hmonitor⟩ := hperforms
      have hjob := hopen hfinal
      obtain ⟨-, -, ⟨-, hfinals⟩ | ⟨-, hfinals⟩⟩ :=
        enqueue_cases s.monitor job reserved
      · rw [← hmonitor, hfinal, if_pos rfl] at hfinals
        refine ⟨fun directory hmem => ?_, fun directory hmem => ?_, ?_,
          fun directory hmem hfinished => ?_⟩
        · rw [hfinals] at hmem
          rw [hnamed]
          rcases List.mem_append.mp hmem with hold | hnew
          · exact h.finals directory hold
          · rw [List.mem_singleton.mp hnew]
            exact hjob.named
        · rw [hrefused] at hmem
          rw [hnamed]
          exact h.refused directory hmem
        · rw [hfinals]
          refine List.nodup_append.mpr ⟨h.nodup, List.nodup_singleton _, ?_⟩
          intro directory hold other hother heq
          rw [List.mem_singleton.mp hother] at heq
          exact hjob.unfinished (heq ▸ hold)
        · rw [hrefused] at hmem
          rw [hfinals] at hfinished
          rcases List.mem_append.mp hfinished with hold | hnew
          · exact h.apart directory hmem hold
          · rw [List.mem_singleton.mp hnew] at hmem
            exact hjob.unrefused hmem
      · rw [← hmonitor] at hfinals
        exact h.congr hfinals hnamed hrefused
  | failEvent directory reason =>
      have hsame : s'.monitor = s.monitor := hperforms
      refine ⟨?_, fun name hmem => ?_, ?_, fun name hmem => ?_⟩
      · rw [hsame, hnamed]
        exact h.finals
      · rw [hrefused] at hmem
        rw [hnamed]
        rcases List.mem_append.mp hmem with hold | hnew
        · exact h.refused name hold
        · rw [List.mem_singleton.mp hnew]
          exact hopen.named
      · rw [hsame]
        exact h.nodup
      · rw [hrefused] at hmem
        rw [hsame]
        rcases List.mem_append.mp hmem with hold | hnew
        · exact h.apart name hold
        · rw [List.mem_singleton.mp hnew]
          exact hopen.unfinished
  | takeCaptureId =>
      refine h.congr ?_ hnamed hrefused
      rw [hperforms.2]
      rfl
  | emplaceCapture task =>
      have hmonitor : s'.monitor = s.monitor.emplaceCapture task := hperforms
      refine h.congr ?_ hnamed hrefused
      rw [hmonitor, System.emplaceCapture]
      split <;> rfl
  | eraseCapture taskId =>
      have hmonitor : s'.monitor = { s.monitor with
          activeCaptures := s.monitor.activeCaptures.erase taskId } := hperforms
      refine h.congr ?_ hnamed hrefused
      rw [hmonitor]
      rfl
  | harvestExpired sensorNow steadyNow =>
      refine h.congr ?_ hnamed hrefused
      rw [hperforms.2]
      rfl
  | _ => exact absurd trivial hquiet

/-- A trigger on settled books names a directory that nobody uses. -/
theorem Starting.of_ready {s : Ledger} (h : Ready s) (hbooks : Books s)
    (eventName : Text) (systemNowNs : Int) :
    Starting eventName systemNowNs { s with
      named := s.named ++
        [eventDirectoryName eventName s.monitor.nextCaptureId systemNowNs] } := by
  have hfresh : ∀ directory ∈ s.named, directory ≠
      eventDirectoryName eventName s.monitor.nextCaptureId systemNowNs := by
    rintro directory hmem rfl
    obtain ⟨name, captureId, ns, hlt, heq⟩ := h.below _ hmem
    have hid := captureId_of_filename (congrArg filename heq)
    omega
  have hkept : ∀ {name}, Open s name → Open { s with
      named := s.named ++
        [eventDirectoryName eventName s.monitor.nextCaptureId systemNowNs] }
      name := fun hopen =>
    ⟨List.mem_append_left _ hopen.named, hopen.unfinished, hopen.unrefused⟩
  refine ⟨fun key task hget => ?_, fun directory hmem => ?_, ⟨⟨?_, ?_, ?_⟩, ?_⟩⟩
  · obtain ⟨hkey, hopen⟩ := h.tasks key task hget
    exact ⟨hkey, hkept hopen⟩
  · rcases List.mem_append.mp hmem with hold | hnew
    · exact .inl (h.below directory hold)
    · exact .inr (List.mem_singleton.mp hnew)
  · exact List.mem_append_right _ List.mem_cons_self
  · exact fun hmem => hfresh _ (hbooks.finals _ hmem) rfl
  · exact fun hmem => hfresh _ (hbooks.refused _ hmem) rfl
  · intro key task hget
    exact hfresh _ (h.tasks key task hget).2.named

end DataCache.Retention
