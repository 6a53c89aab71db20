import DataCache.Retention.Verdicts

/-!
# Markers before jobs

A callback begins a directory, or fails it, only while there is no job for it.
A final batch has a reservation, so it is not refused while the storage worker
runs.
-/

namespace DataCache.Recorder

open DataCache.Foundation DataCache.Capture DataCache.Retention

/-- The directories of the jobs handed over so far. -/
def handed (monitor : System) : List Text :=
  (monitor.consumed ++ monitor.storage.jobs).map Job.directory

theorem handed_of_consumed {monitor : System} {job : Job}
    (h : job ∈ monitor.consumed) : job.directory ∈ handed monitor :=
  List.mem_map_of_mem (List.mem_append_left _ h)

/-- Markers come before jobs, and a batch that is not final is the first job. -/
def Timely (s : Ledger) : CaptureOp → Prop
  | .beginEvent directory _ _ =>
      directory ∈ s.named ∧ directory ∉ handed s.monitor
  | .failEvent directory _ => directory ∈ s.named ∧ directory ∉ handed s.monitor
  | .enqueue job _ => job.finalJob = false →
      job.directory ∈ s.named ∧ job.directory ∉ handed s.monitor
  | _ => True

/-! ## One operation -/

theorem handed_pop (monitor : System) (count : Nat) :
    handed (monitor.pop count) = handed monitor := by
  simp only [handed, System.pop, List.append_assoc, List.take_append_drop]

/-- A job joins the queue or leaves no trace there. -/
theorem enqueue_jobs (monitor : System) (job : Job) (reserved : Bool) :
    (monitor.enqueue job reserved).2.consumed = monitor.consumed ∧
    (monitor.enqueue job reserved).2.storage.stopping = monitor.storage.stopping ∧
    ((monitor.enqueue job reserved).1 = true ∧
        (monitor.enqueue job reserved).2.storage.jobs = monitor.storage.jobs ++ [job] ∨
      (monitor.enqueue job reserved).1 = false ∧
        (monitor.enqueue job reserved).2.storage.jobs = monitor.storage.jobs) := by
  unfold System.enqueue StorageQueue.enqueue
  dsimp only
  by_cases hfull : (monitor.storage.stopping ||
      (!reserved && monitor.storage.full)) = true
  · rw [if_pos hfull]
    exact ⟨rfl, rfl, .inr ⟨rfl, rfl⟩⟩
  · rw [if_neg hfull]
    exact ⟨rfl, rfl, .inl ⟨rfl, rfl⟩⟩

theorem enqueue_reserved {monitor : System} (h : monitor.storage.stopping = false)
    (job : Job) : (monitor.enqueue job true).1 = true := by
  simp [System.enqueue, StorageQueue.enqueue, h]

/-- Every other operation leaves the queue's jobs alone. -/
def Plain : CaptureOp → Prop
  | .enqueue _ _ => False
  | _ => True

theorem performs_plain {s s' : System} {op : CaptureOp} {r : op.Res}
    (h : Performs s op r s') (hop : Plain op) :
    s'.consumed = s.consumed ∧ s'.storage.jobs = s.storage.jobs ∧
      s'.storage.stopping = s.storage.stopping := by
  cases op with
  | enqueue job reserved => exact absurd hop id
  | flushPendingPairs =>
      obtain ⟨pairIndex, rfl⟩ := h
      exact ⟨rfl, rfl, rfl⟩
  | reserve =>
      obtain ⟨-, rfl⟩ := h
      unfold StorageQueue.reserve
      dsimp only
      split <;> exact ⟨rfl, rfl, rfl⟩
  | emplaceCapture task =>
      obtain rfl : s' = s.emplaceCapture task := h
      unfold System.emplaceCapture
      split <;> exact ⟨rfl, rfl, rfl⟩
  | releaseReservation => cases h; exact ⟨rfl, rfl, rfl⟩
  | eraseCapture taskId => cases h; exact ⟨rfl, rfl, rfl⟩
  | beginEvent directory eventName acceptedAtNs => cases h; exact ⟨rfl, rfl, rfl⟩
  | failEvent directory reason => cases h; exact ⟨rfl, rfl, rfl⟩
  | _ =>
      obtain ⟨-, rfl⟩ := h
      exact ⟨rfl, rfl, rfl⟩

/-- Callbacks only add to the queue. -/
theorem performs_consumed {s s' : System} {op : CaptureOp} {r : op.Res}
    (h : Performs s op r s') : s'.consumed = s.consumed := by
  by_cases hplain : Plain op
  · exact (performs_plain h hplain).1
  cases op with
  | enqueue job reserved =>
      rw [h.2]
      exact (enqueue_jobs s job reserved).1
  | _ => exact absurd trivial hplain

/-! ## What a callback knows -/

/-- The worker runs; the directories `free` are named and have no job. -/
structure Holds (free : List Text) (s : Ledger) : Prop where
  running : s.monitor.storage.stopping = false
  named : ∀ directory ∈ free, directory ∈ s.named
  unused : ∀ directory ∈ free, directory ∉ handed s.monitor

/-- From any state with `before`, the program is timely and the worker runs on. -/
def Punctual {α : Type} (before : Ledger → Prop) (p : Callback α) : Prop :=
  ∀ s, before s → Prog.Safe Recording Pops Timely (fun _ => Holds []) p s

section Rules

variable {α : Type} {free : List Text} {s s' : Ledger}

theorem Holds.timely {directory : Text} (h : Holds free s) (hfree : directory ∈ free) :
    directory ∈ s.named ∧ directory ∉ handed s.monitor :=
  ⟨h.named _ hfree, h.unused _ hfree⟩

theorem Holds.weaken (h : Holds free s) : Holds [] s :=
  ⟨h.running, nofun, nofun⟩

theorem Holds.popped (h : Holds free s) (hpops : Pops s s') : Holds free s' := by
  obtain ⟨count, rfl⟩ := hpops
  refine ⟨h.running, h.named, ?_⟩
  rw [handed_pop]
  exact h.unused

theorem Holds.plain {op : CaptureOp} {r : op.Res} (h : Holds free s)
    (heffect : Recording s op r s') (hop : Plain op) : Holds free s' := by
  obtain ⟨hperforms, hnamed, -⟩ := heffect
  obtain ⟨hconsumed, hjobs, hstopping⟩ := performs_plain hperforms hop
  refine ⟨hstopping.trans h.running, hnamed ▸ h.named, ?_⟩
  rw [handed, hconsumed, hjobs]
  exact h.unused

theorem Punctual.ret (value : α) : Punctual (Holds free) (.ret value) :=
  fun _ h _ hpops => h.weaken.popped hpops

theorem Punctual.plain {op : CaptureOp} {next : op.Res → Callback α} (hop : Plain op)
    (htimely : ∀ s, Holds free s → Timely s op)
    (h : ∀ r, Punctual (Holds free) (next r)) :
    Punctual (Holds free) (.call op next) :=
  fun _ hs s' hpops => ⟨htimely s' (hs.popped hpops), fun r s'' heffect =>
    h r s'' ((hs.popped hpops).plain heffect hop)⟩

/-- A final batch with a reservation is taken. -/
theorem Punctual.final {job : Job} {next : Bool → Callback α}
    (hfinal : job.finalJob = true) (h : Punctual (Holds []) (next true)) :
    Punctual (Holds free) (.call (.enqueue job true) next) := by
  intro s hs s' hpops
  have hs' := hs.popped hpops
  refine ⟨fun hno => ?_, fun (r : Bool) s'' heffect => ?_⟩
  · rw [hfinal] at hno
    cases hno
  · obtain ⟨⟨rfl, hmonitor⟩, -, -⟩ := heffect
    rw [enqueue_reserved hs'.running job]
    refine h s'' ⟨?_, nofun, nofun⟩
    rw [hmonitor, (enqueue_jobs s'.monitor job true).2.1]
    exact hs'.running

/-- A first batch is taken, or the directory is as unused as before. -/
theorem Punctual.first {job : Job} {reserved : Bool} {next : Bool → Callback α}
    (hfree : job.directory ∈ free) (haccepted : Punctual (Holds []) (next true))
    (hrefused : Punctual (Holds free) (next false)) :
    Punctual (Holds free) (.call (.enqueue job reserved) next) := by
  intro s hs s' hpops
  have hs' := hs.popped hpops
  refine ⟨fun _ => hs'.timely hfree,
    fun (r : Bool) s'' heffect => ?_⟩
  obtain ⟨⟨hr, hmonitor⟩, hnamed, -⟩ := heffect
  obtain ⟨hconsumed, hstopping, hjobs⟩ := enqueue_jobs s'.monitor job reserved
  have hrunning : s''.monitor.storage.stopping = false := by
    rw [hmonitor, hstopping]
    exact hs'.running
  rcases hjobs with ⟨htrue, -⟩ | ⟨hfalse, hjobs⟩
  · rw [htrue] at hr
    cases hr
    exact haccepted s'' ⟨hrunning, nofun, nofun⟩
  · rw [hfalse] at hr
    cases hr
    refine hrefused s'' ⟨hrunning, hnamed ▸ hs'.named, ?_⟩
    rw [handed, hmonitor, hconsumed, hjobs]
    exact hs'.unused

end Rules

/-! ## The callbacks -/

section Callbacks

variable (settings : Settings) (clock : Clock) (eventName : Text)

theorem captureImmediately_punctual (directory : Text) (startTime eventTime : Int)
    (pairs : List PairRecord) :
    Punctual (Holds [directory])
      (captureImmediately settings clock eventName directory startTime eventTime
        pairs) := by
  unfold captureImmediately
  refine .plain trivial (fun _ _ => trivial) fun reserved => ?_
  cases reserved with
  | false => exact .ret _
  | true =>
      refine .plain trivial (fun _ hs => hs.timely List.mem_cons_self)
        fun begun => ?_
      cases begun with
      | false => exact .plain trivial (fun _ _ => trivial) fun _ => .ret _
      | true =>
          exact .plain trivial (fun _ _ => trivial) fun records =>
            .final rfl (.ret _)

theorem captureWithPost_punctual (task : CaptureTask) (startTime : Int)
    (pairs : List PairRecord) :
    Punctual (Holds [task.directory])
      (captureWithPost settings clock eventName task startTime pairs) := by
  unfold captureWithPost
  refine .plain trivial (fun _ _ => trivial) fun reserved => ?_
  cases reserved with
  | false => exact .ret _
  | true =>
      refine .plain trivial (fun _ _ => trivial) fun active => ?_
      change Punctual _ (@ite _ _ (Nat.decLe _ _) _ _)
      split
      · exact .plain trivial (fun _ _ => trivial) fun _ => .ret _
      refine .plain trivial (fun _ hs => hs.timely List.mem_cons_self)
        fun begun => ?_
      cases begun with
      | false => exact .plain trivial (fun _ _ => trivial) fun _ => .ret _
      | true =>
          refine .plain trivial (fun _ _ => trivial) fun _ =>
            .plain trivial (fun _ _ => trivial) fun records => ?_
          refine .first List.mem_cons_self (.ret _) ?_
          refine .plain trivial (fun _ _ => trivial) fun _ =>
            .plain trivial (fun _ _ => trivial) fun _ => ?_
          exact .plain trivial (fun _ hs => hs.timely List.mem_cons_self)
            fun _ => .ret _

/-- The directory that the next capture id stands for is named, and has no job. -/
def Coming (systemNowNs : Int) (s : Ledger) : Prop :=
  Holds [eventDirectoryName eventName s.monitor.nextCaptureId systemNowNs] s

variable {eventName} in
theorem Punctual.coming {α : Type} {systemNowNs : Int} {op : CaptureOp}
    {next : op.Res → Callback α} (hop : Plain op) (htimely : ∀ s, Timely s op)
    (hid : ∀ s r s', Performs s op r s' → s'.nextCaptureId = s.nextCaptureId)
    (h : ∀ r, Punctual (Coming eventName systemNowNs) (next r)) :
    Punctual (Coming eventName systemNowNs) (.call op next) := by
  rintro s hs _ ⟨count, rfl⟩
  refine ⟨htimely _, fun r s'' heffect => h r s'' ?_⟩
  rw [Coming, hid _ _ _ heffect.1]
  exact (Holds.popped hs ⟨count, rfl⟩).plain heffect hop

theorem recordDataAroundEventDetailed_punctual :
    Punctual (Coming eventName clock.systemNowNs)
      (recordDataAroundEventDetailed settings clock eventName) := by
  unfold recordDataAroundEventDetailed
  refine .coming trivial (fun _ => trivial) ?_ fun _ =>
    .coming trivial (fun _ => trivial) ?_ fun sensorNow => ?_
  · rintro s r _ ⟨pairIndex, rfl⟩
    rfl
  · rintro s r _ ⟨-, rfl⟩
    rfl
  rintro s hs _ ⟨count, rfl⟩
  refine ⟨trivial, fun id s'' heffect => ?_⟩
  obtain rfl : id = s.monitor.nextCaptureId := heffect.1.1
  have hfree := (Holds.popped hs ⟨count, rfl⟩).plain heffect trivial
  refine (?_ : Punctual (Holds [eventDirectoryName eventName
    s.monitor.nextCaptureId clock.systemNowNs]) _) s'' hfree
  refine .plain trivial (fun _ _ => trivial) fun pairs => ?_
  change Punctual _ (ite _ _ _)
  split
  · exact .ret _
  · split
    · exact captureImmediately_punctual _ _ _ _ _ _ _
    · exact captureWithPost_punctual _ _ _
        (makeTask settings clock eventName _ _) _ _

theorem storePostBatches_punctual : ∀ tasks : List CaptureTask,
    Punctual (Holds []) (storePostBatches settings tasks)
  | [] => .ret _
  | _ :: rest =>
      .plain trivial (fun _ _ => trivial) fun _ =>
        .plain trivial (fun _ _ => trivial) fun _ =>
          .plain trivial (fun _ _ => trivial) fun _ =>
            .final rfl (storePostBatches_punctual rest)

theorem processExpiredCaptures_punctual :
    Punctual (Holds []) (processExpiredCaptures settings clock) :=
  .plain trivial (fun _ _ => trivial) fun _ =>
    .plain trivial (fun _ _ => trivial) fun tasks =>
      storePostBatches_punctual settings tasks

end Callbacks

end DataCache.Recorder
