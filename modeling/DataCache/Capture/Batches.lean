import DataCache.Capture.HandOff

/-!
# The batches of a capture

What an accepted capture has handed over so far, how this survives every
operation, and rules for running a callback over its own state.
-/

namespace DataCache.Capture

open DataCache.Foundation

def batchesOf (accepted : List HandedOver) (directory : Text) :
    List HandedOver :=
  accepted.filter fun entry => decide (entry.job.directory = directory)

/-- The first batch: everything in the window up to the event. -/
structure PreBatch (capture : AcceptedTrigger) (entry : HandedOver) : Prop where
  notFinal : entry.job.finalJob = false
  records : entry.job.records = entry.buffered.filter
    (DataBuffer.within (capture.eventTime - capture.preSeconds * nanosPerSecond)
      capture.eventTime)
  newest : ∀ frame ∈ entry.buffered, timestampOf frame ≤ capture.eventTime

/-- The final batch: everything in the window after the event. -/
structure PostBatch (capture : AcceptedTrigger) (entry : HandedOver) :
    Prop where
  final : entry.job.finalJob = true
  records : entry.job.records = withoutBoundary capture.eventTime
    (entry.buffered.filter (DataBuffer.within capture.eventTime
      (capture.eventTime + capture.postSeconds * nanosPerSecond)))

def Started (accepted : List HandedOver) (capture : AcceptedTrigger) : Prop :=
  ∃ pre, PreBatch capture pre ∧ batchesOf accepted capture.directory = [pre]

def Finished (accepted : List HandedOver) (capture : AcceptedTrigger) : Prop :=
  ∃ pre post, PreBatch capture pre ∧ PostBatch capture post ∧
    batchesOf accepted capture.directory = [pre, post]

/-- The directory was named by one of the first `count` captures. -/
def NamedBelow (count : Nat) (directory : Text) : Prop :=
  ∃ eventName captureId systemNowNs, captureId < count ∧
    directory = eventDirectoryName eventName captureId systemNowNs

structure CoreOk (settings : Settings) (core : Core) : Prop where
  active : core.activeCaptures.size ≤ settings.maxActiveCaptures
  refused : ∀ job ∈ core.refused, job.finalJob = false
  delivered : ∀ capture ∈ core.captures, 0 < capture.postSeconds →
    Started core.accepted capture ∨ Finished core.accepted capture
  named : ∀ entry ∈ core.accepted,
    NamedBelow core.nextCaptureId entry.job.directory
  capturesNamed : ∀ capture ∈ core.captures,
    NamedBelow core.nextCaptureId capture.directory
  unique : (core.captures.map AcceptedTrigger.directory).Nodup
  bounded : core.buffer.Bounded

/-- An active task waits for the final batch of an accepted capture. -/
def Awaits (core : Core) (task : CaptureTask) : Prop :=
  ∃ capture ∈ core.captures, 0 < capture.postSeconds ∧
    capture.directory = task.directory ∧ capture.eventTime = task.eventTime ∧
    task.endTime = capture.eventTime + capture.postSeconds * nanosPerSecond ∧
    Started core.accepted capture

structure Settled (settings : Settings) (core : Core) : Prop where
  ok : CoreOk settings core
  reserved : core.reservedJobs = core.activeCaptures.size
  tasks : ∀ key task, core.activeCaptures.get? key = some task →
    key = filename task.directory ∧ Awaits core task

/-! ## Batches and new jobs -/

theorem batchesOf_append_ne {accepted : List HandedOver} {entry : HandedOver}
    {directory : Text} (h : entry.job.directory ≠ directory) :
    batchesOf (accepted ++ [entry]) directory = batchesOf accepted directory := by
  simp [batchesOf, h]

theorem batchesOf_append_self {accepted : List HandedOver} {entry : HandedOver}
    {directory : Text} (h : entry.job.directory = directory) :
    batchesOf (accepted ++ [entry]) directory =
      batchesOf accepted directory ++ [entry] := by
  simp [batchesOf, h]

theorem Started.append {accepted : List HandedOver} {capture : AcceptedTrigger}
    (h : Started accepted capture) {entry : HandedOver}
    (hne : entry.job.directory ≠ capture.directory) :
    Started (accepted ++ [entry]) capture := by
  obtain ⟨pre, hpre, hbatches⟩ := h
  exact ⟨pre, hpre, by rw [batchesOf_append_ne hne, hbatches]⟩

theorem Finished.append {accepted : List HandedOver} {capture : AcceptedTrigger}
    (h : Finished accepted capture) {entry : HandedOver}
    (hne : entry.job.directory ≠ capture.directory) :
    Finished (accepted ++ [entry]) capture := by
  obtain ⟨pre, post, hpre, hpost, hbatches⟩ := h
  exact ⟨pre, post, hpre, hpost, by rw [batchesOf_append_ne hne, hbatches]⟩

theorem NamedBelow.mono {count count' : Nat} {directory : Text}
    (h : NamedBelow count directory) (hle : count ≤ count') :
    NamedBelow count' directory := by
  obtain ⟨eventName, captureId, systemNowNs, hlt, heq⟩ := h
  exact ⟨eventName, captureId, systemNowNs, by omega, heq⟩

/-- No job or capture uses the directory yet, and no task its id. -/
structure Unused (core : Core) (directory : Text) : Prop where
  named : NamedBelow core.nextCaptureId directory
  accepted : batchesOf core.accepted directory = []
  captures : ∀ capture ∈ core.captures, capture.directory ≠ directory
  tasks : core.activeCaptures.get? (filename directory) = none

theorem Settled.unused {settings : Settings} {core : Core}
    (h : Settled settings core) (eventName : Text) (systemNowNs : Int) :
    Unused { core with nextCaptureId := core.nextCaptureId + 1 }
      (eventDirectoryName eventName core.nextCaptureId systemNowNs) := by
  have hfresh : ∀ directory, NamedBelow core.nextCaptureId directory →
      filename directory ≠ filename
        (eventDirectoryName eventName core.nextCaptureId systemNowNs) := by
    rintro _ ⟨name, captureId, ns, hlt, rfl⟩ heq
    exact absurd (captureId_of_filename heq) (by omega)
  refine ⟨⟨_, _, _, Nat.lt_succ_self _, rfl⟩, ?_, fun capture hcapture heq => ?_,
    ?_⟩
  · refine List.filter_eq_nil_iff.mpr fun entry hentry => ?_
    have hne := hfresh _ (h.ok.named entry hentry)
    simp only [decide_eq_true_eq]
    exact fun heq => hne (congrArg filename heq)
  · exact hfresh _ (h.ok.capturesNamed capture hcapture) (congrArg filename heq)
  · cases hget : core.activeCaptures.get? (filename
        (eventDirectoryName eventName core.nextCaptureId systemNowNs)) with
    | none => rfl
    | some task =>
        obtain ⟨hkey, capture, hcapture, -, hdirectory, -⟩ := h.tasks _ _ hget
        exact absurd (hdirectory ▸ hkey).symm
          (hfresh _ (h.ok.capturesNamed capture hcapture))

/-! ## Running a callback over its own state -/

def Inv (settings : Settings) (s : System) : Prop :=
  QueueOk settings s ∧ CoreOk settings s.core

/-- Every run of the callback from `core` keeps `Inv` and returns with `post`. -/
def Runs {α : Type} (settings : Settings) (p : Callback α) (core : Core)
    (post : α → Core → Prop) : Prop :=
  ∀ s, QueueOk settings s → s.core = core →
    Prog.wp Interleaved (Inv settings)
      (fun value s => QueueOk settings s ∧ post value s.core)
      (fun _ _ => False) p s

section Rules

variable {α β : Type} {settings : Settings} {core : Core}
  {post : α → Core → Prop}

theorem Runs.pure {value : α} (h : post value core) :
    Runs settings (Pure.pure value) core post := by
  rintro s hqueue rfl
  exact ⟨hqueue, h⟩

theorem Runs.perform {op : CaptureOp} {next : op.Res → Callback α}
    (hbacked : Backed core op)
    (h : ∀ r core', core.Next op r core' →
      CoreOk settings core' ∧ Runs settings (next r) core' post) :
    Runs settings (Capture.perform op >>= next) core post := by
  rintro s hqueue rfl r s' ⟨before, after, between, hperforms, rfl⟩
  obtain ⟨hqueue', hnext⟩ :=
    (hqueue.pop before).performs (by rw [core_pop]; exact hbacked) hperforms
  rw [core_pop] at hnext
  obtain ⟨hcore, hruns⟩ := h r _ hnext
  exact ⟨⟨hqueue'.pop after, hcore⟩, hruns _ (hqueue'.pop after) rfl⟩

theorem Runs.bind {p : Callback β} {next : β → Callback α}
    (h : Runs settings p core fun value core' =>
      Runs settings (next value) core' post) :
    Runs settings (p >>= next) core post := by
  rintro s hqueue rfl
  refine Prog.wp_bind (Prog.wp_mono (fun _ => id) ?_ (fun _ _ => id)
    (h s hqueue rfl))
  exact fun value s' hpost => hpost.2 s' hpost.1 rfl

end Rules

end DataCache.Capture
