import DataCache.Capture.System

/-!
# The directory of an accepted capture

The directories whose pending marker was written are logged beside the state of
the monitor.  A trigger that is accepted has created its directory.
-/

namespace DataCache.Capture

open DataCache.Foundation

/-- The directories begun so far, after one more operation. -/
def logBegun (directories : List Text) : (op : CaptureOp) → op.Res → List Text
  | .beginEvent directory _ _, begun =>
      bif begun then directories ++ [directory] else directories
  | _, _ => directories

/-- The operations of the monitor, with the directories they create. -/
def Creating : Prog.Effect CaptureOp.Res (System × List Text) :=
  fun s op r s' => Interleaved s.1 op r s'.1 ∧ s'.2 = logBegun s.2 op r

theorem subset_logBegun (directories : List Text) (op : CaptureOp) (r : op.Res) :
    directories ⊆ logBegun directories op r := by
  cases op with
  | beginEvent directory eventName acceptedAtNs =>
      cases r with
      | true => exact List.subset_append_left _ _
      | false => exact List.Subset.refl _
  | _ => exact List.Subset.refl _

/-- Every execution that is accepted has created the directory it names. -/
def CreatesIfAccepted (p : Callback CaptureResult) (s : System × List Text) :
    Prop :=
  Prog.wp Creating (fun _ => True)
    (fun result s' => result.accepted = true → result.directory ∈ s'.2)
    (fun _ _ => True) p s

theorem CreatesIfAccepted.call {op : CaptureOp}
    {next : op.Res → Callback CaptureResult} {s : System × List Text}
    (h : ∀ r s', s'.2 = logBegun s.2 op r → CreatesIfAccepted (next r) s') :
    CreatesIfAccepted (.call op next) s :=
  fun r s' heffect => ⟨trivial, h r s' heffect.2⟩

theorem CreatesIfAccepted.refused {s : System × List Text}
    (directory message : Text) :
    CreatesIfAccepted (.ret ⟨false, directory, message⟩) s :=
  fun h => absurd h Bool.false_ne_true

/-- Once the directory is there, a program that names it may do anything. -/
def Names (directory : Text) (p : Callback CaptureResult) : Prop :=
  ∀ s : System × List Text, directory ∈ s.2 → CreatesIfAccepted p s

theorem Names.call {directory : Text} {op : CaptureOp}
    {next : op.Res → Callback CaptureResult} (h : ∀ r, Names directory (next r)) :
    Names directory (.call op next) := fun s hs =>
  .call fun r s' hlog => h r s' (hlog ▸ subset_logBegun s.2 op r hs)

theorem Names.ret {directory : Text} (accepted : Bool) (message : Text) :
    Names directory (.ret ⟨accepted, directory, message⟩) :=
  fun _ hs _ => hs

theorem CreatesIfAccepted.begin {directory eventName : Text} {acceptedAtNs : Int}
    {next : Bool → Callback CaptureResult} {s : System × List Text}
    (hbegun : Names directory (next true))
    (hfailed : ∀ s', CreatesIfAccepted (next false) s') :
    CreatesIfAccepted (.call (.beginEvent directory eventName acceptedAtNs) next)
      s := by
  refine .call fun begun s' hlog => ?_
  cases begun with
  | true =>
      refine hbegun s' ?_
      rw [hlog]
      exact List.mem_append_right _ List.mem_cons_self
  | false => exact hfailed s'

/-! ## The trigger -/

theorem enqueuePreBatch_names (settings : Settings)
    (eventName directory taskId : Text) (startTime eventTime : Int)
    (pairs : List PairRecord) :
    Names directory (enqueuePreBatch settings eventName directory taskId startTime
      eventTime pairs) := by
  unfold enqueuePreBatch
  refine .call fun records => .call fun accepted => ?_
  cases accepted with
  | true => exact .ret _ _
  | false => exact .call fun _ => .call fun _ => .call fun _ => .ret _ _

theorem captureImmediately_creates (settings : Settings) (clock : Clock)
    (eventName directory : Text) (startTime eventTime : Int)
    (pairs : List PairRecord) (s : System × List Text) :
    CreatesIfAccepted (captureImmediately settings clock eventName directory
      startTime eventTime pairs) s := by
  unfold captureImmediately
  refine .call fun reserved s _ => ?_
  cases reserved with
  | false => exact .refused _ _
  | true =>
      refine .begin ?_ fun s => .call fun _ _ _ => .refused _ _
      refine .call fun records => .call fun accepted => ?_
      cases accepted with
      | true => exact .ret _ _
      | false => exact .call fun _ => .ret _ _

theorem captureWithPost_creates (settings : Settings) (clock : Clock)
    (eventName : Text) (task : CaptureTask) (startTime : Int)
    (pairs : List PairRecord) (s : System × List Text) :
    CreatesIfAccepted (captureWithPost settings clock eventName task startTime
      pairs) s := by
  unfold captureWithPost
  refine .call fun reserved s _ => ?_
  cases reserved with
  | false => exact .refused _ _
  | true =>
      refine .call fun active s _ => ?_
      change CreatesIfAccepted (@ite _ _ (Nat.decLe _ _) _ _) s
      split
      · exact .call fun _ _ _ => .refused _ _
      · refine .begin ?_ fun s => .call fun _ _ _ => .refused _ _
        exact .call fun _ => enqueuePreBatch_names _ _ _ _ _ _ _

theorem recordDataAroundEventDetailed_creates (settings : Settings) (clock : Clock)
    (eventName : Text) (s : System × List Text) :
    CreatesIfAccepted (recordDataAroundEventDetailed settings clock eventName) s := by
  unfold recordDataAroundEventDetailed
  refine .call fun _ s _ => .call fun sensorNow s _ => .call fun captureId s _ =>
    .call fun pairs s _ => ?_
  change CreatesIfAccepted (ite _ _ _) s
  split
  · exact .refused _ _
  · split
    · exact captureImmediately_creates _ _ _ _ _ _ _ _
    · exact captureWithPost_creates _ _ _ _ _ _ _

/-- An accepted trigger has created the directory it answers with. -/
theorem mem_created_of_accepted {settings : Settings} {clock : Clock}
    {eventName : Text} {s s' : System × List Text} {result : CaptureResult}
    (hexec : Prog.Exec Creating s
      (recordDataAroundEventDetailed settings clock eventName) s' (.ret result))
    (haccepted : result.accepted = true) : result.directory ∈ s'.2 :=
  (Prog.wp_exec hexec trivial
    (recordDataAroundEventDetailed_creates settings clock eventName s)).2 haccepted

/-! ## A monitor that never fails -/

def respondCreating (s : System × List Text) (op : CaptureOp) :
    op.Res × (System × List Text) :=
  ((s.1.respond op).1, ((s.1.respond op).2, logBegun s.2 op (s.1.respond op).1))

theorem creating_respond (s : System × List Text) (op : CaptureOp) :
    Creating s op (respondCreating s op).1 (respondCreating s op).2 :=
  ⟨interleaved_respond s.1 op, rfl⟩

def record (settings : Settings) (clock : Clock) (eventName : Text)
    (s : System × List Text) : CaptureResult × (System × List Text) :=
  match Prog.runWith respondCreating
      (recordDataAroundEventDetailed settings clock eventName) s with
  | (.ok result, s') => (result, s')
  | (.error error, _) => error.elim

theorem exec_record (settings : Settings) (clock : Clock) (eventName : Text)
    (s : System × List Text) :
    Prog.Exec Creating s (recordDataAroundEventDetailed settings clock eventName)
      (record settings clock eventName s).2
      (.ret (record settings clock eventName s).1) := by
  have hexec := Prog.exec_runWith creating_respond
    (recordDataAroundEventDetailed settings clock eventName) s
  unfold record
  cases hrun : Prog.runWith respondCreating
      (recordDataAroundEventDetailed settings clock eventName) s with
  | mk outcome s' =>
      rw [hrun] at hexec
      cases outcome with
      | ok result => exact hexec
      | error error => exact error.elim

def schedule (settings : Settings) (clock : Clock) (s : System × List Text) :
    System × List Text :=
  (Prog.runWith respondCreating (processExpiredCaptures settings clock) s).2

end DataCache.Capture
