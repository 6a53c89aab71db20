import DataCache.EventState.Recovery

/-!
# From acceptance to a verdict

One event directory through its life: `begin`, the verdict the monitor or the
storage worker reaches, crashes between any two operations, and the recovery
pass after each of them, which may be cut again.
-/

namespace DataCache.EventState

open DataCache.Foundation DataCache.Storage

inductive Phase where
  | beginning (rest : Action Bool)
  | judging (rest : Action Bool)
  | idle
  | recovering (rest : Action ReconcileResult)

structure Moment where
  tracked : Tracked
  phase : Phase
  accepted : Bool

def Moment.start (directory eventName : Text) (acceptedAtNs : Int)
    (store : Store) : Moment where
  tracked := ⟨store, false, false, true⟩
  phase := .beginning (begin directory eventName acceptedAtNs)
  accepted := false

def Moment.marks (directory : Text) (moment : Moment) : Marks :=
  view directory moment.tracked

/-- `begin` has returned true. -/
def Moment.Accepted (moment : Moment) : Prop :=
  moment.accepted = true ∨ moment.phase = .beginning (.ret true)

/-- What follows an accepted `begin`: one `fail`, or `complete` and its fallback. -/
inductive Judgement (directory : Text) : Action Bool → Prop
  | fail (reason : Text) : Judgement directory (fail directory reason)
  | complete (recordCount : Nat) (reason : Text) :
      Judgement directory (completeOrFail directory recordCount reason)

section Steps

variable (codec : Codec) (directory : Text)

inductive Step : Moment → Moment → Prop
  | beginning {s s' : Tracked} {op : FsOp} {next : op.Res → Action Bool}
      {r : op.Res} {accepted : Bool}
      (heffect : TrackedEffect codec directory s op r s') :
      Step ⟨s, .beginning (.call op next), accepted⟩
        ⟨s', .beginning (next r), accepted⟩
  | accept {s : Tracked} {judgement : Action Bool} {accepted : Bool}
      (hjudgement : Judgement directory judgement) :
      Step ⟨s, .beginning (.ret true), accepted⟩ ⟨s, .judging judgement, true⟩
  | refuse {s : Tracked} {accepted : Bool} :
      Step ⟨s, .beginning (.ret false), accepted⟩ ⟨s, .idle, accepted⟩
  | judging {s s' : Tracked} {op : FsOp} {next : op.Res → Action Bool}
      {r : op.Res} {accepted : Bool}
      (heffect : TrackedEffect codec directory s op r s') :
      Step ⟨s, .judging (.call op next), accepted⟩
        ⟨s', .judging (next r), accepted⟩
  | judged {s : Tracked} {written accepted : Bool} :
      Step ⟨s, .judging (.ret written), accepted⟩ ⟨s, .idle, accepted⟩
  | crash {s : Tracked} {phase : Phase} {accepted : Bool} :
      Step ⟨s, phase, accepted⟩
        ⟨{ s with clean := true }, .recovering reconcile, accepted⟩
  | recovering {s s' : Tracked} {op : FsOp}
      {next : op.Res → Action ReconcileResult} {r : op.Res} {accepted : Bool}
      (heffect : TrackedEffect codec directory s op r s') :
      Step ⟨s, .recovering (.call op next), accepted⟩
        ⟨s', .recovering (next r), accepted⟩
  | recovered {s : Tracked} {result : ReconcileResult} {accepted : Bool} :
      Step ⟨s, .recovering (.ret result), accepted⟩ ⟨s, .idle, accepted⟩

abbrev Reached : Moment → Moment → Prop :=
  Relation.ReflTransGen (Step codec directory)

end Steps

/-! ## The invariant -/

def Waiting (m : Marks) : Prop :=
  m.begun = true ∧ m.present .complete = false ∧ m.present .failed = false

/-- What the running program still guarantees. -/
def Phase.Ok (codec : Codec) (directory : Text) (s : Tracked) : Phase → Prop
  | .beginning rest =>
      Prog.wp (TrackedEffect codec directory) (fun s => (view directory s).Ok)
        (fun accepted s => accepted = true → Waiting (view directory s))
        (fun _ _ => True) rest s
  | .judging rest =>
      Prog.wp (TrackedEffect codec directory) (fun s => (view directory s).Ok)
        (fun _ _ => True) (fun _ _ => True) rest s
  | .idle => True
  | .recovering rest =>
      Prog.wp (TrackedEffect codec directory) (fun s => (view directory s).Ok)
        (fun _ s => (view directory s).Cleared) (fun _ _ => True) rest s

structure Moment.Ok (codec : Codec) (directory : Text) (moment : Moment) :
    Prop where
  marks : (moment.marks directory).Ok
  begun : moment.accepted = true → moment.tracked.begun = true
  phase : moment.phase.Ok codec directory moment.tracked

theorem TrackedEffect.begun {codec : Codec} {directory : Text} {s s' : Tracked}
    {op : FsOp} {r : op.Res} (h : TrackedEffect codec directory s op r s')
    (hbegun : s.begun = true) : s'.begun = true := by
  obtain ⟨before, during, after, -, -, -, -, rfl⟩ := h
  simp [track, hbegun]

theorem Judgement.wp {codec : Codec} {directory : Text} {s : Tracked}
    {judgement : Action Bool} (h : Judgement directory judgement)
    (hok : (view directory s).Ok) (hwaiting : Waiting (view directory s)) :
    (Phase.judging judgement).Ok codec directory s := by
  obtain ⟨hbegun, hcomplete, hfailed⟩ := hwaiting
  have hruns : Runs codec directory judgement (view directory s)
      fun _ m' => m'.Ok := by
    cases h with
    | fail reason =>
        exact fail_runs hok hbegun hcomplete (fun _ h _ => h) (fun _ h _ => h)
    | complete recordCount reason =>
        exact completeOrFail_runs hok hbegun hcomplete hfailed
  exact Prog.wp_mono (fun _ => id) (fun _ _ _ => trivial) (fun _ _ => id)
    (hruns s rfl)

theorem Moment.Ok.step {codec : Codec} {directory : Text}
    {moment moment' : Moment} (h : moment.Ok codec directory)
    (hstep : Step codec directory moment moment') :
    moment'.Ok codec directory := by
  cases hstep with
  | beginning heffect =>
      obtain ⟨hok, hphase⟩ := h.phase _ _ heffect
      exact ⟨hok, fun haccepted => heffect.begun (h.begun haccepted), hphase⟩
  | accept hjudgement =>
      have hwaiting := h.phase rfl
      exact ⟨h.marks, fun _ => hwaiting.1, hjudgement.wp h.marks hwaiting⟩
  | refuse => exact ⟨h.marks, h.begun, trivial⟩
  | judging heffect =>
      obtain ⟨hok, hphase⟩ := h.phase _ _ heffect
      exact ⟨hok, fun haccepted => heffect.begun (h.begun haccepted), hphase⟩
  | judged => exact ⟨h.marks, h.begun, trivial⟩
  | @crash s phase accepted =>
      have hok : (view directory { s with clean := true }).Ok :=
        ⟨h.marks.verdict, h.marks.exclusive, h.marks.marked, h.marks.unmarked,
          h.marks.directory⟩
      refine ⟨hok, h.begun, ?_⟩
      exact Prog.wp_mono (fun _ => id) (fun _ _ hpost => hpost.2)
        (fun _ _ => id) (reconcile_runs hok _ rfl)
  | recovering heffect =>
      obtain ⟨hok, hphase⟩ := h.phase _ _ heffect
      exact ⟨hok, fun haccepted => heffect.begun (h.begun haccepted), hphase⟩
  | recovered => exact ⟨h.marks, h.begun, trivial⟩

theorem Moment.Ok.start {codec : Codec} {directory : Text} {store : Store}
    (hfresh : ∀ marker : Marker,
      store.disk.node? (marker.path directory) = none)
    (eventName : Text) (acceptedAtNs : Int) :
    (Moment.start directory eventName acceptedAtNs store).Ok codec directory := by
  have hnone : ∀ marker, (view directory ⟨store, false, false, true⟩).present
      marker = false := fun marker => by simp [view, hfresh]
  have hok : (view directory ⟨store, false, false, true⟩).Ok :=
    ⟨(hnone _).symm, fun _ => hnone _, nofun, fun _ => hnone, nofun⟩
  refine ⟨hok, nofun, ?_⟩
  refine Prog.wp_mono (fun _ => id) (fun accepted s' hpost haccepted => ?_)
    (fun _ _ => id) (begin_runs hok _ rfl)
  have hsame := hpost haccepted
  refine ⟨hsame.begun.trans rfl, ?_, ?_⟩ <;> simp [hsame.present, hnone]

theorem Reached.ok {codec : Codec} {directory : Text}
    {moment moment' : Moment} (h : Reached codec directory moment moment')
    (hok : moment.Ok codec directory) : moment'.Ok codec directory := by
  induction h with
  | refl => exact hok
  | tail _ hstep ih => exact ih.step hstep

/-! ## Verdicts -/

/--
Once `begin` has returned true there is a marker at every step; a recovery pass
that runs to its end without a failed write leaves exactly one verdict and no
`.pending`, and the verdict is `.complete` if its rename was executed.
-/
theorem accepted_ends_with_verdict {codec : Codec} {directory : Text}
    {store : Store} {eventName : Text} {acceptedAtNs : Int} {moment : Moment}
    (hfresh : ∀ marker : Marker,
      store.disk.node? (marker.path directory) = none)
    (h : Reached codec directory
      (Moment.start directory eventName acceptedAtNs store) moment) :
    (moment.Accepted → moment.tracked.begun = true) ∧
    (moment.tracked.begun = true →
      ∃ marker, (moment.marks directory).present marker = true) ∧
    (∀ result, moment.phase = .recovering (.ret result) →
      moment.tracked.clean = true → moment.tracked.begun = true →
      (moment.marks directory).present .pending = false ∧
      (moment.marks directory).present .failed =
        !(moment.marks directory).present .complete ∧
      (moment.marks directory).present .complete = moment.tracked.published) := by
  have hok := h.ok (Moment.Ok.start hfresh eventName acceptedAtNs)
  refine ⟨?_, hok.marks.marked, fun result hphase hclean hbegun => ?_⟩
  · rintro (haccepted | hphase)
    · exact hok.begun haccepted
    · have hrest := hok.phase
      rw [hphase] at hrest
      exact (hrest rfl).1
  · have hrest := hok.phase
    rw [hphase] at hrest
    have hpending : (moment.marks directory).present .pending = false :=
      hrest hclean
    refine ⟨hpending, ?_, hok.marks.verdict.symm⟩
    cases hcomplete : (moment.marks directory).present .complete with
    | true => exact hok.marks.exclusive hcomplete
    | false =>
        obtain ⟨marker, hmarker⟩ := hok.marks.marked hbegun
        cases marker with
        | pending => exact absurd hmarker (by simp [hpending])
        | complete => exact absurd hmarker (by simp [hcomplete])
        | failed => exact hmarker

/-! ### A crash right after acceptance -/

theorem Elsewhere.refl (directory : Text) (s : Store) :
    Elsewhere directory s s := ⟨rfl, fun _ => rfl⟩

def Tracked.respond (codec : Codec) (directory : Text) (s : Tracked)
    (op : FsOp) : Option (op.Res × Tracked) :=
  match s.store.respond codec op with
  | some (r, store) =>
      if reliable op r then some (r, track directory s op r store) else none
  | none => none

theorem trackedEffect_respond {codec : Codec} {directory : Text}
    {s s' : Tracked} {op : FsOp} {r : op.Res}
    (h : s.respond codec directory op = some (r, s')) :
    TrackedEffect codec directory s op r s' := by
  unfold Tracked.respond at h
  split at h
  next r' store hrespond =>
    split at h <;> cases h
    next hreliable =>
      exact ⟨s.store, store, store, Elsewhere.refl _ _,
        effect_respond hrespond, hreliable, Elsewhere.refl _ _, rfl⟩
  · cases h

theorem Reached.beginning {codec : Codec} {directory : Text} {s s' : Tracked}
    {p p' : Action Bool} {accepted : Bool}
    (h : Prog.Exec (TrackedEffect codec directory) s p s' p') :
    Reached codec directory ⟨s, .beginning p, accepted⟩
      ⟨s', .beginning p', accepted⟩ := by
  induction h with
  | refl => exact .refl
  | step heffect _ ih => exact ih.head (.beginning heffect)

theorem Reached.recovering {codec : Codec} {directory : Text} {s s' : Tracked}
    {p p' : Action ReconcileResult} {accepted : Bool}
    (h : Prog.Exec (TrackedEffect codec directory) s p s' p') :
    Reached codec directory ⟨s, .recovering p, accepted⟩
      ⟨s', .recovering p', accepted⟩ := by
  induction h with
  | refl => exact .refl
  | step heffect _ ih => exact ih.head (.recovering heffect)

def plainCodec : Codec := ⟨fun _ => [], fun _ bytes => bytes⟩

theorem accepted_ends_with_verdict_crash :
    ∃ moment result,
      Reached plainCodec "brake_7"
        (Moment.start "brake_7" "brake" 7 ⟨Disk.blank, 0⟩) moment ∧
      moment.phase = .recovering (.ret result) ∧ moment.accepted = true ∧
      (moment.marks "brake_7").present .pending = false ∧
      (moment.marks "brake_7").present .failed =
        !(moment.marks "brake_7").present .complete ∧
      (moment.marks "brake_7").present .complete = moment.tracked.published := by
  have hrun : Prog.passes (Tracked.respond plainCodec "brake_7")
      (fun accepted s => accepted &&
        Prog.passes (Tracked.respond plainCodec "brake_7")
          (fun _ s' => s'.clean && s'.begun) reconcile { s with clean := true })
      (begin "brake_7" "brake" 7) ⟨⟨Disk.blank, 0⟩, false, false, true⟩ =
        true := by
    decide +kernel
  have heffect := fun s op r s' =>
    @trackedEffect_respond plainCodec "brake_7" s s' op r
  obtain ⟨accepted, s, hbegin, hrest⟩ := Prog.exec_of_passes heffect hrun
  rw [Bool.and_eq_true] at hrest
  obtain ⟨rfl, hreconcile⟩ := hrest
  obtain ⟨result, s', hrecover, hflags⟩ :=
    Prog.exec_of_passes heffect hreconcile
  rw [Bool.and_eq_true] at hflags
  have hreached : Reached plainCodec "brake_7"
      (Moment.start "brake_7" "brake" 7 ⟨Disk.blank, 0⟩)
      ⟨s', .recovering (.ret result), true⟩ :=
    (((Reached.beginning hbegin).tail (.accept (.fail "storage_failed"))).tail
      .crash).trans (Reached.recovering hrecover)
  exact ⟨_, result, hreached, rfl, rfl,
    (accepted_ends_with_verdict (fun _ => rfl) hreached).2.2 result rfl
      hflags.1 hflags.2⟩

end DataCache.EventState
