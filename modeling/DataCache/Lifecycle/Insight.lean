import DataCache.Lifecycle.World

/-!
# What a poll may say

A poll calls a recording failed only after it has seen a reason: the marker
`.failed`, or no `.complete` although more than five minutes have passed.  The
reasons it has seen are tracked beside its run.
-/

namespace DataCache.Lifecycle

open DataCache.Foundation DataCache.EventState
open DataCache.Trigger (DataCacheNode EventLifecycle StatusKind)

/--
The last reading of the clock, whether a reason was seen, and whether the
directory was accused without one.
-/
structure Insight where
  now : Int
  reason : Bool
  unfounded : Bool

/-- The operation publishes that the recording in the directory failed. -/
def accuses (directory : Text) : PollOp → Bool
  | .publish update => decide (update.status = .recordFailed ∧
      update.recordDirectory = directory)
  | _ => false

def reveals (directory : Text) (late : Bool) : (op : PollOp) → op.Res → Bool
  | .exists target name, found => decide (target = directory) &&
      (decide (name = ".failed") && found ||
        decide (name = ".complete") && !found && late)
  | _, _ => false

def readClock (now : Int) : (op : PollOp) → op.Res → Int
  | .steadyNow, reading => reading
  | _, _ => now

theorem reveals_exists {directory target name : Text} {late found : Bool} :
    reveals directory late (.exists target name) found = true ↔
      target = directory ∧ (name = ".failed" ∧ found = true ∨
        name = ".complete" ∧ found = false ∧ late = true) := by
  simp only [reveals, Bool.and_eq_true, Bool.or_eq_true, decide_eq_true_eq,
    Bool.not_eq_true', and_assoc]

def Insight.after (directory : Text) (acceptances : List Int) (k : Insight)
    (op : PollOp) (r : op.Res) : Insight where
  now := readClock k.now op r
  reason := k.reason || reveals directory (isLate acceptances k.now) op r
  unfounded := k.unfounded || accuses directory op && !k.reason

def Watches (directory : Text) (acceptances : List Int) :
    Prog.Effect PollOp.Res Insight :=
  fun k op r k' => k' = k.after directory acceptances op r

/-- Every accusation of the program is founded. -/
def Founded {α : Type} (directory : Text) (acceptances : List Int) (p : Poll α)
    (k : Insight) (post : α → Insight → Prop) : Prop :=
  Prog.wp (Watches directory acceptances) (fun k => k.unfounded = false)
    (fun value k => k.unfounded = false ∧ post value k) (fun _ _ => True) p k

/-- The clock was not read again, and what was seen stays seen. -/
structure Insight.Grows (k k' : Insight) : Prop where
  founded : k'.unfounded = false
  now : k'.now = k.now
  reason : k.reason = true → k'.reason = true

theorem Insight.Grows.trans {k k' k'' : Insight} (h : k.Grows k')
    (h' : k'.Grows k'') : k.Grows k'' :=
  ⟨h'.founded, h'.now.trans h.now, h'.reason ∘ h.reason⟩

section Rules

variable {α β : Type} {directory : Text} {acceptances : List Int} {k : Insight}

theorem Founded.ret {value : α} {post : α → Insight → Prop}
    (hk : k.unfounded = false) (h : post value k) :
    Founded directory acceptances (.ret value) k post := ⟨hk, h⟩

theorem Founded.mono {p : Poll α} {post post' : α → Insight → Prop}
    (h : Founded directory acceptances p k post)
    (hpost : ∀ value k', k'.unfounded = false → post value k' → post' value k') :
    Founded directory acceptances p k post' :=
  Prog.wp_mono (fun _ => id)
    (fun value k' hvalue => ⟨hvalue.1, hpost value k' hvalue.1 hvalue.2⟩)
    (fun _ _ => id) h

theorem Founded.bind {p : Poll α} {next : α → Poll β}
    {post : β → Insight → Prop}
    (h : Founded directory acceptances p k fun value k' =>
      Founded directory acceptances (next value) k' post) :
    Founded directory acceptances (p.bind next) k post :=
  Prog.wp_bind (Prog.wp_mono (fun _ => id) (fun _ _ hpost => hpost.2)
    (fun _ _ => id) h)

theorem Founded.publish {lifecycle : EventLifecycle} {status : StatusKind}
    {message : Text} {post : Unit → Insight → Prop} (hk : k.unfounded = false)
    (hreason : status = .recordFailed → lifecycle.directory = directory →
      k.reason = true)
    (h : ∀ k', k.Grows k' → post () k') :
    Founded directory acceptances (publishStatus lifecycle status message) k
      post := by
  rintro _ _ rfl
  have hfounded : (k.unfounded || decide (status = .recordFailed ∧
      lifecycle.directory = directory) && !k.reason) = false := by
    rw [hk, Bool.false_or, Bool.and_eq_false_imp]
    intro haccuses
    rw [decide_eq_true_eq] at haccuses
    rw [hreason haccuses.1 haccuses.2]
    rfl
  refine ⟨hfounded, hfounded, h _ ⟨hfounded, rfl, fun hseen => ?_⟩⟩
  exact Bool.or_eq_true_iff.mpr (.inl hseen)

theorem Founded.markerExists {target name : Text}
    {next : Bool → Poll α} {post : α → Insight → Prop}
    (hk : k.unfounded = false)
    (h : ∀ (found : Bool) (k' : Insight), k.Grows k' →
      (reveals directory (isLate acceptances k.now) (.exists target name) found =
        true → k'.reason = true) →
      Founded directory acceptances (next found) k' post) :
    Founded directory acceptances ((markerExists target name).bind next) k
      post := by
  rintro found _ rfl
  have hfounded : (k.unfounded || false && !k.reason) = false := by
    rw [hk, Bool.false_and, Bool.false_or]
  refine ⟨hfounded, h found _ ⟨hfounded, rfl, fun hseen => ?_⟩ fun hreveals => ?_⟩
  · exact Bool.or_eq_true_iff.mpr (.inl hseen)
  · exact Bool.or_eq_true_iff.mpr (.inr hreveals)

end Rules

/-! ## One lifecycle -/

section Lifecycle

variable {directory : Text} {acceptances : List Int} {k : Insight}
  {node : DataCacheNode} {now : Int} {lifecycle : EventLifecycle}

/-- What a poll leaves of a lifecycle is still about the same capture. -/
def SameCapture (lifecycle : EventLifecycle) (polled : Option EventLifecycle) :
    Prop :=
  ∀ kept ∈ polled, kept.directory = lifecycle.directory ∧
    kept.acceptedAt = lifecycle.acceptedAt

/-- A reason was seen for the timeout to be published. -/
def TimeoutFounded (directory : Text) (now : Int) (stored : Bool)
    (lifecycle : EventLifecycle) (k : Insight) : Prop :=
  lifecycle.directory = directory → stored = false →
    now - lifecycle.acceptedAt > fiveMinutes → k.reason = true

/-- A poll of the lifecycle that started with insight `k`. -/
def PollsTo (lifecycle : EventLifecycle) (k : Insight)
    (polled : Option EventLifecycle) (k' : Insight) : Prop :=
  k.Grows k' ∧ SameCapture lifecycle polled

theorem pollsTo_none {k' : Insight} (h : k.Grows k') :
    PollsTo lifecycle k none k' := ⟨h, nofun⟩

theorem Insight.Grows.refl (hk : k.unfounded = false) : k.Grows k :=
  ⟨hk, rfl, id⟩

theorem expireLifecycle_founded {stored : Bool} (hk : k.unfounded = false)
    (htimeout : TimeoutFounded directory now stored lifecycle k) :
    Founded directory acceptances (expireLifecycle node now stored lifecycle) k
      (PollsTo lifecycle k) := by
  unfold expireLifecycle
  split
  · exact .ret hk (pollsTo_none (.refl hk))
  · split
    next hlate =>
      rw [Bool.and_eq_true, Bool.not_eq_true', decide_eq_true_eq] at hlate
      exact .bind (.publish hk (fun _ hdirectory =>
        htimeout hdirectory hlate.1 hlate.2)
        fun k' hgrows => .ret hgrows.founded (pollsTo_none hgrows))
    · refine .ret hk ⟨.refl hk, fun kept hkept => ?_⟩
      cases hkept
      exact ⟨rfl, rfl⟩

theorem followUpload_founded {stored uploadFailed : Bool}
    (hk : k.unfounded = false)
    (htimeout : TimeoutFounded directory now stored lifecycle k) :
    Founded directory acceptances
      (followUpload node now stored uploadFailed lifecycle) k
      (PollsTo lifecycle k) := by
  unfold followUpload
  split
  · refine .bind ?_
    have hnext : ∀ k', k.Grows k' →
        Founded directory acceptances
          (if !node.uploadFailureAutoRetry then return none
          else expireLifecycle node now stored
            { lifecycle with uploadFailurePublished := true }) k'
          (PollsTo lifecycle k) := by
      intro k' hgrows
      split
      · exact .ret hgrows.founded (pollsTo_none hgrows)
      · refine (expireLifecycle_founded hgrows.founded ?_).mono
          fun polled k'' _ hpolls => ⟨hgrows.trans hpolls.1, hpolls.2⟩
        exact fun hdirectory hstored hlate =>
          hgrows.reason (htimeout hdirectory hstored hlate)
    unfold publishUploadFailed
    split <;> exact .publish hk nofun hnext
  · split
    · exact expireLifecycle_founded hk htimeout
    · exact expireLifecycle_founded hk htimeout

theorem publishStored_founded {stored : Bool}
    {post : EventLifecycle → Insight → Prop} (hk : k.unfounded = false)
    (h : ∀ kept k', k.Grows k' → kept.directory = lifecycle.directory →
      kept.acceptedAt = lifecycle.acceptedAt → post kept k') :
    Founded directory acceptances (publishStored lifecycle stored) k post := by
  unfold publishStored
  split
  · exact .bind (.publish hk nofun fun k' hgrows =>
      .ret hgrows.founded (h _ k' hgrows rfl rfl))
  · exact .ret hk (h _ k (.refl hk) rfl rfl)

theorem pollLifecycle_founded (hk : k.unfounded = false)
    (hlate : lifecycle.directory = directory →
      k.now - lifecycle.acceptedAt > fiveMinutes →
      isLate acceptances k.now = true) :
    Founded directory acceptances (pollLifecycle node k.now lifecycle) k
      (PollsTo lifecycle k) := by
  unfold pollLifecycle
  refine .markerExists hk fun stored k₁ h₁ hstored => ?_
  refine .markerExists h₁.founded fun recordFailed k₂ h₂ hfailed => ?_
  refine .markerExists h₂.founded fun uploaded k₃ h₃ _ => ?_
  refine .markerExists h₃.founded fun uploadFailed k₄ h₄ _ => ?_
  refine .bind (publishStored_founded h₄.founded fun kept k₅ h₅ hdirectory
    hacceptedAt => ?_)
  have hlater := (h₃.trans h₄).trans h₅
  have hall := (h₁.trans h₂).trans hlater
  split
  next hrecordFailed =>
    refine .bind (.publish hall.founded (fun _ hown => ?_)
      fun k' hgrows => .ret hgrows.founded (pollsTo_none (hall.trans hgrows)))
    exact hlater.reason (hfailed (reveals_exists.mpr
      ⟨hdirectory.symm.trans hown, .inl ⟨rfl, hrecordFailed⟩⟩))
  · split
    · exact .bind (.publish hall.founded nofun
        fun k' hgrows => .ret hgrows.founded (pollsTo_none (hall.trans hgrows)))
    · refine (followUpload_founded hall.founded fun hown hnone hover => ?_).mono
        fun polled k' _ hpolls => ⟨hall.trans hpolls.1, fun last hlast => ?_⟩
      · rw [hdirectory] at hown
        rw [hacceptedAt] at hover
        exact (h₂.trans hlater).reason (hstored (reveals_exists.mpr
          ⟨hown, .inr ⟨rfl, hnone, hlate hown hover⟩⟩))
      · obtain ⟨hkept, hkeptAt⟩ := hpolls.2 last hlast
        exact ⟨hkept.trans hdirectory, hkeptAt.trans hacceptedAt⟩

end Lifecycle

/-! ## The whole table -/

/-- Lifecycles in the directory were accepted at one of these times. -/
def Followed (directory : Text) (acceptances : List Int)
    (lifecycles : Dict Text EventLifecycle) : Prop :=
  ∀ triggerId lifecycle, lifecycles.get? triggerId = some lifecycle →
    lifecycle.directory = directory → lifecycle.acceptedAt ∈ acceptances

section Table

variable {directory : Text} {acceptances : List Int} {node : DataCacheNode}

theorem Followed.update {lifecycles : Dict Text EventLifecycle}
    {triggerId : Text} {lifecycle : EventLifecycle}
    {polled : Option EventLifecycle}
    (h : Followed directory acceptances lifecycles)
    (hlifecycle : lifecycles.get? triggerId = some lifecycle)
    (hsame : SameCapture lifecycle polled) :
    Followed directory acceptances
      (updateLifecycle lifecycles triggerId polled) := by
  intro other found hfound hdirectory
  cases polled with
  | none =>
      rw [updateLifecycle, Dict.get?_erase] at hfound
      split at hfound
      · cases hfound
      · exact h other found hfound hdirectory
  | some kept =>
      rw [updateLifecycle, Dict.get?_set] at hfound
      split at hfound
      · cases hfound
        obtain ⟨hown, hacceptedAt⟩ := hsame found rfl
        rw [hacceptedAt]
        exact h triggerId lifecycle hlifecycle (hown.symm.trans hdirectory)
      · exact h other found hfound hdirectory

theorem pollLifecycles_founded {order : List Text} :
    ∀ {lifecycles : Dict Text EventLifecycle} {k : Insight},
      k.unfounded = false → Followed directory acceptances lifecycles →
      Founded directory acceptances (pollLifecycles node k.now order lifecycles)
        k fun polled _ => Followed directory acceptances polled := by
  induction order with
  | nil => exact fun hk hfollowed => .ret hk hfollowed
  | cons triggerId rest ih =>
      intro lifecycles k hk hfollowed
      unfold pollLifecycles
      split
      · exact ih hk hfollowed
      next lifecycle hlifecycle =>
        refine .bind ((pollLifecycle_founded hk fun hown hover => ?_).mono
          fun polled k' hk' hpolls => ?_)
        · exact List.any_eq_true.mpr ⟨_, hfollowed triggerId lifecycle hlifecycle
            hown, decide_eq_true hover⟩
        · rw [← hpolls.1.now]
          exact ih hk' (hfollowed.update hlifecycle hpolls.2)

/-- A poll accuses the directory only for a reason it has seen. -/
theorem pollEventLifecycles_founded {order : List Text} {k : Insight}
    (hk : k.unfounded = false)
    (hfollowed : Followed directory acceptances node.eventLifecycles) :
    Founded directory acceptances (pollEventLifecycles node order) k
      fun polled _ => Followed directory acceptances polled := by
  rintro now k' rfl
  have hfounded : (k.after directory acceptances .steadyNow now).unfounded =
      false := by
    change (k.unfounded || false && !k.reason) = false
    rw [hk, Bool.false_and, Bool.false_or]
  exact ⟨hfounded, @pollLifecycles_founded _ _ _ order _
    (k.after directory acceptances .steadyNow now) hfounded hfollowed⟩

end Table

end DataCache.Lifecycle
