import DataCache.Lifecycle.Monitored

/-!
# A refused trigger leaves the monitor as it was

The trigger acquires a reservation, the pending marker, an entry among the active
captures and a place in the queue, and gives back what it has when it is refused
one of them.  What it holds is a function of the answers it got, whatever the
other threads do in between.
-/

namespace DataCache.Lifecycle

open DataCache.Foundation DataCache.Storage DataCache.EventState
open DataCache.Capture (Callback CaptureOp CaptureResult CaptureTask Clock
  PairRecord Settings System captureImmediately captureWithPost enqueuePreBatch
  eventDirectoryName filename makeTask recordDataAroundEventDetailed)

/-! ## What a trigger holds -/

/-- Reservations, the table of captures, a pending marker, a job in the queue. -/
structure Stake where
  reserved : Nat
  active : Dict Text CaptureTask
  begun : Bool
  queued : Bool

namespace Stake

def nothing (active : Dict Text CaptureTask) : Stake := ⟨0, active, false, false⟩

def next (stake : Stake) : (op : CaptureOp) → op.Res → Stake
  | .reserve, granted => { stake with
      reserved := bif granted then stake.reserved + 1 else stake.reserved }
  | .releaseReservation, _ => { stake with reserved := stake.reserved - 1 }
  | .enqueue _ reserved, queued => { stake with
      reserved := bif reserved then stake.reserved - 1 else stake.reserved
      queued := stake.queued || queued }
  | .emplaceCapture task, _ => { stake with
      active := stake.active.set task.taskId task }
  | .eraseCapture taskId, _ => { stake with active := stake.active.erase taskId }
  | .beginEvent _ _ _, begun => { stake with begun := stake.begun || begun }
  | .failEvent _ _, _ => { stake with begun := false }
  | _, _ => stake

/-- Only what is held is given back, and only under the trigger's own names. -/
def Allows (own : Text) (stake : Stake) : CaptureOp → Prop
  | .releaseReservation => 0 < stake.reserved
  | .enqueue _ reserved => reserved = true → 0 < stake.reserved
  | .emplaceCapture task => stake.active.get? task.taskId = none
  | .harvestExpired _ _ => False
  | .beginEvent target _ _ => target = own
  | .failEvent target _ => target = own
  | _ => True

end Stake

/-- Whatever the answers, a refusal comes when nothing is held. -/
def GivesBack (own : Text) (active : Dict Text CaptureTask) :
    Stake → Callback CaptureResult → Prop
  | stake, .ret result => result.directory = own ∧
      (result.accepted = false → stake = .nothing active)
  | _, .raise error => error.elim
  | stake, .call op next => stake.Allows own op ∧
      ∀ r, GivesBack own active (stake.next op r) (next r)

section Programs

variable {own : Text} {active : Dict Text CaptureTask}

theorem GivesBack.accepted (stake : Stake) (message : Text) :
    GivesBack own active stake (.ret ⟨true, own, message⟩) :=
  ⟨rfl, nofun⟩

theorem GivesBack.refused (message : Text) :
    GivesBack own active (.nothing active) (.ret ⟨false, own, message⟩) :=
  ⟨rfl, fun _ => rfl⟩

theorem captureImmediately_givesBack (settings : Settings) (clock : Clock)
    (eventName : Text) (startTime eventTime : Int) (pairs : List PairRecord) :
    GivesBack own active (.nothing active)
      (captureImmediately settings clock eventName own startTime eventTime
        pairs) := by
  refine ⟨trivial, ?_⟩
  rintro (_ | _)
  · exact .refused _
  refine ⟨rfl, ?_⟩
  rintro (_ | _)
  · exact ⟨Nat.one_pos, fun _ => .refused _⟩
  refine ⟨trivial, fun records => ⟨fun _ => Nat.one_pos, ?_⟩⟩
  rintro (_ | _)
  · -- The refused job took the reservation with it.
    exact ⟨rfl, fun _ => .refused _⟩
  · exact .accepted _ _

theorem enqueuePreBatch_givesBack {task : CaptureTask}
    (habsent : active.get? task.taskId = none) (settings : Settings)
    (eventName : Text) (startTime eventTime : Int) (pairs : List PairRecord) :
    GivesBack task.directory active
      ⟨1, active.set task.taskId task, true, false⟩
      (enqueuePreBatch settings eventName task.directory task.taskId startTime
        eventTime pairs) := by
  refine ⟨trivial, fun records => ⟨nofun, ?_⟩⟩
  rintro (_ | _)
  · refine ⟨trivial, fun _ => ⟨Nat.one_pos, fun _ => ⟨rfl, fun _ => ⟨rfl, ?_⟩⟩⟩⟩
    intro _
    simp [Stake.nothing, Stake.next, Dict.erase_set_of_absent habsent]
  · exact .accepted _ _

theorem captureWithPost_givesBack {task : CaptureTask}
    (habsent : active.get? task.taskId = none) (settings : Settings)
    (clock : Clock) (eventName : Text) (startTime : Int)
    (pairs : List PairRecord) :
    GivesBack task.directory active (.nothing active)
      (captureWithPost settings clock eventName task startTime pairs) := by
  refine ⟨trivial, ?_⟩
  rintro (_ | _)
  · exact .refused _
  refine ⟨trivial, fun count => ?_⟩
  change GivesBack _ _ _ (@ite _ _ (Nat.decLe _ _) _ _)
  split
  · exact ⟨Nat.one_pos, fun _ => .refused _⟩
  refine ⟨rfl, ?_⟩
  rintro (_ | _)
  · exact ⟨Nat.one_pos, fun _ => .refused _⟩
  · exact ⟨habsent, fun _ =>
      enqueuePreBatch_givesBack habsent settings eventName _ _ pairs⟩

end Programs

/-! ## The state while it is held -/

/-- The state, relative to the state `before` the trigger. -/
structure Holds (before : System) (directory own : Text) (stake : Stake)
    (s : Monitored) : Prop where
  taken : before.consumed <+: s.system.consumed
  jobs : s.system.consumed ++ s.system.storage.jobs =
    before.consumed ++ before.storage.jobs
  reserved : s.system.storage.reservedJobs =
    before.storage.reservedJobs + stake.reserved
  active : s.system.activeCaptures = stake.active
  clear : own = directory → stake.begun = false → s.Clear directory

/-- No job of the directory is queued or taken. -/
def Unqueued (own : Text) (s : System) : Prop :=
  ∀ job ∈ s.consumed ++ s.storage.jobs, job.directory ≠ own

section Holding

variable {codec : Codec} {directory own : Text}
  {answers : (op : FsOp) → op.Res → Prop} {before : System} {stake : Stake}
  {s s' : Monitored}

theorem Holds.untaken (h : Holds before directory own stake s)
    (hnew : Unqueued own before) : ¬JobTaken own s.system := by
  rintro ⟨job, hjob, hdirectory⟩
  refine hnew job ?_ hdirectory
  rw [← h.jobs]
  exact List.mem_append_left _ hjob

theorem Holds.meanwhile (h : Holds before directory own stake s)
    (hnew : Unqueued own before) (hmeanwhile : Meanwhile directory s s') :
    Holds before directory own stake s' := by
  obtain ⟨count, stop, hsystem⟩ := hmeanwhile.worker
  have hjobs : s'.system.consumed ++ s'.system.storage.jobs =
      before.consumed ++ before.storage.jobs := by
    rw [hsystem, ← h.jobs]
    simp only [worked, System.pop, List.append_assoc, List.take_append_drop]
  refine ⟨?_, hjobs, ?_, ?_, fun hown hbegun => ?_⟩
  · rw [hsystem]
    exact h.taken.trans (List.prefix_append _ _)
  · rw [hsystem]
    exact h.reserved
  · rw [hsystem]
    exact h.active
  · refine hmeanwhile.clear (h.clear hown hbegun) ?_
    rintro ⟨job, hjob, rfl⟩
    exact hnew job (hjobs ▸ List.mem_append_left _ hjob) hown.symm

/-- The monitor's own operation, while other threads hold still. -/
theorem Holds.performs {op : CaptureOp} {r : op.Res} {system : System}
    (h : Holds before directory own stake s) (hallows : stake.Allows own op)
    (hqueued : (stake.next op r).queued = false)
    (hbegun : (stake.next op r).begun = false → stake.begun = false)
    (hop : Capture.Performs s.system op r system) :
    Holds before directory own (stake.next op r) { s with system } := by
  have hreserved := h.reserved
  have hcalm : Calm op → (stake.next op r).reserved = stake.reserved →
      (stake.next op r).active = stake.active →
      Holds before directory own (stake.next op r) { s with system } := by
    intro hcalm hsameReserved hsameActive
    obtain ⟨hstorage, hactive, hconsumed, -⟩ := hcalm.same hop
    refine ⟨?_, ?_, ?_, ?_, fun hown hnot => h.clear hown (hbegun hnot)⟩
    · rw [hconsumed]
      exact h.taken
    · rw [hconsumed, hstorage]
      exact h.jobs
    · rw [hstorage, hsameReserved]
      exact h.reserved
    · rw [hactive, hsameActive]
      exact h.active
  cases op with
  | reserve =>
      obtain ⟨rfl, rfl⟩ := hop
      unfold Capture.StorageQueue.reserve
      by_cases hfull : (s.system.storage.stopping || s.system.storage.full) = true
      · rw [if_pos hfull]
        exact ⟨h.taken, h.jobs, h.reserved, h.active, h.clear⟩
      · rw [if_neg hfull]
        exact ⟨h.taken, h.jobs, congrArg (· + 1) h.reserved, h.active, h.clear⟩
  | releaseReservation =>
      cases hop
      have hheld : 0 < stake.reserved := hallows
      refine ⟨h.taken, h.jobs, ?_, h.active, h.clear⟩
      simp only [Capture.StorageQueue.releaseReservation, Stake.next]
      omega
  | enqueue job reserved =>
      obtain ⟨rfl, rfl⟩ := hop
      rcases enqueue_cases s.system job reserved with
        ⟨hgranted, -⟩ | ⟨-, hafter⟩
      · simp [Stake.next, hgranted] at hqueued
      · rw [hafter]
        refine ⟨h.taken, h.jobs, ?_, h.active, h.clear⟩
        have hheld : reserved = true → 0 < stake.reserved := hallows
        cases reserved with
        | true =>
            have hpos := hheld rfl
            simp only [unreserved, Stake.next, cond_true, if_true]
            omega
        | false => exact h.reserved
  | emplaceCapture task =>
      cases hop
      have habsent : s.system.activeCaptures.contains task.taskId = false := by
        have hnone : stake.active.get? task.taskId = none := hallows
        rw [h.active, Dict.contains, hnone]
        rfl
      unfold System.emplaceCapture
      rw [if_neg (by simp [habsent])]
      exact ⟨h.taken, h.jobs, h.reserved,
        congrArg (·.set task.taskId task) h.active, h.clear⟩
  | eraseCapture taskId =>
      cases hop
      exact ⟨h.taken, h.jobs, h.reserved, congrArg (·.erase taskId) h.active,
        h.clear⟩
  | harvestExpired sensorNow steadyNow => exact hallows.elim
  | _ => exact hcalm trivial rfl rfl

/-! ## The markers -/

theorem Holds.begun (h : Holds before directory own stake s) :
    Holds before directory own { stake with begun := true } s :=
  ⟨h.taken, h.jobs, h.reserved, h.active, fun _ => nofun⟩

/-- The operation, answered so, brings neither `.pending` nor `.complete`. -/
def KeepsClear (codec : Codec) (directory : Text) (op : FsOp) (r : op.Res) : Prop :=
  ∀ (s : Monitored) (store : Store), Effect codec s.store op r store →
    s.Clear directory → Monitored.Clear directory { s with store }

theorem Holds.files {op : FsOp} {r : op.Res}
    (h : Holds before directory own stake s) (hnew : Unqueued own before)
    (hop : Files codec directory answers s op r s')
    (hkeeps : stake.begun = false → KeepsClear codec own op r) :
    Holds before directory own stake s' := by
  obtain ⟨middle, store, hbefore, -, heffect, hafter⟩ := hop
  have hmiddle := h.meanwhile hnew hbefore
  have hwritten : Holds before directory own stake { middle with store } := by
    refine ⟨hmiddle.taken, hmiddle.jobs, hmiddle.reserved, hmiddle.active, ?_⟩
    rintro rfl hbegun
    exact hkeeps hbegun middle store heffect (hmiddle.clear rfl hbegun)
  exact hwritten.meanwhile hnew hafter

/-- The writes to the temporary file, and the removals. -/
theorem keepsClear_write {op : FsOp} {r : op.Res}
    (h : ReplaceOp (Marker.path .pending own) op)
    (hwrite : ∀ marker, installs own marker op = false) :
    KeepsClear codec own op r := by
  have hspares : Spares own .failed op :=
    spares_replaceOp (path_ne .failed .pending own nofun) h
  exact fun _ _ heffect hclear =>
    Spares.clear (fun marker => ⟨hspares.1, hwrite marker⟩) heffect hclear

/-- A rename that fails changes nothing. -/
theorem keepsClear_rename (source target : Path) :
    KeepsClear codec own (.rename source target) false := by
  rintro s store (⟨hrenamed, -⟩ | ⟨-, rfl⟩) hclear
  · cases hrenamed
  · exact hclear

/-- Where the program returns true it may have written `.pending`. -/
def Begins (codec : Codec) (directory own : Text)
    (answers : (op : FsOp) → op.Res → Prop) (before : System) (stake : Stake)
    (p : Action Bool) (s : Monitored) : Prop :=
  Prog.wp (Files codec directory answers) (fun _ => True)
    (fun begun => Holds before directory own
      { stake with begun := stake.begun || begun }) (fun _ _ => False) p s

theorem Begins.call {op : FsOp} {next : op.Res → Action Bool}
    (h : ∀ r s', Files codec directory answers s op r s' →
      Begins codec directory own answers before stake (next r) s') :
    Begins codec directory own answers before stake (.call op next) s :=
  fun r s' hop => ⟨trivial, h r s' hop⟩

theorem Begins.failed (h : Holds before directory own stake s) :
    Begins codec directory own answers before stake (.ret false) s := by
  rw [Begins, Prog.wp_ret, Bool.or_false]
  exact h

theorem Begins.succeeded (h : Holds before directory own { stake with begun := true } s) :
    Begins codec directory own answers before stake (.ret true) s := by
  rw [Begins, Prog.wp_ret, Bool.or_true]
  exact h

theorem replaceTarget_begins (hnew : Unqueued own before)
    (h : Holds before directory own stake s) :
    Begins codec directory own answers before stake
      (replaceTarget (Marker.path .pending own)) s := by
  refine .call ?_
  rintro (_ | _) s₁ hop₁
  · have h₁ := h.files hnew hop₁ fun _ => keepsClear_rename _ _
    refine .call fun _ s₂ hop₂ => .call ?_
    have h₂ := h₁.files hnew hop₂ fun _ => keepsClear_write (.inr rfl) fun _ => rfl
    rintro (_ | _) s₃ hop₃
    · have h₃ := h₂.files hnew hop₃ fun _ => keepsClear_rename _ _
      refine .call fun _ s₄ hop₄ => .failed (h₃.files hnew hop₄ fun _ => ?_)
      exact keepsClear_write (.inl rfl) fun _ => rfl
    · have h₃ := h₂.begun.files hnew hop₃ nofun
      exact .call fun _ s₄ hop₄ => .succeeded (h₃.files hnew hop₄ nofun)
  · have h₁ := h.begun.files hnew hop₁ nofun
    exact .call fun _ s₂ hop₂ => .succeeded (h₁.files hnew hop₂ nofun)

theorem begin_begins (hnew : Unqueued own before)
    (h : Holds before directory own stake s) (eventName : Text)
    (acceptedAtNs : Int) :
    Begins codec directory own answers before stake
      (begin own eventName acceptedAtNs) s := by
  refine .call fun made s₁ hop₁ => ?_
  have h₁ := h.files hnew hop₁ fun _ => keepsClear_write rfl fun _ => rfl
  cases made with
  | false => exact .failed h₁
  | true =>
      refine .call fun opened s₂ hop₂ => ?_
      have h₂ := h₁.files hnew hop₂ fun _ => keepsClear_write rfl fun _ => rfl
      cases opened with
      | false => exact .failed h₂
      | true =>
          refine .call fun written s₃ hop₃ => ?_
          have h₃ := h₂.files hnew hop₃ fun _ => keepsClear_write rfl fun _ => rfl
          cases written with
          | false =>
              refine .call fun _ s₄ hop₄ => .failed (h₃.files hnew hop₄ fun _ => ?_)
              exact keepsClear_write (.inl rfl) fun _ => rfl
          | true =>
              refine .call fun _ s₄ hop₄ => replaceTarget_begins hnew ?_
              exact h₃.files hnew hop₄ fun _ => keepsClear_write rfl fun _ => rfl

/-- Nothing fails: every file is written, renamed or removed. -/
def Succeeds (op : FsOp) (r : op.Res) : Prop :=
  reliable op r = true ∧ wroteTemp op r = true

theorem Files.answered {op : FsOp} {r : op.Res}
    (hop : Files codec directory answers s op r s') : answers op r := by
  obtain ⟨_, _, _, hanswers, _⟩ := hop
  exact hanswers

theorem writeAtomically_succeeds (hnew : Unqueued own before)
    (h : Holds before directory own stake s) (hbegun : stake.begun = true)
    (target : Path) (content : Bytes) :
    Prog.wp (Files codec directory Succeeds) (fun _ => True)
      (fun written s' => written = true ∧ Holds before directory own stake s')
      (fun _ _ => False) (EventState.writeAtomically target content) s := by
  have hkeeps : ∀ {s s' : Monitored} {op : FsOp} {r : op.Res},
      Holds before directory own stake s → Files codec directory Succeeds s op r s' →
      Holds before directory own stake s' :=
    fun h hop => h.files hnew hop fun hnot => nomatch hnot.symm.trans hbegun
  intro made s₁ hop₁
  obtain rfl : made = true := hop₁.answered.2
  refine ⟨trivial, fun opened s₂ hop₂ => ?_⟩
  obtain rfl : opened = true := hop₂.answered.2
  refine ⟨trivial, fun written s₃ hop₃ => ?_⟩
  obtain rfl : written = true := hop₃.answered.2
  refine ⟨trivial, fun _ s₄ hop₄ => ⟨trivial, fun renamed s₅ hop₅ => ?_⟩⟩
  obtain rfl : renamed = true := hop₅.answered.1
  refine ⟨trivial, fun _ s₆ hop₆ => ⟨trivial, rfl, ?_⟩⟩
  exact hkeeps (hkeeps (hkeeps (hkeeps (hkeeps (hkeeps h hop₁) hop₂) hop₃) hop₄)
    hop₅) hop₆

theorem removed_absent {store : Store} {marker : Marker} {removed : Bool}
    (hreliable : reliable (.remove (marker.path own)) removed = true)
    (h : Effect codec s.store (.remove (marker.path own)) removed store) :
    Monitored.present own { s with store } marker = false := by
  have hplaced : Placed own (.remove (marker.path own)) := rfl
  rw [Monitored.present, EventState.Effect.present hplaced hreliable h marker]
  simp [removes, installs]

/-- A marker that is gone after the operation does not come back. -/
theorem Holds.gone {op : FsOp} {r : op.Res} {marker : Marker}
    (h : Holds before own own stake s) (hnew : Unqueued own before)
    (hop : Files codec own answers s op r s')
    (hmarker : marker ∈ [Marker.pending, Marker.complete])
    (hgone : ∀ (middle : Monitored) (store : Store), Meanwhile own s middle →
      ¬JobTaken own middle.system → Effect codec middle.store op r store →
      Monitored.present own { middle with store } marker = false) :
    s'.present own marker = false := by
  obtain ⟨middle, store, hbefore, -, heffect, hafter⟩ := hop
  have hmiddle := h.meanwhile hnew hbefore
  have hafterwards : Holds before own own { stake with begun := true } s' := by
    refine Holds.meanwhile ?_ hnew hafter
    exact ⟨hmiddle.taken, hmiddle.jobs, hmiddle.reserved, hmiddle.active, nofun⟩
  have habsent := hgone middle store hbefore (hmiddle.untaken hnew) heffect
  rw [← Bool.not_eq_true] at habsent ⊢
  exact fun hpresent => habsent
    (hafter.vanishing (hafterwards.untaken hnew) marker hmarker hpresent)

theorem fail_clears (hnew : Unqueued own before)
    (h : Holds before directory own stake s) (reason : Text) :
    Prog.wp (Files codec directory Succeeds) (fun _ => True)
      (fun _ => Holds before directory own { stake with begun := false })
      (fun _ _ => False) (fail own reason) s := by
  intro now s₁ hop₁
  have h₁ := h.begun.files hnew hop₁ nofun
  refine ⟨trivial, ?_⟩
  change Prog.wp _ _ _ _ (Prog.bind (EventState.writeAtomically _ _) _) s₁
  refine Prog.wp_bind (Prog.wp_mono (fun _ => id) ?_ (fun _ _ => id)
    (writeAtomically_succeeds hnew h₁ rfl _ _))
  rintro written s₂ ⟨rfl, h₂⟩
  intro removed s₃ hop₃
  have h₃ := h₂.files hnew hop₃ nofun
  refine ⟨trivial, fun removed' s₄ hop₄ => ⟨trivial, ?_⟩⟩
  have h₄ := h₃.files hnew hop₄ nofun
  refine ⟨h₄.taken, h₄.jobs, h₄.reserved, h₄.active, ?_⟩
  rintro rfl -
  have hpending : s₃.present own .pending = false := by
    refine h₂.gone hnew hop₃ (by decide) fun middle store _ _ heffect => ?_
    exact removed_absent hop₃.answered.1 heffect
  have hpending' : s₄.present own .pending = false := by
    refine h₃.gone hnew hop₄ (by decide)
      fun middle store hbefore huntaken heffect => ?_
    rw [← Bool.not_eq_true] at hpending ⊢
    exact fun hafter => hpending (hbefore.vanishing huntaken .pending (by decide)
      ((spares_remove own own .complete .pending).present heffect hafter))
  have hcomplete : s₄.present own .complete = false := by
    refine h₃.gone hnew hop₄ (by decide) fun middle store _ _ heffect => ?_
    exact removed_absent hop₄.answered.1 heffect
  simp [Monitored.Clear, hpending', hcomplete]

/-! ## The trigger -/

theorem Holds.ordinary {op : CaptureOp} {r : op.Res} (hnew : Unqueued own before)
    (h : Holds before directory own stake s) (hallows : stake.Allows own op)
    (hqueued : (stake.next op r).queued = false)
    (hbegun : (stake.next op r).begun = stake.begun)
    (hop : ∃ middle system, Meanwhile directory s middle ∧
      Capture.Performs middle.system op r system ∧
      Meanwhile directory { middle with system } s') :
    Holds before directory own (stake.next op r) s' := by
  obtain ⟨middle, system, hbefore, hperforms, hafter⟩ := hop
  have hmiddle := h.meanwhile hnew hbefore
  exact (hmiddle.performs hallows hqueued (fun hnot => hbegun ▸ hnot)
    hperforms).meanwhile hnew hafter

theorem Holds.monitors {op : CaptureOp} {r : op.Res} (hnew : Unqueued own before)
    (h : Holds before directory own stake s) (hallows : stake.Allows own op)
    (hqueued : (stake.next op r).queued = false)
    (hop : Monitors codec directory Succeeds s op r s') :
    Holds before directory own (stake.next op r) s' := by
  cases op with
  | beginEvent target eventName acceptedAtNs =>
      obtain rfl : target = own := hallows
      exact (Prog.wp_exec hop trivial
        (begin_begins hnew h eventName acceptedAtNs)).2
  | failEvent target reason =>
      obtain rfl : target = own := hallows
      exact (Prog.wp_exec hop trivial (fail_clears hnew h reason)).2
  | _ => exact h.ordinary hnew hallows hqueued rfl hop

theorem Stake.queued_mono {op : CaptureOp} {r : op.Res}
    (h : (stake.next op r).queued = false) : stake.queued = false := by
  cases op with
  | enqueue job reserved => exact (Bool.or_eq_false_iff.mp h).1
  | _ => exact h

theorem GivesBack.wp {active : Dict Text CaptureTask} (hnew : Unqueued own before) :
    ∀ {p : Callback CaptureResult} {stake : Stake} {s : Monitored},
      GivesBack own active stake p →
      (stake.queued = false → Holds before directory own stake s) →
      Prog.wp (Monitors codec directory Succeeds) (fun _ => True)
        (fun result s' => result.directory = own ∧ (result.accepted = false →
          Holds before directory own (.nothing active) s'))
        (fun _ _ => True) p s
  | .ret result, stake, s, hgives, hholds => by
      refine ⟨hgives.1, fun hrefused => ?_⟩
      obtain rfl := hgives.2 hrefused
      exact hholds rfl
  | .raise error, _, _, _, _ => error.elim
  | .call op next, stake, s, hgives, hholds => fun r s' hop =>
      ⟨trivial, GivesBack.wp hnew (hgives.2 r) fun hqueued =>
        (hholds (Stake.queued_mono hqueued)).monitors hnew hgives.1 hqueued hop⟩

end Holding

section Refusal

variable {settings : Settings} {codec : Codec} {directory : Text} {s s' : Monitored}

/-- The name of the next event directory. -/
def nextDirectory (clock : Clock) (eventName : Text) (s : System) : Text :=
  eventDirectoryName eventName s.nextCaptureId clock.systemNowNs

theorem Numbered.unqueued {s : System} (h : Numbered s) (clock : Clock)
    (eventName : Text) : Unqueued (nextDirectory clock eventName s) s :=
  fun job hjob heq => (h.jobs job hjob).filename_ne eventName clock.systemNowNs
    (congrArg filename heq)

theorem Numbered.absent {s : System} (h : Numbered s) (clock : Clock)
    (eventName : Text) :
    s.activeCaptures.get? (filename (nextDirectory clock eventName s)) = none := by
  cases hget : s.activeCaptures.get? (filename (nextDirectory clock eventName s)) with
  | none => rfl
  | some task =>
      obtain ⟨hkey, hnamed⟩ := h.active _ task hget
      exact absurd hkey.symm (hnamed.filename_ne eventName clock.systemNowNs)

theorem Monitored.Sound.holds (h : s.Sound directory) (clock : Clock)
    (eventName : Text) :
    Holds s.system directory (nextDirectory clock eventName s.system)
      (.nothing s.system.activeCaptures) s := by
  refine ⟨List.prefix_refl _, rfl, rfl, rfl, fun hown _ => ?_⟩
  refine h.marked.resolve_left fun hnamed => ?_
  exact hnamed.filename_ne eventName clock.systemNowNs (congrArg filename hown.symm)

theorem recordDataAroundEventDetailed_wp (h : s.Sound directory) (clock : Clock)
    (eventName : Text) :
    Prog.wp (Monitors codec directory Succeeds) (fun _ => True)
      (fun result s' => result.directory = nextDirectory clock eventName s.system ∧
        (result.accepted = false → Holds s.system directory
          (nextDirectory clock eventName s.system)
          (.nothing s.system.activeCaptures) s'))
      (fun _ _ => True)
      (recordDataAroundEventDetailed settings clock eventName) s := by
  have hnew := h.numbered.unqueued clock eventName
  have habsent := h.numbered.absent clock eventName
  have hholds := h.holds clock eventName
  intro _ s₁ hop₁
  have h₁ := hholds.monitors hnew (by trivial) rfl hop₁
  refine ⟨trivial, fun sensorNow s₂ hop₂ => ⟨trivial, ?_⟩⟩
  have h₂ := h₁.monitors hnew (by trivial) rfl hop₂
  intro (captureId : Nat) s₃ hop₃
  have h₃ := h₂.monitors hnew (by trivial) rfl hop₃
  obtain rfl : captureId = s.system.nextCaptureId := by
    obtain ⟨_, _, hbefore₁, ⟨_, rfl⟩, hafter₁⟩ := hop₁
    obtain ⟨_, _, hbefore₂, ⟨_, rfl⟩, hafter₂⟩ := hop₂
    rw [(drawn hop₃).1, hafter₂.captureId, hbefore₂.captureId, hafter₁.captureId]
    exact hbefore₁.captureId
  refine ⟨trivial, GivesBack.wp hnew ⟨trivial, fun pairs => ?_⟩ fun _ => h₃⟩
  change GivesBack _ _ _ (ite _ _ _)
  split
  · exact .refused _
  · split
    · exact captureImmediately_givesBack settings clock eventName _ _ pairs
    · exact @captureWithPost_givesBack _ (makeTask settings clock eventName _ _)
        habsent settings clock eventName _ pairs

/--
A refused trigger leaves reservations and captures as they were, the queue as the
storage worker left it, and its directory without `.pending` and `.complete`.
-/
theorem refused_leaves_unchanged {clock : Clock} {eventName : Text}
    {result : CaptureResult}
    (hreachable : Monitored.Reachable settings codec result.directory s)
    (hexec : Prog.Exec (Monitors codec result.directory Succeeds) s
      (recordDataAroundEventDetailed settings clock eventName) s' (.ret result))
    (hrefused : result.accepted = false) :
    s'.system.storage.reservedJobs = s.system.storage.reservedJobs ∧
    s'.system.activeCaptures = s.system.activeCaptures ∧
    (∃ count, s'.system.storage.jobs = (s.system.pop count).storage.jobs ∧
      s'.system.consumed = (s.system.pop count).consumed) ∧
    s'.present result.directory .pending = false ∧
    s'.present result.directory .complete = false := by
  obtain ⟨hdirectory, hholds⟩ := (Prog.wp_exec hexec trivial
    (recordDataAroundEventDetailed_wp hreachable.sound clock eventName)).2
  have hafter := hholds hrefused
  have hclear := hafter.clear hdirectory.symm rfl
  refine ⟨hafter.reserved, hafter.active, ?_, hclear .pending (by decide),
    hclear .complete (by decide)⟩
  obtain ⟨popped, hpopped⟩ := hafter.taken
  have hjobs : popped ++ s'.system.storage.jobs = s.system.storage.jobs := by
    have hall := hafter.jobs
    rwa [← hpopped, List.append_assoc, List.append_cancel_left_eq] at hall
  refine ⟨popped.length, ?_, ?_⟩
  · simp only [System.pop, ← hjobs, List.drop_left]
  · simp only [System.pop, ← hjobs, List.take_left]
    exact hpopped.symm

/-! ## A refused first batch -/

theorem Meanwhile.refl (directory : Text) (s : Monitored) :
    Meanwhile directory s s := by
  refine ⟨⟨0, false, ?_⟩, fun _ _ _ => id⟩
  simp [worked, System.pop]

/-- A store without faults that answers what succeeds. -/
def respondSoundly (codec : Codec) (store : Store) (op : FsOp) :
    Option (op.Res × Store) :=
  (store.respond codec op).filter fun answer =>
    reliable op answer.1 && wroteTemp op answer.1

theorem files_respondSoundly {op : FsOp} {r : op.Res} {store store' : Store}
    (h : respondSoundly codec store op = some (r, store')) (system : System) :
    Files codec directory Succeeds ⟨system, store⟩ op r ⟨system, store'⟩ := by
  obtain ⟨hrespond, hsucceeds⟩ := Option.filter_eq_some_iff.mp h
  rw [Bool.and_eq_true] at hsucceeds
  exact ⟨_, store', .refl directory _, hsucceeds, effect_respond hrespond,
    .refl directory _⟩

/-- Write the markers on such a store. -/
def Monitored.write (codec : Codec) (s : Monitored) (action : Action Bool) :
    Option (Bool × Monitored) :=
  match Prog.tryRun (fun s op => (respondSoundly codec s.store op).map
    fun answer => (answer.1, { s with store := answer.2 })) action s with
  | some (.ok written, s') => some (written, s')
  | _ => none

theorem exec_write {action : Action Bool} {written : Bool}
    (h : s.write codec action = some (written, s')) :
    Prog.Exec (Files codec directory Succeeds) s action s' (.ret written) := by
  unfold Monitored.write at h
  split at h
  next heq =>
    cases h
    refine Prog.exec_tryRun (fun s op r s' h => ?_) heq
    obtain ⟨⟨r, store⟩, hrespond, hanswer⟩ := Option.map_eq_some_iff.mp h
    cases hanswer
    exact files_respondSoundly hrespond s.system
  · cases h

def Monitored.respond (codec : Codec) (s : Monitored) :
    (op : CaptureOp) → Option (op.Res × Monitored)
  | .beginEvent target eventName acceptedAtNs =>
      s.write codec (begin target eventName acceptedAtNs)
  | .failEvent target reason => s.write codec (fail target reason)
  | op => some ((s.system.respond op).1, { s with system := (s.system.respond op).2 })

theorem monitors_respond {op : CaptureOp} {r : op.Res}
    (h : s.respond codec op = some (r, s')) :
    Monitors codec directory Succeeds s op r s' := by
  have hordinary : ∀ op : CaptureOp, ∃ middle system, Meanwhile directory s middle ∧
      Capture.Performs middle.system op (s.system.respond op).1 system ∧
      Meanwhile directory { middle with system }
        { s with system := (s.system.respond op).2 } := fun op =>
    ⟨s, _, .refl directory s, Capture.performs_respond s.system op,
      .refl directory _⟩
  cases op with
  | beginEvent target eventName acceptedAtNs =>
      exact (exec_write h).mono fun s op r s' ⟨before, store, hbefore, _, hrest⟩ =>
        ⟨before, store, hbefore, trivial, hrest⟩
  | failEvent target reason => exact exec_write h
  | _ => cases h; exact hordinary _

end Refusal

/-- `max_pending_storage_jobs=1`. -/
def tightSettings : Settings where
  config := ⟨fun _ => [],
    fun key value => if key = "max_pending_storage_jobs" then 1 else value,
    fun _ value => value⟩
  requireSyncedData := false

def emptyMonitored : Monitored :=
  ⟨Capture.initial tightSettings 100 0 0, ⟨Disk.blank, 0⟩⟩

/-- The reservation fills the queue, so the first batch is refused. -/
theorem refused_leaves_unchanged_full :
    ∃ (s s' : Monitored) (result : CaptureResult),
      Monitored.Reachable tightSettings plainCodec result.directory s ∧
      result = ⟨false, "brake_0_7", "pre-event storage queue unavailable"⟩ ∧
      s'.present result.directory .failed = true ∧
      s'.system.storage.reservedJobs = s.system.storage.reservedJobs ∧
      s'.system.activeCaptures = s.system.activeCaptures ∧
      (∃ count, s'.system.storage.jobs = (s.system.pop count).storage.jobs ∧
        s'.system.consumed = (s.system.pop count).consumed) ∧
      s'.present result.directory .pending = false ∧
      s'.present result.directory .complete = false := by
  have hrun : Prog.passes (Monitored.respond plainCodec)
      (fun result s => decide (result =
          ⟨false, "brake_0_7", "pre-event storage queue unavailable"⟩) &&
        s.present "brake_0_7" .failed)
      (recordDataAroundEventDetailed tightSettings ⟨0, 7, 0⟩ "brake")
      emptyMonitored = true := by
    decide +kernel
  have hmonitors := fun s op r s' =>
    @monitors_respond plainCodec "brake_0_7" s s' op r
  obtain ⟨result, s', hexec, hcheck⟩ := Prog.exec_of_passes hmonitors hrun
  rw [Bool.and_eq_true] at hcheck
  obtain ⟨hresult, hfailed⟩ := hcheck
  obtain rfl := of_decide_eq_true hresult
  have hreachable : Monitored.Reachable tightSettings plainCodec "brake_0_7"
      emptyMonitored :=
    .start 100 0 0 ⟨Disk.blank, 0⟩ fun _ _ => rfl
  exact ⟨_, s', _, hreachable, rfl, hfailed,
    refused_leaves_unchanged hreachable hexec rfl⟩

end DataCache.Lifecycle
