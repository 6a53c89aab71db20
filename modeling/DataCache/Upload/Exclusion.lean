import Mathlib.Logic.Relation
import DataCache.Upload.Leases

/-!
# Two workers in one record root

The file-system operations of two upload workers interleave in any order, each
with whatever answers and clock readings it gets.  A worker may be restarted at
any time; other threads change anything but that they remove no lease marker.
A worker that checks a marker and then puts its own in place takes several
steps for it, and this is where two of them can meet.
-/

namespace DataCache.Upload

open DataCache.Foundation DataCache.Storage

/-! ## Threads -/

inductive Side where
  | left
  | right
  deriving DecidableEq

def Side.other : Side → Side
  | left => right
  | right => left

@[simp] theorem Side.other_other (side : Side) : side.other.other = side := by
  cases side <;> rfl

@[simp] theorem Side.other_ne (side : Side) : side.other ≠ side := by
  cases side <;> decide

theorem Side.eq_other {side side' : Side} (h : side' ≠ side) :
    side' = side.other := by
  cases side <;> cases side' <;> simp_all [Side.other]

/-- `acquiring` and `uploading` are the two parts of `uploadDirectory`. -/
inductive Thread where
  | waiting
  | searching (rest : Transfer (List Text))
  | choosing (candidates : List Text)
  | acquiring (directory : Text) (rest : Transfer Bool)
      (candidates : List Text)
  | uploading (directory : Text) (rest : Transfer Bool)
      (candidates : List Text)
  | givingUp (directory : Text) (rest : Transfer Bool)
      (candidates : List Text)

/-- Retries and their delays are left open: any candidate may be passed over. -/
inductive Thread.Turns (config : Config) : Thread → Thread → Prop
  | search : Turns config .waiting (.searching (findUploadCandidates config))
  | found {candidates : List Text} :
      Turns config (.searching (.ret candidates)) (.choosing candidates)
  | pass {directory : Text} {candidates : List Text} :
      Turns config (.choosing (directory :: candidates)) (.choosing candidates)
  | acquire {directory : Text} {candidates : List Text} :
      Turns config (.choosing (directory :: candidates)) (.acquiring directory
        (files (acquireLease config directory)) candidates)
  | acquired {directory : Text} {candidates : List Text} :
      Turns config (.acquiring directory (.ret true) candidates)
        (.uploading directory (uploadLeased config directory) candidates)
  | refused {directory : Text} {candidates : List Text} :
      Turns config (.acquiring directory (.ret false) candidates)
        (.choosing candidates)
  | uploaded {directory : Text} {candidates : List Text} {ok : Bool} :
      Turns config (.uploading directory (.ret ok) candidates)
        (.choosing candidates)
  | refusedLast {directory : Text} {candidates : List Text} (attempts : Nat) :
      Turns config (.acquiring directory (.ret false) candidates)
        (.givingUp directory (markFailed directory attempts) candidates)
  | giveUp {directory : Text} {candidates : List Text} (attempts : Nat) :
      Turns config (.uploading directory (.ret false) candidates)
        (.givingUp directory (markFailed directory attempts) candidates)
  | gaveUp {directory : Text} {candidates : List Text} {written : Bool} :
      Turns config (.givingUp directory (.ret written) candidates)
        (.choosing candidates)
  | rest : Turns config (.choosing []) .waiting

/-- The operation a thread is at, and how it goes on from there. -/
inductive Thread.Issues :
    Thread → (op : UploadOp) → (op.Res → Thread) → Prop
  | searching {op : UploadOp} {next : op.Res → Transfer (List Text)} :
      Issues (.searching (.call op next)) op fun r => .searching (next r)
  | acquiring {directory : Text} {op : UploadOp}
      {next : op.Res → Transfer Bool} {candidates : List Text} :
      Issues (.acquiring directory (.call op next) candidates) op
        fun r => .acquiring directory (next r) candidates
  | uploading {directory : Text} {op : UploadOp}
      {next : op.Res → Transfer Bool} {candidates : List Text} :
      Issues (.uploading directory (.call op next) candidates) op
        fun r => .uploading directory (next r) candidates
  | givingUp {directory : Text} {op : UploadOp}
      {next : op.Res → Transfer Bool} {candidates : List Text} :
      Issues (.givingUp directory (.call op next) candidates) op
        fun r => .givingUp directory (next r) candidates

/-! ## Steps -/

/--
The last clock reading, the lease the worker has put in place and not given up,
when it started, the directories where the other has put one in place since
this worker last checked, and what the running program has learned.  None of
these is read by a program.
-/
structure Worker where
  thread : Thread
  clock : Int
  leased : Option Text
  startedAt : Int
  outdated : List Text
  view : Text → View

/-- `now` is the last clock reading of all, `writer` who wrote a marker last. -/
structure World where
  store : Store
  now : Int
  writer : Text → Option Side
  worker : Side → Worker

def Worker.after (config : Config) (worker : Worker) (event : LeaseEvent)
    (thread : Thread) : Worker where
  thread := thread
  clock :=
    match event with
    | .reads now => now
    | _ => worker.clock
  leased := leasedAfter worker.leased event
  startedAt :=
    match event with
    | .installs _ => worker.clock
    | _ => worker.startedAt
  outdated :=
    match event with
    | .checks directory _ => worker.outdated.filter (· ≠ directory)
    | _ => worker.outdated
  view directory := (worker.view directory).after config directory event

def Worker.notice (worker : Worker) : LeaseEvent → Worker
  | .installs directory =>
      { worker with outdated := directory :: worker.outdated }
  | _ => worker

def World.update (w : World) (side : Side) (worker : Worker) : World :=
  { w with worker := Function.update w.worker side worker }

def World.after (config : Config) (w : World) (side : Side)
    (event : LeaseEvent) (thread : Thread) (store : Store) : World where
  store := store
  now :=
    match event with
    | .reads now => now
    | _ => w.now
  writer :=
    match event with
    | .installs directory => Function.update w.writer directory (some side)
    | _ => w.writer
  worker := Function.update (fun other => (w.worker other).notice event) side
    ((w.worker side).after config event thread)

theorem World.update_self (w : World) (side : Side) (worker : Worker) :
    (w.update side worker).worker side = worker :=
  Function.update_self ..

theorem World.update_of_ne {w : World} {side other : Side} {worker : Worker}
    (h : other ≠ side) : (w.update side worker).worker other = w.worker other :=
  Function.update_of_ne h ..

section After

variable (config : Config) (w : World) (side : Side) (event : LeaseEvent)
  (thread : Thread) (store : Store)

theorem World.after_self :
    (w.after config side event thread store).worker side =
      (w.worker side).after config event thread := by
  simp [World.after]

theorem World.after_other :
    (w.after config side event thread store).worker side.other =
      (w.worker side.other).notice event := by
  simp [World.after]

end After

@[simp] theorem Worker.notice_leased (worker : Worker) (event : LeaseEvent) :
    (worker.notice event).leased = worker.leased := by
  cases event <;> rfl

@[simp] theorem Worker.notice_view (worker : Worker) (event : LeaseEvent) :
    (worker.notice event).view = worker.view := by
  cases event <;> rfl

@[simp] theorem Worker.notice_thread (worker : Worker) (event : LeaseEvent) :
    (worker.notice event).thread = worker.thread := by
  cases event <;> rfl

theorem Worker.mem_notice {worker : Worker} {directory : Text}
    (h : directory ∈ worker.outdated) (event : LeaseEvent) :
    directory ∈ (worker.notice event).outdated := by
  cases event with
  | installs other => exact List.mem_cons_of_mem _ h
  | _ => exact h

def Worker.turned (worker : Worker) (thread : Thread) : Worker :=
  { worker with thread := thread, view := fun _ => .barred }

def Worker.restarted (worker : Worker) : Worker :=
  { worker with thread := .waiting, leased := none, view := fun _ => .barred }

/-- Which operations a worker may do now, by what they do to lease markers. -/
abbrev Allowance : Type := World → Side → LeaseEvent → Prop

inductive Step (config : Config) (codec : Codec) (allowed : Allowance)
    (w : World) : World → Prop
  | turn {side : Side} {thread : Thread}
      (h : (w.worker side).thread.Turns config thread) :
      Step config codec allowed w
        (w.update side ((w.worker side).turned thread))
  | act {side : Side} {op : UploadOp} {next : op.Res → Thread} {r : op.Res}
      {store : Store} (hissues : (w.worker side).thread.Issues op next)
      (heffect : UploadEffect codec w.store op r store)
      (hallowed : allowed w side (leaseEvent op r)) :
      Step config codec allowed w
        (w.after config side (leaseEvent op r) (next r) store)
  | restart {side : Side} :
      Step config codec allowed w
        (w.update side (w.worker side).restarted)
  | others {store : Store}
      (h : ∀ directory,
        w.store.disk.isFile (uploadingPath directory) = true →
        store.disk.isFile (uploadingPath directory) = true) :
      Step config codec allowed w { w with store }

abbrev Reaches (config : Config) (codec : Codec) (allowed : Allowance) :
    World → World → Prop :=
  Relation.ReflTransGen (Step config codec allowed)

/-- Two workers that have just started, with anything in the record root. -/
structure Starts (w : World) : Prop where
  waiting : ∀ side, (w.worker side).thread = .waiting
  unleased : ∀ side, (w.worker side).leased = none
  barred : ∀ side directory, (w.worker side).view directory = .barred
  current : ∀ side, (w.worker side).outdated = []
  unwritten : ∀ directory, w.writer directory = none

/-! ## Exclusion -/

/-- The worker has acquired the lease and not released it. -/
def World.Holds (w : World) (side : Side) (directory : Text) : Prop :=
  (w.worker side).leased = some directory ∧ ∃ rest candidates,
    (w.worker side).thread = .uploading directory rest candidates

/-- Of two holders the one that did not write the marker last was first. -/
structure Excludes (config : Config) (codec : Codec) (allowed : Allowance)
    (w : World) : Prop where
  apart : ∀ first directory, w.Holds first directory →
    w.Holds first.other directory → w.writer directory = some first.other →
    config.leaseTimeoutSeconds * Capture.nanosPerSecond ≤
      w.now - (w.worker first).startedAt
  spared : ∀ {side : Side} {op : UploadOp} {next : op.Res → Thread} {r : op.Res}
    {store : Store} {directory : Text},
    (w.worker side).thread.Issues op next →
    UploadEffect codec w.store op r store → allowed w side (leaseEvent op r) →
    w.store.disk.isFile (uploadingPath directory) = true →
    leaseEvent op r = .removes directory true →
    w.writer directory = some side.other → ¬w.Holds side.other directory

/--
What a worker does to the marker of a directory under the other's lease: it
touches the marker only if it has checked it since; such a check succeeds and
finds a start time; and the clock reading to compare is within the lease.
-/
def Careful (config : Config) (w : World) (side : Side) : LeaseEvent → Prop
  | .checks directory startedAt =>
      (w.worker side.other).leased = some directory →
      w.store.disk.isFile (uploadingPath directory) = true → startedAt ≠ none
  | .reads now => ∀ directory,
      (w.worker side.other).leased = some directory →
      directory ∉ (w.worker side).outdated →
      ((w.worker side).view directory).Active config now
  | .removes directory done => done = true →
      (w.worker side.other).leased = some directory →
      directory ∉ (w.worker side).outdated
  | .installs directory =>
      (w.worker side.other).leased = some directory →
      directory ∉ (w.worker side).outdated
  | .nothing => True

instance (config : Config) (w : World) (side : Side) :
    (event : LeaseEvent) → Decidable (Careful config w side event)
  | .checks _ _ => inferInstanceAs (Decidable (_ → _ → _ ≠ _))
  | .reads now => decidable_of_iff
      (∀ directory ∈ (w.worker side.other).leased.toList,
        directory ∉ (w.worker side).outdated →
        ((w.worker side).view directory).Active config now)
      (by simp [Careful, Option.mem_toList])
  | .removes _ _ => inferInstanceAs (Decidable (_ → _ → _ ∉ _))
  | .installs _ => inferInstanceAs (Decidable (_ → _ ∉ _))
  | .nothing => inferInstanceAs (Decidable True)

/-! ## What holds of a worker -/

abbrev Guarded {α : Type} (config : Config) (worker : Worker)
    (p : Transfer α) : Prop :=
  ∀ directory, Wary config directory (fun _ _ => True) p
    (worker.view directory)

/-- What the thread may still do, given its lease and what it has learned. -/
def Worker.Sound (config : Config) (worker : Worker) : Prop :=
  match worker.thread with
  | .waiting => worker.leased = none
  | .choosing _ => worker.leased = none
  | .searching rest => worker.leased = none ∧ rest.uses Searching ∧
      Guarded config worker rest
  | .acquiring directory rest _ => rest.uses (Acquiring directory) ∧
      Acquires directory rest worker.leased ∧ Guarded config worker rest
  | .uploading directory rest _ => rest.uses (Releasing directory) ∧
      Releases rest worker.leased ∧
      (worker.leased = none ∨ worker.leased = some directory)
  | .givingUp _ rest _ => worker.leased = none ∧
      rest.uses fun op => ∀ other, Avoids other op

section Sound

variable {config : Config} {codec : Codec} {worker : Worker} {thread : Thread}
  {op : UploadOp} {next : op.Res → Thread}

theorem Guarded.after {α : Type} {next : op.Res → Transfer α}
    (h : Guarded config worker (.call op next)) (r : op.Res) (thread : Thread) :
    Guarded config (worker.after config (leaseEvent op r) thread) (next r) :=
  fun directory => (h directory).step (fun _ => rfl) rfl

theorem Worker.Sound.turned (h : worker.Sound config)
    (hturns : worker.thread.Turns config thread) :
    (worker.turned thread).Sound config := by
  obtain ⟨current, clock, leased, startedAt, outdated, view⟩ := worker
  cases hturns with
  | search =>
      exact ⟨h, findUploadCandidates_searching, fun _ =>
        (findUploadCandidates_wary settled_barred).mono fun _ _ _ => trivial⟩
  | found => exact h.1
  | pass => exact h
  | acquire =>
      obtain rfl : leased = none := h
      exact ⟨acquireLease_acquiring, acquireLease_acquires,
        fun _ => acquireLease_wary settled_barred⟩
  | acquired =>
      obtain rfl := h.2.1.returned fun _ => rfl
      exact ⟨uploadLeased_releasing, uploadLeased_releases, .inr rfl⟩
  | refused => exact h.2.1.returned fun _ => rfl
  | uploaded => exact h.2.1.returned fun _ => rfl
  | refusedLast attempts =>
      exact ⟨h.2.1.returned fun _ => rfl, markFailed_avoids attempts⟩
  | giveUp attempts =>
      exact ⟨h.2.1.returned fun _ => rfl, markFailed_avoids attempts⟩
  | gaveUp => exact h.1
  | rest => exact h

theorem Worker.Sound.after (h : worker.Sound config)
    (hissues : worker.thread.Issues op next) (r : op.Res) :
    (worker.after config (leaseEvent op r) (next r)).Sound config := by
  obtain ⟨current, clock, leased, startedAt, outdated, view⟩ := worker
  cases hissues with
  | searching =>
      obtain ⟨rfl, huses, hguarded⟩ := h
      exact ⟨leasedAfter_none huses.1.placed_of_installs, huses.2 r,
        hguarded.after r _⟩
  | acquiring =>
      obtain ⟨huses, hacquires, hguarded⟩ := h
      exact ⟨huses.2 r, hacquires.step (fun _ => rfl) rfl, hguarded.after r _⟩
  | uploading =>
      obtain ⟨huses, hreleases, hleased⟩ := h
      refine ⟨huses.2 r, hreleases.step (fun _ => rfl) rfl, ?_⟩
      rcases @leasedAfter_of_handles leased _ op r huses.1 with hnone | hsame
      · exact .inl hnone
      · exact hleased.imp hsame.trans hsame.trans
  | givingUp =>
      obtain ⟨rfl, huses⟩ := h
      exact ⟨leasedAfter_of_avoids huses.1, huses.2 r⟩

theorem Worker.Sound.notice (h : worker.Sound config) (event : LeaseEvent) :
    (worker.notice event).Sound config := by
  cases event <;> exact h

/-- A thread that touches a marker has found it free, or has its lease there. -/
theorem Worker.Sound.touches (h : worker.Sound config)
    (hissues : worker.thread.Issues op next) {r : op.Res} {directory : Text}
    {done : Bool} (htouches : leaseEvent op r = .removes directory done ∨
      leaseEvent op r = .installs directory) :
    worker.view directory = .free ∨ worker.leased = some directory := by
  have hpermits : ∀ {view : View}, view.Permits directory op → view = .free := by
    intro view hview
    cases view with
    | barred =>
        have hop : Avoids directory op := hview
        exact (htouches.elim hop.not_removes hop.not_installs).elim
    | saw startedAt =>
        obtain rfl : op = .fs .systemNow := hview
        rcases htouches with hevent | hevent <;> cases hevent
    | free => rfl
  obtain ⟨current, clock, leased, startedAt, outdated, view⟩ := worker
  cases hissues with
  | searching =>
      exact .inl (hpermits ((h.2.2 directory).issued fun _ => rfl))
  | acquiring =>
      exact .inl (hpermits ((h.2.2 directory).issued fun _ => rfl))
  | uploading =>
      obtain ⟨huses, hreleases, hleased⟩ := h
      refine .inr ?_
      rcases htouches with hevent | hevent
      · obtain rfl := huses.1.removed_of_removes hevent
        refine hleased.resolve_left fun hnone => ?_
        exact (hreleases.issued (fun _ => rfl) hnone _).not_removes hevent
      · exact (huses.1.placed_of_installs hevent).elim
  | givingUp =>
      have hop : Avoids directory op := h.2.1 directory
      exact (htouches.elim hop.not_removes hop.not_installs).elim

theorem Worker.Sound.kept (h : worker.Sound config)
    (hissues : worker.thread.Issues op next) {s s' : Store} {r : op.Res}
    (heffect : UploadEffect codec s op r s') (directory : Text) :
    Disk.SameAt (uploadingPath directory) s.disk s'.disk ∨
      leaseEvent op r = .removes directory true ∨
      leaseEvent op r = .installs directory := by
  have hhandles : ∃ removed placed, Handles removed placed op := by
    obtain ⟨current, clock, leased, startedAt, outdated, view⟩ := worker
    cases hissues with
    | searching => exact ⟨_, _, h.2.1.1⟩
    | acquiring => exact ⟨_, _, h.1.1⟩
    | uploading => exact ⟨_, _, h.1.1⟩
    | givingUp => exact ⟨fun _ => False, fun _ => False, .quiet h.2.1⟩
  obtain ⟨removed, placed, hop⟩ := hhandles
  exact (hop.kept heffect directory).imp_right
    (Or.imp (fun hevent => hevent.1) fun hevent => hevent.1)

end Sound

/-! ## The invariant -/

structure World.Inv (config : Config) (w : World) : Prop where
  sound : ∀ side, (w.worker side).Sound config
  apart : ∀ side directory, (w.worker side).leased = some directory →
    (w.worker side.other).leased ≠ some directory
  marked : ∀ side directory, (w.worker side).leased = some directory →
    w.store.disk.isFile (uploadingPath directory) = true
  warned : ∀ side directory, (w.worker side.other).leased = some directory →
    directory ∉ (w.worker side).outdated →
    (w.worker side).view directory ≠ .free

section Invariant

variable {config : Config} {codec : Codec} {w : World} {side : Side}

theorem Starts.inv (h : Starts w) : w.Inv config where
  sound side := by
    rw [Worker.Sound, h.waiting side]
    exact h.unleased side
  apart side directory hleased := by
    rw [h.unleased side] at hleased
    cases hleased
  marked side directory hleased := by
    rw [h.unleased side] at hleased
    cases hleased
  warned side directory hleased := by
    rw [h.unleased side.other] at hleased
    cases hleased

/-- A worker on its own may forget what it knew and give its lease up. -/
theorem World.Inv.update (h : w.Inv config) {worker : Worker}
    (hsound : worker.Sound config)
    (hleased : ∀ directory, worker.leased = some directory →
      (w.worker side).leased = some directory)
    (hview : ∀ directory, worker.view directory ≠ .free) :
    (w.update side worker).Inv config := by
  have hother : ∀ other directory,
      ((w.update side worker).worker other).leased = some directory →
      (w.worker other).leased = some directory := by
    intro other directory hsome
    by_cases heq : other = side
    · subst heq
      rw [World.update_self] at hsome
      exact hleased directory hsome
    · rwa [World.update_of_ne heq] at hsome
  constructor
  · intro other
    by_cases heq : other = side
    · subst heq
      rwa [World.update_self]
    · rw [World.update_of_ne heq]
      exact h.sound other
  · intro other directory hsome hsome'
    exact h.apart other directory (hother _ _ hsome) (hother _ _ hsome')
  · intro other directory hsome
    exact h.marked other directory (hother _ _ hsome)
  · intro other directory hsome
    have hbefore := hother _ _ hsome
    by_cases heq : other = side
    · subst heq
      rw [World.update_self]
      exact fun _ => hview directory
    · rw [World.update_of_ne heq]
      exact h.warned other directory hbefore

theorem World.Inv.others (h : w.Inv config) {store : Store}
    (hkept : ∀ directory,
      w.store.disk.isFile (uploadingPath directory) = true →
      store.disk.isFile (uploadingPath directory) = true) :
    World.Inv config { w with store } where
  sound := h.sound
  apart := h.apart
  marked other directory hleased :=
    hkept directory (h.marked other directory hleased)
  warned := h.warned

/-- A careful step leaves the marker of a directory under the other's lease. -/
theorem World.Inv.spares (h : w.Inv config) {op : UploadOp}
    {next : op.Res → Thread} (hissues : (w.worker side).thread.Issues op next)
    {r : op.Res} (hcareful : Careful config w side (leaseEvent op r))
    {directory : Text}
    (hleased : (w.worker side.other).leased = some directory) :
    ¬(leaseEvent op r = .removes directory true ∨
      leaseEvent op r = .installs directory) := by
  intro htouches
  have hcurrent : directory ∉ (w.worker side).outdated := by
    rcases htouches with hevent | hevent
    · rw [hevent] at hcareful
      exact hcareful rfl hleased
    · rw [hevent] at hcareful
      exact hcareful hleased
  rcases (h.sound side).touches hissues htouches with hfree | hown
  · exact h.warned side directory hleased hcurrent hfree
  · exact h.apart side directory hown hleased

/-- The view of a careful worker after its step. -/
theorem World.Inv.warned_after (h : w.Inv config) {event : LeaseEvent}
    (hcareful : Careful config w side event) {thread : Thread}
    {directory : Text}
    (hleased : (w.worker side.other).leased = some directory)
    (hcurrent : directory ∉
      ((w.worker side).after config event thread).outdated) :
    ((w.worker side).after config event thread).view directory ≠ .free := by
  have hwarned := h.warned side directory hleased
  cases event with
  | checks other startedAt =>
      change (if other = directory then View.ofCheck startedAt
        else (w.worker side).view directory) ≠ .free
      split
      next heq =>
        subst heq
        cases startedAt with
        | some startedAt => simp [View.ofCheck]
        | none =>
            have hmarked := h.marked side.other other hleased
            exact absurd rfl (hcareful hleased hmarked)
      next hne =>
        refine hwarned fun hmem => hcurrent ?_
        exact List.mem_filter.mpr
          ⟨hmem, decide_eq_true (Ne.symm hne)⟩
  | reads now =>
      have hview := hwarned hcurrent
      change View.after config directory ((w.worker side).view directory)
        (.reads now) ≠ .free
      cases hsaw : (w.worker side).view directory with
      | barred => simp [View.after]
      | free => exact absurd hsaw hview
      | saw startedAt =>
          have hactive := hcareful directory hleased hcurrent
          rw [hsaw] at hactive
          have htime : InTime config startedAt now := hactive
          rw [View.after, if_pos htime]
          simp
  | _ => exact hwarned hcurrent

theorem World.Inv.after (h : w.Inv config) {op : UploadOp}
    {next : op.Res → Thread} (hissues : (w.worker side).thread.Issues op next)
    {r : op.Res} {store : Store}
    (heffect : UploadEffect codec w.store op r store)
    (hcareful : Careful config w side (leaseEvent op r)) :
    (w.after config side (leaseEvent op r) (next r) store).Inv config := by
  have hspares : ∀ directory,
      (w.worker side.other).leased = some directory →
      ¬(leaseEvent op r = .removes directory true ∨
        leaseEvent op r = .installs directory) :=
    fun directory hleased => h.spares hissues hcareful hleased
  have hkept := fun directory =>
    (h.sound side).kept hissues heffect directory
  have hapart : ∀ directory,
      leasedAfter (w.worker side).leased (leaseEvent op r) = some directory →
      (w.worker side.other).leased ≠ some directory := by
    intro directory hown hother
    rcases leasedAfter_eq_some hown with hevent | hbefore
    · exact hspares directory hother (.inr hevent)
    · exact h.apart side directory hbefore hother
  constructor
  · intro other
    by_cases heq : other = side
    · subst heq
      rw [World.after_self]
      exact (h.sound other).after hissues r
    · obtain rfl := Side.eq_other heq
      rw [World.after_other]
      exact (h.sound side.other).notice _
  · intro other directory
    by_cases heq : other = side
    · subst heq
      rw [World.after_self, World.after_other, Worker.notice_leased]
      exact hapart directory
    · obtain rfl := Side.eq_other heq
      rw [Side.other_other, World.after_self, World.after_other,
        Worker.notice_leased]
      exact fun hother hown => hapart directory hown hother
  · intro other directory
    by_cases heq : other = side
    · subst heq
      rw [World.after_self]
      intro hown
      rcases hkept directory with hsame | hevent | hevent
      · rcases leasedAfter_eq_some hown with hevent | hbefore
        · exact isFile_of_installs heffect hevent
        · exact hsame.isFile.trans (h.marked other directory hbefore)
      · rw [hevent] at hown
        exact (@leasedAfter_removes directory _ true hown).elim
      · exact isFile_of_installs heffect hevent
    · obtain rfl := Side.eq_other heq
      rw [World.after_other, Worker.notice_leased]
      intro hother
      have hsame := (hkept directory).resolve_right (hspares directory hother)
      exact hsame.isFile.trans (h.marked side.other directory hother)
  · intro other directory
    by_cases heq : other = side
    · subst heq
      rw [World.after_self, World.after_other, Worker.notice_leased]
      exact h.warned_after hcareful
    · obtain rfl := Side.eq_other heq
      rw [Side.other_other, World.after_self, World.after_other,
        Worker.notice_view]
      intro hown hcurrent
      rcases leasedAfter_eq_some hown with hevent | hbefore
      · rw [hevent] at hcurrent
        exact absurd List.mem_cons_self hcurrent
      · refine h.warned side.other directory ?_
          fun hmem => hcurrent (Worker.mem_notice hmem _)
        rwa [Side.other_other]

theorem Step.inv {w' : World} (h : w.Inv config)
    (hstep : Step config codec (Careful config) w w') : w'.Inv config := by
  cases hstep with
  | @turn side thread hturns =>
      refine h.update ((h.sound side).turned hturns) (fun _ => id) ?_
      exact fun _ => nofun
  | act hissues heffect hcareful => exact h.after hissues heffect hcareful
  | restart => exact h.update rfl nofun fun _ => nofun
  | others hkept => exact h.others hkept

/-- Nobody touches the marker of the other, and no two hold one lease. -/
theorem World.Inv.excludes (h : w.Inv config) :
    Excludes config codec (Careful config) w where
  apart first directory hholds hother _ :=
    absurd hother.1 (h.apart first directory hholds.1)
  spared hissues _ hcareful _ hevent _ hholds :=
    h.spares hissues hcareful hholds.1 (.inl hevent)

theorem excludes_of_careful {w w' : World} (hstarts : Starts w)
    (hreaches : Reaches config codec (Careful config) w w') :
    Excludes config codec (Careful config) w' := by
  have hinv : w'.Inv config := by
    induction hreaches with
    | refl => exact hstarts.inv
    | tail _ hstep ih => exact hstep.inv ih
  exact hinv.excludes

end Invariant

/-! ## Two runs -/

/-- How an upload is answered without faults, by no receiver. -/
def respondUpload (codec : Codec) (s : Store) :
    (op : UploadOp) → Option (op.Res × Store)
  | .fs op => s.respond codec op
  | .lastWriteTime _ => some (none, s)
  | .fileClockNow => some ((0 : Int), s)
  | .takeId => some ((0 : Nat), s)
  | .relative _ path => some (path.getLast?, s)
  | .openRead path => some (s.disk.isFile path, s)
  | .readChunk path offset count =>
      some ((((s.disk.read? path).getD []).drop offset).take count, s)
  | .call _ => some (none, s)

theorem effect_respondUpload {codec : Codec} {s s' : Store} {op : UploadOp}
    {r : op.Res} (h : respondUpload codec s op = some (r, s')) :
    UploadEffect codec s op r s' := by
  cases op with
  | fs op => exact effect_respond h
  | _ =>
      cases h
      rfl

/-- The turn a thread takes when it passes no candidate over. -/
def Thread.turn (config : Config) : Thread → Option Thread
  | .waiting => some (.searching (findUploadCandidates config))
  | .searching (.ret candidates) => some (.choosing candidates)
  | .choosing [] => some .waiting
  | .choosing (directory :: candidates) => some (.acquiring directory
      (files (acquireLease config directory)) candidates)
  | .acquiring directory (.ret true) candidates =>
      some (.uploading directory (uploadLeased config directory) candidates)
  | .acquiring _ (.ret false) candidates => some (.choosing candidates)
  | .uploading _ (.ret _) candidates => some (.choosing candidates)
  | .givingUp _ (.ret _) candidates => some (.choosing candidates)
  | _ => none

def Thread.issued : Thread → Option ((op : UploadOp) × (op.Res → Thread))
  | .searching (.call op next) => some ⟨op, fun r => .searching (next r)⟩
  | .acquiring directory (.call op next) candidates =>
      some ⟨op, fun r => .acquiring directory (next r) candidates⟩
  | .uploading directory (.call op next) candidates =>
      some ⟨op, fun r => .uploading directory (next r) candidates⟩
  | .givingUp directory (.call op next) candidates =>
      some ⟨op, fun r => .givingUp directory (next r) candidates⟩
  | _ => none

def World.advance (config : Config) (codec : Codec)
    (check : World → Side → LeaseEvent → Bool) (w : World) (side : Side) :
    Option World :=
  match (w.worker side).thread.issued with
  | some ⟨op, next⟩ =>
      match respondUpload codec w.store op with
      | some (r, store) =>
          if check w side (leaseEvent op r) then
            some (w.after config side (leaseEvent op r) (next r) store)
          else none
      | none => none
  | none => ((w.worker side).thread.turn config).map fun thread =>
      w.update side ((w.worker side).turned thread)

def World.runs (config : Config) (codec : Codec)
    (check : World → Side → LeaseEvent → Bool) :
    List Side → World → Option World
  | [], w => some w
  | side :: rest, w =>
      (w.advance config codec check side).bind (runs config codec check rest)

section Runs

variable {config : Config} {codec : Codec} {allowed : Allowance}
  {check : World → Side → LeaseEvent → Bool}

theorem Thread.turns_of_turn {thread thread' : Thread}
    (h : thread.turn config = some thread') : thread.Turns config thread' := by
  unfold Thread.turn at h
  split at h <;> cases h
  · exact .search
  · exact .found
  · exact .rest
  · exact .acquire
  · exact .acquired
  · exact .refused
  · exact .uploaded
  · exact .gaveUp

theorem Thread.issues_of_issued {thread : Thread} {op : UploadOp}
    {next : op.Res → Thread} (h : thread.issued = some ⟨op, next⟩) :
    thread.Issues op next := by
  unfold Thread.issued at h
  split at h <;> cases h
  · exact .searching
  · exact .acquiring
  · exact .uploading
  · exact .givingUp

theorem step_of_advance (hcheck : ∀ w side event, check w side event = true →
    allowed w side event) {w w' : World} {side : Side}
    (h : w.advance config codec check side = some w') :
    Step config codec allowed w w' := by
  unfold World.advance at h
  split at h
  next op next hissued =>
    split at h
    next r store hresponse =>
      split at h
      next hchecked =>
        cases h
        exact .act (Thread.issues_of_issued hissued)
          (effect_respondUpload hresponse) (hcheck _ _ _ hchecked)
      · cases h
    · cases h
  · obtain ⟨thread, hturn, rfl⟩ := Option.map_eq_some_iff.mp h
    exact .turn (Thread.turns_of_turn hturn)

theorem reaches_of_runs (hcheck : ∀ w side event, check w side event = true →
    allowed w side event) :
    ∀ {schedule : List Side} {w w' : World},
      w.runs config codec check schedule = some w' →
      Reaches config codec allowed w w'
  | [], _, _, h => by
      cases h
      exact .refl
  | side :: rest, w, w', h => by
      obtain ⟨w₁, hadvance, hrest⟩ := Option.bind_eq_some_iff.mp h
      exact .head (step_of_advance hcheck hadvance)
        (reaches_of_runs hcheck hrest)

/-- The run ends, and the test holds then. -/
theorem reaches_of_any (hcheck : ∀ w side event, check w side event = true →
    allowed w side event) {schedule : List Side} {w : World}
    {test : World → Bool}
    (h : (w.runs config codec check schedule).any test = true) :
    ∃ w', Reaches config codec allowed w w' ∧ test w' = true := by
  obtain ⟨w', hruns, htest⟩ := (Option.any_eq_true _ _).mp h
  exact ⟨w', reaches_of_runs hcheck hruns, htest⟩

end Runs

def World.holding (w : World) (side : Side) (directory : Text) : Bool :=
  decide ((w.worker side).leased = some directory) &&
    match (w.worker side).thread with
    | .uploading other _ _ => decide (other = directory)
    | _ => false

theorem World.holds_of_holding {w : World} {side : Side} {directory : Text}
    (h : w.holding side directory = true) : w.Holds side directory := by
  unfold World.holding at h
  rw [Bool.and_eq_true, decide_eq_true_eq] at h
  obtain ⟨hleased, hthread⟩ := h
  refine ⟨hleased, ?_⟩
  split at hthread
  next other rest candidates hcurrent =>
    rw [decide_eq_true_eq] at hthread
    exact ⟨rest, candidates, hthread ▸ hcurrent⟩
  · cases hthread

def defaultConfig : Config := ⟨"/upload", 3, 1000, 65536, 300, 0⟩

def freshWorker : Worker := ⟨.waiting, 0, none, 0, [], fun _ => .barred⟩

/-- One complete event. -/
def freshRoot : FileSystem :=
  ((Disk.blank.mkdirs [("brake_7" : Text)]).getD .blank).create
    [("brake_7" : Text), ".complete"]

def freshWorld : World :=
  ⟨⟨freshRoot, 0⟩, 0, fun _ => none, fun _ => freshWorker⟩

theorem starts_freshWorld : Starts freshWorld :=
  ⟨fun _ => rfl, fun _ => rfl, fun _ _ => rfl, fun _ => rfl, fun _ => rfl⟩

/-- One worker acquires the lease before the other looks. -/
theorem excludes_second_search :
    ∃ w, w.Holds .left "brake_7" ∧
      Excludes defaultConfig EventState.plainCodec (Careful defaultConfig)
        w := by
  obtain ⟨w, hreaches, hholding⟩ := @reaches_of_any defaultConfig
    EventState.plainCodec (Careful defaultConfig)
    (fun w side event => decide (Careful defaultConfig w side event))
    (fun _ _ _ => of_decide_eq_true)
    (List.replicate 17 .left ++ List.replicate 6 .right) freshWorld
    (fun w => w.holding .left "brake_7") (by decide +kernel)
  exact ⟨w, World.holds_of_holding hholding,
    excludes_of_careful starts_freshWorld hreaches⟩

/-- Both workers check before either of them writes its marker. -/
theorem leases_overlap :
    ¬∀ (config : Config) (codec : Codec) (w w' : World), Starts w →
      Reaches config codec (fun _ _ _ => True) w w' →
      Excludes config codec (fun _ _ _ => True) w' := by
  intro h
  obtain ⟨w, hreaches, htest⟩ := @reaches_of_any defaultConfig
    EventState.plainCodec (fun _ _ _ => True) (fun _ _ _ => true)
    (fun _ _ _ _ => trivial)
    (List.replicate 9 .left ++ List.replicate 9 .right ++
      List.replicate 8 .left ++ List.replicate 8 .right) freshWorld
    (fun w => w.holding .left "brake_7" && w.holding .right "brake_7" &&
      decide (w.writer "brake_7" = some .right) &&
      decide (w.now - (w.worker .left).startedAt = 0)) (by decide +kernel)
  simp only [Bool.and_eq_true, decide_eq_true_eq] at htest
  obtain ⟨⟨⟨hleft, hright⟩, hwriter⟩, hage⟩ := htest
  have hexpired := (h defaultConfig _ _ _ starts_freshWorld hreaches).apart
    .left "brake_7" (World.holds_of_holding hleft)
    (World.holds_of_holding hright) hwriter
  rw [hage] at hexpired
  exact absurd hexpired (by decide)

end DataCache.Upload
