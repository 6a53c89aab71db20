import DataCache.Foundation.Dict
import DataCache.Foundation.Traces
import DataCache.Upload.Worker

/-!
# Retries of the upload worker

The loop of the worker thread: search, upload one directory after another, and
after a failure wait longer and longer before the next attempt.  Searching,
uploading and marking end in any way they like, time passes during every
operation, and the worker may be stopped at any moment.
-/

namespace DataCache.Upload

open DataCache.Foundation

/-! ## Operations -/

structure RetryState where
  attempts : Nat
  nextAttempt : Int
  deriving DecidableEq

inductive RunOp where
  | steadyNow
  | stopping
  | findUploadCandidates
  | findPending (directory : Text)
  | erasePending (directory : Text)
  | countAttempt (directory : Text)
  | schedule (directory : Text) (nextAttempt : Int)
  | uploadDirectory (directory : Text)
  | markFailed (directory : Text) (attempts : Nat)
  | wait

def RunOp.Res : RunOp → Type
  | steadyNow => Int
  | stopping => Bool
  | findUploadCandidates => List Text
  | findPending _ => Option RetryState
  | erasePending _ => Unit
  | countAttempt _ => Nat
  | schedule _ _ => Unit
  | uploadDirectory _ => Bool
  | markFailed _ _ => Bool
  | wait => Unit

abbrev Loop (α : Type) : Type := Prog RunOp.Res Empty α

def issue (op : RunOp) : Loop op.Res := .call op .ret

/-! ## The loop -/

/-- Twice as long after every failure, up to 64 times. -/
def retryDelay (config : Config) (attempts : Nat) : Int :=
  config.retryBackoffMs * 2 ^ min (attempts - 1) 6 * 1000000

def backOff (config : Config) (directory : Text) (attempts : Nat) : Loop Bool := do
  let now : Int ← issue .steadyNow
  let _ ← issue (.schedule directory (now + retryDelay config attempts))
  return true

/-- `false` where the thread returns. -/
def recordFailure (config : Config) (directory : Text) : Loop Bool := do
  let stopping : Bool ← issue .stopping
  if stopping then return false
  else
    let attempts : Nat ← issue (.countAttempt directory)
    if 0 < config.maxRetries ∧ config.maxRetries ≤ attempts then
      let written : Bool ← issue (.markFailed directory attempts)
      if written then
        let _ ← issue (.erasePending directory)
        return true
      else backOff config directory attempts
    else backOff config directory attempts

def tryDirectory (config : Config) (scanNow : Int) (directory : Text) : Loop Bool := do
  let stopping : Bool ← issue .stopping
  if stopping then return false
  else
    let state : Option RetryState ← issue (.findPending directory)
    if state.any fun state => decide (scanNow < state.nextAttempt) then return true
    else
      let uploaded : Bool ← issue (.uploadDirectory directory)
      if uploaded then
        let _ ← issue (.erasePending directory)
        return true
      else recordFailure config directory

def tryDirectories (config : Config) (scanNow : Int) : List Text → Loop Bool
  | [] => return true
  | directory :: rest => do
      let continues ← tryDirectory config scanNow directory
      if continues then tryDirectories config scanNow rest else return false

def scan (config : Config) : Loop Bool := do
  let scanNow : Int ← issue .steadyNow
  let candidates : List Text ← issue .findUploadCandidates
  let continues ← tryDirectories config scanNow candidates
  if !continues then return false
  else
    let stopping : Bool ← issue .stopping
    if stopping then return false
    else
      let _ ← issue .wait
      return true

/-- The first `scans` rounds of the loop. -/
def run (config : Config) : Nat → Loop Unit
  | 0 => return
  | scans + 1 => do
      let continues ← scan config
      if continues then run config scans else return

/-! ## What happens -/

/--
What the thread does to its directories and when: a reading of the clock, an
attempt with the time of its start and whether the worker was stopped by its end,
a failure that is counted, and an attempt to write the marker.
-/
inductive Event where
  | read (now : Int)
  | attempt (directory : Text) (uploaded : Bool) (startedAt : Int) (stopped : Bool)
  | counted (directory : Text) (attempts : Nat)
  | marked (directory : Text) (attempts : Nat) (written : Bool)
  deriving DecidableEq

structure Uploader where
  pending : Dict Text RetryState
  clock : Int
  stopping : Bool
  trace : List Event

def Uploader.starting (clock : Int) (stopping : Bool) : Uploader :=
  ⟨Dict.empty, clock, stopping, []⟩

/-- `pending_[directory]`. -/
def stateOf (pending : Dict Text RetryState) (directory : Text) : RetryState :=
  (pending.get? directory).getD ⟨0, 0⟩

/-- What the thread's own table answers, and what becomes of it. -/
def Answers (s s' : Uploader) : (op : RunOp) → op.Res → Prop
  | .steadyNow, now => now = s'.clock ∧ s'.pending = s.pending
  | .stopping, stopping => stopping = s'.stopping ∧ s'.pending = s.pending
  | .findPending directory, found =>
      found = s.pending.get? directory ∧ s'.pending = s.pending
  | .erasePending directory, _ => s'.pending = s.pending.erase directory
  | .countAttempt directory, attempts =>
      attempts = (stateOf s.pending directory).attempts + 1 ∧
        s'.pending = s.pending.set directory
          { stateOf s.pending directory with attempts := attempts }
  | .schedule directory nextAttempt, _ =>
      s'.pending = s.pending.set directory
        { stateOf s.pending directory with nextAttempt := nextAttempt }
  | _, _ => s'.pending = s.pending

def observed (s s' : Uploader) : (op : RunOp) → op.Res → List Event
  | .steadyNow, now => [.read now]
  | .uploadDirectory directory, uploaded =>
      [.attempt directory uploaded s.clock s'.stopping]
  | .countAttempt directory, attempts => [.counted directory attempts]
  | .markFailed directory attempts, written => [.marked directory attempts written]
  | _, _ => []

/-- The clock never goes back, and a worker that is stopped stays so. -/
def RunEffect : Prog.Effect RunOp.Res Uploader := fun s op r s' =>
  s.clock ≤ s'.clock ∧ (s.stopping = true → s'.stopping = true) ∧
    s'.trace = s.trace ++ observed s s' op r ∧ Answers s s' op r

def Written : (op : RunOp) → op.Res → Prop
  | .markFailed _ _, written => written = true
  | _, _ => True

/-- No write of a marker fails. -/
def WritingEffect : Prog.Effect RunOp.Res Uploader := fun s op r s' =>
  RunEffect s op r s' ∧ Written op r

/-! ## The discipline -/

/-- The failed attempts since the last success and the last marker. -/
def failuresAfter (directory : Text) (count : Nat) : Event → Nat
  | .attempt other uploaded _ _ =>
      if other = directory then if uploaded then 0 else count + 1 else count
  | .marked other _ written => if other = directory ∧ written then 0 else count
  | _ => count

def failures (directory : Text) (trace : List Event) : Nat :=
  trace.foldl (failuresAfter directory) 0

/-- What a run with at most `maxRetries` attempts in a row keeps to. -/
structure Disciplined (config : Config) (maxRetries : Nat) (trace : List Event) :
    Prop where
  /-- What is counted is the attempt that has just failed, unless it was stopped. -/
  counts : ∀ {before directory attempts after},
    trace = before ++ .counted directory attempts :: after →
      attempts = failures directory before ∧
        ∃ front startedAt, before = front ++ [.attempt directory false startedAt false]
  /-- A failure that anything follows is counted at once. -/
  counted : ∀ {before directory startedAt stopped next after},
    trace = before ++ .attempt directory false startedAt stopped :: next :: after →
      ∃ attempts, next = .counted directory attempts
  /-- Nothing follows an attempt by whose end the worker was stopped. -/
  stopped : ∀ {before directory uploaded startedAt after},
    trace = before ++ .attempt directory uploaded startedAt true :: after → after = []
  /-- The delay runs from the reading that follows the count. -/
  waits : ∀ {before directory attempts rest uploaded startedAt stopped after},
    trace = before ++ .counted directory attempts ::
        (rest ++ .attempt directory uploaded startedAt stopped :: after) →
      attempts < maxRetries →
        ∃ now between, rest = .read now :: between ∧
          now + retryDelay config attempts ≤ startedAt
  /-- A marker is written for the last failure only. -/
  marks : ∀ {before directory attempts written after},
    trace = before ++ .marked directory attempts written :: after →
      attempts = maxRetries ∧ ∃ front, before = front ++ [.counted directory maxRetries]
  /-- The last failure that anything follows is marked at once. -/
  marked : ∀ {before directory next after},
    trace = before ++ .counted directory maxRetries :: next :: after →
      next = .marked directory maxRetries true
  /-- No failure goes beyond the last. -/
  bounded : ∀ directory, failures directory trace ≤ maxRetries

/-! ## Laws of single events -/

@[simp] theorem failures_nil (directory : Text) : failures directory [] = 0 := rfl

theorem failures_concat (directory : Text) (trace : List Event) (event : Event) :
    failures directory (trace ++ [event]) =
      failuresAfter directory (failures directory trace) event := by
  simp [failures]

/-- Below the limit a count is followed by a reading, from which the delay runs. -/
def Deadlines (config : Config) (maxRetries : Nat) (trace : List Event)
    (within : Text → Int → Prop) : Prop :=
  ∀ before directory attempts after,
    trace = before ++ .counted directory attempts :: after → attempts < maxRetries →
      ∃ now between, after = .read now :: between ∧
        within directory (now + retryDelay config attempts)

def Allowed (config : Config) (maxRetries : Nat) (before : List Event) : Event → Prop
  | .read _ => True
  | .attempt directory _ startedAt _ =>
      failures directory before < maxRetries ∧
        Deadlines config maxRetries before fun other time =>
          other = directory → time ≤ startedAt
  | .counted directory attempts =>
      attempts = failures directory before ∧
        ∃ front startedAt, before = front ++ [.attempt directory false startedAt false]
  | .marked directory attempts _ =>
      attempts = maxRetries ∧ ∃ front, before = front ++ [.counted directory maxRetries]

/-- No attempt so far ended with the worker stopped. -/
def Running (trace : List Event) : Prop :=
  ∀ directory uploaded startedAt, Event.attempt directory uploaded startedAt true ∉ trace

structure Follows (config : Config) (maxRetries : Nat) (before : List Event)
    (event : Event) : Prop where
  running : Running before
  afterFailure : ∀ {front directory startedAt stopped},
    before = front ++ [.attempt directory false startedAt stopped] →
      ∃ attempts, event = .counted directory attempts
  afterLast : ∀ {front directory}, before = front ++ [.counted directory maxRetries] →
    event = .marked directory maxRetries true
  allowed : Allowed config maxRetries before event

section Laws

variable {config : Config} {maxRetries : Nat} {trace : List Event}

theorem failures_le (h : Justified (Follows config maxRetries) trace)
    (directory : Text) : failures directory trace ≤ maxRetries := by
  induction trace using List.reverseRecOn with
  | nil => simp
  | append_singleton trace event ih =>
      have hbefore := ih fun before x after htrace =>
        h before x (after ++ [event]) (by simp [htrace])
      have hevent := (h trace event [] rfl).allowed
      rw [failures_concat]
      cases event with
      | read now => exact hbefore
      | attempt other uploaded startedAt stopped =>
          simp only [failuresAfter]
          split
          · next hother =>
              have hless := hother ▸ hevent.1
              split
              · exact Nat.zero_le _
              · exact hless
          · exact hbefore
      | counted other attempts => exact hbefore
      | marked other attempts written =>
          simp only [failuresAfter]
          split
          · exact Nat.zero_le _
          · exact hbefore

theorem disciplined_of_justified (h : Justified (Follows config maxRetries) trace) :
    Disciplined config maxRetries trace where
  counts := by
    rintro before directory attempts after rfl
    exact (h before _ after rfl).allowed
  counted := by
    rintro before directory startedAt stopped next after rfl
    exact h.next.afterFailure rfl
  stopped := by
    rintro before directory uploaded startedAt after rfl
    cases after with
    | nil => rfl
    | cons next after =>
        exact absurd (by simp) (h.next.running directory uploaded startedAt)
  waits := by
    rintro before directory attempts rest uploaded startedAt stopped after rfl hless
    have hallowed := (h (before ++ .counted directory attempts :: rest)
      (.attempt directory uploaded startedAt stopped) after (by simp)).allowed
    obtain ⟨now, between, hrest, htime⟩ := hallowed.2 _ _ _ _ rfl hless
    exact ⟨now, between, hrest, htime rfl⟩
  marks := by
    rintro before directory attempts written after rfl
    exact (h before _ after rfl).allowed
  marked := by
    rintro before directory next after rfl
    exact h.next.afterLast rfl
  bounded := failures_le h

theorem Deadlines.mono {within within' : Text → Int → Prop}
    (h : Deadlines config maxRetries trace within)
    (hwithin : ∀ directory time, within directory time → within' directory time) :
    Deadlines config maxRetries trace within' := by
  intro before directory attempts after htrace hless
  obtain ⟨now, between, hafter, htime⟩ := h _ _ _ _ htrace hless
  exact ⟨now, between, hafter, hwithin _ _ htime⟩

theorem Deadlines.concat {within : Text → Int → Prop} {event : Event}
    (h : Deadlines config maxRetries trace within)
    (hevent : ∀ directory attempts, event = .counted directory attempts →
      maxRetries ≤ attempts) :
    Deadlines config maxRetries (trace ++ [event]) within := by
  intro before directory attempts after htrace hless
  rcases concat_eq_append_cons htrace with ⟨-, -, hlast⟩ | ⟨rest, rfl, hbefore⟩
  · exact absurd (hevent _ _ hlast.symm) (by omega)
  · obtain ⟨now, between, rfl, htime⟩ := h _ _ _ _ hbefore hless
    exact ⟨now, between ++ [event], rfl, htime⟩

theorem Deadlines.recorded {within : Text → Int → Prop} {directory : Text}
    {attempts : Nat} {now : Int} (h : Deadlines config maxRetries trace within)
    (htime : within directory (now + retryDelay config attempts)) :
    Deadlines config maxRetries
      (trace ++ [.counted directory attempts] ++ [.read now]) within := by
  intro before other count after htrace hless
  rcases concat_eq_append_cons htrace with ⟨-, -, hlast⟩ | ⟨rest, rfl, hcounted⟩
  · cases hlast
  · rcases concat_eq_append_cons hcounted with
      ⟨rfl, -, hlast⟩ | ⟨rest, rfl, hbefore⟩
    · cases hlast
      exact ⟨now, [], rfl, htime⟩
    · obtain ⟨now', between, rfl, htime'⟩ := h _ _ _ _ hbefore hless
      exact ⟨now', _, rfl, htime'⟩

theorem Running.concat {event : Event} (h : Running trace)
    (hevent : ∀ directory uploaded startedAt,
      event ≠ .attempt directory uploaded startedAt true) :
    Running (trace ++ [event]) := by
  intro directory uploaded startedAt hmem
  rcases List.mem_append.mp hmem with hmem | hmem
  · exact h _ _ _ hmem
  · exact hevent _ _ _ (List.mem_singleton.mp hmem).symm

end Laws

/-! ## Between two directories -/

/-- Nothing has to follow this event. -/
def Event.Settled : Event → Prop
  | .attempt _ uploaded _ _ => uploaded = true
  | .counted _ _ => False
  | _ => True

/-- The time has come, or the table keeps the directory waiting for it. -/
def Waits (s : Uploader) (directory : Text) (time : Int) : Prop :=
  time ≤ s.clock ∨
    ∃ state, s.pending.get? directory = some state ∧ time ≤ state.nextAttempt

/-- The table agrees with the trace whenever the thread turns to a directory. -/
structure Between (config : Config) (maxRetries : Nat) (s : Uploader) : Prop where
  justified : Justified (Follows config maxRetries) s.trace
  settled : ∀ {front event}, s.trace = front ++ [event] → event.Settled
  stopped : ∀ {directory uploaded startedAt},
    Event.attempt directory uploaded startedAt true ∈ s.trace → s.stopping = true
  counts : ∀ directory,
    (stateOf s.pending directory).attempts = failures directory s.trace
  below : ∀ directory, failures directory s.trace < maxRetries
  due : Deadlines config maxRetries s.trace (Waits s)

/-- The attempt on `directory` has ended; what came before is as it was. -/
structure Trying (config : Config) (maxRetries : Nat) (directory : Text)
    (front : List Event) (s : Uploader) : Prop where
  running : Running front
  counts : ∀ other, other ≠ directory →
    (stateOf s.pending other).attempts = failures other front
  below : ∀ other, failures other front < maxRetries
  due : Deadlines config maxRetries front fun other time =>
    time ≤ s.clock ∨ other ≠ directory ∧ Waits s other time

/-- No event, and nothing in the table. -/
structure Quiet (s s' : Uploader) : Prop where
  clock : s.clock ≤ s'.clock
  stopping : s.stopping = true → s'.stopping = true
  trace : s'.trace = s.trace
  pending : s'.pending = s.pending

section Steps

variable {config : Config} {maxRetries : Nat} {directory : Text} {s s' : Uploader}
  {front : List Event}

theorem Waits.later {other : Text} {time : Int} (h : Waits s other time)
    (hclock : s.clock ≤ s'.clock)
    (hpending : s'.pending.get? other = s.pending.get? other) :
    Waits s' other time := by
  rcases h with h | ⟨state, hstate, htime⟩
  · exact .inl (h.trans hclock)
  · exact .inr ⟨state, hpending.trans hstate, htime⟩

theorem Between.quiet (h : Between config maxRetries s) (hquiet : Quiet s s') :
    Between config maxRetries s' where
  justified := hquiet.trace ▸ h.justified
  settled := hquiet.trace ▸ h.settled
  stopped hmem := hquiet.stopping (h.stopped (hquiet.trace ▸ hmem))
  counts := hquiet.trace ▸ hquiet.pending ▸ h.counts
  below := hquiet.trace ▸ h.below
  due := hquiet.trace ▸ h.due.mono fun other time hwaits =>
    hwaits.later hquiet.clock (by rw [hquiet.pending])

theorem Between.running (h : Between config maxRetries s)
    (hstopping : s.stopping = false) : Running s.trace := by
  intro directory uploaded startedAt hmem
  rw [h.stopped hmem] at hstopping
  cases hstopping

theorem Between.follows (h : Between config maxRetries s) (hrunning : Running s.trace)
    {event : Event} (hallowed : Allowed config maxRetries s.trace event) :
    Follows config maxRetries s.trace event where
  running := hrunning
  afterFailure htrace := nomatch h.settled htrace
  afterLast htrace := (h.settled htrace).elim
  allowed := hallowed

theorem Trying.step (h : Trying config maxRetries directory front s)
    (hclock : s.clock ≤ s'.clock)
    (hpending : ∀ other, other ≠ directory →
      s'.pending.get? other = s.pending.get? other) :
    Trying config maxRetries directory front s' where
  running := h.running
  counts other hother := by
    rw [← h.counts other hother, stateOf, stateOf, hpending other hother]
  below := h.below
  due := h.due.mono fun other time hwaits => by
    rcases hwaits with htime | ⟨hother, hwaits⟩
    · exact .inl (htime.trans hclock)
    · exact .inr ⟨hother, hwaits.later hclock (hpending other hother)⟩

theorem Trying.waits (h : Trying config maxRetries directory front s) :
    Deadlines config maxRetries front (Waits s) :=
  h.due.mono fun _ _ hwaits => hwaits.elim .inl And.right

theorem settled_concat {event : Event} (hevent : event.Settled)
    {front' : List Event} {last : Event} (h : front ++ [event] = front' ++ [last]) :
    last.Settled :=
  last_eq h ▸ hevent

/-- What `Trying` leaves to be shown once the thread turns away from the directory. -/
theorem Trying.between {count : Nat} (h : Trying config maxRetries directory front s)
    (hjustified : Justified (Follows config maxRetries) s.trace)
    (hsettled : ∀ {front event}, s.trace = front ++ [event] → event.Settled)
    (hstopped : ∀ {directory uploaded startedAt},
      Event.attempt directory uploaded startedAt true ∈ s.trace → s.stopping = true)
    (hfailures : ∀ other, failures other s.trace =
      if other = directory then count else failures other front)
    (hown : (stateOf s.pending directory).attempts = count)
    (hbelow : count < maxRetries)
    (hdue : Deadlines config maxRetries s.trace (Waits s)) :
    Between config maxRetries s where
  justified := hjustified
  settled := hsettled
  stopped := hstopped
  counts other := by
    rw [hfailures]
    split
    next hother => rw [hother, hown]
    next hother => exact h.counts other hother
  below other := by
    rw [hfailures]
    split
    · exact hbelow
    · exact h.below other
  due := hdue

/-! ### One operation -/

theorem quiet_of_effect {op : RunOp} {r : op.Res} (h : WritingEffect s op r s')
    (hobserved : observed s s' op r = []) (hpending : s'.pending = s.pending) :
    Quiet s s' := by
  obtain ⟨⟨hclock, hstopping, htrace, -⟩, -⟩ := h
  exact ⟨hclock, hstopping, by rw [htrace, hobserved, List.append_nil], hpending⟩

/-- Every execution keeps to the laws, and where it returns, `post` holds. -/
abbrev Keeps {α : Type} (config : Config) (maxRetries : Nat) (p : Loop α)
    (s : Uploader) (post : α → Uploader → Prop) : Prop :=
  Prog.wp WritingEffect (fun s => Justified (Follows config maxRetries) s.trace) post
    (fun _ _ => False) p s

/-- The thread may go on to the next directory. -/
def Continues (config : Config) (maxRetries : Nat) (scanNow : Int) (continues : Bool)
    (s : Uploader) : Prop :=
  continues = true → Between config maxRetries s ∧ scanNow ≤ s.clock

theorem keeps_stopping {α : Type} {next : Bool → Loop α}
    {post : α → Uploader → Prop}
    (hjustified : Justified (Follows config maxRetries) s.trace)
    (hnext : ∀ s', Quiet s s' → Keeps config maxRetries (next s'.stopping) s' post) :
    Keeps config maxRetries ((issue .stopping).bind next) s post := by
  intro stopping s' heffect
  obtain ⟨rfl, hpending⟩ := heffect.1.2.2.2
  have hquiet := quiet_of_effect heffect rfl hpending
  refine ⟨?_, hnext s' hquiet⟩
  show Justified _ s'.trace
  rw [hquiet.trace]
  exact hjustified

theorem keeps_findPending {α : Type} {next : Option RetryState → Loop α}
    {post : α → Uploader → Prop}
    (hjustified : Justified (Follows config maxRetries) s.trace)
    (hnext : ∀ s', Quiet s s' →
      Keeps config maxRetries (next (s.pending.get? directory)) s' post) :
    Keeps config maxRetries ((issue (.findPending directory)).bind next) s post := by
  intro found s' heffect
  obtain ⟨rfl, hpending⟩ := heffect.1.2.2.2
  have hquiet := quiet_of_effect heffect rfl hpending
  refine ⟨?_, hnext s' hquiet⟩
  show Justified _ s'.trace
  rw [hquiet.trace]
  exact hjustified

theorem keeps_uploadDirectory {α : Type} {next : Bool → Loop α}
    {post : α → Uploader → Prop}
    (hnext : ∀ uploaded s', s.clock ≤ s'.clock →
      s'.trace = s.trace ++ [.attempt directory uploaded s.clock s'.stopping] →
      s'.pending = s.pending →
      Justified (Follows config maxRetries) s'.trace ∧
        Keeps config maxRetries (next uploaded) s' post) :
    Keeps config maxRetries ((issue (.uploadDirectory directory)).bind next) s post :=
  fun uploaded s' ⟨⟨hclock, _, htrace, hpending⟩, _⟩ =>
    hnext uploaded s' hclock htrace hpending

theorem keeps_countAttempt {α : Type} {next : Nat → Loop α}
    {post : α → Uploader → Prop}
    (hnext : ∀ attempts s', s.clock ≤ s'.clock →
      s'.trace = s.trace ++ [.counted directory attempts] →
      attempts = (stateOf s.pending directory).attempts + 1 →
      s'.pending = s.pending.set directory
        { stateOf s.pending directory with attempts := attempts } →
      Justified (Follows config maxRetries) s'.trace ∧
        Keeps config maxRetries (next attempts) s' post) :
    Keeps config maxRetries ((issue (.countAttempt directory)).bind next) s post :=
  fun attempts s' ⟨⟨hclock, _, htrace, hattempts, hpending⟩, _⟩ =>
    hnext attempts s' hclock htrace hattempts hpending

/-! ### One attempt -/

/-- The failure has been counted, and the limit is not reached. -/
theorem backOff_keeps {attempts : Nat} {startedAt scanNow : Int}
    (h : Trying config maxRetries directory front s) (hscan : scanNow ≤ s.clock)
    (hjustified : Justified (Follows config maxRetries) s.trace)
    (htrace : s.trace = front ++ [.attempt directory false startedAt false] ++
      [.counted directory attempts])
    (hown : (stateOf s.pending directory).attempts = attempts)
    (hattempts : attempts = failures directory front + 1)
    (hlow : attempts < maxRetries) :
    Keeps config maxRetries (backOff config directory attempts) s
      (Continues config maxRetries scanNow) := by
  have hrunning : Running s.trace := by
    rw [htrace]
    exact (h.running.concat (by simp)).concat (by simp)
  have hfailures : ∀ other, failures other s.trace =
      if other = directory then attempts else failures other front := by
    intro other
    rw [htrace, failures_concat, failures_concat]
    by_cases hother : other = directory
    · simp [failuresAfter, hother, hattempts]
    · simp [failuresAfter, hother, Ne.symm hother]
  intro now s₁ hread
  obtain ⟨⟨hclock₁, hstopping₁, htrace₁, rfl, hpending₁⟩, -⟩ := hread
  have hfollows : Follows config maxRetries s.trace (.read s₁.clock) :=
    { running := hrunning
      afterFailure := fun hlast => by
        rw [htrace] at hlast
        cases last_eq hlast
      afterLast := fun hlast => by
        rw [htrace] at hlast
        cases last_eq hlast
        omega
      allowed := trivial }
  have hjustified₁ : Justified (Follows config maxRetries) s₁.trace :=
    htrace₁ ▸ hjustified.concat hfollows
  refine ⟨hjustified₁, fun _ s₂ hschedule => ?_⟩
  obtain ⟨⟨hclock₂, hstopping₂, htrace₂, hpending₂⟩, -⟩ := hschedule
  replace htrace₁ : s₁.trace = s.trace ++ [.read s₁.clock] := htrace₁
  replace htrace₂ : s₂.trace = s₁.trace := htrace₂.trans (List.append_nil _)
  have hjustified₂ : Justified (Follows config maxRetries) s₂.trace :=
    htrace₂ ▸ hjustified₁
  have htraces : s₂.trace = front ++ [.attempt directory false startedAt false] ++
      [.counted directory attempts] ++ [.read s₁.clock] := by
    rw [htrace₂, htrace₁, htrace]
  have hget : s₂.pending.get? directory =
      some ⟨attempts, s₁.clock + retryDelay config attempts⟩ := by
    rw [hpending₂, Dict.get?_set_self, hpending₁]
    simp only [hown]
  have htrying : Trying config maxRetries directory front s₂ := by
    refine h.step (hclock₁.trans hclock₂) fun other hother => ?_
    rw [hpending₂, Dict.get?_set_ne _ _ (Ne.symm hother), hpending₁]
  have hfailures₂ : ∀ other, failures other s₂.trace =
      if other = directory then attempts else failures other front := by
    intro other
    rw [htrace₂, htrace₁, failures_concat]
    exact hfailures other
  have hdue : Deadlines config maxRetries s₂.trace (Waits s₂) := by
    rw [htraces]
    exact Deadlines.recorded (htrying.waits.concat (by simp))
      (.inr ⟨_, hget, le_rfl⟩)
  refine ⟨hjustified₂, fun _ => ⟨htrying.between hjustified₂ ?_ ?_ hfailures₂ ?_ hlow
    hdue, hscan.trans (hclock₁.trans hclock₂)⟩⟩
  · rw [htraces]
    exact settled_concat (by trivial)
  · intro other uploaded started hmem
    rw [htraces, ← htrace] at hmem
    exact absurd hmem (hrunning.concat (by simp) _ _ _)
  · rw [stateOf, hget]
    rfl

/-- The limit is reached: the marker is written, and the table forgets the directory. -/
theorem mark_keeps {startedAt scanNow : Int} {next : Bool → Loop Bool}
    (h : Trying config maxRetries directory front s) (hscan : scanNow ≤ s.clock)
    (hjustified : Justified (Follows config maxRetries) s.trace)
    (htrace : s.trace = front ++ [.attempt directory false startedAt false] ++
      [.counted directory maxRetries])
    (hnext : next true = (issue (.erasePending directory)).bind fun _ => .ret true) :
    Keeps config maxRetries ((issue (.markFailed directory maxRetries)).bind next) s
      (Continues config maxRetries scanNow) := by
  have hrunning : Running s.trace := by
    rw [htrace]
    exact (h.running.concat (by simp)).concat (by simp)
  intro written s₁ hmark
  obtain ⟨⟨hclock₁, hstopping₁, htrace₁, hpending₁⟩, rfl⟩ := hmark
  have hfollows : Follows config maxRetries s.trace
      (.marked directory maxRetries true) :=
    { running := hrunning
      afterFailure := fun hlast => by
        rw [htrace] at hlast
        cases last_eq hlast
      afterLast := fun hlast => by
        rw [htrace] at hlast
        cases last_eq hlast
        rfl
      allowed := ⟨rfl, _, htrace⟩ }
  have hjustified₁ : Justified (Follows config maxRetries) s₁.trace :=
    htrace₁ ▸ hjustified.concat hfollows
  refine ⟨hjustified₁, ?_⟩
  show Keeps config maxRetries (next true) s₁ _
  rw [hnext]
  intro _ s₂ herase
  obtain ⟨⟨hclock₂, hstopping₂, htrace₂, hpending₂⟩, -⟩ := herase
  replace htrace₁ : s₁.trace = s.trace ++ [.marked directory maxRetries true] :=
    htrace₁
  replace htrace₂ : s₂.trace = s₁.trace := htrace₂.trans (List.append_nil _)
  have hjustified₂ : Justified (Follows config maxRetries) s₂.trace :=
    htrace₂ ▸ hjustified₁
  have htraces := htrace₂.trans htrace₁
  have htrying : Trying config maxRetries directory front s₂ := by
    refine h.step (hclock₁.trans hclock₂) fun other hother => ?_
    rw [hpending₂, Dict.get?_erase_ne _ (Ne.symm hother), hpending₁]
  have hfailures : ∀ other, failures other s₂.trace =
      if other = directory then 0 else failures other front := by
    intro other
    rw [htraces, htrace, failures_concat, failures_concat, failures_concat]
    by_cases hother : other = directory
    · simp [failuresAfter, hother]
    · simp [failuresAfter, hother, Ne.symm hother]
  have hdue : Deadlines config maxRetries s₂.trace (Waits s₂) := by
    rw [htraces, htrace]
    refine ((htrying.waits.concat (by simp)).concat ?_).concat (by simp)
    rintro other attempts hevent
    cases hevent
    exact le_rfl
  have hbelow : 0 < maxRetries :=
    lt_of_le_of_lt (Nat.zero_le _) (h.below directory)
  refine ⟨hjustified₂, fun _ => ⟨htrying.between hjustified₂ ?_ ?_ hfailures ?_ hbelow
    hdue, hscan.trans (hclock₁.trans hclock₂)⟩⟩
  · rw [htraces]
    exact settled_concat (by trivial)
  · intro other uploaded started hmem
    rw [htraces] at hmem
    exact absurd hmem (hrunning.concat (by simp) _ _ _)
  · rw [stateOf, hpending₂, Dict.get?_erase_self]
    rfl

theorem recordFailure_keeps {startedAt scanNow : Int} {stopped : Bool}
    (hN : config.maxRetries = maxRetries)
    (h : Trying config maxRetries directory front s) (hscan : scanNow ≤ s.clock)
    (hjustified : Justified (Follows config maxRetries) s.trace)
    (htrace : s.trace = front ++ [.attempt directory false startedAt stopped])
    (hstopped : stopped = true → s.stopping = true)
    (hown : (stateOf s.pending directory).attempts = failures directory front) :
    Keeps config maxRetries (recordFailure config directory) s
      (Continues config maxRetries scanNow) := by
  refine keeps_stopping hjustified fun s₁ hquiet => ?_
  cases hstopping : s₁.stopping with
  | true => exact fun hcontinues => nomatch hcontinues
  | false =>
      have hunstopped : stopped = false := by
        cases hflag : stopped with
        | true => simp [hquiet.stopping (hstopped hflag)] at hstopping
        | false => rfl
      subst hunstopped
      have hrunning : Running s.trace := htrace ▸ h.running.concat (by simp)
      refine keeps_countAttempt fun attempts s₂ hclock₂ htrace₂ hattempts hpending₂ => ?_
      rw [hquiet.pending, hown] at hattempts
      rw [hquiet.pending] at hpending₂
      rw [hquiet.trace] at htrace₂
      have hfollows : Follows config maxRetries s.trace (.counted directory attempts) :=
        { running := hrunning
          afterFailure := fun hlast => by
            rw [htrace] at hlast
            cases last_eq hlast
            exact ⟨attempts, rfl⟩
          afterLast := fun hlast => by
            rw [htrace] at hlast
            cases last_eq hlast
          allowed := by
            refine ⟨?_, front, startedAt, htrace⟩
            rw [hattempts, htrace, failures_concat]
            simp [failuresAfter] }
      have hjustified₂ : Justified (Follows config maxRetries) s₂.trace :=
        htrace₂ ▸ hjustified.concat hfollows
      have htrying : Trying config maxRetries directory front s₂ := by
        refine h.step (hquiet.clock.trans hclock₂) fun other hother => ?_
        rw [hpending₂, Dict.get?_set_ne _ _ (Ne.symm hother)]
      have hscan₂ := hscan.trans (hquiet.clock.trans hclock₂)
      have hlimit : attempts ≤ maxRetries := by
        have hbelow := h.below directory
        omega
      rw [htrace] at htrace₂
      refine ⟨hjustified₂, ?_⟩
      by_cases hlast : attempts = maxRetries
      · subst hlast
        rw [if_pos ⟨by omega, by omega⟩]
        exact mark_keeps htrying hscan₂ hjustified₂ htrace₂ rfl
      · rw [if_neg (by omega)]
        refine backOff_keeps htrying hscan₂ hjustified₂ htrace₂ ?_ hattempts (by omega)
        rw [hpending₂, stateOf, Dict.get?_set_self]
        rfl

/-- A success is forgotten. -/
theorem erasePending_keeps {startedAt scanNow : Int} {stopped : Bool}
    (h : Trying config maxRetries directory front s) (hscan : scanNow ≤ s.clock)
    (hjustified : Justified (Follows config maxRetries) s.trace)
    (htrace : s.trace = front ++ [.attempt directory true startedAt stopped])
    (hstopped : stopped = true → s.stopping = true) :
    Keeps config maxRetries ((issue (.erasePending directory)).bind fun _ => .ret true) s
      (Continues config maxRetries scanNow) := by
  intro _ s₁ herase
  obtain ⟨⟨hclock₁, hstopping₁, htrace₁, hpending₁⟩, -⟩ := herase
  replace htrace₁ : s₁.trace = s.trace := htrace₁.trans (List.append_nil _)
  have hjustified₁ : Justified (Follows config maxRetries) s₁.trace :=
    htrace₁ ▸ hjustified
  rw [htrace] at htrace₁
  have htrying : Trying config maxRetries directory front s₁ := by
    refine h.step hclock₁ fun other hother => ?_
    rw [hpending₁, Dict.get?_erase_ne _ (Ne.symm hother)]
  have hfailures : ∀ other, failures other s₁.trace =
      if other = directory then 0 else failures other front := by
    intro other
    rw [htrace₁, failures_concat]
    by_cases hother : other = directory
    · simp [failuresAfter, hother]
    · simp [failuresAfter, hother, Ne.symm hother]
  have hdue : Deadlines config maxRetries s₁.trace (Waits s₁) := by
    rw [htrace₁]
    exact htrying.waits.concat (by simp)
  have hbelow : 0 < maxRetries :=
    lt_of_le_of_lt (Nat.zero_le _) (h.below directory)
  refine ⟨hjustified₁, fun _ => ⟨htrying.between hjustified₁ ?_ ?_ hfailures ?_ hbelow
    hdue, hscan.trans hclock₁⟩⟩
  · rw [htrace₁]
    exact settled_concat (by exact rfl)
  · intro other uploaded started hmem
    rw [htrace₁] at hmem
    rcases List.mem_append.mp hmem with hmem | hmem
    · exact absurd hmem (h.running _ _ _)
    · cases List.mem_singleton.mp hmem
      exact hstopping₁ (hstopped rfl)
  · rw [stateOf, hpending₁, Dict.get?_erase_self]
    rfl

/-- One directory of the scan. -/
theorem tryDirectory_keeps {scanNow : Int} (hN : config.maxRetries = maxRetries)
    (h : Between config maxRetries s) (hscan : scanNow ≤ s.clock) :
    Keeps config maxRetries (tryDirectory config scanNow directory) s
      (Continues config maxRetries scanNow) := by
  refine keeps_stopping h.justified fun s₁ hquiet₁ => ?_
  cases hstopping : s₁.stopping with
  | true => exact fun hcontinues => nomatch hcontinues
  | false =>
      have hbetween₁ := h.quiet hquiet₁
      refine keeps_findPending hbetween₁.justified fun s₂ hquiet₂ => ?_
      have hbetween := hbetween₁.quiet hquiet₂
      have hrunning : Running s₂.trace :=
        hquiet₂.trace ▸ hbetween₁.running hstopping
      have hscan₂ := hscan.trans (hquiet₁.clock.trans hquiet₂.clock)
      split
      · exact fun _ => ⟨hbetween, hscan₂⟩
      next hdue =>
        refine keeps_uploadDirectory fun uploaded s₃ hclock₃ htrace₃ hpending₃ => ?_
        -- The scan was late enough for every delay of this directory.
        have hover : ∀ time, Waits s₂ directory time → time ≤ s₂.clock := by
          rintro time (htime | ⟨state, hstate, htime⟩)
          · exact htime
          · rw [hquiet₂.pending] at hstate
            have hnext : ¬scanNow < state.nextAttempt := by simpa [hstate] using hdue
            omega
        have hjustified₃ : Justified (Follows config maxRetries) s₃.trace := by
          rw [htrace₃]
          refine hbetween.justified.concat (hbetween.follows hrunning
            ⟨hbetween.below directory, hbetween.due.mono ?_⟩)
          rintro other time hwaits rfl
          exact hover time hwaits
        have htrying : Trying config maxRetries directory s₂.trace s₃ :=
          { running := hrunning
            counts := fun other _ => hpending₃ ▸ hbetween.counts other
            below := hbetween.below
            due := hbetween.due.mono fun other time hwaits => by
              by_cases hother : other = directory
              · exact .inl ((hover time (hother ▸ hwaits)).trans hclock₃)
              · exact .inr ⟨hother, hwaits.later hclock₃ (by rw [hpending₃])⟩ }
        have hscan₃ := hscan₂.trans hclock₃
        refine ⟨hjustified₃, ?_⟩
        cases uploaded with
        | true => exact erasePending_keeps htrying hscan₃ hjustified₃ htrace₃ id
        | false =>
            exact recordFailure_keeps hN htrying hscan₃ hjustified₃ htrace₃ id
              (hpending₃ ▸ hbetween.counts directory)

/-! ### The loop -/

theorem tryDirectories_keeps {scanNow : Int} (hN : config.maxRetries = maxRetries) :
    ∀ {candidates : List Text} {s : Uploader}, Between config maxRetries s →
      scanNow ≤ s.clock →
      Keeps config maxRetries (tryDirectories config scanNow candidates) s
        (Continues config maxRetries scanNow)
  | [], _, h, hscan => fun _ => ⟨h, hscan⟩
  | directory :: candidates, s, h, hscan => by
      refine Prog.wp_bind (Prog.wp_mono (fun _ => id) ?_ (fun _ _ => id)
        (tryDirectory_keeps hN h hscan))
      intro continues s' hcontinues
      cases continues with
      | true =>
          obtain ⟨hbetween, hscan'⟩ := hcontinues rfl
          exact tryDirectories_keeps hN hbetween hscan'
      | false => exact fun hfalse => nomatch hfalse

/-- The reading that a scan starts with. -/
theorem keeps_steadyNow {α : Type} {next : Int → Loop α} {post : α → Uploader → Prop}
    (h : Between config maxRetries s) (hrunning : Running s.trace)
    (hnext : ∀ s', Between config maxRetries s' →
      Keeps config maxRetries (next s'.clock) s' post) :
    Keeps config maxRetries ((issue .steadyNow).bind next) s post := by
  intro now s' heffect
  obtain ⟨⟨hclock, hstopping, htrace, rfl, hpending⟩, -⟩ := heffect
  replace htrace : s'.trace = s.trace ++ [.read s'.clock] := htrace
  have hfailures : ∀ other, failures other s'.trace = failures other s.trace := by
    intro other
    rw [htrace, failures_concat]
    rfl
  have hbetween : Between config maxRetries s' :=
    { justified := htrace ▸ h.justified.concat (h.follows hrunning trivial)
      settled := fun hlast => by
        rw [htrace] at hlast
        cases last_eq hlast
        trivial
      stopped := fun hmem => by
        rw [htrace] at hmem
        exact absurd hmem (hrunning.concat (by simp) _ _ _)
      counts := fun other => by rw [hpending, hfailures, h.counts]
      below := fun other => (hfailures other).symm ▸ h.below other
      due := htrace ▸ (h.due.concat (by simp)).mono fun other time hwaits =>
        hwaits.later hclock (by rw [hpending]) }
  exact ⟨hbetween.justified, hnext s' hbetween⟩

theorem keeps_findUploadCandidates {α : Type} {next : List Text → Loop α}
    {post : α → Uploader → Prop}
    (hjustified : Justified (Follows config maxRetries) s.trace)
    (hnext : ∀ candidates s', Quiet s s' →
      Keeps config maxRetries (next candidates) s' post) :
    Keeps config maxRetries ((issue .findUploadCandidates).bind next) s post := by
  intro candidates s' heffect
  have hquiet := quiet_of_effect heffect rfl heffect.1.2.2.2
  refine ⟨?_, hnext candidates s' hquiet⟩
  show Justified _ s'.trace
  rw [hquiet.trace]
  exact hjustified

theorem scan_keeps (hN : config.maxRetries = maxRetries)
    (h : Between config maxRetries s) (hrunning : Running s.trace) :
    Keeps config maxRetries (scan config) s fun continues s' =>
      continues = true → Between config maxRetries s' ∧ Running s'.trace := by
  refine keeps_steadyNow h hrunning fun s₁ h₁ => ?_
  refine keeps_findUploadCandidates h₁.justified fun candidates s₂ hquiet₂ => ?_
  refine Prog.wp_bind (Prog.wp_mono (fun _ => id) ?_ (fun _ _ => id)
    (tryDirectories_keeps hN (h₁.quiet hquiet₂) hquiet₂.clock))
  intro continues s₃ hcontinues
  cases continues with
  | false => exact fun hfalse => nomatch hfalse
  | true =>
      have h₃ := (hcontinues rfl).1
      refine keeps_stopping h₃.justified fun s₄ hquiet₄ => ?_
      cases hstopping : s₄.stopping with
      | true => exact fun hfalse => nomatch hfalse
      | false =>
          have h₄ := h₃.quiet hquiet₄
          intro _ s₅ hwait
          have hquiet₅ := quiet_of_effect hwait rfl hwait.1.2.2.2
          have h₅ := h₄.quiet hquiet₅
          exact ⟨h₅.justified, fun _ => ⟨h₅, hquiet₅.trace ▸ h₄.running hstopping⟩⟩

theorem run_keeps (hN : config.maxRetries = maxRetries) :
    ∀ {scans : Nat} {s : Uploader}, Between config maxRetries s → Running s.trace →
      Keeps config maxRetries (run config scans) s fun _ _ => True
  | 0, _, _, _ => trivial
  | scans + 1, s, h, hrunning => by
      refine Prog.wp_bind (Prog.wp_mono (fun _ => id) ?_ (fun _ _ => id)
        (scan_keeps hN h hrunning))
      intro continues s' hcontinues
      cases continues with
      | true =>
          obtain ⟨hbetween, hrunning'⟩ := hcontinues rfl
          exact run_keeps hN hbetween hrunning'
      | false => trivial

theorem between_starting (hpos : 0 < maxRetries) (clock : Int) (stopping : Bool) :
    Between config maxRetries (.starting clock stopping) where
  justified := .nil _
  settled h := by simp [Uploader.starting] at h
  stopped h := nomatch h
  counts _ := rfl
  below _ := hpos
  due := by
    intro before directory attempts after h
    simp [Uploader.starting] at h

end Steps

/--
Every run keeps to the discipline: any candidates, any outcome of an attempt, any
clock that does not go back, and the worker stopped at any time.
-/
theorem retries_disciplined {config : Config} {maxRetries scans : Nat} {clock : Int}
    {stopping : Bool} {s : Uploader} {rest : Loop Unit}
    (hN : config.maxRetries = maxRetries) (hpos : 0 < maxRetries)
    (hexec : Prog.Exec WritingEffect (.starting clock stopping) (run config scans) s
      rest) :
    Disciplined config maxRetries s.trace := by
  have hkeeps : Keeps config maxRetries (run config scans) (.starting clock stopping)
      fun _ _ => True :=
    run_keeps hN (between_starting hpos clock stopping) fun _ _ _ hmem => nomatch hmem
  exact disciplined_of_justified (Prog.wp_exec hexec (.nil _) hkeeps).1

/-- A world in which every operation takes two seconds and no upload succeeds. -/
def refusing (s : Uploader) (op : RunOp) : op.Res × Uploader :=
  let later := { s with clock := s.clock + 2000000000 }
  match op with
  | .steadyNow => (later.clock, { later with trace := s.trace ++ [.read later.clock] })
  | .stopping => (s.stopping, later)
  | .findUploadCandidates => (["a".toList, "b".toList], later)
  | .findPending directory => (s.pending.get? directory, later)
  | .erasePending directory => ((), { later with pending := s.pending.erase directory })
  | .countAttempt directory =>
      let attempts := (stateOf s.pending directory).attempts + 1
      (attempts,
        { later with
          pending := s.pending.set directory
            { stateOf s.pending directory with attempts := attempts }
          trace := s.trace ++ [.counted directory attempts] })
  | .schedule directory nextAttempt =>
      ((), { later with
        pending := s.pending.set directory
          { stateOf s.pending directory with nextAttempt := nextAttempt } })
  | .uploadDirectory directory =>
      (false, { later with
        trace := s.trace ++ [.attempt directory false s.clock s.stopping] })
  | .markFailed directory attempts =>
      (true, { later with trace := s.trace ++ [.marked directory attempts true] })
  | .wait => ((), later)

theorem writingEffect_refusing (s : Uploader) (op : RunOp) :
    WritingEffect s op (refusing s op).1 (refusing s op).2 := by
  have hclock : s.clock ≤ s.clock + 2000000000 := by omega
  have hquiet : s.trace = s.trace ++ [] := (List.append_nil _).symm
  cases op with
  | steadyNow => exact ⟨⟨hclock, id, rfl, rfl, rfl⟩, trivial⟩
  | stopping => exact ⟨⟨hclock, id, hquiet, rfl, rfl⟩, trivial⟩
  | findUploadCandidates => exact ⟨⟨hclock, id, hquiet, rfl⟩, trivial⟩
  | findPending directory => exact ⟨⟨hclock, id, hquiet, rfl, rfl⟩, trivial⟩
  | erasePending directory => exact ⟨⟨hclock, id, hquiet, rfl⟩, trivial⟩
  | countAttempt directory => exact ⟨⟨hclock, id, rfl, rfl, rfl⟩, trivial⟩
  | schedule directory nextAttempt => exact ⟨⟨hclock, id, hquiet, rfl⟩, trivial⟩
  | uploadDirectory directory => exact ⟨⟨hclock, id, rfl, rfl⟩, trivial⟩
  | markFailed directory attempts => exact ⟨⟨hclock, id, rfl, rfl⟩, rfl⟩
  | wait => exact ⟨⟨hclock, id, hquiet, rfl⟩, trivial⟩

theorem retries_disciplined_refusing :
    Disciplined ⟨"/upload", 2, 1000, 65536, 300, 0⟩ 2
        (Prog.runWith refusing (run ⟨"/upload", 2, 1000, 65536, 300, 0⟩ 3)
          (.starting 0 false)).2.trace ∧
      Event.marked "b".toList 2 true ∈
        (Prog.runWith refusing (run ⟨"/upload", 2, 1000, 65536, 300, 0⟩ 3)
          (.starting 0 false)).2.trace :=
  ⟨retries_disciplined rfl (by decide)
    (Prog.exec_runWith writingEffect_refusing _ _), by decide +kernel⟩

end DataCache.Upload
