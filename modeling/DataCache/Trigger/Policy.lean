import DataCache.Foundation.Dict
import DataCache.Foundation.Text
import Mathlib.Tactic.Linarith

/-!
# The router's trigger policy

A trigger id is refused while it is remembered, and an event is refused while
it cools down from its latest acceptance.  A failed attempt is released and
leaves neither trace.  Times are readings of the steady clock.
-/

namespace DataCache.Trigger

open DataCache.Foundation

inductive Decision where
  | accept
  | duplicate
  | coolingDown
  deriving DecidableEq

structure EventRouterPolicy where
  dedupeTtl : Int
  cooldown : Int
  seenTriggers : Dict Text Int
  lastAccepted : Dict Text Int
  acceptedByTrigger : Dict Text (Text × Int)

namespace EventRouterPolicy

def create (dedupeTtl cooldown : Int) : EventRouterPolicy :=
  ⟨dedupeTtl, cooldown, .empty, .empty, .empty⟩

def expired (policy : EventRouterPolicy) (now : Int) (triggerId : Text) : Bool :=
  (policy.seenTriggers.get? triggerId).any fun expiry => decide (expiry ≤ now)

def prune (policy : EventRouterPolicy) (now : Int) : EventRouterPolicy :=
  { policy with
    seenTriggers := policy.seenTriggers.filterKeys fun triggerId =>
      !policy.expired now triggerId
    acceptedByTrigger := policy.acceptedByTrigger.filterKeys fun triggerId =>
      !policy.expired now triggerId }

def evaluate (policy : EventRouterPolicy) (eventName triggerId : Text) (now : Int) :
    Decision × EventRouterPolicy :=
  let policy := policy.prune now
  if policy.seenTriggers.contains triggerId then (.duplicate, policy)
  else
    let seenTriggers := policy.seenTriggers.set triggerId (now + policy.dedupeTtl)
    if (policy.lastAccepted.get? eventName).any fun previous =>
        decide (now - previous < policy.cooldown) then
      (.coolingDown, { policy with seenTriggers := seenTriggers.erase triggerId })
    else
      (.accept, { policy with
        seenTriggers := seenTriggers
        lastAccepted := policy.lastAccepted.set eventName now
        acceptedByTrigger :=
          policy.acceptedByTrigger.set triggerId (eventName, now) })

def release (policy : EventRouterPolicy) (triggerId : Text) : EventRouterPolicy :=
  let policy := { policy with seenTriggers := policy.seenTriggers.erase triggerId }
  match policy.acceptedByTrigger.get? triggerId with
  | none => policy
  | some (eventName, acceptedAt) =>
      { policy with
        lastAccepted :=
          if policy.lastAccepted.get? eventName = some acceptedAt then
            policy.lastAccepted.erase eventName
          else policy.lastAccepted
        acceptedByTrigger := policy.acceptedByTrigger.erase triggerId }

end EventRouterPolicy

/-! ## Runs -/

inductive PolicyCall where
  | evaluate (eventName triggerId : Text) (now : Int)
  | release (triggerId : Text)

def PolicyCall.time? : PolicyCall → Option Int
  | evaluate _ _ now => some now
  | release _ => none

/-- The clock never goes back from one evaluation to a later one. -/
def Timely (calls : List PolicyCall) : Prop :=
  (calls.filterMap PolicyCall.time?).Pairwise (· ≤ ·)

instance (calls : List PolicyCall) : Decidable (Timely calls) :=
  inferInstanceAs (Decidable (List.Pairwise _ _))

namespace EventRouterPolicy

def step (policy : EventRouterPolicy) : PolicyCall → EventRouterPolicy
  | .evaluate eventName triggerId now => (policy.evaluate eventName triggerId now).2
  | .release triggerId => policy.release triggerId

def run (policy : EventRouterPolicy) (calls : List PolicyCall) :
    EventRouterPolicy :=
  calls.foldl step policy

/-- What a trigger is answered after these calls. -/
def answerAfter (policy : EventRouterPolicy) (calls : List PolicyCall)
    (eventName triggerId : Text) (now : Int) : Decision :=
  ((policy.run calls).evaluate eventName triggerId now).1

/-! ## One evaluation -/

/-- What an evaluation can do, once the expired ids are gone. -/
theorem evaluate_cases (policy : EventRouterPolicy) (eventName triggerId : Text)
    (now : Int) :
    let pruned := policy.prune now
    (policy.evaluate eventName triggerId now = (.duplicate, pruned) ∧
      pruned.seenTriggers.contains triggerId = true) ∨
    (∃ previous, policy.evaluate eventName triggerId now = (.coolingDown, { pruned with
        seenTriggers := (pruned.seenTriggers.set triggerId
          (now + policy.dedupeTtl)).erase triggerId }) ∧
      pruned.seenTriggers.contains triggerId = false ∧
      policy.lastAccepted.get? eventName = some previous ∧
      now - previous < policy.cooldown) ∨
    (policy.evaluate eventName triggerId now = (.accept, { pruned with
        seenTriggers := pruned.seenTriggers.set triggerId (now + policy.dedupeTtl)
        lastAccepted := policy.lastAccepted.set eventName now
        acceptedByTrigger :=
          pruned.acceptedByTrigger.set triggerId (eventName, now) }) ∧
      pruned.seenTriggers.contains triggerId = false ∧
      ∀ previous, policy.lastAccepted.get? eventName = some previous →
        policy.cooldown ≤ now - previous) := by
  intro pruned
  by_cases hseen : pruned.seenTriggers.contains triggerId = true
  · exact .inl ⟨if_pos hseen, hseen⟩
  · have hunseen : pruned.seenTriggers.contains triggerId = false := by
      simpa using hseen
    by_cases hcooling : (policy.lastAccepted.get? eventName).any (fun previous =>
        decide (now - previous < policy.cooldown)) = true
    · obtain ⟨previous, hprevious, hlt⟩ := (Option.any_eq_true _ _).mp hcooling
      refine .inr (.inl ⟨previous, ?_, hunseen, hprevious, of_decide_eq_true hlt⟩)
      exact (if_neg hseen).trans (if_pos hcooling)
    · refine .inr (.inr ⟨(if_neg hseen).trans (if_neg hcooling), hunseen, ?_⟩)
      intro previous hprevious
      rw [hprevious, Option.any_some, decide_eq_true_eq] at hcooling
      exact not_lt.mp hcooling

theorem seen_prune_of_lt {policy : EventRouterPolicy} {triggerId : Text}
    {expiry now : Int} (h : policy.seenTriggers.get? triggerId = some expiry)
    (hnow : now < expiry) :
    (policy.prune now).seenTriggers.get? triggerId = some expiry := by
  rw [prune, Dict.get?_filterKeys, expired, h, Option.any_some,
    decide_eq_false (not_le.mpr hnow)]
  rfl

theorem seen_prune_of_none {policy : EventRouterPolicy} {triggerId : Text}
    (now : Int) (h : policy.seenTriggers.get? triggerId = none) :
    (policy.prune now).seenTriggers.get? triggerId = none := by
  rw [prune, Dict.get?_filterKeys, h, ite_self]

theorem accepted_prune {policy : EventRouterPolicy} {now : Int} {triggerId : Text}
    {acceptance : Text × Int}
    (h : (policy.prune now).acceptedByTrigger.get? triggerId = some acceptance) :
    policy.acceptedByTrigger.get? triggerId = some acceptance := by
  rw [prune, Dict.get?_filterKeys] at h
  split at h
  · exact h
  · cases h

theorem step_settings (policy : EventRouterPolicy) (call : PolicyCall) :
    (policy.step call).dedupeTtl = policy.dedupeTtl ∧
      (policy.step call).cooldown = policy.cooldown := by
  cases call with
  | evaluate eventName triggerId now =>
      rw [step]
      rcases policy.evaluate_cases eventName triggerId now with
        ⟨heq, -⟩ | ⟨previous, heq, -⟩ | ⟨heq, -⟩ <;>
        rw [heq] <;> exact ⟨rfl, rfl⟩
  | release triggerId =>
      rw [step, release]
      dsimp only
      split <;> exact ⟨rfl, rfl⟩

theorem run_settings (calls : List PolicyCall) :
    ∀ policy : EventRouterPolicy,
      (policy.run calls).dedupeTtl = policy.dedupeTtl ∧
        (policy.run calls).cooldown = policy.cooldown := by
  induction calls with
  | nil => exact fun _ => ⟨rfl, rfl⟩
  | cons call calls ih =>
      intro policy
      obtain ⟨httl, hcooldown⟩ := ih (policy.step call)
      obtain ⟨httl', hcooldown'⟩ := policy.step_settings call
      exact ⟨httl.trans httl', hcooldown.trans hcooldown'⟩

/-- A property that every call before `limit` keeps is kept by all of them. -/
theorem run_keeps {P : EventRouterPolicy → Prop} {limit : Int} {released : Text}
    (hevaluate : ∀ policy eventName triggerId now, now < limit → P policy →
      P (policy.step (.evaluate eventName triggerId now)))
    (hrelease : ∀ policy triggerId, triggerId ≠ released → P policy →
      P (policy.step (.release triggerId))) (calls : List PolicyCall)
    (htimes : ∀ now ∈ calls.filterMap PolicyCall.time?, now < limit)
    (hkept : PolicyCall.release released ∉ calls) :
    ∀ {policy : EventRouterPolicy}, P policy → P (policy.run calls) := by
  induction calls with
  | nil => exact fun h => h
  | cons call calls ih =>
      intro policy h
      have hrest := @ih
        (fun now hnow => htimes now (by
          rw [List.filterMap_cons]
          cases call.time? with
          | none => exact hnow
          | some _ => exact List.mem_cons_of_mem _ hnow))
        (fun hmem => hkept (List.mem_cons_of_mem _ hmem))
      refine hrest ?_
      cases call with
      | evaluate eventName triggerId now =>
          exact hevaluate policy _ _ now (htimes now List.mem_cons_self) h
      | release triggerId =>
          refine hrelease policy triggerId (fun heq => hkept ?_) h
          rw [heq]
          exact List.mem_cons_self

/-! ## A remembered trigger -/

theorem seen_release_ne (policy : EventRouterPolicy) {triggerId other : Text}
    (h : triggerId ≠ other) :
    (policy.release triggerId).seenTriggers.get? other =
      policy.seenTriggers.get? other := by
  rw [release]
  dsimp only
  split <;> exact policy.seenTriggers.get?_erase_ne h

theorem seen_evaluate {policy : EventRouterPolicy} {remembered : Text}
    {expiry : Int} (h : policy.seenTriggers.get? remembered = some expiry)
    (eventName triggerId : Text) {now : Int} (hnow : now < expiry) :
    (policy.evaluate eventName triggerId now).2.seenTriggers.get? remembered =
      some expiry := by
  have hpruned := seen_prune_of_lt h hnow
  have hne : (policy.prune now).seenTriggers.contains triggerId = false →
      triggerId ≠ remembered := by
    rintro hunseen rfl
    rw [Dict.contains, hpruned] at hunseen
    cases hunseen
  rcases policy.evaluate_cases eventName triggerId now with
    ⟨heq, -⟩ | ⟨previous, heq, hunseen, -⟩ | ⟨heq, hunseen, -⟩ <;> rw [heq]
  · exact hpruned
  · rw [Dict.get?_erase_ne _ (hne hunseen), Dict.get?_set_ne _ _ (hne hunseen)]
    exact hpruned
  · rw [Dict.get?_set_ne _ _ (hne hunseen)]
    exact hpruned

theorem duplicate_of_seen {policy : EventRouterPolicy} {triggerId : Text}
    {expiry : Int} (h : policy.seenTriggers.get? triggerId = some expiry)
    (eventName : Text) {now : Int} (hnow : now < expiry) :
    (policy.evaluate eventName triggerId now).1 = .duplicate := by
  have hpruned := seen_prune_of_lt h hnow
  refine congrArg Prod.fst (if_pos ?_)
  rw [Dict.contains, hpruned]
  rfl

theorem seen_of_accept {policy : EventRouterPolicy} {eventName triggerId : Text}
    {now : Int} (h : (policy.evaluate eventName triggerId now).1 = .accept) :
    (policy.evaluate eventName triggerId now).2.seenTriggers.get? triggerId =
      some (now + policy.dedupeTtl) := by
  rcases policy.evaluate_cases eventName triggerId now with
    ⟨heq, -⟩ | ⟨previous, heq, -⟩ | ⟨heq, -⟩ <;> rw [heq] at h ⊢
  · cases h
  · cases h
  · exact Dict.get?_set_self _ _ _

/-- The first acceptance of an id is remembered until its TTL is over. -/
theorem dedupeTtl_le {policy : EventRouterPolicy} {eventName triggerId : Text}
    {first : Int} (h : (policy.evaluate eventName triggerId first).1 = .accept)
    {between : List PolicyCall} {last : Int}
    (htimes : ∀ now ∈ between.filterMap PolicyCall.time?, now ≤ last)
    (hkept : PolicyCall.release triggerId ∉ between) {eventName' : Text}
    (h' : answerAfter policy (.evaluate eventName triggerId first :: between)
      eventName' triggerId last = .accept) :
    policy.dedupeTtl ≤ last - first := by
  by_contra hearly
  have hlast : last < first + policy.dedupeTtl := by linarith
  have hseen := run_keeps
    (P := fun policy' => policy'.seenTriggers.get? triggerId =
      some (first + policy.dedupeTtl))
    (fun _ name id now hnow hget => seen_evaluate hget name id hnow)
    (fun policy' id hne hget => (seen_release_ne policy' hne).trans hget)
    between (fun now hnow => (htimes now hnow).trans_lt hlast) hkept
    (seen_of_accept h)
  have hduplicate := duplicate_of_seen hseen eventName' hlast
  exact absurd (hduplicate.symm.trans h') (by decide)

/-! ## A cooling event -/

/-- No two acceptances of an event that are still on record share their time, and
the latest one sets the cooldown. -/
structure Recorded (clock : Int) (policy : EventRouterPolicy) : Prop where
  past : ∀ triggerId eventName time,
    policy.acceptedByTrigger.get? triggerId = some (eventName, time) →
      time ≤ clock ∧
        (time = clock → policy.lastAccepted.get? eventName = some clock)
  apart : ∀ triggerId triggerId' acceptance,
    policy.acceptedByTrigger.get? triggerId = some acceptance →
      policy.acceptedByTrigger.get? triggerId' = some acceptance →
        triggerId = triggerId'

theorem Recorded.mono {clock clock' : Int} {policy : EventRouterPolicy}
    (h : Recorded clock policy) (hle : clock ≤ clock') : Recorded clock' policy where
  past triggerId eventName time haccepted := by
    obtain ⟨htime, hlatest⟩ := h.past triggerId eventName time haccepted
    refine ⟨htime.trans hle, fun heq => ?_⟩
    have hclock : clock = clock' := le_antisymm hle (heq ▸ htime)
    rw [← hclock]
    exact hlatest (heq.trans hclock.symm)
  apart := h.apart

theorem recorded_create (clock dedupeTtl cooldown : Int) :
    Recorded clock (create dedupeTtl cooldown) :=
  ⟨nofun, nofun⟩

theorem Recorded.prune {clock : Int} {policy : EventRouterPolicy}
    (h : Recorded clock policy) (now : Int) : Recorded clock (policy.prune now) where
  past triggerId eventName time haccepted :=
    h.past triggerId eventName time (accepted_prune haccepted)
  apart triggerId triggerId' acceptance haccepted haccepted' :=
    h.apart triggerId triggerId' acceptance (accepted_prune haccepted)
      (accepted_prune haccepted')

theorem Recorded.evaluate {clock : Int} {policy : EventRouterPolicy}
    (hcooldown : 0 < policy.cooldown) (h : Recorded clock policy)
    (eventName triggerId : Text) {now : Int} (hnow : clock ≤ now) :
    Recorded now (policy.evaluate eventName triggerId now).2 := by
  have hpruned := (h.mono hnow).prune now
  rcases policy.evaluate_cases eventName triggerId now with
    ⟨heq, -⟩ | ⟨previous, heq, -⟩ | ⟨heq, -, hcooled⟩ <;> rw [heq]
  · exact hpruned
  · exact ⟨hpruned.past, hpruned.apart⟩
  · -- an acceptance of this event at `now` would still be cooling it down
    have hfresh : ∀ other, (policy.prune now).acceptedByTrigger.get? other ≠
        some (eventName, now) := by
      intro other hother
      have hlatest := (hpruned.past other eventName now hother).2 rfl
      have hle := hcooled now hlatest
      linarith
    refine ⟨fun other eventName' time hother => ?_,
      fun first second acceptance hfirst hsecond => ?_⟩
    · rw [Dict.get?_set] at hother
      split at hother
      next =>
        obtain ⟨rfl, rfl⟩ := Prod.mk.inj (Option.some.inj hother)
        exact ⟨le_refl _, fun _ => Dict.get?_set_self _ _ _⟩
      next =>
        obtain ⟨htime, hlatest⟩ := hpruned.past other eventName' time hother
        refine ⟨htime, fun htimeEq => ?_⟩
        rw [Dict.get?_set]
        split
        next => rfl
        next => exact hlatest htimeEq
    · rw [Dict.get?_set] at hfirst hsecond
      split at hfirst
      next hfirstEq =>
        split at hsecond
        next hsecondEq => exact hfirstEq.symm.trans hsecondEq
        next => exact absurd (hsecond.trans hfirst.symm) (hfresh second)
      next =>
        split at hsecond
        next => exact absurd (hfirst.trans hsecond.symm) (hfresh first)
        next => exact hpruned.apart first second acceptance hfirst hsecond

theorem Recorded.release {clock : Int} {policy : EventRouterPolicy}
    (h : Recorded clock policy) (triggerId : Text) :
    Recorded clock (policy.release triggerId) := by
  rw [EventRouterPolicy.release]
  dsimp only
  split
  next => exact ⟨h.past, h.apart⟩
  next eventName acceptedAt haccepted =>
    have hother : ∀ {other acceptance},
        (policy.acceptedByTrigger.erase triggerId).get? other = some acceptance →
          triggerId ≠ other ∧
            policy.acceptedByTrigger.get? other = some acceptance := by
      intro other acceptance hget
      rw [Dict.get?_erase] at hget
      split at hget
      next => cases hget
      next hne => exact ⟨hne, hget⟩
    refine ⟨fun other eventName' time hget => ?_,
      fun first second acceptance hfirst hsecond =>
        h.apart first second acceptance (hother hfirst).2 (hother hsecond).2⟩
    obtain ⟨hne, hkept⟩ := hother hget
    obtain ⟨htime, hlatest⟩ := h.past other eventName' time hkept
    refine ⟨htime, fun htimeEq => ?_⟩
    dsimp only
    split
    next hreleased =>
      by_cases hname : eventName = eventName'
      · subst hname
        have hacceptedAt : acceptedAt = time :=
          (Option.some.inj (hreleased.symm.trans (hlatest htimeEq))).trans
            htimeEq.symm
        rw [hacceptedAt] at haccepted
        exact absurd (h.apart _ _ _ haccepted hkept) hne
      · rw [Dict.get?_erase_ne _ hname]
        exact hlatest htimeEq
    next => exact hlatest htimeEq

theorem Recorded.run {limit : Int} (calls : List PolicyCall) :
    ∀ {clock : Int} {policy : EventRouterPolicy}, 0 < policy.cooldown →
      Recorded clock policy → clock ≤ limit → Timely calls →
      (∀ now ∈ calls.filterMap PolicyCall.time?, clock ≤ now ∧ now ≤ limit) →
      Recorded limit (policy.run calls) := by
  induction calls with
  | nil => exact fun _ h hle _ _ => h.mono hle
  | cons call calls ih =>
      intro clock policy hcooldown h hle htimely htimes
      have hcooldown' : 0 < (policy.step call).cooldown := by
        rw [(policy.step_settings call).2]
        exact hcooldown
      cases call with
      | evaluate eventName triggerId now =>
          obtain ⟨hnow, hlimit⟩ := htimes now List.mem_cons_self
          obtain ⟨hlater, htimely⟩ := List.pairwise_cons.mp htimely
          exact ih hcooldown' (h.evaluate hcooldown eventName triggerId hnow) hlimit
            htimely fun later hmem =>
              ⟨hlater later hmem, (htimes later (List.mem_cons_of_mem _ hmem)).2⟩
      | release triggerId =>
          exact ih hcooldown' (h.release triggerId) hle htimely htimes

/-- The latest acceptance of the event, and nothing else that could undo it. -/
structure Cooling (eventName triggerId : Text) (acceptedAt : Int)
    (policy : EventRouterPolicy) : Prop where
  latest : policy.lastAccepted.get? eventName = some acceptedAt
  alone : ∀ other, other ≠ triggerId →
    policy.acceptedByTrigger.get? other ≠ some (eventName, acceptedAt)

theorem Recorded.cooling_of_accept {clock : Int} {policy : EventRouterPolicy}
    (hcooldown : 0 < policy.cooldown) (h : Recorded clock policy)
    {eventName triggerId : Text} {now : Int} (hnow : clock ≤ now)
    (haccept : (policy.evaluate eventName triggerId now).1 = .accept) :
    Cooling eventName triggerId now (policy.evaluate eventName triggerId now).2 := by
  have hafter := h.evaluate hcooldown eventName triggerId hnow
  have hrecorded : (policy.evaluate eventName triggerId
      now).2.acceptedByTrigger.get? triggerId = some (eventName, now) ∧
      (policy.evaluate eventName triggerId now).2.lastAccepted.get? eventName =
        some now := by
    rcases policy.evaluate_cases eventName triggerId now with
      ⟨heq, -⟩ | ⟨previous, heq, -⟩ | ⟨heq, -⟩ <;> rw [heq] at haccept ⊢
    · cases haccept
    · cases haccept
    · exact ⟨Dict.get?_set_self _ _ _, Dict.get?_set_self _ _ _⟩
  exact ⟨hrecorded.2, fun other hne hother =>
    hne (hafter.apart _ _ _ hother hrecorded.1)⟩

/-- While the event cools down no trigger of it is accepted. -/
theorem Cooling.evaluate {policy : EventRouterPolicy} {eventName triggerId : Text}
    {acceptedAt : Int} (h : Cooling eventName triggerId acceptedAt policy)
    (name other : Text) {now : Int} (hnow : now < acceptedAt + policy.cooldown) :
    Cooling eventName triggerId acceptedAt (policy.evaluate name other now).2 ∧
      (name = eventName → (policy.evaluate name other now).1 ≠ .accept) := by
  have halone : ∀ id, id ≠ triggerId →
      (policy.prune now).acceptedByTrigger.get? id ≠ some (eventName, acceptedAt) :=
    fun id hne hid => h.alone id hne (accepted_prune hid)
  rcases policy.evaluate_cases name other now with
    ⟨heq, -⟩ | ⟨previous, heq, -⟩ | ⟨heq, -, hcooled⟩ <;> rw [heq]
  · exact ⟨⟨h.latest, halone⟩, nofun⟩
  · exact ⟨⟨h.latest, halone⟩, nofun⟩
  · have hname : name ≠ eventName := by
      rintro rfl
      have hle := hcooled acceptedAt h.latest
      linarith
    refine ⟨⟨?_, fun id hne hid => ?_⟩, fun hsame => absurd hsame hname⟩
    · rw [Dict.get?_set_ne _ _ hname]
      exact h.latest
    · rw [Dict.get?_set] at hid
      split at hid
      next => exact hname (Prod.mk.inj (Option.some.inj hid)).1
      next => exact halone id hne hid

theorem Cooling.release {policy : EventRouterPolicy} {eventName triggerId : Text}
    {acceptedAt : Int} (h : Cooling eventName triggerId acceptedAt policy)
    {other : Text} (hother : other ≠ triggerId) :
    Cooling eventName triggerId acceptedAt (policy.release other) := by
  rw [EventRouterPolicy.release]
  dsimp only
  split
  next => exact ⟨h.latest, h.alone⟩
  next name time haccepted =>
    refine ⟨?_, fun id hne hid => ?_⟩
    · dsimp only
      split
      next hreleased =>
        have hname : name ≠ eventName := by
          rintro rfl
          have htime : time = acceptedAt :=
            Option.some.inj (hreleased.symm.trans h.latest)
          exact h.alone other hother (htime ▸ haccepted)
        rw [Dict.get?_erase_ne _ hname]
        exact h.latest
      next => exact h.latest
    · rw [Dict.get?_erase] at hid
      split at hid
      next => cases hid
      next => exact h.alone id hne hid

/-- Two acceptances of an event are a cooldown apart. -/
theorem cooldown_le {policy : EventRouterPolicy} {clock first last : Int}
    (hrecorded : 0 < policy.cooldown → Recorded clock policy)
    (hclock : clock ≤ first) {eventName triggerId : Text}
    (h : (policy.evaluate eventName triggerId first).1 = .accept)
    {between : List PolicyCall} (hle : first ≤ last)
    (htimes : ∀ now ∈ between.filterMap PolicyCall.time?, now ≤ last)
    (hkept : PolicyCall.release triggerId ∉ between) {triggerId' : Text}
    (h' : answerAfter policy (.evaluate eventName triggerId first :: between)
      eventName triggerId' last = .accept) :
    policy.cooldown ≤ last - first := by
  by_contra hearly
  have hcooldown : 0 < policy.cooldown := by linarith
  have hlast : last < first + policy.cooldown := by linarith
  have hstart := (hrecorded hcooldown).cooling_of_accept hcooldown hclock h
  have hcooling := run_keeps
    (P := fun policy' => Cooling eventName triggerId first policy' ∧
      policy'.cooldown = policy.cooldown)
    (fun policy' name id now hnow hkeeps =>
      ⟨(hkeeps.1.evaluate name id (hkeeps.2 ▸ hnow)).1,
        (policy'.step_settings _).2.trans hkeeps.2⟩)
    (fun policy' id hne hkeeps =>
      ⟨hkeeps.1.release hne, (policy'.step_settings (.release id)).2.trans hkeeps.2⟩)
    between (fun now hnow => (htimes now hnow).trans_lt hlast) hkept
    ⟨hstart, (policy.step_settings (.evaluate eventName triggerId first)).2⟩
  exact (hcooling.1.evaluate eventName triggerId' (hcooling.2 ▸ hlast)).2 rfl h'

/-! ## A refusal that leaves no trace -/

theorem unseen_of_coolingDown {policy : EventRouterPolicy}
    {eventName triggerId : Text} {now : Int}
    (h : (policy.evaluate eventName triggerId now).1 = .coolingDown) :
    (policy.evaluate eventName triggerId now).2.seenTriggers.get? triggerId =
      none := by
  rcases policy.evaluate_cases eventName triggerId now with
    ⟨heq, -⟩ | ⟨previous, heq, -⟩ | ⟨heq, -⟩ <;> rw [heq] at h ⊢
  · cases h
  · exact Dict.get?_erase_self _ _
  · cases h

/-- Only an acceptance makes an id seen. -/
theorem accept_of_seen {policy : EventRouterPolicy} {triggerId : Text}
    (h : policy.seenTriggers.get? triggerId = none) (name other : Text) (now : Int)
    (hseen : (policy.evaluate name other now).2.seenTriggers.get? triggerId ≠
      none) :
    other = triggerId ∧ (policy.evaluate name other now).1 = .accept := by
  have hpruned := seen_prune_of_none now h
  rcases policy.evaluate_cases name other now with
    ⟨heq, -⟩ | ⟨previous, heq, -⟩ | ⟨heq, -⟩ <;> rw [heq] at hseen ⊢
  · exact absurd hpruned hseen
  · refine absurd ?_ hseen
    rw [Dict.get?_erase]
    split
    next => rfl
    next hne => rw [Dict.get?_set_ne _ _ hne, hpruned]
  · rw [Dict.get?_set] at hseen
    split at hseen
    next heqId => exact ⟨heqId, rfl⟩
    next => exact absurd hpruned hseen

theorem accepted_between {triggerId : Text} (between : List PolicyCall) :
    ∀ {policy : EventRouterPolicy},
      policy.seenTriggers.get? triggerId = none →
      (policy.run between).seenTriggers.get? triggerId ≠ none →
      ∃ front name now back, between = front ++ .evaluate name triggerId now :: back ∧
        answerAfter policy front name triggerId now = .accept := by
  induction between with
  | nil => exact fun h hseen => absurd h hseen
  | cons call between ih =>
      intro policy h hseen
      by_cases hstep : (policy.step call).seenTriggers.get? triggerId = none
      · obtain ⟨front, name, now, back, rfl, haccept⟩ := ih hstep hseen
        exact ⟨call :: front, name, now, back, rfl, haccept⟩
      · cases call with
        | evaluate name other now =>
            obtain ⟨rfl, haccept⟩ := accept_of_seen h name other now hstep
            exact ⟨[], name, now, between, rfl, haccept⟩
        | release other =>
            refine absurd ?_ hstep
            by_cases hother : other = triggerId
            · rw [step, release]
              dsimp only
              rw [hother]
              split <;> exact Dict.get?_erase_self _ _
            · exact (seen_release_ne policy hother).trans h

/-! ## Whole runs -/

/-- The times of the calls around two evaluations. -/
theorem times_of_timely {before between : List PolicyCall}
    {name id name' id' : Text} {first last : Int}
    (h : Timely (before ++ .evaluate name id first ::
      (between ++ [.evaluate name' id' last]))) :
    Timely before ∧ (∀ now ∈ before.filterMap PolicyCall.time?, now ≤ first) ∧
      first ≤ last ∧ ∀ now ∈ between.filterMap PolicyCall.time?, now ≤ last := by
  rw [Timely, List.filterMap_append] at h
  obtain ⟨hbefore, hrest, hacross⟩ := List.pairwise_append.mp h
  have hcons : (PolicyCall.evaluate name id first ::
      (between ++ [.evaluate name' id' last])).filterMap PolicyCall.time? =
        first :: (between.filterMap PolicyCall.time? ++ [last]) := by
    simp only [List.filterMap_cons, PolicyCall.time?, List.filterMap_append,
      List.filterMap_nil]
  rw [hcons] at hrest hacross
  obtain ⟨hfirst, hrest⟩ := List.pairwise_cons.mp hrest
  refine ⟨hbefore, fun now hnow => hacross now hnow first List.mem_cons_self,
    hfirst last (List.mem_append_right _ List.mem_cons_self), fun now hnow => ?_⟩
  exact (List.pairwise_append.mp hrest).2.2 now hnow last List.mem_cons_self

theorem recorded_run {dedupeTtl cooldown first : Int} {before : List PolicyCall}
    (htimely : Timely before)
    (hbefore : ∀ now ∈ before.filterMap PolicyCall.time?, now ≤ first)
    (hcooldown : 0 < ((create dedupeTtl cooldown).run before).cooldown) :
    Recorded first ((create dedupeTtl cooldown).run before) := by
  rw [((create dedupeTtl cooldown).run_settings before).2] at hcooldown
  obtain ⟨clock, hfirst, hclock⟩ : ∃ clock, clock ≤ first ∧
      ∀ now ∈ before.filterMap PolicyCall.time?, clock ≤ now := by
    cases htimes : before.filterMap PolicyCall.time? with
    | nil => exact ⟨first, le_refl first, nofun⟩
    | cons start rest =>
        rw [Timely, htimes] at htimely
        rw [htimes] at hbefore
        refine ⟨start, hbefore start List.mem_cons_self, fun now hnow => ?_⟩
        rcases List.mem_cons.mp hnow with rfl | hnow
        · exact le_refl now
        · exact (List.pairwise_cons.mp htimely).1 now hnow
  exact (recorded_create clock dedupeTtl cooldown).run before hcooldown hfirst
    htimely fun now hnow => ⟨hclock now hnow, hbefore now hnow⟩

/-- Acceptances of an id are a TTL apart and acceptances of an event a cooldown
apart, unless released; a refusal while cooling down is forgotten. -/
theorem router_spacing (dedupeTtl cooldown : Int) (before : List PolicyCall)
    (eventName triggerId : Text) (first : Int) (between : List PolicyCall) :
    let reached := (create dedupeTtl cooldown).run before
    let after := PolicyCall.evaluate eventName triggerId first :: between
    (∀ eventName' last,
      Timely (before ++ (after ++ [.evaluate eventName' triggerId last])) →
      answerAfter reached [] eventName triggerId first = .accept →
      answerAfter reached after eventName' triggerId last = .accept →
      PolicyCall.release triggerId ∉ between → dedupeTtl ≤ last - first) ∧
    (∀ triggerId' last,
      Timely (before ++ (after ++ [.evaluate eventName triggerId' last])) →
      answerAfter reached [] eventName triggerId first = .accept →
      answerAfter reached after eventName triggerId' last = .accept →
      PolicyCall.release triggerId ∉ between → cooldown ≤ last - first) ∧
    (answerAfter reached [] eventName triggerId first = .coolingDown →
      (reached.evaluate eventName triggerId first).2.seenTriggers.get? triggerId =
        none ∧
      ∀ eventName' last,
        answerAfter reached after eventName' triggerId last = .duplicate →
        ∃ front name now back,
          between = front ++ .evaluate name triggerId now :: back ∧
          answerAfter reached (.evaluate eventName triggerId first :: front) name
            triggerId now = .accept) := by
  intro reached after
  obtain ⟨httl, hcooldown⟩ := (create dedupeTtl cooldown).run_settings before
  refine ⟨fun eventName' last htimely h h' hkept => ?_,
    fun triggerId' last htimely h h' hkept => ?_, fun h => ?_⟩
  · obtain ⟨-, -, -, htimes⟩ := times_of_timely htimely
    rw [show dedupeTtl = reached.dedupeTtl from httl.symm]
    exact dedupeTtl_le h htimes hkept h'
  · obtain ⟨hbefore, hfirst, hle, htimes⟩ := times_of_timely htimely
    rw [show cooldown = reached.cooldown from hcooldown.symm]
    exact cooldown_le (recorded_run hbefore hfirst) (le_refl first) h hle htimes
      hkept h'
  · have hunseen := unseen_of_coolingDown h
    refine ⟨hunseen, fun eventName' last hduplicate => ?_⟩
    refine accepted_between between hunseen fun hnone => ?_
    have hpruned := seen_prune_of_none last hnone
    rw [answerAfter] at hduplicate
    rcases (reached.run after).evaluate_cases eventName' triggerId last with
      ⟨-, hseen⟩ | ⟨previous, heq, -⟩ | ⟨heq, -⟩
    · rw [Dict.contains] at hseen
      exact absurd (hpruned ▸ hseen) (by decide)
    · rw [heq] at hduplicate
      cases hduplicate
    · rw [heq] at hduplicate
      cases hduplicate

def brake : Text := "brake"

theorem router_spacing_brake :
    ((10 : Int) ≤ 11 - 0 ∧ (2 : Int) ≤ 3 - 0) ∧
      (((create 10 2).run [.evaluate brake "first" 0]).evaluate brake "second"
        1).2.seenTriggers.get? ("second" : Text) = none :=
  ⟨⟨(router_spacing 10 2 [] brake "first" 0 []).1 brake 11 (by decide +kernel)
      (by decide +kernel) (by decide +kernel) nofun,
    (router_spacing 10 2 [] brake "first" 0 []).2.1 "third" 3 (by decide +kernel)
      (by decide +kernel) (by decide +kernel) nofun⟩,
    ((router_spacing 10 2 [.evaluate brake "first" 0] brake "second" 1 []).2.2
      (by decide +kernel)).1⟩

end EventRouterPolicy

end DataCache.Trigger
