import DataCache.Foundation.Answers
import DataCache.Trigger.Policy

/-!
# Releasing a trigger

An accepted trigger that is released leaves the policy as if it had never come.
The acceptance overwrote the cooldown of its event and the release deletes it;
nobody can tell, for the overwritten one had run out.
-/

namespace DataCache.Trigger

open DataCache.Foundation

/-- The call mentions neither this event nor this id. -/
def PolicyCall.Spares (eventName triggerId : Text) : PolicyCall → Prop
  | evaluate other id _ => other ≠ eventName ∧ id ≠ triggerId
  | release id => id ≠ triggerId

instance (eventName triggerId : Text) (call : PolicyCall) :
    Decidable (call.Spares eventName triggerId) :=
  match call with
  | .evaluate other id _ =>
      inferInstanceAs (Decidable (other ≠ eventName ∧ id ≠ triggerId))
  | .release id => inferInstanceAs (Decidable (id ≠ triggerId))

namespace EventRouterPolicy

/-- A call and the decision it gets; a release gets none. -/
def respond (policy : EventRouterPolicy) :
    PolicyCall → Option Decision × EventRouterPolicy
  | .evaluate eventName triggerId now =>
      (some (policy.evaluate eventName triggerId now).1,
        (policy.evaluate eventName triggerId now).2)
  | .release triggerId => (none, policy.release triggerId)

theorem respond_next (policy : EventRouterPolicy) (call : PolicyCall) :
    (policy.respond call).2 = policy.step call := by
  cases call <;> rfl

/-! ## What a call leaves in the three tables -/

section Tables

variable (policy : EventRouterPolicy) (eventName triggerId : Text) (now : Int)
  (other : Text)

theorem decision_eq : (policy.evaluate eventName triggerId now).1 =
    if (policy.prune now).seenTriggers.contains triggerId then .duplicate
    else if (policy.lastAccepted.get? eventName).any fun previous =>
      decide (now - previous < policy.cooldown) then .coolingDown
    else .accept := by
  rw [evaluate]
  dsimp only
  rw [apply_ite Prod.fst, apply_ite Prod.fst]
  rfl

theorem seen_pruned : (policy.prune now).seenTriggers.get? other =
    (policy.seenTriggers.get? other).filter fun expiry => decide (now < expiry) := by
  rw [prune, Dict.get?_filterKeys, expired]
  cases policy.seenTriggers.get? other with
  | none => rfl
  | some expiry => by_cases h : now < expiry <;> simp [h, Option.filter_some]

theorem accepted_pruned : (policy.prune now).acceptedByTrigger.get? other =
    if policy.expired now other then none
    else policy.acceptedByTrigger.get? other := by
  rw [prune, Dict.get?_filterKeys]
  cases policy.expired now other <;> rfl

theorem seen_evaluated :
    (policy.evaluate eventName triggerId now).2.seenTriggers.get? other =
      if (policy.evaluate eventName triggerId now).1 = .accept ∧
        triggerId = other then some (now + policy.dedupeTtl)
      else (policy.prune now).seenTriggers.get? other := by
  rcases policy.evaluate_cases eventName triggerId now with
    ⟨heq, -⟩ | ⟨previous, heq, hunseen, -⟩ | ⟨heq, -⟩ <;> rw [heq]
  · simp
  · rw [Dict.get?_erase, Dict.get?_set]
    split
    next h =>
      subst h
      have hnone : (policy.prune now).seenTriggers.get? triggerId = none := by
        simpa [Dict.contains] using hunseen
      simp [hnone]
    next h => simp
  · simp [Dict.get?_set]

theorem latest_evaluated :
    (policy.evaluate eventName triggerId now).2.lastAccepted.get? other =
      if (policy.evaluate eventName triggerId now).1 = .accept ∧
        eventName = other then some now
      else policy.lastAccepted.get? other := by
  rcases policy.evaluate_cases eventName triggerId now with
    ⟨heq, -⟩ | ⟨previous, heq, -⟩ | ⟨heq, -⟩ <;> rw [heq]
  · simp [prune]
  · simp [prune]
  · simp [Dict.get?_set]

theorem accepted_evaluated :
    (policy.evaluate eventName triggerId now).2.acceptedByTrigger.get? other =
      if (policy.evaluate eventName triggerId now).1 = .accept ∧
        triggerId = other then some (eventName, now)
      else (policy.prune now).acceptedByTrigger.get? other := by
  rcases policy.evaluate_cases eventName triggerId now with
    ⟨heq, -⟩ | ⟨previous, heq, -⟩ | ⟨heq, -⟩ <;> rw [heq]
  · simp
  · simp
  · simp [Dict.get?_set]

theorem seen_released : (policy.release triggerId).seenTriggers.get? other =
    if triggerId = other then none else policy.seenTriggers.get? other := by
  rw [release]
  dsimp only
  split <;> exact policy.seenTriggers.get?_erase triggerId other

theorem accepted_released :
    (policy.release triggerId).acceptedByTrigger.get? other =
      if triggerId = other then none
      else policy.acceptedByTrigger.get? other := by
  rw [release]
  dsimp only
  split
  next habsent =>
    split
    next h => exact h ▸ habsent
    next => rfl
  next => exact policy.acceptedByTrigger.get?_erase triggerId other

/-- The event loses its cooldown if it is still the one of this trigger. -/
theorem latest_released : (policy.release triggerId).lastAccepted.get? other =
    if policy.acceptedByTrigger.get? triggerId =
      (policy.lastAccepted.get? other).map (other, ·) then none
    else policy.lastAccepted.get? other := by
  rw [release]
  dsimp only
  cases policy.acceptedByTrigger.get? triggerId with
  | none => cases policy.lastAccepted.get? other <;> rfl
  | some acceptance =>
      obtain ⟨name, time⟩ := acceptance
      dsimp only
      by_cases hname : name = other
      · subst hname
        by_cases htime : policy.lastAccepted.get? name = some time
        · rw [if_pos htime, htime, Option.map_some, if_pos rfl]
          exact Dict.get?_erase_self _ _
        · have hother : some (name, time) ≠
              (policy.lastAccepted.get? name).map (name, ·) := by
            intro heq
            obtain ⟨time', htime', hpair⟩ := Option.map_eq_some_iff.mp heq.symm
            exact htime (htime'.trans (congrArg some (Prod.mk.inj hpair).2))
          rw [if_neg htime, if_neg hother]
      · have hother : some (name, time) ≠
            (policy.lastAccepted.get? other).map (other, ·) := by
          intro heq
          obtain ⟨time', -, hpair⟩ := Option.map_eq_some_iff.mp heq.symm
          exact hname (Prod.mk.inj hpair).1.symm
        rw [if_neg hother]
        split
        · exact Dict.get?_erase_ne _ hname
        · rfl

end Tables

/-! ## States nobody can tell apart -/

/-- The cooldown of the event, if there is one, has run out by then. -/
def Cooled (policy : EventRouterPolicy) (eventName : Text) (time : Int) : Prop :=
  ∀ previous, policy.lastAccepted.get? eventName = some previous →
    policy.cooldown ≤ time - previous

/-- The second state may have a cooldown of the event that has run out. -/
structure Near (eventName : Text) (time : Int)
    (first second : EventRouterPolicy) : Prop where
  dedupeTtl : first.dedupeTtl = second.dedupeTtl
  cooldown : first.cooldown = second.cooldown
  seen : ∀ id, first.seenTriggers.get? id = second.seenTriggers.get? id
  accepted : ∀ id,
    first.acceptedByTrigger.get? id = second.acceptedByTrigger.get? id
  latest : ∀ name, name ≠ eventName →
    first.lastAccepted.get? name = second.lastAccepted.get? name
  event : first.lastAccepted.get? eventName = second.lastAccepted.get? eventName ∨
    first.lastAccepted.get? eventName = none ∧ second.Cooled eventName time

section Near

variable {eventName : Text} {time : Int} {first second : EventRouterPolicy}

theorem pruned_eq {id : Text} (now : Int)
    (hseen : first.seenTriggers.get? id = second.seenTriggers.get? id)
    (haccepted : first.acceptedByTrigger.get? id =
      second.acceptedByTrigger.get? id) :
    (first.prune now).seenTriggers.get? id =
        (second.prune now).seenTriggers.get? id ∧
      (first.prune now).acceptedByTrigger.get? id =
        (second.prune now).acceptedByTrigger.get? id := by
  rw [seen_pruned, seen_pruned, accepted_pruned, accepted_pruned, expired, expired,
    hseen, haccepted]
  exact ⟨rfl, rfl⟩

theorem decision_congr {name id : Text} {now : Int}
    (hcooldown : first.cooldown = second.cooldown)
    (hseen : (first.prune now).seenTriggers.get? id =
      (second.prune now).seenTriggers.get? id)
    (hlatest : first.lastAccepted.get? name = second.lastAccepted.get? name) :
    (first.evaluate name id now).1 = (second.evaluate name id now).1 := by
  rw [decision_eq, decision_eq, Dict.contains, Dict.contains, hseen, hlatest,
    hcooldown]

theorem decision_of_cooled {policy : EventRouterPolicy} {name : Text} (id : Text)
    {now : Int} (hcooled : policy.Cooled name time) (hnow : time ≤ now) :
    (policy.evaluate name id now).1 =
      if (policy.prune now).seenTriggers.contains id then .duplicate
      else .accept := by
  have hcool : ((policy.lastAccepted.get? name).any fun previous =>
      decide (now - previous < policy.cooldown)) = false := by
    refine Option.any_eq_false _ _ |>.mpr fun previous hprevious => ?_
    have hle := hcooled previous hprevious
    simp only [decide_eq_false_iff_not, not_lt]
    omega
  rw [decision_eq, hcool, if_neg Bool.false_ne_true]

theorem Near.decision (h : Near eventName time first second) (name id : Text)
    {now : Int} (hnow : time ≤ now) :
    (first.evaluate name id now).1 = (second.evaluate name id now).1 := by
  have hseen := (pruned_eq now (h.seen id) (h.accepted id)).1
  by_cases hname : name = eventName
  · subst hname
    rcases h.event with heq | ⟨hnone, hcooled⟩
    · exact decision_congr h.cooldown hseen heq
    · have hfirst : first.Cooled name time := fun previous hprevious => by
        rw [hnone] at hprevious
        cases hprevious
      rw [decision_of_cooled id hfirst hnow, decision_of_cooled id hcooled hnow,
        Dict.contains, Dict.contains, hseen]
  · exact decision_congr h.cooldown hseen (h.latest name hname)

theorem evaluate_settings (policy : EventRouterPolicy) (name id : Text)
    (now : Int) :
    (policy.evaluate name id now).2.dedupeTtl = policy.dedupeTtl ∧
      (policy.evaluate name id now).2.cooldown = policy.cooldown :=
  policy.step_settings (.evaluate name id now)

theorem release_settings (policy : EventRouterPolicy) (id : Text) :
    (policy.release id).dedupeTtl = policy.dedupeTtl ∧
      (policy.release id).cooldown = policy.cooldown :=
  policy.step_settings (.release id)

theorem Near.evaluate (h : Near eventName time first second) (name id : Text)
    {now : Int} (hnow : time ≤ now) :
    Near eventName time (first.evaluate name id now).2
      (second.evaluate name id now).2 := by
  have hdecision := h.decision name id hnow
  refine ⟨?_, ?_, fun other => ?_, fun other => ?_, fun other hother => ?_, ?_⟩
  · rw [(evaluate_settings first _ _ _).1, (evaluate_settings second _ _ _).1,
      h.dedupeTtl]
  · rw [(evaluate_settings first _ _ _).2, (evaluate_settings second _ _ _).2,
      h.cooldown]
  · rw [seen_evaluated, seen_evaluated, hdecision, h.dedupeTtl,
      (pruned_eq now (h.seen other) (h.accepted other)).1]
  · rw [accepted_evaluated, accepted_evaluated, hdecision,
      (pruned_eq now (h.seen other) (h.accepted other)).2]
  · rw [latest_evaluated, latest_evaluated, hdecision, h.latest other hother]
  · rw [Cooled, (evaluate_settings second _ _ _).2, latest_evaluated,
      latest_evaluated, hdecision]
    split
    · exact .inl rfl
    · exact h.event

theorem Cooled.release {policy : EventRouterPolicy}
    (h : policy.Cooled eventName time) (id : Text) :
    (policy.release id).Cooled eventName time := by
  intro previous hprevious
  rw [latest_released] at hprevious
  rw [(release_settings policy _).2]
  split at hprevious
  · cases hprevious
  · exact h previous hprevious

theorem Near.release (h : Near eventName time first second) (id : Text) :
    Near eventName time (first.release id) (second.release id) := by
  refine ⟨?_, ?_, fun other => ?_, fun other => ?_, fun other hother => ?_, ?_⟩
  · rw [(release_settings first _).1, (release_settings second _).1, h.dedupeTtl]
  · rw [(release_settings first _).2, (release_settings second _).2, h.cooldown]
  · rw [seen_released, seen_released, h.seen other]
  · rw [accepted_released, accepted_released, h.accepted other]
  · rw [latest_released, latest_released, h.accepted id, h.latest other hother]
  · rcases h.event with heq | ⟨hnone, hcooled⟩
    · exact .inl (by rw [latest_released, latest_released, h.accepted id, heq])
    · exact .inr ⟨by rw [latest_released, hnone, ite_self], hcooled.release id⟩

/-- Calls that come later get the same decisions. -/
theorem Near.answers (h : Near eventName time first second)
    {further : List PolicyCall}
    (htimes : ∀ now ∈ further.filterMap PolicyCall.time?, time ≤ now) :
    answers respond first further = answers respond second further := by
  have hallowed : ∀ call ∈ further, ∀ now, call.time? = some now → time ≤ now :=
    fun call hcall now hnow =>
      htimes now (List.mem_filterMap.mpr ⟨call, hcall, hnow⟩)
  refine answers_eq_of_allowed ?_ h hallowed
  intro first second call hcall h
  cases call with
  | evaluate name id now =>
      have hnow := hcall now rfl
      exact ⟨congrArg some (h.decision name id hnow), h.evaluate name id hnow⟩
  | release id => exact ⟨rfl, h.release id⟩

end Near

/-! ## While the trigger is accepted -/

/-- An id that was accepted and is still on record is also seen. -/
def Linked (policy : EventRouterPolicy) : Prop :=
  ∀ id, policy.seenTriggers.get? id = none →
    policy.acceptedByTrigger.get? id = none

theorem linked_pruned {policy : EventRouterPolicy} (h : policy.Linked) (now : Int) :
    (policy.prune now).Linked := by
  intro id hunseen
  rw [accepted_pruned]
  split
  next => rfl
  next hfresh =>
    refine h id ?_
    rw [seen_pruned, Option.filter_eq_none_iff] at hunseen
    cases hseen : policy.seenTriggers.get? id with
    | none => rfl
    | some expiry =>
        rw [expired, hseen, Option.any_some, decide_eq_true_eq] at hfresh
        have hpassed : ¬now < expiry := by simpa using hunseen expiry hseen
        exact absurd (not_lt.mp hpassed) hfresh

theorem linked_step {policy : EventRouterPolicy} (h : policy.Linked)
    (call : PolicyCall) : (policy.step call).Linked := by
  cases call with
  | evaluate name triggerId now =>
      intro id hunseen
      rw [step, seen_evaluated] at hunseen
      rw [step, accepted_evaluated]
      split at hunseen
      · cases hunseen
      next hother =>
        rw [if_neg hother]
        exact linked_pruned h now id hunseen
  | release triggerId =>
      intro id hunseen
      rw [step, seen_released] at hunseen
      rw [step, accepted_released]
      split
      next => rfl
      next hother =>
        rw [if_neg hother] at hunseen
        exact h id hunseen

theorem linked_run (calls : List PolicyCall) :
    ∀ {policy : EventRouterPolicy}, policy.Linked → (policy.run calls).Linked := by
  induction calls with
  | nil => exact fun h => h
  | cons call calls ih => exact fun h => ih (linked_step h call)

theorem linked_create (dedupeTtl cooldown : Int) :
    (create dedupeTtl cooldown).Linked := fun _ _ => rfl

/--
The first state has accepted the trigger and the second has not; but for the
trigger and its event they are the same.
-/
structure Holding (eventName triggerId : Text) (time : Int)
    (first second : EventRouterPolicy) : Prop where
  dedupeTtl : first.dedupeTtl = second.dedupeTtl
  cooldown : first.cooldown = second.cooldown
  seen : ∀ id, id ≠ triggerId →
    first.seenTriggers.get? id = second.seenTriggers.get? id
  accepted : ∀ id, id ≠ triggerId →
    first.acceptedByTrigger.get? id = second.acceptedByTrigger.get? id
  latest : ∀ name, name ≠ eventName →
    first.lastAccepted.get? name = second.lastAccepted.get? name
  held : first.seenTriggers.get? triggerId = some (time + first.dedupeTtl)
  holder : first.acceptedByTrigger.get? triggerId = some (eventName, time)
  unseen : second.seenTriggers.get? triggerId = none
  unaccepted : second.acceptedByTrigger.get? triggerId = none
  event : first.lastAccepted.get? eventName = some time ∨
    first.lastAccepted.get? eventName = none
  cooled : second.Cooled eventName time

section Holding

variable {eventName triggerId : Text} {time : Int}
  {first second : EventRouterPolicy}

theorem of_accept {policy : EventRouterPolicy}
    (h : (policy.evaluate eventName triggerId time).1 = .accept) :
    (policy.prune time).seenTriggers.get? triggerId = none ∧
      policy.Cooled eventName time := by
  rcases policy.evaluate_cases eventName triggerId time with
    ⟨heq, -⟩ | ⟨previous, heq, -⟩ | ⟨-, hunseen, hcooled⟩
  · rw [heq] at h
    cases h
  · rw [heq] at h
    cases h
  · exact ⟨by simpa [Dict.contains] using hunseen, hcooled⟩

theorem holding_of_accept {policy : EventRouterPolicy} (hlinked : policy.Linked)
    (h : (policy.evaluate eventName triggerId time).1 = .accept) :
    Holding eventName triggerId time
      (policy.evaluate eventName triggerId time).2 (policy.prune time) := by
  obtain ⟨hunseen, hcooled⟩ := of_accept h
  refine ⟨(evaluate_settings policy _ _ _).1, (evaluate_settings policy _ _ _).2,
    fun id hid => ?_, fun id hid => ?_, fun name hname => ?_, ?_, ?_, hunseen,
    linked_pruned hlinked time triggerId hunseen, .inl ?_, hcooled⟩
  · rw [seen_evaluated, if_neg fun hsame => hid hsame.2.symm]
  · rw [accepted_evaluated, if_neg fun hsame => hid hsame.2.symm]
  · rw [latest_evaluated, if_neg fun hsame => hname hsame.2.symm]
    rfl
  · rw [seen_evaluated, if_pos ⟨h, rfl⟩, (evaluate_settings policy _ _ _).1]
  · rw [accepted_evaluated, if_pos ⟨h, rfl⟩]
  · rw [latest_evaluated, if_pos ⟨h, rfl⟩]

theorem Holding.evaluate (h : Holding eventName triggerId time first second)
    {name id : Text} {now : Int} (hname : name ≠ eventName)
    (hid : id ≠ triggerId) (hnow : now < time + first.dedupeTtl) :
    Holding eventName triggerId time (first.evaluate name id now).2
      (second.evaluate name id now).2 := by
  have hpruned : ∀ other, other ≠ triggerId → _ := fun other hother =>
    pruned_eq now (h.seen other hother) (h.accepted other hother)
  have hdecision := @decision_congr first second name id now h.cooldown
    (hpruned id hid).1 (h.latest name hname)
  have hheld : first.expired now triggerId = false := by
    rw [expired, h.held, Option.any_some, decide_eq_false (not_le.mpr hnow)]
  have hsettings := evaluate_settings first name id now
  refine ⟨?_, ?_, fun other hother => ?_, fun other hother => ?_,
    fun other hother => ?_, ?_, ?_, ?_, ?_, ?_, ?_⟩
  · rw [hsettings.1, (evaluate_settings second _ _ _).1, h.dedupeTtl]
  · rw [hsettings.2, (evaluate_settings second _ _ _).2, h.cooldown]
  · rw [seen_evaluated, seen_evaluated, hdecision, h.dedupeTtl,
      (hpruned other hother).1]
  · rw [accepted_evaluated, accepted_evaluated, hdecision,
      (hpruned other hother).2]
  · rw [latest_evaluated, latest_evaluated, hdecision, h.latest other hother]
  · rw [seen_evaluated, if_neg fun hsame => hid hsame.2, hsettings.1]
    exact seen_prune_of_lt h.held hnow
  · rw [accepted_evaluated, if_neg fun hsame => hid hsame.2, accepted_pruned,
      hheld]
    exact h.holder
  · rw [seen_evaluated, if_neg fun hsame => hid hsame.2]
    exact seen_prune_of_none now h.unseen
  · rw [accepted_evaluated, if_neg fun hsame => hid hsame.2, accepted_pruned,
      h.unaccepted, ite_self]
  · rw [latest_evaluated, if_neg fun hsame => hname hsame.2]
    exact h.event
  · rw [Cooled, latest_evaluated, if_neg fun hsame => hname hsame.2,
      (evaluate_settings second _ _ _).2]
    exact h.cooled

theorem Holding.release (h : Holding eventName triggerId time first second)
    {id : Text} (hid : id ≠ triggerId) :
    Holding eventName triggerId time (first.release id) (second.release id) := by
  have hsettings := release_settings first id
  refine ⟨?_, ?_, fun other hother => ?_, fun other hother => ?_,
    fun other hother => ?_, ?_, ?_, ?_, ?_, ?_, h.cooled.release id⟩
  · rw [hsettings.1, (release_settings second _).1, h.dedupeTtl]
  · rw [hsettings.2, (release_settings second _).2, h.cooldown]
  · rw [seen_released, seen_released, h.seen other hother]
  · rw [accepted_released, accepted_released, h.accepted other hother]
  · rw [latest_released, latest_released, h.accepted id hid,
      h.latest other hother]
  · rw [seen_released, if_neg hid, hsettings.1]
    exact h.held
  · rw [accepted_released, if_neg hid]
    exact h.holder
  · rw [seen_released, if_neg hid]
    exact h.unseen
  · rw [accepted_released, if_neg hid]
    exact h.unaccepted
  · rw [latest_released]
    split
    · exact .inr rfl
    · exact h.event

/-- Calls that spare the trigger and its event do not touch what it holds. -/
theorem Holding.run (between : List PolicyCall)
    (hspared : ∀ call ∈ between, call.Spares eventName triggerId)
    {limit : Int}
    (htimes : ∀ now ∈ between.filterMap PolicyCall.time?, now < limit) :
    ∀ {first second : EventRouterPolicy},
      Holding eventName triggerId time first second →
      limit = time + first.dedupeTtl →
      Holding eventName triggerId time (first.run between)
        (second.run between) := by
  induction between with
  | nil => exact fun h _ => h
  | cons call between ih =>
      intro first second h hlimit
      have hcall := hspared call List.mem_cons_self
      have hrest := @ih (fun other hother =>
        hspared other (List.mem_cons_of_mem _ hother)) (fun now hnow =>
          htimes now (by
            obtain ⟨other, hother, heq⟩ := List.mem_filterMap.mp hnow
            exact List.mem_filterMap.mpr
              ⟨other, List.mem_cons_of_mem _ hother, heq⟩))
      refine hrest ?_ (by rw [(first.step_settings call).1, hlimit])
      cases call with
      | evaluate name id now =>
          exact h.evaluate hcall.1 hcall.2
            (hlimit ▸ htimes now List.mem_cons_self)
      | release id => exact h.release hcall

/-- The release takes back what the trigger held. -/
theorem Holding.released (h : Holding eventName triggerId time first second) :
    Near eventName time (first.release triggerId) second := by
  have hsettings := release_settings first triggerId
  refine ⟨hsettings.1.trans h.dedupeTtl, hsettings.2.trans h.cooldown,
    fun id => ?_, fun id => ?_, fun name hname => ?_, .inr ⟨?_, h.cooled⟩⟩
  · rw [seen_released]
    split
    next hid => exact hid ▸ h.unseen.symm
    next hid => exact h.seen id (Ne.symm hid)
  · rw [accepted_released]
    split
    next hid => exact hid ▸ h.unaccepted.symm
    next hid => exact h.accepted id (Ne.symm hid)
  · rw [latest_released, h.holder, if_neg, h.latest name hname]
    intro heq
    obtain ⟨previous, -, hpair⟩ := Option.map_eq_some_iff.mp heq.symm
    exact hname (Prod.mk.inj hpair).1
  · rw [latest_released, h.holder]
    rcases h.event with hlatest | hlatest
    · rw [hlatest, Option.map_some, if_pos rfl]
    · rw [hlatest, ite_self]

end Holding

/-! ## Release undoes evaluate -/

/-- Whatever spares the trigger and its event may come in between. -/
theorem release_undoes_evaluate (dedupeTtl cooldown : Int)
    (before : List PolicyCall) (eventName triggerId : Text) (time : Int)
    (haccepted : answerAfter (create dedupeTtl cooldown) before eventName
      triggerId time = .accept) (between : List PolicyCall)
    (hspared : ∀ call ∈ between, call.Spares eventName triggerId)
    (hbetween : ∀ now ∈ between.filterMap PolicyCall.time?,
      now < time + dedupeTtl) (further : List PolicyCall)
    (hfurther : ∀ now ∈ further.filterMap PolicyCall.time?, time ≤ now) :
    let reached := (create dedupeTtl cooldown).run before
    answers respond (reached.run (.evaluate eventName triggerId time ::
        (between ++ [.release triggerId]))) further =
      answers respond ((reached.prune time).run between) further := by
  intro reached
  have hlinked : reached.Linked := linked_run before (linked_create _ _)
  have hholding := holding_of_accept hlinked haccepted
  have hlimit : time + dedupeTtl =
      time + (reached.evaluate eventName triggerId time).2.dedupeTtl := by
    rw [(evaluate_settings reached _ _ _).1,
      ((create dedupeTtl cooldown).run_settings before).1]
    rfl
  have hlast := (hholding.run between hspared hbetween hlimit).released
  have hrun : reached.run (.evaluate eventName triggerId time ::
      (between ++ [.release triggerId])) =
      ((reached.evaluate eventName triggerId time).2.run between).release
        triggerId := by
    simp only [run, List.foldl_cons, List.foldl_append, List.foldl_nil, step]
  rw [hrun]
  exact hlast.answers hfurther

theorem release_undoes_evaluate_brake :
    answers respond ((create 10 2).run ([.evaluate brake "first" 0,
        .evaluate brake "second" 3, .evaluate "horn" "third" 4,
        .release "second"])) [.evaluate brake "second" 5] =
      answers respond (((create 10 2).run [.evaluate brake "first" 0]).prune 3
        |>.run [.evaluate "horn" "third" 4]) [.evaluate brake "second" 5] :=
  release_undoes_evaluate 10 2 [.evaluate brake "first" 0] brake "second" 3
    (by decide +kernel) [.evaluate "horn" "third" 4] (by decide +kernel)
    (by decide +kernel) [.evaluate brake "second" 5] (by decide +kernel)

end EventRouterPolicy

end DataCache.Trigger
