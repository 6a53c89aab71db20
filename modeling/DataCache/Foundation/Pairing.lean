import Mathlib.Algebra.Order.Group.Abs
import Mathlib.Data.Multiset.AddSub
import Mathlib.Data.Multiset.MapFold
import DataCache.Foundation.Ordered

/-!
# Greedy pairing

Two sequences in the order of a key are paired from the front: the two oldest
elements are paired when their keys are within a tolerance, and the older one
is dropped otherwise.  The algorithm acts on the fronts only, so it may run
while the sequences still grow; and on ordered sequences no other pairing has
more pairs.
-/

namespace DataCache.Foundation

variable {α β K : Type*}

/-- What becomes of the oldest elements. -/
inductive Outcome (α β : Type*) where
  | matched (first : α) (second : β)
  | droppedFirst (first : α)
  | droppedSecond (second : β)

structure Paired (α β : Type*) where
  outcomes : List (Outcome α β)
  firsts : List α
  seconds : List β

def Paired.cons (outcome : Outcome α β) (rest : Paired α β) : Paired α β :=
  { rest with outcomes := outcome :: rest.outcomes }

def Outcome.match? : Outcome α β → Option (α × β)
  | matched first second => some (first, second)
  | _ => none

def Outcome.droppedFirst? : Outcome α β → Option α
  | droppedFirst first => some first
  | _ => none

def Outcome.droppedSecond? : Outcome α β → Option β
  | droppedSecond second => some second
  | _ => none

namespace Paired

def pairs (paired : Paired α β) : List (α × β) :=
  paired.outcomes.filterMap Outcome.match?

def droppedFirsts (paired : Paired α β) : List α :=
  paired.outcomes.filterMap Outcome.droppedFirst?

def droppedSeconds (paired : Paired α β) : List β :=
  paired.outcomes.filterMap Outcome.droppedSecond?

end Paired

section Greedy

variable [AddCommGroup K] [LinearOrder K] (key : α → K) (key' : β → K)
  (tolerance : K)

def Within (first : α) (second : β) : Prop :=
  -tolerance ≤ key first - key' second ∧ key first - key' second ≤ tolerance

instance (first : α) (second : β) :
    Decidable (Within key key' tolerance first second) :=
  inferInstanceAs (Decidable (_ ∧ _))

/-- Pair the two oldest elements, or drop the older one. -/
def pairOldest : List α → List β → Paired α β
  | [], seconds => ⟨[], [], seconds⟩
  | first :: firsts, [] => ⟨[], first :: firsts, []⟩
  | first :: firsts, second :: seconds =>
      if Within key key' tolerance first second then
        (pairOldest firsts seconds).cons (.matched first second)
      else if key first - key' second < 0 then
        (pairOldest firsts (second :: seconds)).cons (.droppedFirst first)
      else (pairOldest (first :: firsts) seconds).cons (.droppedSecond second)
termination_by firsts seconds => firsts.length + seconds.length

section Fronts

variable {key key' tolerance} {first : α} {firsts : List α} {second : β}
  {seconds : List β}

theorem pairOldest_of_within (h : Within key key' tolerance first second) :
    pairOldest key key' tolerance (first :: firsts) (second :: seconds) =
      (pairOldest key key' tolerance firsts seconds).cons
        (.matched first second) := by
  rw [pairOldest, if_pos h]

theorem pairOldest_of_older (h : ¬Within key key' tolerance first second)
    (holder : key first - key' second < 0) :
    pairOldest key key' tolerance (first :: firsts) (second :: seconds) =
      (pairOldest key key' tolerance firsts (second :: seconds)).cons
        (.droppedFirst first) := by
  rw [pairOldest, if_neg h, if_pos holder]

theorem pairOldest_of_younger (h : ¬Within key key' tolerance first second)
    (holder : ¬key first - key' second < 0) :
    pairOldest key key' tolerance (first :: firsts) (second :: seconds) =
      (pairOldest key key' tolerance (first :: firsts) seconds).cons
        (.droppedSecond second) := by
  rw [pairOldest, if_neg h, if_neg holder]

end Fronts

/-- One of the two sequences is used up. -/
theorem pairOldest_exhausts (firsts : List α) (seconds : List β) :
    (pairOldest key key' tolerance firsts seconds).firsts = [] ∨
      (pairOldest key key' tolerance firsts seconds).seconds = [] := by
  fun_induction pairOldest key key' tolerance firsts seconds with
  | case1 seconds => exact .inl rfl
  | case2 first firsts => exact .inr rfl
  | case3 first firsts second seconds hwithin ih => exact ih
  | case4 first firsts second seconds hwithin holder ih => exact ih
  | case5 first firsts second seconds hwithin holder ih => exact ih

/-- More elements behind the sequences change nothing that was decided. -/
theorem pairOldest_append (firsts : List α) (seconds : List β) (more : List α)
    (more' : List β) :
    pairOldest key key' tolerance (firsts ++ more) (seconds ++ more') =
      let start := pairOldest key key' tolerance firsts seconds
      let rest := pairOldest key key' tolerance (start.firsts ++ more)
        (start.seconds ++ more')
      { rest with outcomes := start.outcomes ++ rest.outcomes } := by
  fun_induction pairOldest key key' tolerance firsts seconds with
  | case1 seconds => rfl
  | case2 first firsts => rfl
  | case3 first firsts second seconds hwithin ih =>
      rw [List.cons_append, List.cons_append, pairOldest_of_within hwithin, ih]
      rfl
  | case4 first firsts second seconds hwithin holder ih =>
      rw [List.cons_append, List.cons_append, pairOldest_of_older hwithin holder,
        ← List.cons_append, ih]
      rfl
  | case5 first firsts second seconds hwithin holder ih =>
      rw [List.cons_append, List.cons_append,
        pairOldest_of_younger hwithin holder, ← List.cons_append, ih]
      rfl

/-! ## Accounting -/

/-- Every first element is paired, dropped or left over. -/
theorem pairOldest_firsts_perm (firsts : List α) (seconds : List β) :
    let paired := pairOldest key key' tolerance firsts seconds
    firsts.Perm (paired.pairs.map Prod.fst ++
      (paired.droppedFirsts ++ paired.firsts)) := by
  fun_induction pairOldest key key' tolerance firsts seconds with
  | case1 seconds => exact .refl _
  | case2 first firsts => exact .refl _
  | case3 first firsts second seconds hwithin ih => exact ih.cons first
  | case4 first firsts second seconds hwithin holder ih =>
      exact (ih.cons first).trans List.perm_middle.symm
  | case5 first firsts second seconds hwithin holder ih => exact ih

theorem pairOldest_seconds_perm (firsts : List α) (seconds : List β) :
    let paired := pairOldest key key' tolerance firsts seconds
    seconds.Perm (paired.pairs.map Prod.snd ++
      (paired.droppedSeconds ++ paired.seconds)) := by
  fun_induction pairOldest key key' tolerance firsts seconds with
  | case1 seconds => exact .refl _
  | case2 first firsts => exact .refl _
  | case3 first firsts second seconds hwithin ih => exact ih.cons second
  | case4 first firsts second seconds hwithin holder ih => exact ih
  | case5 first firsts second seconds hwithin holder ih =>
      exact (ih.cons second).trans List.perm_middle.symm

theorem pairOldest_pairs_within (firsts : List α) (seconds : List β) :
    ∀ pair ∈ (pairOldest key key' tolerance firsts seconds).pairs,
      Within key key' tolerance pair.1 pair.2 := by
  fun_induction pairOldest key key' tolerance firsts seconds with
  | case1 seconds => nofun
  | case2 first firsts => nofun
  | case3 first firsts second seconds hwithin ih =>
      intro pair hpair
      rcases List.mem_cons.mp hpair with rfl | hpair
      · exact hwithin
      · exact ih pair hpair
  | case4 first firsts second seconds hwithin holder ih => exact ih
  | case5 first firsts second seconds hwithin holder ih => exact ih

theorem pairOldest_firsts_suffix (firsts : List α) (seconds : List β) :
    (pairOldest key key' tolerance firsts seconds).firsts <:+ firsts := by
  fun_induction pairOldest key key' tolerance firsts seconds with
  | case1 seconds => exact List.suffix_rfl
  | case2 first firsts => exact List.suffix_rfl
  | case3 first firsts second seconds hwithin ih =>
      exact ih.trans (List.suffix_cons first firsts)
  | case4 first firsts second seconds hwithin holder ih =>
      exact ih.trans (List.suffix_cons first firsts)
  | case5 first firsts second seconds hwithin holder ih => exact ih

theorem pairOldest_seconds_suffix (firsts : List α) (seconds : List β) :
    (pairOldest key key' tolerance firsts seconds).seconds <:+ seconds := by
  fun_induction pairOldest key key' tolerance firsts seconds with
  | case1 seconds => exact List.suffix_rfl
  | case2 first firsts => exact List.suffix_rfl
  | case3 first firsts second seconds hwithin ih =>
      exact ih.trans (List.suffix_cons second seconds)
  | case4 first firsts second seconds hwithin holder ih => exact ih
  | case5 first firsts second seconds hwithin holder ih =>
      exact ih.trans (List.suffix_cons second seconds)

/-! ## Optimality -/

/-- A one-to-one pairing of occurrences within the tolerance. -/
structure IsPairing (firsts : List α) (seconds : List β)
    (pairing : Multiset (α × β)) : Prop where
  firsts_le : pairing.map Prod.fst ≤ (firsts : Multiset α)
  seconds_le : pairing.map Prod.snd ≤ (seconds : Multiset β)
  within : ∀ pair ∈ pairing, Within key key' tolerance pair.1 pair.2

theorem isPairing_pairOldest (firsts : List α) (seconds : List β) :
    IsPairing key key' tolerance firsts seconds
      ((pairOldest key key' tolerance firsts seconds).pairs :
        Multiset (α × β)) where
  firsts_le := by
    rw [Multiset.map_coe, Multiset.coe_le]
    exact (List.sublist_append_left _ _).subperm.trans
      (pairOldest_firsts_perm key key' tolerance firsts seconds).symm.subperm
  seconds_le := by
    rw [Multiset.map_coe, Multiset.coe_le]
    exact (List.sublist_append_left _ _).subperm.trans
      (pairOldest_seconds_perm key key' tolerance firsts seconds).symm.subperm
  within pair hpair :=
    pairOldest_pairs_within key key' tolerance firsts seconds pair hpair

section Exchange

variable {key key' tolerance} {first : α} {firsts : List α} {second : β}
  {seconds : List β} {pairing : Multiset (α × β)}

theorem IsPairing.mem_firsts
    (h : IsPairing key key' tolerance firsts seconds pairing) {pair : α × β}
    (hpair : pair ∈ pairing) : pair.1 ∈ firsts :=
  Multiset.mem_coe.mp
    (Multiset.mem_of_le h.firsts_le (Multiset.mem_map_of_mem _ hpair))

theorem IsPairing.mem_seconds
    (h : IsPairing key key' tolerance firsts seconds pairing) {pair : α × β}
    (hpair : pair ∈ pairing) : pair.2 ∈ seconds :=
  Multiset.mem_coe.mp
    (Multiset.mem_of_le h.seconds_le (Multiset.mem_map_of_mem _ hpair))

theorem IsPairing.of_unused_first
    (h : IsPairing key key' tolerance (first :: firsts) seconds pairing)
    (hunused : ∀ pair ∈ pairing, pair.1 ≠ first) :
    IsPairing key key' tolerance firsts seconds pairing where
  firsts_le := by
    refine (Multiset.le_cons_of_notMem fun hmem => ?_).mp h.firsts_le
    obtain ⟨pair, hpair, heq⟩ := Multiset.mem_map.mp hmem
    exact hunused pair hpair heq
  seconds_le := h.seconds_le
  within := h.within

theorem IsPairing.of_unused_second
    (h : IsPairing key key' tolerance firsts (second :: seconds) pairing)
    (hunused : ∀ pair ∈ pairing, pair.2 ≠ second) :
    IsPairing key key' tolerance firsts seconds pairing where
  firsts_le := h.firsts_le
  seconds_le := by
    refine (Multiset.le_cons_of_notMem fun hmem => ?_).mp h.seconds_le
    obtain ⟨pair, hpair, heq⟩ := Multiset.mem_map.mp hmem
    exact hunused pair hpair heq
  within := h.within

theorem IsPairing.of_cons {pair : α × β}
    (h : IsPairing key key' tolerance (first :: firsts) seconds (pair ::ₘ pairing))
    (hpair : pair.1 = first) :
    IsPairing key key' tolerance firsts seconds pairing where
  firsts_le := by
    have hle := h.firsts_le
    rw [Multiset.map_cons, hpair, ← Multiset.cons_coe,
      Multiset.cons_le_cons_iff] at hle
    exact hle
  seconds_le := by
    have hle := h.seconds_le
    rw [Multiset.map_cons] at hle
    exact (Multiset.le_cons_self _ _).trans hle
  within other hother := h.within other (Multiset.mem_cons_of_mem hother)

theorem IsPairing.of_cons_second {pair : α × β}
    (h : IsPairing key key' tolerance firsts (second :: seconds) (pair ::ₘ pairing))
    (hpair : pair.2 = second) :
    IsPairing key key' tolerance firsts seconds pairing where
  firsts_le := by
    have hle := h.firsts_le
    rw [Multiset.map_cons] at hle
    exact (Multiset.le_cons_self _ _).trans hle
  seconds_le := by
    have hle := h.seconds_le
    rw [Multiset.map_cons, hpair, ← Multiset.cons_coe,
      Multiset.cons_le_cons_iff] at hle
    exact hle
  within other hother := h.within other (Multiset.mem_cons_of_mem hother)

variable [IsOrderedAddMonoid K]

/-- The partners of the two oldest elements are within the tolerance too. -/
theorem within_exchange {first' : α} {second' : β}
    (hfirst : key first ≤ key first') (hsecond : key' second ≤ key' second')
    (hlow : Within key key' tolerance first second')
    (hhigh : Within key key' tolerance first' second) :
    Within key key' tolerance first' second' :=
  ⟨hlow.1.trans (sub_le_sub_right hfirst _),
    (sub_le_sub_left hsecond _).trans hhigh.2⟩

/-- Both oldest elements are taken: their partners are given to each other. -/
theorem IsPairing.exchange {first' : α} {second' : β}
    (h : IsPairing key key' tolerance (first :: firsts) (second :: seconds)
      ((first, second') ::ₘ (first', second) ::ₘ pairing))
    (hfirsts : ∀ other ∈ firsts, key first ≤ key other)
    (hseconds : ∀ other ∈ seconds, key' second ≤ key' other) :
    IsPairing key key' tolerance firsts seconds
      ((first', second') ::ₘ pairing) := by
  have hfirsts_le : first' ::ₘ pairing.map Prod.fst ≤ (firsts : Multiset α) := by
    have hle := h.firsts_le
    rwa [Multiset.map_cons, Multiset.map_cons, ← Multiset.cons_coe,
      Multiset.cons_le_cons_iff] at hle
  have hseconds_le : second' ::ₘ pairing.map Prod.snd ≤ (seconds : Multiset β) := by
    have hle := h.seconds_le
    rwa [Multiset.map_cons, Multiset.map_cons, Multiset.cons_swap,
      ← Multiset.cons_coe, Multiset.cons_le_cons_iff] at hle
  refine ⟨by rwa [Multiset.map_cons], by rwa [Multiset.map_cons], ?_⟩
  intro pair hpair
  rcases Multiset.mem_cons.mp hpair with rfl | hpair
  · refine within_exchange (hfirsts first' ?_) (hseconds second' ?_)
      (h.within (first, second') (Multiset.mem_cons_self _ _))
      (h.within (first', second)
        (Multiset.mem_cons_of_mem (Multiset.mem_cons_self _ _)))
    · exact Multiset.mem_of_le hfirsts_le (Multiset.mem_cons_self _ _)
    · exact Multiset.mem_of_le hseconds_le (Multiset.mem_cons_self _ _)
  · exact h.within pair (Multiset.mem_cons_of_mem (Multiset.mem_cons_of_mem hpair))

/-- Pairing the two oldest elements costs at most one other pair. -/
theorem IsPairing.of_fronts
    (h : IsPairing key key' tolerance (first :: firsts) (second :: seconds) pairing)
    (hfirsts : ∀ other ∈ firsts, key first ≤ key other)
    (hseconds : ∀ other ∈ seconds, key' second ≤ key' other) :
    ∃ smaller, IsPairing key key' tolerance firsts seconds smaller ∧
      pairing.card ≤ smaller.card + 1 := by
  by_cases hused : ∃ pair ∈ pairing, pair.1 = first
  · obtain ⟨⟨_, second'⟩, hmem, rfl⟩ := hused
    obtain ⟨rest, rfl⟩ := Multiset.exists_cons_of_mem hmem
    by_cases hother : ∃ pair ∈ rest, pair.2 = second
    · obtain ⟨⟨first', _⟩, hmem', rfl⟩ := hother
      obtain ⟨rest', rfl⟩ := Multiset.exists_cons_of_mem hmem'
      exact ⟨_, h.exchange hfirsts hseconds, by simp⟩
    · exact ⟨rest, (h.of_cons rfl).of_unused_second fun pair hpair heq =>
        hother ⟨pair, hpair, heq⟩, by simp⟩
  · have hfree := h.of_unused_first fun pair hpair heq => hused ⟨pair, hpair, heq⟩
    by_cases hother : ∃ pair ∈ pairing, pair.2 = second
    · obtain ⟨pair, hmem, heq⟩ := hother
      obtain ⟨rest, rfl⟩ := Multiset.exists_cons_of_mem hmem
      exact ⟨rest, hfree.of_cons_second heq, by simp⟩
    · exact ⟨pairing, hfree.of_unused_second fun pair hpair heq =>
        hother ⟨pair, hpair, heq⟩, Nat.le_succ _⟩

/-- An element older than the other side's oldest by more than the tolerance
has no partner. -/
theorem IsPairing.of_older
    (h : IsPairing key key' tolerance (first :: firsts) (second :: seconds) pairing)
    (holder : key first - key' second < -tolerance)
    (hseconds : ∀ other ∈ seconds, key' second ≤ key' other) :
    IsPairing key key' tolerance firsts (second :: seconds) pairing := by
  refine h.of_unused_first fun pair hpair heq => ?_
  have hle : key' second ≤ key' pair.2 := by
    rcases List.mem_cons.mp (h.mem_seconds hpair) with heq' | hmem
    · rw [heq']
    · exact hseconds pair.2 hmem
  have hwithin := (h.within pair hpair).1
  rw [heq] at hwithin
  exact absurd (hwithin.trans (sub_le_sub_left hle _)) (not_le.mpr holder)

theorem IsPairing.of_younger
    (h : IsPairing key key' tolerance (first :: firsts) (second :: seconds) pairing)
    (hyounger : tolerance < key first - key' second)
    (hfirsts : ∀ other ∈ firsts, key first ≤ key other) :
    IsPairing key key' tolerance (first :: firsts) seconds pairing := by
  refine h.of_unused_second fun pair hpair heq => ?_
  have hle : key first ≤ key pair.1 := by
    rcases List.mem_cons.mp (h.mem_firsts hpair) with heq' | hmem
    · rw [heq']
    · exact hfirsts pair.1 hmem
  have hwithin := (h.within pair hpair).2
  rw [heq] at hwithin
  exact absurd ((sub_le_sub_right hle _).trans hwithin) (not_le.mpr hyounger)

end Exchange

/-- No pairing of two ordered sequences has more pairs than the greedy one. -/
theorem card_le_pairOldest [IsOrderedAddMonoid K] (htolerance : 0 ≤ tolerance)
    (firsts : List α) (seconds : List β) (hfirsts : KeyOrdered key firsts)
    (hseconds : KeyOrdered key' seconds) {pairing : Multiset (α × β)}
    (h : IsPairing key key' tolerance firsts seconds pairing) :
    pairing.card ≤ (pairOldest key key' tolerance firsts seconds).pairs.length := by
  fun_induction pairOldest key key' tolerance firsts seconds
    generalizing pairing with
  | case1 seconds =>
      have hnil := Multiset.le_zero.mp h.firsts_le
      rw [Multiset.map_eq_zero.mp hnil]
      exact Nat.zero_le _
  | case2 first firsts =>
      have hnil := Multiset.le_zero.mp h.seconds_le
      rw [Multiset.map_eq_zero.mp hnil]
      exact Nat.zero_le _
  | case3 first firsts second seconds hwithin ih =>
      obtain ⟨hfirst, hfirsts⟩ := List.pairwise_cons.mp hfirsts
      obtain ⟨hsecond, hseconds⟩ := List.pairwise_cons.mp hseconds
      obtain ⟨smaller, hsmaller, hcard⟩ := h.of_fronts hfirst hsecond
      exact hcard.trans (Nat.succ_le_succ (ih hfirsts hseconds hsmaller))
  | case4 first firsts second seconds hwithin holder ih =>
      obtain ⟨hfirst, hfirsts⟩ := List.pairwise_cons.mp hfirsts
      have hlow : key first - key' second < -tolerance := by
        by_contra hnot
        exact hwithin ⟨not_lt.mp hnot, holder.le.trans htolerance⟩
      exact ih hfirsts hseconds
        (h.of_older hlow (List.pairwise_cons.mp hseconds).1)
  | case5 first firsts second seconds hwithin holder ih =>
      obtain ⟨hsecond, hseconds⟩ := List.pairwise_cons.mp hseconds
      have hhigh : tolerance < key first - key' second := by
        by_contra hnot
        refine hwithin ⟨?_, not_lt.mp hnot⟩
        exact (neg_nonpos.mpr htolerance).trans (not_lt.mp holder)
      exact ih hfirsts hseconds
        (h.of_younger hhigh (List.pairwise_cons.mp hfirsts).1)

end Greedy

end DataCache.Foundation
