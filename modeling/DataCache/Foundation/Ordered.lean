import Mathlib.Data.List.Sort

/-!
# Ordered insertion

A queue kept in the order of a key: a new element goes behind every element
whose key is not greater, so equal keys stay in the order of their arrival.
-/

namespace DataCache.Foundation

variable {α K : Type*} [LinearOrder K] (key : α → K)

/-- `push_back`, or insertion at the upper bound of an earlier key. -/
def insertOrdered (queue : List α) (x : α) : List α :=
  if queue.getLast?.all fun last => decide (key last ≤ key x) then queue ++ [x]
  else
    queue.takeWhile (fun candidate => decide (key candidate ≤ key x)) ++
      x :: queue.dropWhile (fun candidate => decide (key candidate ≤ key x))

def KeyOrdered (queue : List α) : Prop :=
  queue.Pairwise fun x y => key x ≤ key y

instance (queue : List α) : Decidable (KeyOrdered key queue) :=
  inferInstanceAs (Decidable (queue.Pairwise fun x y => key x ≤ key y))

theorem insertOrdered_perm (queue : List α) (x : α) :
    (insertOrdered key queue x).Perm (x :: queue) := by
  unfold insertOrdered
  split
  · exact List.perm_append_singleton x queue
  · refine List.perm_middle.trans (List.Perm.cons x ?_)
    rw [List.takeWhile_append_dropWhile]

theorem mem_insertOrdered {queue : List α} {x y : α} :
    y ∈ insertOrdered key queue x ↔ y = x ∨ y ∈ queue := by
  rw [(insertOrdered_perm key queue x).mem_iff, List.mem_cons]

theorem length_insertOrdered (queue : List α) (x : α) :
    (insertOrdered key queue x).length = queue.length + 1 :=
  (insertOrdered_perm key queue x).length_eq

section Ordered

variable {key}

theorem KeyOrdered.le_getLast {queue : List α} (h : KeyOrdered key queue)
    {last x : α} (hlast : queue.getLast? = some last) (hx : x ∈ queue) :
    key x ≤ key last := by
  obtain ⟨front, rfl⟩ := List.getLast?_eq_some_iff.mp hlast
  rcases List.mem_append.mp hx with hx | hx
  · exact (List.pairwise_append.mp h).2.2 x hx last (List.mem_singleton.mpr rfl)
  · rw [List.mem_singleton.mp hx]

theorem takeWhile_eq_filter {queue : List α} (h : KeyOrdered key queue) (bound : K) :
    queue.takeWhile (fun y => decide (key y ≤ bound)) =
      queue.filter (fun y => decide (key y ≤ bound)) := by
  induction queue with
  | nil => rfl
  | cons first rest ih =>
      obtain ⟨hfirst, hrest⟩ := List.pairwise_cons.mp h
      by_cases hle : key first ≤ bound
      · simp [hle, ih hrest]
      · have hnone : ∀ y ∈ first :: rest, ¬decide (key y ≤ bound) = true := by
          intro y hy hdecide
          refine hle (le_trans ?_ (of_decide_eq_true hdecide))
          rcases List.mem_cons.mp hy with rfl | hy
          · exact le_refl _
          · exact hfirst y hy
        rw [List.filter_eq_nil_iff.mpr hnone, List.takeWhile_cons]
        exact if_neg (hnone first List.mem_cons_self)

theorem dropWhile_eq_filter {queue : List α} (h : KeyOrdered key queue) (bound : K) :
    queue.dropWhile (fun y => decide (key y ≤ bound)) =
      queue.filter (fun y => decide (bound < key y)) := by
  induction queue with
  | nil => rfl
  | cons first rest ih =>
      obtain ⟨hfirst, hrest⟩ := List.pairwise_cons.mp h
      by_cases hle : key first ≤ bound
      · simp [hle, not_lt.mpr hle, ih hrest]
      · have hall : ∀ y ∈ first :: rest, decide (bound < key y) = true := by
          intro y hy
          refine decide_eq_true (lt_of_lt_of_le (not_le.mp hle) ?_)
          rcases List.mem_cons.mp hy with rfl | hy
          · exact le_refl _
          · exact hfirst y hy
        rw [List.filter_eq_self.mpr hall]
        simp [hle]

theorem insertOrdered_of_le {queue : List α} {x : α}
    (h : ∀ y ∈ queue, key y ≤ key x) :
    insertOrdered key queue x = queue ++ [x] := by
  unfold insertOrdered
  rw [if_pos]
  cases hget : queue.getLast? with
  | none => rfl
  | some last =>
      rw [Option.all_some, decide_eq_true_eq]
      exact h last (List.mem_of_getLast? hget)

/-- On an ordered queue both branches split it at the new key. -/
theorem insertOrdered_eq_filter {queue : List α} (h : KeyOrdered key queue)
    (x : α) : insertOrdered key queue x =
      queue.filter (fun y => decide (key y ≤ key x)) ++
        x :: queue.filter (fun y => decide (key x < key y)) := by
  rw [← takeWhile_eq_filter h, ← dropWhile_eq_filter h]
  by_cases hall : ∀ y ∈ queue, key y ≤ key x
  · rw [insertOrdered_of_le hall, takeWhile_eq_filter h, dropWhile_eq_filter h,
      List.filter_eq_self.mpr fun y hy => decide_eq_true (hall y hy),
      List.filter_eq_nil_iff.mpr fun y hy => by simpa using hall y hy]
  · unfold insertOrdered
    rw [if_neg]
    intro hlast
    refine hall fun y hy => ?_
    cases hget : queue.getLast? with
    | none =>
        rw [List.getLast?_eq_none_iff.mp hget] at hy
        cases hy
    | some last =>
        rw [hget, Option.all_some, decide_eq_true_eq] at hlast
        exact (h.le_getLast hget hy).trans hlast

/-- A key that is not below a first part goes into the second one. -/
theorem insertOrdered_append_of_le {queue rest : List α} {x : α}
    (h : KeyOrdered key (queue ++ rest)) (hle : ∀ y ∈ queue, key y ≤ key x) :
    insertOrdered key (queue ++ rest) x = queue ++ insertOrdered key rest x := by
  obtain ⟨-, hrest, -⟩ := List.pairwise_append.mp h
  have hlow : queue.filter (fun y => decide (key y ≤ key x)) = queue :=
    List.filter_eq_self.mpr fun y hy => decide_eq_true (hle y hy)
  have hhigh : queue.filter (fun y => decide (key x < key y)) = [] :=
    List.filter_eq_nil_iff.mpr fun y hy => by simpa using hle y hy
  rw [insertOrdered_eq_filter h, insertOrdered_eq_filter hrest,
    List.filter_append, List.filter_append, hlow, hhigh, List.nil_append,
    List.append_assoc]

/-- A key below the second part goes into the first one. -/
theorem insertOrdered_append_of_lt {queue rest : List α} {x : α}
    (h : KeyOrdered key (queue ++ rest)) (hlt : ∀ y ∈ rest, key x < key y) :
    insertOrdered key (queue ++ rest) x = insertOrdered key queue x ++ rest := by
  obtain ⟨hqueue, -, -⟩ := List.pairwise_append.mp h
  have hlow : rest.filter (fun y => decide (key y ≤ key x)) = [] :=
    List.filter_eq_nil_iff.mpr fun y hy => by simpa using hlt y hy
  have hhigh : rest.filter (fun y => decide (key x < key y)) = rest :=
    List.filter_eq_self.mpr fun y hy => decide_eq_true (hlt y hy)
  rw [insertOrdered_eq_filter h, insertOrdered_eq_filter hqueue,
    List.filter_append, List.filter_append, hlow, hhigh, List.append_nil,
    List.append_assoc, List.cons_append]

theorem KeyOrdered.insertOrdered {queue : List α} (h : KeyOrdered key queue)
    (x : α) : KeyOrdered key (insertOrdered key queue x) := by
  rw [insertOrdered_eq_filter h]
  have hlow : ∀ {y : α}, y ∈ queue.filter (fun y => decide (key y ≤ key x)) →
      key y ≤ key x := fun hy => of_decide_eq_true (List.mem_filter.mp hy).2
  have hhigh : ∀ {y : α}, y ∈ queue.filter (fun y => decide (key x < key y)) →
      key x ≤ key y := fun hy =>
    (of_decide_eq_true (List.mem_filter.mp hy).2 : key x < _).le
  refine List.pairwise_append.mpr
    ⟨h.filter _, List.pairwise_cons.mpr ⟨fun y hy => hhigh hy, h.filter _⟩, ?_⟩
  intro y hy z hz
  rcases List.mem_cons.mp hz with rfl | hz
  · exact hlow hy
  · exact (hlow hy).trans (hhigh hz)

end Ordered

end DataCache.Foundation
