import Mathlib.Data.List.Destutter

/-!
# Observations and their changes

What each event of a sequence yields after the ones before it, and a sequence of
observations without those that say the same as the one before.  Both grow at
their ends, as the events happen.
-/

namespace DataCache.Foundation

variable {α β : Type*} {R : α → α → Prop}

/-- What each element yields, given those before it. -/
def yields (f : List α → α → List β) (before : List α) : List α → List β
  | [] => []
  | x :: rest => f before x ++ yields f (before ++ [x]) rest

theorem yields_append (f : List α → α → List β) (before xs ys : List α) :
    yields f before (xs ++ ys) = yields f before xs ++ yields f (before ++ xs) ys := by
  induction xs generalizing before with
  | nil => simp [yields]
  | cons x xs ih => simp [yields, ih]

theorem yields_concat (f : List α → α → List β) (before xs : List α) (x : α) :
    yields f before (xs ++ [x]) = yields f before xs ++ f (before ++ xs) x := by
  rw [yields_append, yields, yields, List.append_nil]

/-- The next observation is kept if it differs from the last one that was kept. -/
theorem destutter'_concat [DecidableRel R] (xs : List α) (start x : α) :
    (xs ++ [x]).destutter' R start = xs.destutter' R start ++
      if R ((xs.destutter' R start).getLast (List.destutter'_ne_nil _ _)) x then [x] else [] := by
  induction xs generalizing start with
  | nil =>
      by_cases h : R start x <;> simp [h]
  | cons y ys ih =>
      rw [List.cons_append]
      by_cases h : R start y
      · simp only [List.destutter'_cons_pos _ h, ih, List.cons_append,
          List.getLast_cons (List.destutter'_ne_nil _ _)]
      · simp only [List.destutter'_cons_neg _ h, ih]

theorem head?_destutter' [DecidableRel R] (xs : List α) (start : α) :
    (xs.destutter' R start).head? = some start := by
  induction xs with
  | nil => rfl
  | cons y ys ih =>
      by_cases h : R start y
      · rw [List.destutter'_cons_pos _ h, List.head?_cons]
      · rw [List.destutter'_cons_neg _ h, ih]

/-- Each element of a list with the one before it. -/
def successive (f : α → α → β) (xs : List α) : List β := List.zipWith f xs xs.tail

theorem successive_concat (f : α → α → β) {xs : List α} (hne : xs ≠ []) (x : α) :
    successive f (xs ++ [x]) = successive f xs ++ [f (xs.getLast hne) x] := by
  induction xs with
  | nil => exact absurd rfl hne
  | cons first rest ih =>
      cases rest with
      | nil => rfl
      | cons second rest =>
          have hrest := ih (List.cons_ne_nil second rest)
          rw [List.getLast_cons (List.cons_ne_nil second rest)]
          change f first second :: successive f (second :: rest ++ [x]) = _
          rw [hrest]
          rfl

theorem eq_cons_of_mem_head?_successive {f : α → α → β} {xs : List α} {y : β}
    (h : y ∈ (successive f xs).head?) : ∃ a b rest, xs = a :: b :: rest ∧ f a b = y := by
  match xs, h with
  | a :: b :: rest, h => exact ⟨a, b, rest, rfl, Option.some.inj h⟩

/-- What holds of neighbours holds along the list of their results. -/
theorem isChain_successive {f : α → α → β} {S : β → β → Prop} {xs : List α}
    (h : List.IsChain R xs)
    (hstep : ∀ a b c, R a b → R b c → S (f a b) (f b c)) :
    List.IsChain S (successive f xs) := by
  induction xs with
  | nil => exact List.isChain_nil
  | cons a rest ih =>
      cases rest with
      | nil => exact List.isChain_nil
      | cons b rest =>
          obtain ⟨hab, hrest⟩ := List.isChain_cons_cons.mp h
          cases rest with
          | nil => exact List.isChain_singleton _
          | cons c rest =>
              have hbc := (List.isChain_cons_cons.mp hrest).1
              exact List.isChain_cons_cons.mpr ⟨hstep a b c hab hbc, ih hrest⟩

end DataCache.Foundation
