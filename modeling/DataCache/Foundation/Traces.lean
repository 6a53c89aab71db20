import Mathlib.Data.List.Induction

/-!
# Growing traces

Laws about the order of events in a trace, each kept when the trace grows by one
event at its end.
-/

namespace DataCache.Foundation

variable {α : Type*} {p q : α → Prop} {trace : List α} {last : α}

theorem concat_eq_append_cons {x : α} {before after : List α}
    (h : trace ++ [last] = before ++ x :: after) :
    (after = [] ∧ before = trace ∧ x = last) ∨
      ∃ rest, after = rest ++ [last] ∧ trace = before ++ x :: rest := by
  induction after using List.reverseRecOn with
  | nil =>
      obtain ⟨hbefore, hlast⟩ := List.append_inj' h rfl
      exact .inl ⟨rfl, hbefore.symm, (List.singleton_inj.mp hlast).symm⟩
  | append_singleton rest y _ =>
      have hsplit : trace ++ [last] = (before ++ x :: rest) ++ [y] := by
        simpa using h
      obtain ⟨htrace, hlast⟩ := List.append_inj' hsplit rfl
      exact .inr ⟨rest, by rw [List.singleton_inj.mp hlast], htrace⟩

/-- Before every `p` there is a `q`. -/
def PrecededBy (p q : α → Prop) (trace : List α) : Prop :=
  ∀ before x after, trace = before ++ x :: after → p x → ∃ y ∈ before, q y

/-- Nothing follows a `p`. -/
def LastOnly (p : α → Prop) (trace : List α) : Prop :=
  ∀ before x after, trace = before ++ x :: after → p x → after = []

/-- After every `p` there is a `q`. -/
def Cleared (p q : α → Prop) (trace : List α) : Prop :=
  ∀ before x after, trace = before ++ x :: after → p x → ∃ y ∈ after, q y

/-- Between two `p` there is a `q`. -/
def Separated (p q : α → Prop) (trace : List α) : Prop :=
  ∀ before first between second after,
    trace = before ++ first :: (between ++ second :: after) →
    p first → p second → ∃ y ∈ between, q y

theorem last_eq {x : α} {before : List α} (h : trace ++ [last] = before ++ [x]) :
    last = x :=
  List.singleton_inj.mp (List.append_inj_right' h rfl)

/-- Every event is allowed by what came before it. -/
def Justified (law : List α → α → Prop) (trace : List α) : Prop :=
  ∀ before x after, trace = before ++ x :: after → law before x

theorem Justified.nil (law : List α → α → Prop) : Justified law [] := by
  intro before x after h
  simp at h

/-- The same for an event right after another one. -/
theorem Justified.next {law : List α → α → Prop} {before after : List α} {x y : α}
    (h : Justified law (before ++ x :: y :: after)) : law (before ++ [x]) y :=
  h (before ++ [x]) y after (by simp)

theorem Justified.concat {law : List α → α → Prop} (h : Justified law trace)
    (hlast : law trace last) : Justified law (trace ++ [last]) := by
  intro before x after hsplit
  rcases concat_eq_append_cons hsplit with ⟨-, rfl, rfl⟩ | ⟨rest, -, htrace⟩
  · exact hlast
  · exact h before x rest htrace

theorem PrecededBy.concat (h : PrecededBy p q trace)
    (hlast : p last → ∃ y ∈ trace, q y) : PrecededBy p q (trace ++ [last]) := by
  intro before x after hsplit hx
  rcases concat_eq_append_cons hsplit with ⟨rfl, rfl, rfl⟩ | ⟨rest, rfl, htrace⟩
  · exact hlast hx
  · exact h before x rest htrace hx

theorem LastOnly.concat (h : ∀ x ∈ trace, ¬p x) : LastOnly p (trace ++ [last]) := by
  intro before x after hsplit hx
  rcases concat_eq_append_cons hsplit with ⟨rfl, rfl, rfl⟩ | ⟨rest, rfl, htrace⟩
  · rfl
  · exact absurd hx (h x (by simp [htrace]))

theorem Cleared.concat (hlast : q last) (hnot : ¬p last) :
    Cleared p q (trace ++ [last]) := by
  intro before x after hsplit hx
  rcases concat_eq_append_cons hsplit with ⟨rfl, rfl, rfl⟩ | ⟨rest, rfl, -⟩
  · exact absurd hx hnot
  · exact ⟨last, by simp, hlast⟩

theorem Separated.concat (h : Separated p q trace)
    (hlast : p last → Cleared p q trace) : Separated p q (trace ++ [last]) := by
  intro before first between second after hsplit hfirst hsecond
  have hsplit' : trace ++ [last] =
      (before ++ first :: between) ++ second :: after := by simpa using hsplit
  rcases concat_eq_append_cons hsplit' with
    ⟨rfl, rfl, rfl⟩ | ⟨rest, rfl, htrace⟩
  · exact hlast hsecond before first between rfl hfirst
  · exact h before first between second rest (by simpa using htrace) hfirst
      hsecond

end DataCache.Foundation
