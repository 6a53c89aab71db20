import Mathlib.Data.List.Basic

/-!
# Lines and fields

Reading a file line by line, as `std::getline` does: every newline ends a
line, and what follows the last one is a line when it is not empty.  A line
written with its newline reads back as itself, whatever follows it, and a file
that is cut inside its last line still ends with the part that is left.
-/

namespace DataCache.Foundation

variable {α : Type*} [DecidableEq α] (newline : α)

/-- One more element in front of the first line. -/
def consLine (c : α) : List (List α) → List (List α)
  | [] => [[c]]
  | line :: lines => (c :: line) :: lines

def getLines : List α → List (List α)
  | [] => []
  | c :: rest =>
      if c = newline then [] :: getLines rest else consLine c (getLines rest)

/-- Lines written one after another, each with its newline. -/
def joinLines (lines : List (List α)) : List α :=
  lines.flatMap fun line => line ++ [newline]

variable {newline}

theorem getLines_line {line : List α} (h : newline ∉ line) (rest : List α) :
    getLines newline (line ++ newline :: rest) =
      line :: getLines newline rest := by
  induction line with
  | nil => simp [getLines]
  | cons c line ih =>
      have hc : ¬ c = newline := fun heq => h (by simp [heq])
      have hrest : newline ∉ line := fun hmem => h (by simp [hmem])
      simp [getLines, hc, ih hrest, consLine]

theorem getLines_last {line : List α} (h : newline ∉ line) (hne : line ≠ []) :
    getLines newline line = [line] := by
  induction line with
  | nil => exact absurd rfl hne
  | cons c line ih =>
      have hc : ¬ c = newline := fun heq => h (by simp [heq])
      have hrest : newline ∉ line := fun hmem => h (by simp [hmem])
      cases line with
      | nil => simp [getLines, hc, consLine]
      | cons d line =>
          rw [getLines, if_neg hc, ih hrest (by simp)]
          rfl

theorem newline_not_mem_getLines {list line : List α}
    (h : line ∈ getLines newline list) : newline ∉ line := by
  induction list generalizing line with
  | nil => cases h
  | cons c rest ih =>
      rw [getLines] at h
      split at h
      · rcases List.mem_cons.mp h with rfl | h
        · exact List.not_mem_nil
        · exact ih h
      · next hc =>
          cases hlines : getLines newline rest with
          | nil =>
              rw [hlines, consLine, List.mem_singleton] at h
              simpa [h] using Ne.symm hc
          | cons first others =>
              rw [hlines, consLine] at h
              rcases List.mem_cons.mp h with rfl | h
              · have hfirst : newline ∉ first := ih (by simp [hlines])
                simpa [hfirst] using Ne.symm hc
              · exact ih (by simp [hlines, h])

theorem getLines_ne_nil (front : List α) :
    getLines newline (front ++ [newline]) ≠ [] := by
  cases front with
  | nil => simp [getLines]
  | cons c front =>
      rw [List.cons_append, getLines]
      split
      · simp
      · unfold consLine
        split <;> simp

/-- A newline keeps what is before it apart from what comes after. -/
theorem getLines_append (front rest : List α) :
    getLines newline (front ++ newline :: rest) =
      getLines newline (front ++ [newline]) ++ getLines newline rest := by
  induction front with
  | nil => simp [getLines]
  | cons c front ih =>
      rw [List.cons_append, List.cons_append, getLines, getLines, ih]
      split
      · simp
      · cases hlines : getLines newline (front ++ [newline]) with
        | nil => exact absurd hlines (getLines_ne_nil front)
        | cons line lines => rfl

omit [DecidableEq α] in
theorem joinLines_cons (line : List α) (lines : List (List α)) :
    joinLines newline (line :: lines) =
      line ++ newline :: joinLines newline lines := by
  simp [joinLines]

theorem getLines_joinLines {lines : List (List α)}
    (h : ∀ line ∈ lines, newline ∉ line) (rest : List α) :
    getLines newline (joinLines newline lines ++ rest) =
      lines ++ getLines newline rest := by
  induction lines with
  | nil => rfl
  | cons line lines ih =>
      have hline : newline ∉ line := h line (by simp)
      have hlines := ih fun other hother => h other (by simp [hother])
      rw [joinLines_cons, List.append_assoc, List.cons_append,
        getLines_line hline, hlines, List.cons_append]

end DataCache.Foundation
