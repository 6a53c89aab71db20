import DataCache.Foundation.Traces
import Mathlib.Logic.Function.Basic

/-!
# Contents sent in pieces

Named contents are sent in pieces, each with the offset at which it goes.  A
piece is in order when its offset is the length of what came before it under its
name.  A piece that came in order stays a slice of its content from then on,
which is what makes a second copy of it recognizable.
-/

namespace DataCache.Foundation

structure Piece (κ : Type*) (α : Type*) where
  name : κ
  offset : Nat
  data : List α

variable {κ : Type*} {α : Type*} [DecidableEq κ]

def Piece.end (piece : Piece κ α) : Nat := piece.offset + piece.data.length

/-- A name without pieces has no content. -/
def addPiece (contents : κ → Option (List α)) (piece : Piece κ α) :
    κ → Option (List α) :=
  Function.update contents piece.name
    (some ((contents piece.name).getD [] ++ piece.data))

def gather (pieces : List (Piece κ α)) : κ → Option (List α) :=
  pieces.foldl addPiece fun _ => none

@[simp] theorem gather_nil : gather ([] : List (Piece κ α)) = fun _ => none := rfl

@[simp] theorem gather_concat (pieces : List (Piece κ α)) (piece : Piece κ α) :
    gather (pieces ++ [piece]) = addPiece (gather pieces) piece := by
  simp [gather]

theorem addPiece_self (contents : κ → Option (List α)) (piece : Piece κ α) :
    addPiece contents piece piece.name =
      some ((contents piece.name).getD [] ++ piece.data) :=
  Function.update_self ..

theorem addPiece_other {contents : κ → Option (List α)} {piece : Piece κ α}
    {name : κ} (h : name ≠ piece.name) :
    addPiece contents piece name = contents name :=
  Function.update_of_ne h ..

/-- Nothing added to a content that exists changes nothing. -/
theorem addPiece_empty {contents : κ → Option (List α)} {piece : Piece κ α}
    {content : List α} (hdata : piece.data = [])
    (h : contents piece.name = some content) :
    addPiece contents piece = contents := by
  rw [addPiece, h, hdata, Option.getD_some, List.append_nil, ← h,
    Function.update_eq_self]

theorem gather_append_other {name : κ} (pieces more : List (Piece κ α))
    (h : ∀ piece ∈ more, piece.name ≠ name) :
    gather (pieces ++ more) name = gather pieces name := by
  induction more using List.reverseRecOn with
  | nil => rw [List.append_nil]
  | append_singleton more piece ih =>
      rw [← List.append_assoc, gather_concat,
        addPiece_other (Ne.symm (h piece (by simp)))]
      exact ih fun other hother => h other (by simp [hother])

/-- Contents only grow at their end. -/
theorem gather_grows (pieces more : List (Piece κ α)) (name : κ) :
    (gather pieces name).getD [] <+: (gather (pieces ++ more) name).getD [] := by
  induction more using List.reverseRecOn with
  | nil => simp
  | append_singleton more piece ih =>
      rw [← List.append_assoc, gather_concat]
      by_cases h : name = piece.name
      · subst h
        rw [addPiece_self, Option.getD_some]
        exact ih.trans (List.prefix_append _ _)
      · rwa [addPiece_other h]

/-! ## Pieces in order -/

def InOrder (pieces : List (Piece κ α)) : Prop :=
  ∀ before piece after, pieces = before ++ piece :: after →
    piece.offset = ((gather before piece.name).getD []).length

theorem InOrder.nil : InOrder ([] : List (Piece κ α)) := by
  intro before piece after h
  cases before <;> cases h

theorem InOrder.concat {pieces : List (Piece κ α)} {piece : Piece κ α}
    (h : InOrder pieces)
    (hoffset : piece.offset = ((gather pieces piece.name).getD []).length) :
    InOrder (pieces ++ [piece]) := by
  intro before other after heq
  rcases concat_eq_append_cons heq with ⟨-, rfl, rfl⟩ | ⟨rest, -, hrest⟩
  · exact hoffset
  · exact h before other rest hrest

theorem InOrder.of_append {pieces more : List (Piece κ α)}
    (h : InOrder (pieces ++ more)) : InOrder pieces := by
  intro before piece after heq
  exact h before piece (after ++ more) (by simp [heq])

/-- A piece that came in order is a slice of the content gathered since. -/
theorem InOrder.slice {pieces : List (Piece κ α)} (h : InOrder pieces)
    {piece : Piece κ α} (hpiece : piece ∈ pieces) :
    ∃ content, gather pieces piece.name = some content ∧
      piece.end ≤ content.length ∧
      (content.drop piece.offset).take piece.data.length = piece.data := by
  induction pieces using List.reverseRecOn with
  | nil => cases hpiece
  | append_singleton pieces last ih =>
      rw [gather_concat]
      rcases List.mem_append.mp hpiece with hmem | hlast
      · obtain ⟨content, hcontent, hend, hslice⟩ := ih h.of_append hmem
        by_cases hname : piece.name = last.name
        · refine ⟨content ++ last.data, ?_, ?_, ?_⟩
          · rw [hname, addPiece_self, ← hname, hcontent, Option.getD_some]
          · rw [List.length_append]
            omega
          · rw [Piece.end] at hend
            rw [List.drop_append_of_le_length (by omega),
              List.take_append_of_le_length (by rw [List.length_drop]; omega),
              hslice]
        · exact ⟨content, by rw [addPiece_other hname, hcontent], hend, hslice⟩
      · -- The last piece starts where the content before it ends.
        obtain rfl := List.mem_singleton.mp hlast
        have hoffset := h pieces piece [] rfl
        refine ⟨_, addPiece_self _ _, ?_, ?_⟩
        · rw [List.length_append, Piece.end]
          omega
        · rw [hoffset, List.drop_left, List.take_length]

/-! ## Cutting a content up -/

def piecesFrom (name : κ) (offset : Nat) : List (List α) → List (Piece κ α)
  | [] => []
  | chunk :: chunks =>
      ⟨name, offset, chunk⟩ :: piecesFrom name (offset + chunk.length) chunks

omit [DecidableEq κ] in
theorem name_of_mem_piecesFrom {name : κ} {chunks : List (List α)} {offset : Nat}
    {piece : Piece κ α} (h : piece ∈ piecesFrom name offset chunks) :
    piece.name = name := by
  induction chunks generalizing offset with
  | nil => cases h
  | cons chunk chunks ih =>
      rcases List.mem_cons.mp h with rfl | hrest
      · rfl
      · exact ih hrest

/-- Cut where the content so far ends, the pieces are in order and add up. -/
theorem InOrder.piecesFrom {pieces : List (Piece κ α)} (h : InOrder pieces)
    (name : κ) (chunks : List (List α)) :
    InOrder (pieces ++
        Foundation.piecesFrom name ((gather pieces name).getD []).length chunks) ∧
      (gather (pieces ++ Foundation.piecesFrom name
          ((gather pieces name).getD []).length chunks) name).getD [] =
        (gather pieces name).getD [] ++ chunks.flatten := by
  induction chunks generalizing pieces with
  | nil => simpa [Foundation.piecesFrom] using h
  | cons chunk chunks ih =>
      let piece : Piece κ α :=
        ⟨name, ((gather pieces name).getD []).length, chunk⟩
      have hgathered : (gather (pieces ++ [piece]) name).getD [] =
          (gather pieces name).getD [] ++ chunk := by
        rw [gather_concat, addPiece_self (gather pieces) piece, Option.getD_some]
      have hnext : InOrder (pieces ++ [piece]) := h.concat rfl
      have hrest := ih hnext
      rw [hgathered, List.length_append, List.append_assoc,
        List.append_assoc] at hrest
      rw [Foundation.piecesFrom, List.flatten_cons]
      exact hrest

/-! ## Copies -/

/-- `sent` is `originals` with copies of earlier members put in. -/
inductive WithCopies {β : Type*} : List β → List β → Prop
  | nil : WithCopies [] []
  | original {originals sent : List β} (x : β) (h : WithCopies originals sent) :
      WithCopies (originals ++ [x]) (sent ++ [x])
  | copy {originals sent : List β} {x : β} (h : WithCopies originals sent)
      (hx : x ∈ originals) : WithCopies originals (sent ++ [x])

theorem WithCopies.refl {β : Type*} (originals : List β) :
    WithCopies originals originals := by
  induction originals using List.reverseRecOn with
  | nil => exact .nil
  | append_singleton originals x ih => exact .original x ih

end DataCache.Foundation
