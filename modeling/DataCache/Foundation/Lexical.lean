import Mathlib.Data.List.Basic

/-!
# Where a path leads, by its names alone

A place is a list of names, read from the root or from wherever the reader
stands.  Some names stay where they are, some go up one level, and the rest go
down.  Normalising a place follows its names without asking any file system.
-/

namespace DataCache.Foundation

inductive Segment where
  | here
  | up
  | down
  deriving DecidableEq

structure Place (ν : Type*) where
  rooted : Bool
  names : List ν
  deriving DecidableEq

namespace Place

variable {ν : Type*} (kind : ν → Segment)

/-- One more name, seen from the names so far, the last one first. -/
def follow (rooted : Bool) (stack : List ν) (name : ν) : List ν :=
  match kind name with
  | .here => stack
  | .down => name :: stack
  | .up =>
      match stack with
      | [] => if rooted then [] else [name]
      | top :: rest => if kind top = .up then name :: stack else rest

def normalNames (place : Place ν) : List ν :=
  (place.names.foldl (follow kind place.rooted) []).reverse

/-- A rooted second place is taken as it is. -/
def join (base next : Place ν) : Place ν :=
  if next.rooted then next else { base with names := base.names ++ next.names }

def normal (place : Place ν) : Place ν :=
  { place with names := normalNames kind place }

/-- The normalised place `key` is at least one level down from `base`. -/
def LiesBelow (base key : Place ν) : Prop :=
  key.rooted = base.rooted ∧
    ∃ below, below ≠ [] ∧ (∀ name ∈ below, kind name = .down) ∧
      key.names = normalNames kind base ++ below

/-- `place` leads at least one level down from where `base` leads. -/
def StrictlyBelow (base place : Place ν) : Prop :=
  LiesBelow kind base (place.normal kind)

theorem foldl_follow_of_down {below : List ν}
    (h : ∀ name ∈ below, kind name = .down) (rooted : Bool) (stack : List ν) :
    below.foldl (follow kind rooted) stack = below.reverse ++ stack := by
  induction below generalizing stack with
  | nil => rfl
  | cons name below ih =>
      have hname : kind name = .down := h name (by simp)
      rw [List.foldl_cons, ih fun other hother => h other (by simp [hother])]
      simp [follow, hname]

theorem normalNames_append (base : Place ν) {below : List ν}
    (h : ∀ name ∈ below, kind name = .down) :
    normalNames kind { base with names := base.names ++ below } =
      normalNames kind base ++ below := by
  simp [normalNames, List.foldl_append, foldl_follow_of_down kind h]

theorem strictlyBelow_append (base : Place ν) {below : List ν}
    (hne : below ≠ []) (h : ∀ name ∈ below, kind name = .down) :
    StrictlyBelow kind base { base with names := base.names ++ below } :=
  ⟨rfl, below, hne, h, normalNames_append kind base h⟩

end Place

end DataCache.Foundation
