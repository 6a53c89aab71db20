import DataCache.Foundation.Dict
import Mathlib.Data.List.Infix

/-!
# Directory trees

The contents of one directory: regular files under relative paths, and the
subdirectories that exist.  The root is the empty path and always exists.
Names and file contents are arbitrary types; byte-level writes are stated for
contents that are lists.
-/

namespace DataCache.Foundation

structure DirTree (ν : Type*) (γ : Type*) where
  files : Dict (List ν) γ
  dirs : List (List ν)

namespace DirTree

variable {ν : Type*} {γ : Type*} [DecidableEq ν]

instance [DecidableEq γ] : DecidableEq (DirTree ν γ) := fun first second =>
  decidable_of_iff (first.files = second.files ∧ first.dirs = second.dirs) (by
    cases first; cases second; simp)

def empty : DirTree ν γ := ⟨Dict.empty, []⟩

def isFile (tree : DirTree ν γ) (path : List ν) : Bool :=
  tree.files.contains path

def isDir (tree : DirTree ν γ) (path : List ν) : Bool :=
  decide (path = [] ∨ path ∈ tree.dirs)

def pathExists (tree : DirTree ν γ) (path : List ν) : Bool :=
  tree.isFile path || tree.isDir path

def read? (tree : DirTree ν γ) (path : List ν) : Option γ :=
  tree.files.get? path

def write (tree : DirTree ν γ) (path : List ν) (content : γ) : DirTree ν γ :=
  { tree with files := tree.files.set path content }

def unlink (tree : DirTree ν γ) (path : List ν) : DirTree ν γ :=
  { tree with files := tree.files.erase path }

/--
Create a directory and every missing ancestor.  A regular file in the way is an
error and leaves the tree as it was.
-/
def mkdirs (tree : DirTree ν γ) (path : List ν) : Option (DirTree ν γ) :=
  if path.inits.any tree.isFile then none
  else some { tree with dirs := path.inits ∪ tree.dirs }

@[simp] theorem read?_empty (path : List ν) :
    (empty : DirTree ν γ).read? path = none := rfl

theorem read?_write (tree : DirTree ν γ) (path other : List ν) (content : γ) :
    (tree.write path content).read? other =
      if path = other then some content else tree.read? other :=
  tree.files.get?_set _ _ _

@[simp] theorem read?_write_self (tree : DirTree ν γ) (path : List ν)
    (content : γ) : (tree.write path content).read? path = some content := by
  simp [read?_write]

theorem mkdirs_files {tree tree' : DirTree ν γ} {path : List ν}
    (h : tree.mkdirs path = some tree') : tree'.files = tree.files := by
  unfold mkdirs at h
  split at h
  · cases h
  · cases h
    rfl

theorem mem_dirs_mkdirs {tree tree' : DirTree ν γ} {path : List ν}
    (h : tree.mkdirs path = some tree') (other : List ν) :
    other ∈ tree'.dirs ↔ other <+: path ∨ other ∈ tree.dirs := by
  unfold mkdirs at h
  split at h
  · cases h
  · cases h
    rw [List.mem_union_iff, List.mem_inits]

theorem isDir_iff (tree : DirTree ν γ) {path : List ν} :
    tree.isDir path = true ↔ path = [] ∨ path ∈ tree.dirs :=
  decide_eq_true_iff

theorem isDir_mkdirs {tree tree' : DirTree ν γ} {path : List ν}
    (h : tree.mkdirs path = some tree') (other : List ν) :
    tree'.isDir other = true ↔ other <+: path ∨ tree.isDir other = true := by
  rw [isDir_iff, isDir_iff, mem_dirs_mkdirs h]
  exact or_left_comm

theorem mkdirs_isSome {tree : DirTree ν γ} {path : List ν} :
    (tree.mkdirs path).isSome = true ↔
      ∀ other, other <+: path → tree.isFile other = false := by
  have hinits : path.inits.any tree.isFile = true ↔
      ∃ other, other <+: path ∧ tree.isFile other = true := by
    simp only [List.any_eq_true, List.mem_inits]
  unfold mkdirs
  split
  next hany =>
    obtain ⟨other, hstarts, hfile⟩ := hinits.mp hany
    refine ⟨nofun, fun h => ?_⟩
    rw [h other hstarts] at hfile
    cases hfile
  next hnone =>
    refine ⟨fun _ other hstarts => ?_, fun _ => rfl⟩
    by_contra hfile
    exact hnone (hinits.mpr ⟨other, hstarts, by simpa using hfile⟩)

theorem read?_mkdirs {tree tree' : DirTree ν γ} {path : List ν}
    (h : tree.mkdirs path = some tree') (other : List ν) :
    tree'.read? other = tree.read? other := by
  rw [read?, mkdirs_files h, read?]

end DirTree

/-! ## Writing at an offset -/

/--
The bytes of a file after `data` is written at `offset`.  A gap before the
offset reads as the filler, and writing nothing never extends the file.
-/
def overwrite {α : Type*} (filler : α) (content : List α) (offset : Nat)
    (data : List α) : List α :=
  if data.isEmpty then content
  else content.take offset ++ List.replicate (offset - content.length) filler ++
    data ++ content.drop (offset + data.length)

theorem take_overwrite {α : Type*} (filler : α) (content : List α)
    (offset : Nat) (data : List α) (h : offset ≤ content.length) :
    (overwrite filler content offset data).take (offset + data.length) =
      content.take offset ++ data := by
  unfold overwrite
  split
  · next hempty =>
      have hnil : data = [] := List.isEmpty_iff.mp hempty
      simp [hnil]
  · have hgap : offset - content.length = 0 := by omega
    have hlen : (content.take offset ++ data).length = offset + data.length := by
      simp [h]
    rw [hgap]
    simp only [List.replicate_zero, List.append_nil]
    rw [← hlen, List.take_left]

/-- A write past the first `count` bytes keeps them. -/
theorem take_overwrite_of_le {α : Type*} (filler : α) (content : List α)
    (offset count : Nat) (data : List α) (hle : count ≤ offset)
    (h : count ≤ content.length) :
    (overwrite filler content offset data).take count = content.take count := by
  unfold overwrite
  split
  · rfl
  · have hlen : count ≤ (content.take offset).length := by
      rw [List.length_take]
      omega
    rw [List.append_assoc, List.append_assoc,
      List.take_append_of_le_length hlen, List.take_take, Nat.min_eq_left hle]

end DataCache.Foundation
