import DataCache.Foundation.Dict
import Mathlib.Data.List.Induction
import Mathlib.Data.List.Infix

/-!
# Disks and power cuts

A disk has the namespace programs see and the one a power cut may leave behind.
Bytes are certain after an fsync of their file, directory entries after an
fsync of the parent directory; any part of the other entry changes may be found
done or not done.  That replaying all pending changes gives the visible
namespace is carried by the disk.
-/

namespace DataCache.Foundation

variable {ν : Type*} {α : Type*}

/-! ## Directory entries -/

inductive Entry where
  | dir
  | file (inode : Nat)
  deriving DecidableEq

/-- What a path holds for the programs, with the fsync state of a file's bytes. -/
inductive Node (α : Type*) where
  | dir
  | file (inode : Nat) (content : List α) (synced : Bool)
  deriving DecidableEq

def Node.entry : Node α → Entry
  | .dir => .dir
  | .file inode _ _ => .file inode

/-- The entry of one path is set or removed. -/
abbrev Change (ν : Type*) := List ν × Option Entry

section Replay

variable [DecidableEq ν]

def applyChange (names : Dict (List ν) Entry) (change : Change ν) :
    Dict (List ν) Entry :=
  match change.2 with
  | some entry => names.set change.1 entry
  | none => names.erase change.1

def replay (changes : List (Change ν)) (names : Dict (List ν) Entry) :
    Dict (List ν) Entry :=
  changes.foldl applyChange names

theorem get?_applyChange (names : Dict (List ν) Entry) (change : Change ν)
    (path : List ν) :
    (applyChange names change).get? path =
      if change.1 = path then change.2 else names.get? path := by
  obtain ⟨target, entry⟩ := change
  cases entry with
  | none => exact names.get?_erase target path
  | some entry => exact names.get?_set target path entry

@[simp] theorem replay_nil (names : Dict (List ν) Entry) :
    replay [] names = names := rfl

theorem replay_append (first second : List (Change ν))
    (names : Dict (List ν) Entry) :
    replay (first ++ second) names = replay second (replay first names) :=
  List.foldl_append

theorem get?_replay_concat (changes : List (Change ν)) (change : Change ν)
    (names : Dict (List ν) Entry) (path : List ν) :
    (replay (changes ++ [change]) names).get? path =
      if change.1 = path then change.2
      else (replay changes names).get? path := by
  rw [replay_append]
  exact get?_applyChange _ _ _

/-- Only the changes of a path decide its entry. -/
theorem get?_replay_congr (path : List ν) :
    ∀ {first second : List (Change ν)} {names names' : Dict (List ν) Entry},
      first.filter (fun change => decide (change.1 = path)) =
        second.filter (fun change => decide (change.1 = path)) →
      names.get? path = names'.get? path →
      (replay first names).get? path = (replay second names').get? path := by
  have hown : ∀ (changes : List (Change ν)) (names : Dict (List ν) Entry),
      (replay changes names).get? path =
        (replay (changes.filter fun change => decide (change.1 = path))
          names).get? path := by
    intro changes
    induction changes using List.reverseRecOn with
    | nil => exact fun _ => rfl
    | append_singleton changes change ih =>
        intro names
        rw [get?_replay_concat, List.filter_append, ih]
        by_cases h : change.1 = path
        · rw [if_pos h, List.filter_cons_of_pos (by simpa using h),
            List.filter_nil, get?_replay_concat, if_pos h]
        · rw [if_neg h, List.filter_cons_of_neg (by simpa using h),
            List.filter_nil, List.append_nil]
  have hnames : ∀ (changes : List (Change ν)) (names names' : Dict (List ν) Entry),
      names.get? path = names'.get? path →
      (replay changes names).get? path = (replay changes names').get? path := by
    intro changes
    induction changes using List.reverseRecOn with
    | nil => exact fun _ _ h => h
    | append_singleton changes change ih =>
        intro names names' h
        rw [get?_replay_concat, get?_replay_concat, ih names names' h]
  intro first second names names' hchanges hget
  rw [hown first, hown second, hchanges, hnames _ _ _ hget]

theorem get?_replay_of_untouched {changes : List (Change ν)}
    {names : Dict (List ν) Entry} {path : List ν}
    (h : ∀ change ∈ changes, change.1 ≠ path) :
    (replay changes names).get? path = names.get? path := by
  have hnone : changes.filter (fun change => decide (change.1 = path)) =
      ([] : List (Change ν)).filter fun change => decide (change.1 = path) :=
    List.filter_eq_nil_iff.mpr fun change hchange => by
      simpa using h change hchange
  exact get?_replay_congr path hnone rfl

end Replay

/-! ## Disks -/

structure Disk (ν : Type*) (α : Type*) [DecidableEq ν] where
  live : Dict (List ν) (Node α)
  durable : Dict (List ν) Entry
  pending : List (Change ν)
  nextInode : Nat
  coherent : ∀ path, (replay pending durable).get? path =
    (live.get? path).map Node.entry

namespace Disk

variable [DecidableEq ν]

def blank : Disk ν α := ⟨Dict.empty, Dict.empty, [], 0, fun _ => rfl⟩

def node? (disk : Disk ν α) (path : List ν) : Option (Node α) :=
  disk.live.get? path

def read? (disk : Disk ν α) (path : List ν) : Option (List α) :=
  match disk.node? path with
  | some (.file _ content _) => some content
  | _ => none

def isFile (disk : Disk ν α) (path : List ν) : Bool := (disk.read? path).isSome

def isDir (disk : Disk ν α) (path : List ν) : Bool :=
  path.isEmpty || match disk.node? path with
    | some .dir => true
    | _ => false

def pathExists (disk : Disk ν α) (path : List ν) : Bool :=
  disk.isFile path || disk.isDir path

/-! ### Primitive updates -/

/-- Enter a node under a path; the entry change is pending. -/
def link (disk : Disk ν α) (path : List ν) (node : Node α) : Disk ν α where
  live := disk.live.set path node
  durable := disk.durable
  pending := disk.pending ++ [(path, some node.entry)]
  nextInode := disk.nextInode
  coherent other := by
    rw [get?_replay_concat, disk.coherent, Dict.get?_set]
    split <;> simp

/-- Remove the entry of a path; the change is pending. -/
def unlink (disk : Disk ν α) (path : List ν) : Disk ν α where
  live := disk.live.erase path
  durable := disk.durable
  pending := disk.pending ++ [(path, none)]
  nextInode := disk.nextInode
  coherent other := by
    rw [get?_replay_concat, disk.coherent, Dict.get?_erase]
    split <;> simp

/-- Replace the bytes of a file or their fsync state; its entry stays. -/
def modify (disk : Disk ν α) (path : List ν)
    (f : List α → Bool → List α × Bool) : Disk ν α :=
  match h : disk.node? path with
  | some (.file inode content synced) =>
      { disk with
        live := disk.live.set path
          (.file inode (f content synced).1 (f content synced).2)
        coherent := fun other => by
          rw [disk.coherent, Dict.get?_set]
          split
          next heq =>
            subst heq
            rw [show disk.live.get? path = _ from h]
            rfl
          · rfl }
  | _ => disk

/-- The changes of the entries of one directory become certain. -/
def syncDir (disk : Disk ν α) (dir : List ν) : Disk ν α where
  live := disk.live
  durable := replay (disk.pending.filter fun change =>
    decide (change.1.dropLast = dir)) disk.durable
  pending := disk.pending.filter fun change =>
    !decide (change.1.dropLast = dir)
  nextInode := disk.nextInode
  coherent path := by
    rw [← disk.coherent path, ← replay_append]
    refine get?_replay_congr path ?_ rfl
    rw [List.filter_append, List.filter_filter, List.filter_filter]
    by_cases hdir : path.dropLast = dir
    · have hnone : disk.pending.filter (fun change =>
          decide (change.1 = path) && !decide (change.1.dropLast = dir)) = [] :=
        List.filter_eq_nil_iff.mpr fun change _ => by
          by_cases h : change.1 = path <;> simp [h, hdir]
      rw [hnone, List.append_nil]
      refine List.filter_congr fun change _ => ?_
      by_cases h : change.1 = path <;> simp [h, hdir]
    · have hnone : disk.pending.filter (fun change =>
          decide (change.1 = path) && decide (change.1.dropLast = dir)) = [] :=
        List.filter_eq_nil_iff.mpr fun change _ => by
          by_cases h : change.1 = path <;> simp [h, hdir]
      rw [hnone, List.nil_append]
      refine List.filter_congr fun change _ => ?_
      by_cases h : change.1 = path <;> simp [h, hdir]

/-! ### Operations -/

/-- Open for writing from the start: an existing file loses its bytes. -/
def create (disk : Disk ν α) (path : List ν) : Disk ν α :=
  if disk.isFile path then disk.modify path fun _ _ => ([], false)
  else { disk.link path (.file disk.nextInode [] false) with
    nextInode := disk.nextInode + 1 }

/-- Open for appending: an existing file keeps its bytes. -/
def ensure (disk : Disk ν α) (path : List ν) : Disk ν α :=
  if disk.isFile path then disk else disk.create path

def append (disk : Disk ν α) (path : List ν) (data : List α) : Disk ν α :=
  disk.modify path fun content synced =>
    (content ++ data, synced && data.isEmpty)

def syncFile (disk : Disk ν α) (path : List ν) : Disk ν α :=
  disk.modify path fun content _ => (content, true)

def rename (disk : Disk ν α) (source target : List ν) : Disk ν α :=
  match disk.node? source with
  | some node => (disk.unlink source).link target node
  | none => disk

/-- Remove a file; a path without one is left alone. -/
def remove (disk : Disk ν α) (path : List ν) : Disk ν α :=
  if disk.isFile path then disk.unlink path else disk

def mkdir (disk : Disk ν α) (path : List ν) : Disk ν α :=
  if disk.isDir path then disk else disk.link path .dir

/-- Create a directory with its ancestors, unless a file is in the way. -/
def mkdirs (disk : Disk ν α) (path : List ν) : Option (Disk ν α) :=
  if path.inits.any disk.isFile then none
  else some (path.inits.foldl mkdir disk)

def unlinkAll (disk : Disk ν α) (paths : List (List ν)) : Disk ν α :=
  paths.foldl unlink disk

def pathsBelow (disk : Disk ν α) (dir : List ν) : List (List ν) :=
  disk.live.keys.filter fun path => decide (dir <+: path)

def removeTree (disk : Disk ν α) (dir : List ν) : Disk ν α :=
  disk.unlinkAll (disk.pathsBelow dir)

/-! ### The visible namespace after a primitive update -/

@[simp] theorem node?_link (disk : Disk ν α) (path other : List ν)
    (node : Node α) : (disk.link path node).node? other =
      if path = other then some node else disk.node? other :=
  disk.live.get?_set _ _ _

@[simp] theorem node?_unlink (disk : Disk ν α) (path other : List ν) :
    (disk.unlink path).node? other =
      if path = other then none else disk.node? other :=
  disk.live.get?_erase _ _

@[simp] theorem node?_syncDir (disk : Disk ν α) (dir path : List ν) :
    (disk.syncDir dir).node? path = disk.node? path := rfl

theorem modify_of_file {disk : Disk ν α} {path : List ν}
    {f : List α → Bool → List α × Bool} {inode : Nat} {content : List α}
    {synced : Bool} (h : disk.node? path = some (.file inode content synced)) :
    (∀ other, (disk.modify path f).node? other =
      if path = other then
        some (.file inode (f content synced).1 (f content synced).2)
      else disk.node? other) ∧ (disk.modify path f).pending = disk.pending := by
  unfold modify
  split
  next inode' content' synced' h' =>
    obtain ⟨rfl, rfl, rfl⟩ : inode' = inode ∧ content' = content ∧
        synced' = synced := by
      simpa using h'.symm.trans h
    exact ⟨fun other => disk.live.get?_set _ _ _, rfl⟩
  next hnot => exact absurd h (hnot _ _ _)

theorem modify_of_not_file {disk : Disk ν α} {path : List ν}
    {f : List α → Bool → List α × Bool} (h : disk.isFile path = false) :
    disk.modify path f = disk := by
  unfold modify
  split
  next inode content synced hnode =>
    rw [isFile, read?, hnode] at h
    cases h
  · rfl

theorem isFile_iff {disk : Disk ν α} {path : List ν} :
    disk.isFile path = true ↔ ∃ inode content synced,
      disk.node? path = some (.file inode content synced) := by
  unfold isFile read?
  split
  next inode content synced h => simp [h]
  next hnot =>
    simp only [Option.isSome_none, Bool.false_eq_true, false_iff]
    rintro ⟨inode, content, synced, h⟩
    exact hnot _ _ _ h

theorem isFile_eq_false_of_isDir {disk : Disk ν α} {path : List ν}
    (hne : path ≠ []) (h : disk.isDir path = true) :
    disk.isFile path = false := by
  unfold isDir at h
  unfold isFile read?
  cases hnode : disk.node? path with
  | none => rfl
  | some node =>
      cases node with
      | dir => rfl
      | file inode content synced =>
          simp [hnode, List.isEmpty_iff, hne] at h

theorem pathExists_eq {disk : Disk ν α} {path : List ν} (hne : path ≠ []) :
    disk.pathExists path = (disk.node? path).isSome := by
  unfold pathExists isFile read? isDir
  have hempty : path.isEmpty = false := by simpa using hne
  rw [hempty]
  cases disk.node? path with
  | none => rfl
  | some node => cases node <;> rfl

theorem read?_congr {disk disk' : Disk ν α} {path : List ν}
    (h : disk'.node? path = disk.node? path) : disk'.read? path = disk.read? path := by
  rw [read?, h, read?]

theorem isDir_congr {disk disk' : Disk ν α} {path : List ν}
    (h : disk'.node? path = disk.node? path) : disk'.isDir path = disk.isDir path := by
  rw [isDir, h, isDir]

/-! ### What an update leaves alone -/

/-- A path holds the same node, and no entry change was added for it. -/
structure SameAt (path : List ν) (disk disk' : Disk ν α) : Prop where
  node : disk'.node? path = disk.node? path
  pending : ∀ change ∈ disk'.pending, change.1 = path → change ∈ disk.pending

namespace SameAt

variable {path : List ν} {disk disk' disk'' : Disk ν α}

theorem refl (path : List ν) (disk : Disk ν α) : SameAt path disk disk :=
  ⟨rfl, fun _ h _ => h⟩

theorem trans (h : SameAt path disk disk') (h' : SameAt path disk' disk'') :
    SameAt path disk disk'' :=
  ⟨h'.node.trans h.node, fun change hmem heq =>
    h.pending change (h'.pending change hmem heq) heq⟩

theorem read? (h : SameAt path disk disk') :
    disk'.read? path = disk.read? path := read?_congr h.node

theorem isDir (h : SameAt path disk disk') :
    disk'.isDir path = disk.isDir path := isDir_congr h.node

theorem isFile (h : SameAt path disk disk') :
    disk'.isFile path = disk.isFile path := by
  rw [Disk.isFile, h.read?, Disk.isFile]

end SameAt

theorem sameAt_link {disk : Disk ν α} {path other : List ν} (node : Node α)
    (h : path ≠ other) : SameAt other disk (disk.link path node) := by
  refine ⟨by simp [h], fun change hmem heq => ?_⟩
  rcases List.mem_append.mp hmem with hmem | hmem
  · exact hmem
  · rw [List.mem_singleton.mp hmem] at heq
    exact absurd heq h

theorem sameAt_unlink {disk : Disk ν α} {path other : List ν}
    (h : path ≠ other) : SameAt other disk (disk.unlink path) := by
  refine ⟨by simp [h], fun change hmem heq => ?_⟩
  rcases List.mem_append.mp hmem with hmem | hmem
  · exact hmem
  · rw [List.mem_singleton.mp hmem] at heq
    exact absurd heq h

theorem sameAt_remove {disk : Disk ν α} {path other : List ν}
    (h : path ≠ other ∨ disk.isFile path = false) :
    SameAt other disk (disk.remove path) := by
  unfold remove
  split
  next hfile =>
    refine sameAt_unlink (h.resolve_right ?_)
    rw [hfile]
    nofun
  · exact SameAt.refl _ _

theorem sameAt_modify {disk : Disk ν α} {path other : List ν}
    {f : List α → Bool → List α × Bool} (h : path ≠ other) :
    SameAt other disk (disk.modify path f) := by
  cases hfile : disk.isFile path with
  | false =>
      rw [modify_of_not_file hfile]
      exact SameAt.refl _ _
  | true =>
      obtain ⟨inode, content, synced, hnode⟩ := isFile_iff.mp hfile
      have hmodify := @modify_of_file _ _ _ _ _ f _ _ _ hnode
      exact ⟨by simp [hmodify.1, h], fun change hmem _ => hmodify.2 ▸ hmem⟩

theorem sameAt_syncDir (disk : Disk ν α) (dir path : List ν) :
    SameAt path disk (disk.syncDir dir) :=
  ⟨rfl, fun _ hmem _ => (List.mem_filter.mp hmem).1⟩

theorem sameAt_create {disk : Disk ν α} {path other : List ν}
    (h : path ≠ other) : SameAt other disk (disk.create path) := by
  unfold create
  split
  · exact sameAt_modify h
  · exact ⟨(sameAt_link _ h).node, (sameAt_link _ h).pending⟩

theorem sameAt_ensure {disk : Disk ν α} {path other : List ν}
    (h : path ≠ other) : SameAt other disk (disk.ensure path) := by
  unfold ensure
  split
  · exact SameAt.refl _ _
  · exact sameAt_create h

theorem sameAt_append {disk : Disk ν α} {path other : List ν} (data : List α)
    (h : path ≠ other) : SameAt other disk (disk.append path data) :=
  sameAt_modify h

theorem sameAt_syncFile {disk : Disk ν α} {path other : List ν}
    (h : path ≠ other) : SameAt other disk (disk.syncFile path) :=
  sameAt_modify h

theorem sameAt_rename {disk : Disk ν α} {source target other : List ν}
    (hsource : source ≠ other) (htarget : target ≠ other) :
    SameAt other disk (disk.rename source target) := by
  unfold rename
  split
  · exact (sameAt_unlink hsource).trans (sameAt_link _ htarget)
  · exact SameAt.refl _ _

theorem sameAt_mkdir {disk : Disk ν α} {path other : List ν}
    (h : path ≠ other ∨ disk.isDir other = true) :
    SameAt other disk (disk.mkdir path) := by
  unfold mkdir
  split
  · exact SameAt.refl _ _
  next hdir =>
    refine sameAt_link _ fun heq => ?_
    subst heq
    exact h.elim (fun hne => hne rfl) hdir

theorem sameAt_foldl_mkdir {other : List ν} :
    ∀ {paths : List (List ν)} {disk : Disk ν α},
      other ∉ paths ∨ disk.isDir other = true →
      SameAt other disk (paths.foldl mkdir disk)
  | [], disk, _ => SameAt.refl _ _
  | path :: paths, disk, h => by
      have hfirst : SameAt other disk (disk.mkdir path) := sameAt_mkdir
        (h.imp_left fun hmem heq => hmem (heq ▸ List.mem_cons_self))
      refine hfirst.trans (sameAt_foldl_mkdir ?_)
      rw [hfirst.isDir]
      exact h.imp_left fun hmem hrest => hmem (List.mem_cons_of_mem _ hrest)

theorem sameAt_mkdirs {disk disk' : Disk ν α} {path other : List ν}
    (hmkdirs : disk.mkdirs path = some disk')
    (h : ¬other <+: path ∨ disk.isDir other = true) : SameAt other disk disk' := by
  unfold mkdirs at hmkdirs
  split at hmkdirs
  · cases hmkdirs
  · cases hmkdirs
    exact sameAt_foldl_mkdir (h.imp_left fun hpre hmem =>
      hpre ((List.mem_inits other path).mp hmem))

theorem sameAt_unlinkAll {other : List ν} :
    ∀ {paths : List (List ν)} {disk : Disk ν α}, other ∉ paths →
      SameAt other disk (disk.unlinkAll paths)
  | [], _, _ => SameAt.refl _ _
  | _ :: _, _, h =>
      (sameAt_unlink (Ne.symm (List.ne_of_not_mem_cons h))).trans
        (sameAt_unlinkAll (List.not_mem_of_not_mem_cons h))

theorem node?_unlinkAll {path : List ν} :
    ∀ {paths : List (List ν)} {disk : Disk ν α},
      (disk.unlinkAll paths).node? path =
        if path ∈ paths then none else disk.node? path
  | [], _ => by simp [unlinkAll]
  | first :: paths, disk => by
      change ((disk.unlink first).unlinkAll paths).node? path = _
      rw [node?_unlinkAll, node?_unlink]
      by_cases hfirst : first = path
      · simp [hfirst]
      · simp [hfirst, Ne.symm hfirst]

theorem node?_removeTree (disk : Disk ν α) (dir path : List ν) :
    (disk.removeTree dir).node? path =
      if dir <+: path then none else disk.node? path := by
  rw [removeTree, node?_unlinkAll]
  by_cases hbelow : dir <+: path
  · cases hnode : disk.node? path with
    | none => simp
    | some node =>
        have hmem : path ∈ disk.pathsBelow dir := List.mem_filter.mpr
          ⟨disk.live.mem_keys_iff.mpr ⟨node, hnode⟩, decide_eq_true hbelow⟩
        rw [if_pos hmem, if_pos hbelow]
  · have hmem : path ∉ disk.pathsBelow dir := fun hmem =>
      hbelow (of_decide_eq_true (List.mem_filter.mp hmem).2)
    rw [if_neg hmem, if_neg hbelow]

/-! ### Reading back -/

theorem node?_create_self {disk : Disk ν α} {path : List ν} :
    ∃ inode, (disk.create path).node? path = some (.file inode [] false) := by
  unfold create
  split
  next hfile =>
    obtain ⟨inode, content, synced, hnode⟩ := isFile_iff.mp hfile
    exact ⟨inode, by rw [(modify_of_file hnode).1, if_pos rfl]⟩
  · exact ⟨disk.nextInode, (node?_link _ _ _ _).trans (if_pos rfl)⟩

theorem read?_of_node? {disk : Disk ν α} {path : List ν} {inode : Nat}
    {content : List α} {synced : Bool}
    (h : disk.node? path = some (.file inode content synced)) :
    disk.read? path = some content := by
  rw [read?, h]

theorem node?_of_read? {disk : Disk ν α} {path : List ν} {content : List α}
    (h : disk.read? path = some content) :
    ∃ inode synced, disk.node? path = some (.file inode content synced) := by
  have hfile : disk.isFile path = true := by rw [isFile, h]; rfl
  obtain ⟨inode, content', synced, hnode⟩ := isFile_iff.mp hfile
  rw [read?_of_node? hnode, Option.some.injEq] at h
  exact ⟨inode, synced, h ▸ hnode⟩

theorem read?_create_self (disk : Disk ν α) (path : List ν) :
    (disk.create path).read? path = some [] := by
  obtain ⟨inode, hnode⟩ := @node?_create_self _ _ _ disk path
  exact read?_of_node? hnode

theorem read?_ensure_self (disk : Disk ν α) (path : List ν) :
    (disk.ensure path).read? path = some ((disk.read? path).getD []) := by
  unfold ensure
  split
  next hfile =>
    obtain ⟨content, hread⟩ := Option.isSome_iff_exists.mp hfile
    rw [hread, Option.getD_some]
  next hfile =>
    have hnone : disk.read? path = none := by
      simpa [isFile] using hfile
    rw [read?_create_self, hnone, Option.getD_none]

theorem read?_modify_self {disk : Disk ν α} {path : List ν}
    (f : List α → Bool → List α × Bool) (g : List α → List α)
    (hf : ∀ content synced, (f content synced).1 = g content) :
    (disk.modify path f).read? path = (disk.read? path).map g := by
  cases hread : disk.read? path with
  | none =>
      rw [modify_of_not_file (by rw [isFile, hread]; rfl), hread, Option.map_none]
  | some content =>
      obtain ⟨inode, synced, hnode⟩ := node?_of_read? hread
      have hnode' := (@modify_of_file _ _ _ _ _ f _ _ _ hnode).1 path
      rw [if_pos rfl] at hnode'
      rw [read?_of_node? hnode', hf, Option.map_some]

theorem read?_append_self (disk : Disk ν α) (path : List ν) (data : List α) :
    (disk.append path data).read? path = (disk.read? path).map (· ++ data) :=
  read?_modify_self _ _ fun _ _ => rfl

theorem read?_syncFile (disk : Disk ν α) (path other : List ν) :
    (disk.syncFile path).read? other = disk.read? other := by
  by_cases h : path = other
  · subst h
    rw [syncFile, read?_modify_self _ id fun _ _ => rfl, Option.map_id, id]
  · exact (sameAt_syncFile h).read?

theorem node?_rename_target {disk : Disk ν α} {source target : List ν}
    {node : Node α} (h : disk.node? source = some node) :
    (disk.rename source target).node? target = some node := by
  unfold rename
  rw [h]
  exact (node?_link _ _ _ _).trans (if_pos rfl)

theorem node?_remove_self {disk : Disk ν α} {path : List ν}
    (hdir : disk.isDir path = false) : (disk.remove path).node? path = none := by
  unfold remove
  split
  · simp
  next hfile =>
    unfold isDir at hdir
    unfold isFile read? at hfile
    cases hnode : disk.node? path with
    | none => rfl
    | some node =>
        cases node with
        | dir => simp [hnode] at hdir
        | file inode content synced => simp [hnode] at hfile

theorem isDir_foldl_mkdir {dir : List ν} :
    ∀ {paths : List (List ν)} {disk : Disk ν α},
      dir ∈ paths ∨ disk.isDir dir = true →
      (paths.foldl mkdir disk).isDir dir = true
  | [], _, h => h.elim (fun hmem => absurd hmem List.not_mem_nil) id
  | path :: paths, disk, h => by
      rw [List.foldl_cons]
      refine isDir_foldl_mkdir ?_
      by_cases hdir : disk.isDir dir = true
      · right
        rw [(sameAt_mkdir (.inr hdir)).isDir, hdir]
      · rcases List.mem_cons.mp (h.resolve_right hdir) with rfl | hmem
        · right
          unfold mkdir
          rw [if_neg hdir, isDir, node?_link, if_pos rfl]
          simp
        · exact .inl hmem

theorem isDir_mkdirs {disk disk' : Disk ν α} {path : List ν}
    (h : disk.mkdirs path = some disk') : disk'.isDir path = true := by
  unfold mkdirs at h
  split at h
  · cases h
  · cases h
    exact isDir_foldl_mkdir (.inl ((List.mem_inits path path).mpr
      List.prefix_rfl))

/-- Creating directories changes no file. -/
theorem read?_mkdirs {disk disk' : Disk ν α} {path other : List ν}
    (h : disk.mkdirs path = some disk') : disk'.read? other = disk.read? other := by
  unfold mkdirs at h
  split at h
  · cases h
  next hfiles =>
    cases h
    have hnone : ∀ {paths : List (List ν)} {disk : Disk ν α},
        (∀ target ∈ paths, disk.isFile target = false) →
        (paths.foldl mkdir disk).read? other = disk.read? other := by
      intro paths
      induction paths with
      | nil => exact fun _ => rfl
      | cons target paths ih =>
          intro disk hfree
          have hfirst : ∀ path, (disk.mkdir target).read? path = disk.read? path := by
            intro path
            unfold mkdir
            split
            · rfl
            · by_cases hpath : target = path
              · subst hpath
                have hnone : disk.read? target = none := by
                  simpa [isFile] using hfree target List.mem_cons_self
                rw [read?, node?_link, if_pos rfl, hnone]
              · exact (sameAt_link _ hpath).read?
          rw [List.foldl_cons, ih fun path hpath => ?_, hfirst]
          rw [isFile, hfirst]
          exact hfree path (List.mem_cons_of_mem _ hpath)
    exact hnone fun target htarget => by
      by_contra hfile
      exact hfiles (List.any_eq_true.mpr ⟨target, htarget, by simpa using hfile⟩)

/-! ### Power cuts -/

/-- What is found after a power cut: a namespace and the bytes of each inode. -/
structure Remnant (ν : Type*) (α : Type*) where
  names : Dict (List ν) Entry
  bytes : Nat → List α

/--
Some of the pending entry changes have been done.  A file found under its own
entry has its bytes if they were synced, and any bytes otherwise.
-/
structure Survives (disk : Disk ν α) (remnant : Remnant ν α) : Prop where
  names : ∃ kept, kept.Sublist disk.pending ∧
    remnant.names = replay kept disk.durable
  bytes : ∀ path inode content,
    disk.node? path = some (.file inode content true) →
    remnant.names.get? path = some (.file inode) → remnant.bytes inode = content

/-- A file is found when its entry and those of its ancestors are. -/
def Remnant.read? (remnant : Remnant ν α) (path : List ν) : Option (List α) :=
  if path.dropLast.inits.all fun dir =>
      dir.isEmpty || remnant.names.get? dir == some .dir then
    match remnant.names.get? path with
    | some (.file inode) => some (remnant.bytes inode)
    | _ => none
  else none

theorem Remnant.read?_eq_some {remnant : Remnant ν α} {path : List ν}
    {content : List α} : remnant.read? path = some content ↔
      (∀ dir, dir <+: path.dropLast → dir ≠ [] →
        remnant.names.get? dir = some .dir) ∧
      ∃ inode, remnant.names.get? path = some (.file inode) ∧
        remnant.bytes inode = content := by
  have hparents : (path.dropLast.inits.all fun dir =>
        dir.isEmpty || remnant.names.get? dir == some .dir) = true ↔
      ∀ dir, dir <+: path.dropLast → dir ≠ [] →
        remnant.names.get? dir = some .dir := by
    simp only [List.all_eq_true, List.mem_inits, Bool.or_eq_true,
      List.isEmpty_iff, beq_iff_eq, or_iff_not_imp_left, ne_eq]
  unfold Remnant.read?
  split
  next hall =>
    rw [and_iff_right (hparents.mp hall)]
    split
    next inode hentry => simp [hentry]
    next hno =>
      refine iff_of_false nofun ?_
      rintro ⟨inode, hentry, -⟩
      exact hno inode hentry
  next hall => exact iff_of_false nofun fun h => hall (hparents.mpr h.1)

/-- The entry of a path is certain, and so are the bytes of a file there. -/
structure Certain (disk : Disk ν α) (path : List ν) : Prop where
  entry : ∀ change ∈ disk.pending, change.1 ≠ path
  synced : ∀ inode content synced,
    disk.node? path = some (.file inode content synced) → synced = true

theorem SameAt.certain {path : List ν} {disk disk' : Disk ν α}
    (h : SameAt path disk disk') (hcertain : disk.Certain path) :
    disk'.Certain path :=
  ⟨fun change hmem heq => hcertain.entry change (h.pending change hmem heq) heq,
    fun inode content synced hnode =>
      hcertain.synced inode content synced (h.node ▸ hnode)⟩

theorem Certain.get?_names {disk : Disk ν α} {path : List ν}
    (h : disk.Certain path) {remnant : Remnant ν α}
    (hsurvives : disk.Survives remnant) :
    remnant.names.get? path = (disk.node? path).map Node.entry := by
  obtain ⟨kept, hkept, hnames⟩ := hsurvives.names
  rw [hnames, get?_replay_of_untouched fun change hmem =>
    h.entry change (hkept.subset hmem), ← get?_replay_of_untouched h.entry]
  exact disk.coherent path

/-- A path without any entry, durable or pending, is not found. -/
theorem Survives.get?_none {disk : Disk ν α} {path : List ν}
    {remnant : Remnant ν α} (h : disk.Survives remnant)
    (hentry : ∀ change ∈ disk.pending, change.1 ≠ path)
    (hnode : disk.node? path = none) : remnant.names.get? path = none := by
  have hcertain : disk.Certain path :=
    ⟨hentry, fun _ _ _ hfile => by rw [hnode] at hfile; cases hfile⟩
  rw [hcertain.get?_names h, hnode, Option.map_none]

/-- A certain file is found whole when the directories above it are found. -/
theorem Survives.read? {disk : Disk ν α} {path : List ν}
    {remnant : Remnant ν α} (h : disk.Survives remnant)
    (hcertain : disk.Certain path) {inode : Nat} {content : List α}
    (hnode : disk.node? path = some (.file inode content true))
    (hparents : ∀ dir, dir <+: path.dropLast → dir ≠ [] →
      remnant.names.get? dir = some .dir) :
    remnant.read? path = some content := by
  have hentry : remnant.names.get? path = some (.file inode) := by
    rw [hcertain.get?_names h, hnode]
    rfl
  exact Remnant.read?_eq_some.mpr
    ⟨hparents, inode, hentry, h.bytes path inode content hnode hentry⟩

theorem node?_syncFile_self {disk : Disk ν α} {path : List ν} {inode : Nat}
    {content : List α} {synced : Bool}
    (h : disk.node? path = some (.file inode content synced)) :
    (disk.syncFile path).node? path = some (.file inode content true) := by
  rw [syncFile, (modify_of_file h).1, if_pos rfl]

end Disk

end DataCache.Foundation
