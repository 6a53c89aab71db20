import DataCache.Foundation.Text
import DataCache.Foundation.Prog
import DataCache.Foundation.Disk
import DataCache.Capture.EventMonitor

/-!
# Operations of the storage side

The file-system calls the recorder makes below its record root, and the other
calls whose outcome it does not control.  Paths are relative to the record
root; the first component is an event directory.  Every call may fail the way
the overload in use reports failure, except that an fsync succeeds.
-/

namespace DataCache.Storage

open DataCache.Foundation DataCache.Capture

abbrev Path := List Text

abbrev FileSystem := Disk Text UInt8

/-- What a `catch` of `std::exception` sees, and everything else. -/
inductive StorageError where
  | standard
  | unknown
  deriving DecidableEq

inductive FsOp where
  | createDirectories (path : Path)
  | openTrunc (path : Path)
  | openAppend (path : Path)
  | append (path : Path) (data : Bytes)
  | spill (path : Path) (data : Bytes) (all : Bool)
  | syncFile (path : Path)
  | syncDirectory (path : Path)
  | rename (source target : Path)
  | remove (path : Path)
  | exists (path : Path)
  | listDirectories
  | listFiles (directory : Path)
  | fileSize (path : Path)
  | readFile (path : Path)
  | removeAll (path : Path)
  | systemNow
  | steadyNow
  | availableBytes
  | lastSweep
  | setLastSweep (time : Int)
  | serialize (data : SensorData)
  | compress (level : Int) (bytes : Bytes)
  | encodeImage (extension : Text) (parameters : List Int) (image : Image)
  | savePcd (path : Path) (cloud : PointCloud2)
  | hang

/--
The responses: `false` or `none` for a reported failure, an exception where the
call throws.  `openAppend` answers the stream position, `spill` how many bytes
of a stream buffer went to the file and whether that worked, and the listings
whether they are complete.  `hang` never answers: an endless loop, or the crash
on a null pointer.
-/
def FsOp.Res : FsOp → Type
  | createDirectories _ => Bool
  | openTrunc _ => Bool
  | openAppend _ => Option Nat
  | append _ _ => Bool
  | spill _ _ _ => Nat × Bool
  | syncFile _ => Unit
  | syncDirectory _ => Unit
  | rename _ _ => Bool
  | remove _ => Bool
  | «exists» _ => Option Bool
  | listDirectories => List Text × Bool
  | listFiles _ => List Path × Bool
  | fileSize _ => Option Nat
  | readFile _ => Option Bytes
  | removeAll _ => Bool
  | systemNow => Int
  | steadyNow => Int
  | availableBytes => Nat
  | lastSweep => Int
  | setLastSweep _ => Unit
  | serialize _ => Except StorageError Bytes
  | compress _ _ => Except StorageError (Option Bytes)
  | encodeImage _ _ _ => Except StorageError (Option Bytes)
  | savePcd _ _ => Except StorageError Bool
  | hang => Empty

abbrev Action (α : Type) : Type := Prog FsOp.Res StorageError α

def perform (op : FsOp) : Action op.Res := .call op .ret

/-- A response of a call that throws instead of reporting a failure. -/
def orThrow {α : Type} : Except StorageError α → Action α
  | .ok value => .ret value
  | .error error => .raise error

/-- `target.string() + ".tmp"` -/
def tempPath (target : Path) : Path :=
  target.dropLast ++ [target.getLastD [] ++ ".tmp"]

/-! ## Effects -/

/-- The serialisation and compression libraries. -/
structure Codec where
  serialize : SensorData → Bytes
  compress : Int → Bytes → Bytes

structure Store where
  disk : FileSystem
  lastSweep : Int

def Store.setDisk (s : Store) (disk : FileSystem) : Store :=
  { s with disk }

/-- A file can be opened for writing under this path. -/
def canOpen (disk : FileSystem) (path : Path) : Bool :=
  disk.isDir path.dropLast && !disk.isDir path

def Effect (codec : Codec) (s : Store) :
    (op : FsOp) → op.Res → Store → Prop
  | .createDirectories path, r, s' =>
      (r = true ∧ ∃ disk, s.disk.mkdirs path = some disk ∧ s' = s.setDisk disk) ∨
      (r = false ∧ ∃ made disk, made <+: path ∧
        s.disk.mkdirs made = some disk ∧ s' = s.setDisk disk)
  | .openTrunc path, r, s' =>
      (r = true ∧ canOpen s.disk path = true ∧
        s' = s.setDisk (s.disk.create path)) ∨ (r = false ∧ s' = s)
  | .openAppend path, r, s' =>
      (r = some ((s.disk.read? path).getD []).length ∧
        canOpen s.disk path = true ∧ s' = s.setDisk (s.disk.ensure path)) ∨
      (r = none ∧ s' = s)
  | .append path data, r, s' =>
      (r = true ∧ s' = s.setDisk (s.disk.append path data)) ∨
      (r = false ∧ ∃ count, s' = s.setDisk (s.disk.append path (data.take count)))
  | .spill path data all, r, s' => r.1 ≤ data.length ∧
      (all = true → r.2 = true → r.1 = data.length) ∧
      s' = s.setDisk (s.disk.append path (data.take r.1))
  | .syncFile path, _, s' => s' = s.setDisk (s.disk.syncFile path)
  | .syncDirectory path, _, s' => s' = s.setDisk (s.disk.syncDir path)
  | .rename source target, r, s' =>
      (r = true ∧ s.disk.isFile source = true ∧
        canOpen s.disk target = true ∧
        s' = s.setDisk (s.disk.rename source target)) ∨ (r = false ∧ s' = s)
  | .remove path, r, s' =>
      (r = true ∧ s.disk.isDir path = false ∧
        s' = s.setDisk (s.disk.remove path)) ∨ (r = false ∧ s' = s)
  | .exists path, r, s' =>
      s' = s ∧ (r = some (s.disk.pathExists path) ∨ r = none)
  | .listDirectories, r, s' => s' = s ∧ r.1.Nodup ∧
      (∀ name ∈ r.1, s.disk.isDir [name] = true) ∧
      (r.2 = true → ∀ name, s.disk.isDir [name] = true → name ∈ r.1)
  | .listFiles directory, r, s' => s' = s ∧ r.1.Nodup ∧
      (∀ path ∈ r.1, s.disk.isFile (directory ++ path) = true) ∧
      (r.2 = true → ∀ path, s.disk.isFile (directory ++ path) = true →
        path ∈ r.1)
  | .fileSize path, r, s' =>
      s' = s ∧ (r = (s.disk.read? path).map List.length ∨ r = none)
  | .readFile path, r, s' => s' = s ∧ (r = s.disk.read? path ∨ r = none)
  | .removeAll path, r, s' =>
      (r = true ∧ s' = s.setDisk (s.disk.removeTree path)) ∨
      (r = false ∧ ∃ removed, (∀ victim ∈ removed, path <+: victim) ∧
        s' = s.setDisk (s.disk.unlinkAll removed))
  | .lastSweep, r, s' => r = s.lastSweep ∧ s' = s
  | .setLastSweep time, _, s' => s' = { s with lastSweep := time }
  | .serialize data, r, s' =>
      s' = s ∧ (r = .ok (codec.serialize data) ∨ ∃ error, r = .error error)
  | .compress level bytes, r, s' => s' = s ∧
      (r = .ok (some (codec.compress level bytes)) ∨ r = .ok none ∨
        ∃ error, r = .error error)
  | .savePcd path _, r, s' =>
      (r = .ok true ∧ ∃ content, canOpen s.disk path = true ∧
        s' = s.setDisk ((s.disk.create path).append path content)) ∨
      (r ≠ .ok true ∧ (s' = s ∨ ∃ content, canOpen s.disk path = true ∧
        s' = s.setDisk ((s.disk.create path).append path content)))
  | .hang, _, _ => False
  | _, _, s' => s' = s

/-! ### A disk without faults -/

def subdirectories (disk : FileSystem) : List Text :=
  disk.live.keys.filterMap fun path =>
    match path with
    | [name] => if disk.isDir [name] then some name else none
    | _ => none

def filesBelow (disk : FileSystem) (directory : Path) : List Path :=
  (disk.live.keys.filter fun path =>
    disk.isFile path && decide (directory <+: path)).map
    fun path => path.drop directory.length

/-- How a store without faults answers, with a clock that stands still. -/
def Store.respond (codec : Codec) (s : Store) :
    (op : FsOp) → Option (op.Res × Store)
  | .createDirectories path =>
      (s.disk.mkdirs path).map fun disk => (true, s.setDisk disk)
  | .openTrunc path =>
      if canOpen s.disk path then some (true, s.setDisk (s.disk.create path))
      else some (false, s)
  | .openAppend path =>
      if canOpen s.disk path then
        some (some ((s.disk.read? path).getD []).length,
          s.setDisk (s.disk.ensure path))
      else some (none, s)
  | .append path data => some (true, s.setDisk (s.disk.append path data))
  | .spill path data all =>
      let count := if all then data.length else 0
      some ((count, true), s.setDisk (s.disk.append path (data.take count)))
  | .syncFile path => some ((), s.setDisk (s.disk.syncFile path))
  | .syncDirectory path => some ((), s.setDisk (s.disk.syncDir path))
  | .rename source target =>
      if s.disk.isFile source && canOpen s.disk target then
        some (true, s.setDisk (s.disk.rename source target))
      else some (false, s)
  | .remove path =>
      if s.disk.isDir path then some (false, s)
      else some (true, s.setDisk (s.disk.remove path))
  | .exists path => some (some (s.disk.pathExists path), s)
  | .listDirectories => some ((subdirectories s.disk, true), s)
  | .listFiles directory => some ((filesBelow s.disk directory, true), s)
  | .fileSize path => some ((s.disk.read? path).map List.length, s)
  | .readFile path => some (s.disk.read? path, s)
  | .removeAll path => some (true, s.setDisk (s.disk.removeTree path))
  | .systemNow => some ((0 : Int), s)
  | .steadyNow => some ((0 : Int), s)
  | .availableBytes => some ((2 ^ 40 : Nat), s)
  | .lastSweep => some (s.lastSweep, s)
  | .setLastSweep time => some ((), { s with lastSweep := time })
  | .serialize data => some (.ok (codec.serialize data), s)
  | .compress level bytes => some (.ok (some (codec.compress level bytes)), s)
  | .encodeImage _ _ image => some (.ok (some image.data), s)
  | .savePcd path cloud =>
      if canOpen s.disk path then
        some (.ok true, s.setDisk ((s.disk.create path).append path cloud.data))
      else some (.ok false, s)
  | .hang => none

theorem isFile_of_mem_filesBelow {disk : FileSystem} {directory path : Path} :
    path ∈ filesBelow disk directory ↔
      disk.isFile (directory ++ path) = true := by
  simp only [filesBelow, List.mem_map, List.mem_filter, Bool.and_eq_true,
    decide_eq_true_eq]
  constructor
  · rintro ⟨_, ⟨-, hfile, rest, rfl⟩, rfl⟩
    rwa [List.drop_left]
  · refine fun hfile => ⟨directory ++ path, ⟨?_, hfile, List.prefix_append _ _⟩,
      List.drop_left⟩
    obtain ⟨inode, content, synced, hnode⟩ := Disk.isFile_iff.mp hfile
    exact disk.live.mem_keys_iff.mpr ⟨_, hnode⟩

theorem nodup_filesBelow (disk : FileSystem) (directory : Path) :
    (filesBelow disk directory).Nodup := by
  refine List.Nodup.map_on ?_ (disk.live.keys_nodup.filter _)
  intro first hfirst second hsecond heq
  simp only [List.mem_filter, Bool.and_eq_true, decide_eq_true_eq]
    at hfirst hsecond
  obtain ⟨rest, rfl⟩ := hfirst.2.2
  obtain ⟨rest', rfl⟩ := hsecond.2.2
  rw [List.drop_left, List.drop_left] at heq
  rw [heq]

theorem mem_subdirectories {disk : FileSystem} {name : Text} :
    name ∈ subdirectories disk ↔ disk.isDir [name] = true := by
  simp only [subdirectories, List.mem_filterMap]
  constructor
  · rintro ⟨path, -, hpath⟩
    split at hpath
    next name' =>
      split at hpath
      next hdir =>
        cases hpath
        exact hdir
      · cases hpath
    · cases hpath
  · intro hdir
    refine ⟨[name], ?_, if_pos hdir⟩
    unfold Disk.isDir at hdir
    cases hnode : disk.node? [name] with
    | none => simp [hnode] at hdir
    | some node => exact disk.live.mem_keys_iff.mpr ⟨_, hnode⟩

theorem nodup_subdirectories (disk : FileSystem) :
    (subdirectories disk).Nodup := by
  refine List.Nodup.filterMap ?_ disk.live.keys_nodup
  intro first second name hfirst hsecond
  split at hfirst
  · split at hfirst
    · cases hfirst
      split at hsecond
      · split at hsecond
        · cases hsecond
          rfl
        · cases hsecond
      · cases hsecond
    · cases hfirst
  · cases hfirst

theorem effect_respond {codec : Codec} {s s' : Store} {op : FsOp} {r : op.Res}
    (h : s.respond codec op = some (r, s')) : Effect codec s op r s' := by
  cases op with
  | createDirectories path =>
      obtain ⟨disk, hdisk, heq⟩ := Option.map_eq_some_iff.mp h
      cases heq
      exact .inl ⟨rfl, disk, hdisk, rfl⟩
  | openTrunc path =>
      simp only [Store.respond] at h
      split at h <;> cases h
      next hopen => exact .inl ⟨rfl, hopen, rfl⟩
      · exact .inr ⟨rfl, rfl⟩
  | openAppend path =>
      simp only [Store.respond] at h
      split at h <;> cases h
      next hopen => exact .inl ⟨rfl, hopen, rfl⟩
      · exact .inr ⟨rfl, rfl⟩
  | append path data => cases h; exact .inl ⟨rfl, rfl⟩
  | spill path data all =>
      cases h
      refine ⟨?_, fun hall _ => if_pos hall, rfl⟩
      cases all
      · exact Nat.zero_le _
      · exact Nat.le_refl _
  | rename source target =>
      simp only [Store.respond] at h
      split at h <;> cases h
      next hopen =>
        rw [Bool.and_eq_true] at hopen
        exact .inl ⟨rfl, hopen.1, hopen.2, rfl⟩
      · exact .inr ⟨rfl, rfl⟩
  | remove path =>
      simp only [Store.respond] at h
      split at h <;> cases h
      · exact .inr ⟨rfl, rfl⟩
      next hdir => exact .inl ⟨rfl, by simpa using hdir, rfl⟩
  | «exists» path => cases h; exact ⟨rfl, .inl rfl⟩
  | listDirectories =>
      cases h
      exact ⟨rfl, nodup_subdirectories _, fun _ => mem_subdirectories.mp,
        fun _ _ => mem_subdirectories.mpr⟩
  | listFiles directory =>
      cases h
      exact ⟨rfl, nodup_filesBelow _ _, fun _ => isFile_of_mem_filesBelow.mp,
        fun _ _ => isFile_of_mem_filesBelow.mpr⟩
  | fileSize path => cases h; exact ⟨rfl, .inl rfl⟩
  | readFile path => cases h; exact ⟨rfl, .inl rfl⟩
  | removeAll path => cases h; exact .inl ⟨rfl, rfl⟩
  | lastSweep => cases h; exact ⟨rfl, rfl⟩
  | serialize data => cases h; exact ⟨rfl, .inl rfl⟩
  | compress level bytes => cases h; exact ⟨rfl, .inl rfl⟩
  | savePcd path cloud =>
      simp only [Store.respond] at h
      split at h <;> cases h
      next hopen => exact .inl ⟨rfl, _, hopen, rfl⟩
      · exact .inr ⟨nofun, .inl rfl⟩
  | hang => cases h
  | _ => cases h; rfl

/-- The paths whose node an operation may change. -/
def FsOp.Touches : FsOp → Path → Prop
  | createDirectories target, path => path <+: target
  | openTrunc target, path => path = target
  | openAppend target, path => path = target
  | append target _, path => path = target
  | spill target _ _, path => path = target
  | syncFile target, path => path = target
  | rename source target, path => path = source ∨ path = target
  | remove target, path => path = target
  | removeAll target, path => target <+: path
  | savePcd target _, path => path = target
  | _, _ => False

/-- An operation changes nothing outside the paths it touches. -/
theorem Effect.sameAt {codec : Codec} {s s' : Store} {op : FsOp} {r : op.Res}
    (h : Effect codec s op r s') {path : Path} (hpath : ¬op.Touches path) :
    Disk.SameAt path s.disk s'.disk := by
  cases op with
  | createDirectories target =>
      rcases h with ⟨-, disk, hdisk, rfl⟩ | ⟨-, made, disk, hmade, hdisk, rfl⟩
      · exact Disk.sameAt_mkdirs hdisk (.inl hpath)
      · exact Disk.sameAt_mkdirs hdisk (.inl fun hpre => hpath (hpre.trans hmade))
  | openTrunc target =>
      rcases h with ⟨-, -, rfl⟩ | ⟨-, rfl⟩
      · exact Disk.sameAt_create (Ne.symm hpath)
      · exact .refl _ _
  | openAppend target =>
      rcases h with ⟨-, -, rfl⟩ | ⟨-, rfl⟩
      · exact Disk.sameAt_ensure (Ne.symm hpath)
      · exact .refl _ _
  | append target data =>
      rcases h with ⟨-, rfl⟩ | ⟨-, count, rfl⟩ <;>
        exact Disk.sameAt_append _ (Ne.symm hpath)
  | spill target data all =>
      obtain ⟨-, -, rfl⟩ := h
      exact Disk.sameAt_append _ (Ne.symm hpath)
  | syncFile target =>
      cases h
      exact Disk.sameAt_syncFile (Ne.symm hpath)
  | syncDirectory directory =>
      cases h
      exact Disk.sameAt_syncDir _ _ _
  | rename source target =>
      rcases h with ⟨-, -, -, rfl⟩ | ⟨-, rfl⟩
      · exact Disk.sameAt_rename (fun heq => hpath (.inl heq.symm))
          fun heq => hpath (.inr heq.symm)
      · exact .refl _ _
  | remove target =>
      rcases h with ⟨-, -, rfl⟩ | ⟨-, rfl⟩
      · exact Disk.sameAt_remove (.inl (Ne.symm hpath))
      · exact .refl _ _
  | removeAll target =>
      rcases h with ⟨-, rfl⟩ | ⟨-, removed, hremoved, rfl⟩
      · refine Disk.sameAt_unlinkAll fun hmem => hpath ?_
        have hbelow := (List.mem_filter.mp hmem).2
        simpa [FsOp.Touches] using hbelow
      · exact Disk.sameAt_unlinkAll fun hmem => hpath (hremoved _ hmem)
  | savePcd target cloud =>
      have hwritten : ∀ content, Disk.SameAt path s.disk
          ((s.disk.create target).append target content) := fun content =>
        (Disk.sameAt_create (Ne.symm hpath)).trans
          (Disk.sameAt_append _ (Ne.symm hpath))
      rcases h with ⟨-, content, -, rfl⟩ | ⟨-, rfl | ⟨content, -, rfl⟩⟩
      · exact hwritten content
      · exact .refl _ _
      · exact hwritten content
  | «exists» target => obtain ⟨rfl, -⟩ := h; exact .refl _ _
  | listDirectories => obtain ⟨rfl, -⟩ := h; exact .refl _ _
  | listFiles directory => obtain ⟨rfl, -⟩ := h; exact .refl _ _
  | fileSize target => obtain ⟨rfl, -⟩ := h; exact .refl _ _
  | readFile target => obtain ⟨rfl, -⟩ := h; exact .refl _ _
  | lastSweep => obtain ⟨-, rfl⟩ := h; exact .refl _ _
  | setLastSweep time => cases h; exact ⟨rfl, fun _ hmem _ => hmem⟩
  | serialize data => obtain ⟨rfl, -⟩ := h; exact .refl _ _
  | compress level bytes => obtain ⟨rfl, -⟩ := h; exact .refl _ _
  | encodeImage extension parameters image => cases h; exact .refl _ _
  | systemNow => cases h; exact .refl _ _
  | steadyNow => cases h; exact .refl _ _
  | availableBytes => cases h; exact .refl _ _
  | hang => cases h

/-- A directory stays as it is unless it is removed with what is above it. -/
theorem Effect.sameAt_of_isDir {codec : Codec} {s s' : Store} {op : FsOp}
    {r : op.Res} (h : Effect codec s op r s') {path : Path} (hne : path ≠ [])
    (hdir : s.disk.isDir path = true)
    (hkept : ∀ target, op = .removeAll target → ¬target <+: path) :
    Disk.SameAt path s.disk s'.disk := by
  by_cases htouches : op.Touches path
  · have hopen : ∀ {target : Path}, canOpen s.disk target = true →
        target ≠ path := by
      rintro target hopen rfl
      simp [canOpen, hdir] at hopen
    have hfile : s.disk.isFile path = false :=
      Disk.isFile_eq_false_of_isDir hne hdir
    cases op with
    | createDirectories target =>
        rcases h with ⟨-, disk, hdisk, rfl⟩ | ⟨-, made, disk, -, hdisk, rfl⟩ <;>
          exact Disk.sameAt_mkdirs hdisk (.inr hdir)
    | openTrunc target =>
        rcases h with ⟨-, hcan, rfl⟩ | ⟨-, rfl⟩
        · exact absurd htouches.symm (hopen hcan)
        · exact .refl _ _
    | openAppend target =>
        rcases h with ⟨-, hcan, rfl⟩ | ⟨-, rfl⟩
        · exact absurd htouches.symm (hopen hcan)
        · exact .refl _ _
    | append target data =>
        obtain rfl : path = target := htouches
        rcases h with ⟨-, rfl⟩ | ⟨-, count, rfl⟩ <;>
          · rw [Store.setDisk, Disk.append, Disk.modify_of_not_file hfile]
            exact .refl _ _
    | spill target data all =>
        obtain rfl : path = target := htouches
        obtain ⟨-, -, rfl⟩ := h
        rw [Store.setDisk, Disk.append, Disk.modify_of_not_file hfile]
        exact .refl _ _
    | syncFile target =>
        obtain rfl : path = target := htouches
        cases h
        rw [Store.setDisk, Disk.syncFile, Disk.modify_of_not_file hfile]
        exact .refl _ _
    | rename source target =>
        rcases h with ⟨-, hsource, hcan, rfl⟩ | ⟨-, rfl⟩
        · refine Disk.sameAt_rename ?_ (hopen hcan)
          rintro rfl
          rw [hfile] at hsource
          cases hsource
        · exact .refl _ _
    | remove target =>
        obtain rfl : path = target := htouches
        rcases h with ⟨-, hnot, -⟩ | ⟨-, rfl⟩
        · rw [hdir] at hnot
          cases hnot
        · exact .refl _ _
    | removeAll target => exact absurd htouches (hkept target rfl)
    | savePcd target cloud =>
        rcases h with ⟨-, content, hcan, rfl⟩ | ⟨-, rfl | ⟨content, hcan, rfl⟩⟩
        · exact absurd htouches.symm (hopen hcan)
        · exact .refl _ _
        · exact absurd htouches.symm (hopen hcan)
    | _ => exact absurd htouches id
  · exact h.sameAt htouches

end DataCache.Storage
