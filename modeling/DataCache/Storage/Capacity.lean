import DataCache.Storage.Deletions

/-!
# The size of the record root

A sweep that nothing disturbs and whose deletions succeed.  It compares the
limit with the directories it may delete; the others count on the disk but not
in that sum.
-/

namespace DataCache.Storage

open DataCache.Foundation

/-! ## A record root that nothing else changes -/

/-- The listing has every directory once, in the order it is read in. -/
def Lists (disk : FileSystem) (listing : List Text) : Prop :=
  listing.Nodup ∧ ∀ name, name ∈ listing ↔ disk.isDir [name] = true

def Undisturbed (codec : Codec) (listing : List Text) (systemNow : Int)
    (s : Store) : (op : FsOp) → op.Res → Store → Prop
  | .exists path, r, s' => s' = s ∧ r = some (s.disk.pathExists path)
  | .listDirectories, r, s' => s' = s ∧ r = (listing, true)
  | .listFiles directory, r, s' => s' = s ∧ r.1.Nodup ∧
      ∀ path, path ∈ r.1 ↔ s.disk.isFile (directory ++ path) = true
  | .fileSize path, r, s' =>
      s' = s ∧ r = (s.disk.read? path).map List.length
  | .removeAll path, r, s' =>
      r = true ∧ s' = s.setDisk (s.disk.removeTree path)
  | .systemNow, r, s' => s' = s ∧ r = systemNow
  | op, r, s' => Effect codec s op r s'

/-- It is one of the ways in which the operations can go. -/
theorem Undisturbed.effect {codec : Codec} {listing : List Text}
    {systemNow : Int} {s s' : Store} {op : FsOp} {r : op.Res}
    (hlisting : Lists s.disk listing)
    (h : Undisturbed codec listing systemNow s op r s') :
    Effect codec s op r s' := by
  cases op with
  | «exists» path => exact ⟨h.1, .inl h.2⟩
  | listDirectories =>
      obtain ⟨rfl, rfl⟩ := h
      exact ⟨rfl, hlisting.1, fun name => (hlisting.2 name).mp,
        fun _ name => (hlisting.2 name).mpr⟩
  | listFiles directory =>
      exact ⟨h.1, h.2.1, fun path => (h.2.2 path).mp, fun _ path =>
        (h.2.2 path).mpr⟩
  | fileSize path => exact ⟨h.1, .inl h.2⟩
  | removeAll path => exact .inl h
  | systemNow => exact h.1
  | _ => exact h

/-! ## What is on the disk -/

section Sizes

variable (policy : Policy) (disk : FileSystem)

def busy (name : Text) : Bool :=
  disk.pathExists [name, ".pending"] || disk.pathExists [name, ".uploading"] ||
    disk.pathExists [name, ".uploading.tmp"]

/-- The markers let a sweep delete the directory. -/
def removable (name : Text) : Bool :=
  !busy disk name &&
    (disk.pathExists [name, ".complete"] || disk.pathExists [name, ".failed"]) &&
    (!(policy.protectUnuploaded && disk.pathExists [name, ".complete"]) ||
      disk.pathExists [name, ".uploaded"])

def isEventDirectory (name : Text) : Bool :=
  disk.isDir [name] && decide (0 ≤ parseEventTimestamp name)

/-- What `collectEventDirs` regards as deletable. -/
def deletable (name : Text) : Bool :=
  isEventDirectory disk name && removable policy disk name

def directoryBytes (name : Text) : Nat :=
  ((filesBelow disk [name]).map fun path =>
    ((disk.read? (name :: path)).getD []).length).sum

def sizesOf (names : List Text) : Nat := (names.map (directoryBytes disk)).sum

def eventDirectories : List Text :=
  (subdirectories disk).filter (isEventDirectory disk)

/-- The sizes of the event directories that may not be deleted. -/
def protectedBytes : Nat :=
  sizesOf disk ((eventDirectories disk).filter fun name =>
    !removable policy disk name)

/-- Within the limit, or nothing left to delete. -/
def CapacityKept : Prop :=
  sizesOf disk (eventDirectories disk) ≤ policy.maxCapacityBytes ∨
    ∀ name, deletable policy disk name = false

/-- The deletable directories, in the order in which they are deleted. -/
def collected (listing : List Text) : List EventDir :=
  ((listing.filter (deletable policy disk)).map fun name =>
    ⟨name, parseEventTimestamp name, 0⟩).insertionSort EventDir.Older

/-- Those that the age limit leaves. -/
def leftByAge (listing : List Text) (systemNow : Int) : List Text :=
  ((collected policy disk listing).filter fun dir =>
    !(decide (0 < policy.retentionDays) && decide (dir.timestampNs <
      cutoffNs systemNow policy.retentionDays))).map EventDir.name

end Sizes

/-! ## Deleted directories -/

def clearDirectories (disk : FileSystem) (names : List Text) : FileSystem :=
  names.foldl (fun disk name => disk.removeTree [name]) disk

theorem clearDirectories_append (disk : FileSystem) (names later : List Text) :
    clearDirectories disk (names ++ later) =
      clearDirectories (clearDirectories disk names) later :=
  List.foldl_append

/-- Everything below this name is the same. -/
def SameBelow (name : Text) (disk disk' : FileSystem) : Prop :=
  ∀ rest, disk'.node? (name :: rest) = disk.node? (name :: rest)

theorem node?_clearDirectories (name : Text) (rest : Path) :
    ∀ (names : List Text) (disk : FileSystem),
      (clearDirectories disk names).node? (name :: rest) =
        if name ∈ names then none else disk.node? (name :: rest)
  | [], _ => by simp [clearDirectories]
  | first :: names, disk => by
      change (clearDirectories (disk.removeTree [first]) names).node? _ = _
      rw [node?_clearDirectories name rest names, Disk.node?_removeTree]
      by_cases hfirst : first = name
      · simp [hfirst]
      · simp [hfirst, Ne.symm hfirst]

theorem sameBelow_clearDirectories {name : Text} {names : List Text}
    (disk : FileSystem) (h : name ∉ names) :
    SameBelow name disk (clearDirectories disk names) := fun rest => by
  rw [node?_clearDirectories, if_neg h]

theorem isDir_clearDirectories {name : Text} {names : List Text}
    (disk : FileSystem) (h : name ∈ names) :
    (clearDirectories disk names).isDir [name] = false := by
  rw [Disk.isDir, node?_clearDirectories, if_pos h]
  rfl

namespace SameBelow

variable {name : Text} {disk disk' : FileSystem}

theorem isDir (h : SameBelow name disk disk') (rest : Path) :
    disk'.isDir (name :: rest) = disk.isDir (name :: rest) :=
  Disk.isDir_congr (h rest)

theorem read? (h : SameBelow name disk disk') (rest : Path) :
    disk'.read? (name :: rest) = disk.read? (name :: rest) :=
  Disk.read?_congr (h rest)

theorem isFile (h : SameBelow name disk disk') (rest : Path) :
    disk'.isFile (name :: rest) = disk.isFile (name :: rest) := by
  rw [Disk.isFile, h.read?, Disk.isFile]

theorem pathExists (h : SameBelow name disk disk') (rest : Path) :
    disk'.pathExists (name :: rest) = disk.pathExists (name :: rest) := by
  rw [Disk.pathExists, h.isFile, h.isDir, Disk.pathExists]

theorem removable (h : SameBelow name disk disk') (policy : Policy) :
    removable policy disk' name = removable policy disk name := by
  simp only [Storage.removable, busy, h.pathExists]

theorem isEventDirectory (h : SameBelow name disk disk') :
    isEventDirectory disk' name = isEventDirectory disk name := by
  rw [Storage.isEventDirectory, h.isDir, Storage.isEventDirectory]

theorem directoryBytes (h : SameBelow name disk disk') :
    directoryBytes disk' name = directoryBytes disk name := by
  have hperm : (filesBelow disk' [name]).Perm (filesBelow disk [name]) := by
    rw [List.perm_ext_iff_of_nodup (nodup_filesBelow _ _) (nodup_filesBelow _ _)]
    intro path
    rw [isFile_of_mem_filesBelow, isFile_of_mem_filesBelow]
    exact Iff.of_eq (congrArg (· = true) (h.isFile path))
  rw [Storage.directoryBytes, Storage.directoryBytes]
  simp only [h.read?]
  exact (hperm.map _).sum_nat

end SameBelow

/-! ## The scan -/

section Runs

variable (codec : Codec) (listing : List Text) (systemNow : Int)

/-- Every execution from here ends with `post`. -/
abbrev Ends {α : Type} (post : α → Store → Prop) (p : Action α) (s : Store) :
    Prop :=
  Prog.wp (Undisturbed codec listing systemNow) (fun _ => True) post
    (fun _ _ => True) p s

/-- The value is known, and the store stays as it is. -/
abbrev Answers {α : Type} (value : α) (p : Action α) (s : Store) : Prop :=
  Ends codec listing systemNow (fun r s' => r = value ∧ s' = s) p s

variable {codec listing systemNow} {s : Store}

theorem Ends.bind {α β : Type} {p : Action α} {f : α → Action β}
    {post : β → Store → Prop} {middle : α → Store → Prop}
    (hp : Ends codec listing systemNow middle p s)
    (hf : ∀ value s', middle value s' →
      Ends codec listing systemNow post (f value) s') :
    Ends codec listing systemNow post (p.bind f) s :=
  Prog.wp_bind (Prog.wp_mono (fun _ h => h) hf (fun _ _ h => h) hp)

theorem Answers.bind {α β : Type} {p : Action α} {f : α → Action β}
    {post : β → Store → Prop} {value : α}
    (hp : Answers codec listing systemNow value p s)
    (hf : Ends codec listing systemNow post (f value) s) :
    Ends codec listing systemNow post (p.bind f) s :=
  Ends.bind hp fun r s' h => by
    obtain ⟨rfl, rfl⟩ := h
    exact hf

theorem pathExists_answers (path : Path) :
    Answers codec listing systemNow (s.disk.pathExists path)
      (pathExists path) s := by
  intro found s' hfound
  obtain ⟨rfl, rfl⟩ := hfound
  exact ⟨trivial, rfl, rfl⟩

theorem alsoExists_answers (found : Bool) (path : Path) :
    Answers codec listing systemNow (found || s.disk.pathExists path)
      (alsoExists found path) s := by
  cases found with
  | true => exact ⟨rfl, rfl⟩
  | false => exact pathExists_answers path

theorem isBusy_answers (name : Text) :
    Answers codec listing systemNow (busy s.disk name) (isBusy name) s :=
  Answers.bind (pathExists_answers _)
    (Answers.bind (alsoExists_answers _ _) (alsoExists_answers _ _))

theorem isRemovable_answers (policy : Policy) (name : Text) :
    Answers codec listing systemNow (removable policy s.disk name)
      (isRemovable policy name) s := by
  refine Answers.bind (isBusy_answers name) ?_
  unfold removable
  split
  next hbusy =>
    rw [hbusy]
    exact ⟨rfl, rfl⟩
  next hidle =>
    rw [Bool.not_eq_true] at hidle
    rw [hidle]
    refine Answers.bind (pathExists_answers _)
      (Answers.bind (pathExists_answers _) ?_)
    cases s.disk.pathExists [name, ".complete"] <;>
      cases s.disk.pathExists [name, ".failed"] <;>
      cases policy.protectUnuploaded <;>
      first
        | exact ⟨rfl, rfl⟩
        | exact pathExists_answers _

theorem collectFrom_answers (policy : Policy) (names : List Text) :
    Answers codec listing systemNow
      ((names.filter fun name => removable policy s.disk name &&
        decide (0 ≤ parseEventTimestamp name)).map fun name =>
          ⟨name, parseEventTimestamp name, 0⟩)
      (collectFrom policy names) s := by
  induction names with
  | nil => exact ⟨rfl, rfl⟩
  | cons name rest ih =>
      refine Answers.bind (isRemovable_answers policy name) (Answers.bind ih ?_)
      dsimp only
      split
      next hkept => exact ⟨by rw [List.filter_cons, if_pos hkept, List.map_cons], rfl⟩
      next hkept => exact ⟨by rw [List.filter_cons, if_neg hkept], rfl⟩

theorem collectEventDirs_answers {policy : Policy}
    (hlisting : Lists s.disk listing) :
    Answers codec listing systemNow (collected policy s.disk listing)
      (collectEventDirs policy) s := by
  intro found s' hfound
  obtain ⟨rfl, rfl⟩ := hfound
  refine ⟨trivial, ?_⟩
  have hsame : (listing.filter fun name => removable policy s'.disk name &&
      decide (0 ≤ parseEventTimestamp name)) =
      listing.filter (deletable policy s'.disk) := by
    refine List.filter_congr fun name hname => ?_
    rw [deletable, isEventDirectory, (hlisting.2 name).mp hname, Bool.true_and,
      Bool.and_comm]
  change Ends _ _ _ _ ((collectFrom policy listing).bind _) _
  refine Answers.bind (collectFrom_answers policy listing) ?_
  rw [hsame]
  exact ⟨rfl, rfl⟩

/-! ## The limits -/

/-- Ends with the store as it was but for these directories. -/
def Clears (names : List Text) (s s' : Store) : Prop :=
  s'.disk = clearDirectories s.disk names

theorem sweepByAge_ends (cutoffNs : Int) (dirs : List EventDir) (s : Store) :
    Ends codec listing systemNow (fun kept s' =>
      kept = dirs.dropWhile (fun dir => decide (dir.timestampNs < cutoffNs)) ∧
      Clears ((dirs.takeWhile fun dir =>
        decide (dir.timestampNs < cutoffNs)).map EventDir.name) s s')
      (sweepByAge cutoffNs dirs) s := by
  induction dirs generalizing s with
  | nil => exact ⟨rfl, rfl⟩
  | cons dir rest ih =>
      unfold sweepByAge
      split
      next hold =>
        refine fun (deleted : Bool) s' hdeleted => ⟨trivial, ?_⟩
        obtain ⟨rfl, rfl⟩ : deleted = true ∧
          s' = s.setDisk (s.disk.removeTree [dir.name]) := hdeleted
        change Ends _ _ _ _ ((sweepByAge cutoffNs rest).bind _) _
        refine Ends.bind (ih _) ?_
        rintro kept s'' ⟨rfl, hcleared⟩
        refine ⟨by simp [hold], ?_⟩
        rw [List.takeWhile_cons, if_pos (decide_eq_true hold), List.map_cons]
        exact hcleared
      next hyoung =>
        refine ⟨?_, ?_⟩
        · simp [hyoung]
        · simp [hyoung, Clears, clearDirectories]

theorem applyAgeLimit_cleared (policy : Policy) {dirs : List EventDir}
    (hsorted : dirs.Pairwise EventDir.Older) (s : Store) :
    Ends codec listing systemNow (fun kept s' => ∃ old, dirs = old ++ kept ∧
      Clears (old.map EventDir.name) s s' ∧
      kept = dirs.filter fun dir => !(decide (0 < policy.retentionDays) &&
        decide (dir.timestampNs < cutoffNs systemNow policy.retentionDays)))
      (applyAgeLimit policy dirs) s := by
  unfold applyAgeLimit
  split
  next hdays =>
    intro now s' hnow
    obtain ⟨rfl, rfl⟩ := hnow
    refine ⟨trivial, Prog.wp_mono (fun _ h => h) ?_ (fun _ _ h => h)
      (sweepByAge_ends _ dirs s')⟩
    rintro kept s'' ⟨rfl, hcleared⟩
    refine ⟨_, List.takeWhile_append_dropWhile.symm, hcleared, ?_⟩
    rw [dropWhile_older hsorted]
    simp [hdays]
  next hdays =>
    refine ⟨[], rfl, rfl, ?_⟩
    simp [hdays]

theorem sumSizes_answers (directory : Path) (paths : List Path) :
    Answers codec listing systemNow ((paths.map fun path =>
        ((s.disk.read? (directory ++ path)).getD []).length).sum)
      (sumSizes directory paths) s := by
  induction paths with
  | nil => exact ⟨rfl, rfl⟩
  | cons path rest ih =>
      intro size s' hsize
      obtain ⟨rfl, rfl⟩ := hsize
      refine ⟨trivial, ?_⟩
      change Ends _ _ _ _ ((sumSizes directory rest).bind _) _
      refine Answers.bind ih ⟨?_, rfl⟩
      rw [List.map_cons, List.sum_cons]
      cases s'.disk.read? (directory ++ path) <;> rfl

theorem directorySize_answers (name : Text) :
    Answers codec listing systemNow (directoryBytes s.disk name)
      (directorySize name) s := by
  intro found s' hfound
  obtain ⟨rfl, hnodup, hmem⟩ := hfound
  have hperm : found.1.Perm (filesBelow s'.disk [name]) := by
    rw [List.perm_ext_iff_of_nodup hnodup (nodup_filesBelow _ _)]
    exact fun path => (hmem path).trans isFile_of_mem_filesBelow.symm
  refine ⟨trivial, Prog.wp_mono (fun _ h => h) ?_ (fun _ _ h => h)
    (sumSizes_answers [name] found.1)⟩
  rintro total s'' ⟨rfl, rfl⟩
  exact ⟨(hperm.map _).sum_nat, rfl⟩

def withSize (disk : FileSystem) (dir : EventDir) : EventDir :=
  { dir with sizeBytes := directoryBytes disk dir.name }

theorem measure_answers (dirs : List EventDir) :
    Answers codec listing systemNow (dirs.map (withSize s.disk)) (measure dirs)
      s := by
  induction dirs with
  | nil => exact ⟨rfl, rfl⟩
  | cons dir rest ih =>
      exact Answers.bind (directorySize_answers dir.name)
        (Answers.bind ih ⟨rfl, rfl⟩)

/-- What stays is the longest part of the newest directories that fits. -/
theorem sweepByCapacity_ends (maxCapacityBytes : Nat) (dirs : List EventDir)
    (s : Store) :
    Ends codec listing systemNow (fun _ s' => ∃ removed rest,
      dirs = removed ++ rest ∧ Clears (removed.map EventDir.name) s s' ∧
      bytesOf rest ≤ maxCapacityBytes ∧
      ∀ newest, newest <:+ dirs → bytesOf newest ≤ maxCapacityBytes →
        newest <:+ rest)
      (sweepByCapacity maxCapacityBytes (bytesOf dirs) dirs) s := by
  induction dirs generalizing s with
  | nil => exact ⟨[], [], rfl, rfl, Nat.zero_le _, fun newest h _ => h⟩
  | cons dir rest ih =>
      unfold sweepByCapacity
      split
      next hfits => exact ⟨[], _, rfl, rfl, hfits, fun newest h _ => h⟩
      next hover =>
        refine fun (deleted : Bool) s' hdeleted => ⟨trivial, ?_⟩
        obtain ⟨rfl, rfl⟩ : deleted = true ∧
          s' = s.setDisk (s.disk.removeTree [dir.name]) := hdeleted
        have htotal : bytesOf (dir :: rest) - dir.sizeBytes = bytesOf rest := by
          rw [bytesOf_cons, Nat.add_sub_cancel_left]
        change Ends _ _ _ _ (sweepByCapacity _ (_ - _) rest) _
        rw [htotal]
        refine Prog.wp_mono (fun _ h => h) ?_ (fun _ _ h => h) (ih _)
        rintro _ s'' ⟨removed, kept, rfl, hcleared, hfits, hlongest⟩
        refine ⟨dir :: removed, kept, rfl, hcleared, hfits,
          fun newest hnewest hsmall => ?_⟩
        rcases List.suffix_cons_iff.mp hnewest with rfl | hnewest
        · exact absurd hsmall hover
        · exact hlongest newest hnewest hsmall

theorem collected_names_perm (policy : Policy) (disk : FileSystem)
    (listing : List Text) :
    ((collected policy disk listing).map EventDir.name).Perm
      (listing.filter (deletable policy disk)) := by
  have hperm := (((listing.filter (deletable policy disk)).map fun name =>
    (⟨name, parseEventTimestamp name, 0⟩ : EventDir)).perm_insertionSort
      EventDir.Older).map EventDir.name
  rw [List.map_map] at hperm
  exact hperm.trans (List.Perm.of_eq (List.map_id _))

/-- Sizes are the same while only other directories are deleted. -/
theorem sizesOf_clearDirectories {disk : FileSystem} {names gone : List Text}
    (h : ∀ name ∈ names, name ∉ gone) :
    sizesOf (clearDirectories disk gone) names = sizesOf disk names := by
  unfold sizesOf
  exact congrArg List.sum (List.map_congr_left fun name hname =>
    (sameBelow_clearDirectories disk (h name hname)).directoryBytes)

theorem bytesOf_withSize (disk : FileSystem) (dirs : List EventDir) :
    bytesOf (dirs.map (withSize disk)) =
      sizesOf disk (dirs.map EventDir.name) := by
  rw [bytesOf, sizesOf, List.map_map, List.map_map]
  rfl

theorem names_withSize (disk : FileSystem) (dirs : List EventDir) :
    (dirs.map (withSize disk)).map EventDir.name = dirs.map EventDir.name := by
  rw [List.map_map]
  rfl

/-- `gone` are the names of the deleted directories, `rest` those left. -/
structure Swept (policy : Policy) (listing : List Text) (systemNow : Int)
    (disk disk' : FileSystem) (gone rest : List Text) : Prop where
  all : (gone ++ rest).Perm (listing.filter (deletable policy disk))
  cleared : disk' = clearDirectories disk gone
  fits : sizesOf disk rest ≤ policy.maxCapacityBytes
  suffix : rest <:+ leftByAge policy disk listing systemNow
  longest : ∀ newest, newest <:+ leftByAge policy disk listing systemNow →
    sizesOf disk newest ≤ policy.maxCapacityBytes → newest <:+ rest

theorem sweep_swept {policy : Policy} (hlisting : Lists s.disk listing)
    (hlimit : 0 < policy.maxCapacityBytes) :
    Ends codec listing systemNow (fun _ s' => ∃ gone rest,
      Swept policy listing systemNow s.disk s'.disk gone rest) (sweep policy)
      s := by
  refine Answers.bind (collectEventDirs_answers hlisting) ?_
  have hsorted := List.pairwise_insertionSort EventDir.Older
    ((listing.filter (deletable policy s.disk)).map fun name =>
      (⟨name, parseEventTimestamp name, 0⟩ : EventDir))
  refine Ends.bind (applyAgeLimit_cleared policy hsorted s) ?_
  rintro kept s₁ ⟨old, hsplit, hcleared, hkept⟩
  change collected policy s.disk listing = old ++ kept at hsplit
  have hnames := collected_names_perm policy s.disk listing
  have hleft : leftByAge policy s.disk listing systemNow =
      kept.map EventDir.name := congrArg (List.map EventDir.name) hkept.symm
  have hnodup := hnames.nodup_iff.mpr (hlisting.1.filter _)
  rw [hsplit, List.map_append] at hnames hnodup
  have hother : ∀ name ∈ kept.map EventDir.name, name ∉ old.map EventDir.name :=
    fun name hname hold => (List.nodup_append.mp hnodup).2.2 name hold name hname rfl
  have hsizes : ∀ {newest : List EventDir}, newest <:+ kept →
      bytesOf (newest.map (withSize s₁.disk)) =
        sizesOf s.disk (newest.map EventDir.name) := by
    intro newest hnewest
    rw [bytesOf_withSize, hcleared]
    exact sizesOf_clearDirectories fun name hname =>
      hother name ((hnewest.map EventDir.name).subset hname)
  unfold applyCapacityLimit
  rw [if_pos hlimit]
  refine Answers.bind (measure_answers kept) ?_
  refine Prog.wp_mono (fun _ h => h) ?_ (fun _ _ h => h)
    (sweepByCapacity_ends policy.maxCapacityBytes (kept.map (withSize s₁.disk)) s₁)
  rintro _ s₂ ⟨removed, rest, hrest, hcleared', hfits, hlongest⟩
  obtain ⟨first, last, rfl, rfl, rfl⟩ := List.map_eq_append_iff.mp hrest
  rw [names_withSize] at hcleared'
  refine ⟨old.map EventDir.name ++ first.map EventDir.name,
    last.map EventDir.name, ?_⟩
  constructor
  case all => simpa using hnames
  case cleared => rw [hcleared', hcleared, clearDirectories_append]
  case fits =>
    rw [← hsizes (List.suffix_append _ _)]
    exact hfits
  case suffix =>
    rw [hleft]
    exact (List.suffix_append _ _).map _
  case longest =>
    intro newest hnewest hsmall
    rw [hleft] at hnewest
    obtain ⟨front, hfront⟩ := hnewest
    obtain ⟨dirs, newest, hdirs, rfl, rfl⟩ := List.map_eq_append_iff.mp hfront.symm
    have hsuffix : newest <:+ first ++ last := ⟨dirs, hdirs.symm⟩
    rw [← hsizes hsuffix] at hsmall
    have hshort := (hlongest _ (hsuffix.map _) hsmall).map EventDir.name
    rwa [names_withSize, names_withSize] at hshort

theorem enforceRetention_swept {policy : Policy} (hlisting : Lists s.disk listing)
    (hlimit : 0 < policy.maxCapacityBytes) :
    Ends codec listing systemNow (fun _ s' => ∃ gone rest,
      Swept policy listing systemNow s.disk s'.disk gone rest)
      (enforceRetention policy true) s := by
  unfold enforceRetention
  rw [if_neg (by simp; omega)]
  intro now s₁ hnow
  obtain rfl : s₁ = s := hnow
  refine ⟨trivial, fun last s₂ hlast => ⟨trivial, ?_⟩⟩
  obtain rfl : s₂ = s₁ := hlast.2
  -- The condition of the early return is false, as the sweep is forced.
  intro _ s₃ hset
  obtain rfl : s₃ = { s₂ with lastSweep := now } := hset
  refine ⟨trivial, ?_⟩
  exact @sweep_swept codec listing systemNow { s₂ with lastSweep := now }
    policy hlisting hlimit

end Runs

/-! ## The limit and the whole root -/

theorem mem_eventDirectories {disk : FileSystem} {name : Text} :
    name ∈ eventDirectories disk ↔ isEventDirectory disk name = true := by
  rw [eventDirectories, List.mem_filter, mem_subdirectories]
  refine ⟨And.right, fun h => ⟨?_, h⟩⟩
  rw [isEventDirectory, Bool.and_eq_true] at h
  exact h.1

theorem nodup_eventDirectories (disk : FileSystem) :
    (eventDirectories disk).Nodup :=
  (nodup_subdirectories disk).filter _

section Limit

variable {policy : Policy} {listing : List Text} {systemNow : Int}
  {disk disk' : FileSystem} {gone rest : List Text}

theorem Swept.mem_gone_or_rest (h : Swept policy listing systemNow disk disk' gone
    rest) (hlisting : Lists disk listing) {name : Text} :
    deletable policy disk name = true ↔ name ∈ gone ∨ name ∈ rest := by
  rw [← List.mem_append, h.all.mem_iff, List.mem_filter, hlisting.2]
  refine ⟨fun hdeletable => ⟨?_, hdeletable⟩, And.right⟩
  simp only [deletable, isEventDirectory, Bool.and_eq_true] at hdeletable
  exact hdeletable.1.1

theorem Swept.disjoint (h : Swept policy listing systemNow disk disk' gone rest)
    (hlisting : Lists disk listing) {name : Text} (hrest : name ∈ rest) :
    name ∉ gone := fun hgone =>
  (List.nodup_append.mp (h.all.nodup_iff.mpr (hlisting.1.filter _))).2.2 name
    hgone name hrest rfl

theorem Swept.isEventDirectory_iff
    (h : Swept policy listing systemNow disk disk' gone rest) {name : Text} :
    isEventDirectory disk' name = true ↔
      isEventDirectory disk name = true ∧ name ∉ gone := by
  rw [h.cleared]
  by_cases hgone : name ∈ gone
  · simp [isEventDirectory, isDir_clearDirectories disk hgone, hgone]
  · simp [(sameBelow_clearDirectories disk hgone).isEventDirectory, hgone]

theorem Swept.deletable_iff
    (h : Swept policy listing systemNow disk disk' gone rest)
    (hlisting : Lists disk listing) {name : Text} :
    deletable policy disk' name = true ↔ name ∈ rest := by
  have hmem := @Swept.mem_gone_or_rest _ _ _ _ _ _ _ h hlisting name
  rw [deletable, Bool.and_eq_true, h.isEventDirectory_iff]
  by_cases hgone : name ∈ gone
  · have hrest : name ∉ rest := fun hrest => h.disjoint hlisting hrest hgone
    simp [hgone, hrest]
  · rw [h.cleared, (sameBelow_clearDirectories disk hgone).removable]
    rw [deletable, Bool.and_eq_true] at hmem
    simpa [hgone] using hmem

theorem Swept.sizesOf_eventDirectories
    (h : Swept policy listing systemNow disk disk' gone rest)
    (hlisting : Lists disk listing) :
    sizesOf disk' (eventDirectories disk') =
      sizesOf disk rest + protectedBytes policy disk := by
  have hkept : ∀ name ∈ rest ++ (eventDirectories disk).filter
      (fun name => !removable policy disk name), name ∉ gone := by
    intro name hname
    rcases List.mem_append.mp hname with hname | hname
    · exact h.disjoint hlisting hname
    · intro hgone
      have hdeletable := (h.mem_gone_or_rest hlisting).mpr (.inl hgone)
      have hnot := (List.mem_filter.mp hname).2
      rw [deletable, Bool.and_eq_true] at hdeletable
      rw [hdeletable.2] at hnot
      cases hnot
  have hperm : (eventDirectories disk').Perm (rest ++ (eventDirectories
      disk).filter fun name => !removable policy disk name) := by
    have hnodup : (rest ++ (eventDirectories disk).filter fun name =>
        !removable policy disk name).Nodup := by
      refine List.nodup_append.mpr ⟨(List.nodup_append.mp (h.all.nodup_iff.mpr
        (hlisting.1.filter _))).2.1, (nodup_eventDirectories disk).filter _, ?_⟩
      rintro name hname _ hother rfl
      have hdeletable := (h.mem_gone_or_rest hlisting).mpr (.inr hname)
      have hnot := (List.mem_filter.mp hother).2
      rw [deletable, Bool.and_eq_true] at hdeletable
      rw [hdeletable.2] at hnot
      cases hnot
    rw [List.perm_ext_iff_of_nodup (nodup_eventDirectories disk') hnodup]
    intro name
    rw [mem_eventDirectories, h.isEventDirectory_iff, List.mem_append,
      List.mem_filter, mem_eventDirectories]
    have hmem := @Swept.mem_gone_or_rest _ _ _ _ _ _ _ h hlisting name
    rw [deletable, Bool.and_eq_true] at hmem
    constructor
    · rintro ⟨hevent, hgone⟩
      by_cases hremovable : removable policy disk name = true
      · exact .inl ((hmem.mp ⟨hevent, hremovable⟩).resolve_left hgone)
      · exact .inr ⟨hevent, by simpa using hremovable⟩
    · rintro (hrest | ⟨hevent, hnot⟩)
      · exact ⟨(hmem.mpr (.inr hrest)).1, h.disjoint hlisting hrest⟩
      · refine ⟨hevent, fun hgone => ?_⟩
        rw [(hmem.mpr (.inl hgone)).2] at hnot
        cases hnot
  have htotal : sizesOf disk' (eventDirectories disk') =
      sizesOf disk' (rest ++ (eventDirectories disk).filter fun name =>
        !removable policy disk name) := (hperm.map _).sum_nat
  rw [htotal, h.cleared, sizesOf_clearDirectories hkept, sizesOf,
    List.map_append, List.sum_append]
  rfl

theorem Swept.kept_iff
    (h : Swept policy listing systemNow disk disk' gone rest)
    (hlisting : Lists disk listing) :
    CapacityKept policy disk' ↔
      rest = [] ∨ sizesOf disk rest + protectedBytes policy disk ≤
        policy.maxCapacityBytes := by
  rw [CapacityKept, h.sizesOf_eventDirectories hlisting, or_comm]
  refine or_congr_left ?_
  rw [List.eq_nil_iff_forall_not_mem]
  refine forall_congr' fun name => ?_
  rw [← h.deletable_iff hlisting, Bool.not_eq_true]

theorem sizesOf_suffix {names names' : List Text} (h : names <:+ names') :
    sizesOf disk names ≤ sizesOf disk names' := by
  obtain ⟨front, rfl⟩ := h
  rw [sizesOf, sizesOf, List.map_append, List.sum_append]
  exact Nat.le_add_left _ _

end Limit

/--
The root ends within the limit, or with nothing left to delete, exactly when
every newest part of the deletable directories that fits the limit also fits it
together with the protected ones.
-/
theorem capacityKept_iff {codec : Codec} {listing : List Text}
    {systemNow : Int} {policy : Policy} {s s' : Store}
    (hlisting : Lists s.disk listing) (hlimit : 0 < policy.maxCapacityBytes)
    (hrun : Prog.Exec (Undisturbed codec listing systemNow) s
      (enforceRetention policy true) s' (.ret ())) :
    CapacityKept policy s'.disk ↔
      ∀ newest, newest <:+ leftByAge policy s.disk listing systemNow →
        newest ≠ [] → sizesOf s.disk newest ≤ policy.maxCapacityBytes →
        sizesOf s.disk newest + protectedBytes policy s.disk ≤
          policy.maxCapacityBytes := by
  obtain ⟨-, gone, rest, hswept⟩ := Prog.wp_exec hrun trivial
    (enforceRetention_swept hlisting hlimit)
  rw [hswept.kept_iff hlisting]
  constructor
  · intro hkept newest hnewest hne hfits
    have hshort := hswept.longest newest hnewest hfits
    have hrest : rest ≠ [] := fun hnil => by
      rw [hnil] at hshort
      exact hne (List.suffix_nil.mp hshort)
    have hsize := @sizesOf_suffix s.disk _ _ hshort
    have hall := hkept.resolve_left hrest
    omega
  · intro hcondition
    by_cases hrest : rest = []
    · exact .inl hrest
    · exact .inr (hcondition rest hswept.suffix hrest hswept.fits)

/-! ### Two runs -/

def respondUndisturbed (codec : Codec) (listing : List Text) (systemNow : Int)
    (s : Store) : (op : FsOp) → Option (op.Res × Store)
  | .listDirectories => some ((listing, true), s)
  | .systemNow => some (systemNow, s)
  | op => s.respond codec op

theorem undisturbed_respond {codec : Codec} {listing : List Text}
    {systemNow : Int} {s s' : Store} {op : FsOp} {r : op.Res}
    (h : respondUndisturbed codec listing systemNow s op = some (r, s')) :
    Undisturbed codec listing systemNow s op r s' := by
  cases op with
  | «exists» path => cases h; exact ⟨rfl, rfl⟩
  | listDirectories => cases h; exact ⟨rfl, rfl⟩
  | listFiles directory =>
      cases h
      exact ⟨rfl, nodup_filesBelow _ _, fun _ => isFile_of_mem_filesBelow⟩
  | fileSize path => cases h; exact ⟨rfl, rfl⟩
  | removeAll path => cases h; exact ⟨rfl, rfl⟩
  | systemNow => cases h; exact ⟨rfl, rfl⟩
  | _ => exact @effect_respond codec s s' _ r h

/-- An event directory with one marker and one file of records. -/
def addDirectory (disk : FileSystem) (name marker : Text) (size : Nat) :
    FileSystem :=
  ((((disk.mkdirs [name]).getD disk).create [name, marker]).create
    [name, "records"]).append [name, "records"] (List.replicate size 0)

def smallPolicy : Policy where
  minFreeBytes := 0
  maxCapacityBytes := 5
  retentionDays := 0
  cleanupSeconds := 60
  protectUnuploaded := false

def noCodec : Codec := ⟨fun _ => [], fun _ bytes => bytes⟩

def finishedRoot : FileSystem :=
  addDirectory (addDirectory .blank "a_0_100000001" ".complete" 3)
    "c_0_100000003" ".complete" 3

/-- A third directory is still being written. -/
def mixedRoot : FileSystem :=
  addDirectory finishedRoot "b_0_100000002" ".pending" 4

theorem lists_subdirectories (disk : FileSystem) :
    Lists disk (subdirectories disk) :=
  ⟨nodup_subdirectories disk, fun _ => mem_subdirectories⟩

theorem capacityKept_finishedRoot :
    ∃ s', Prog.Exec (Undisturbed noCodec (subdirectories finishedRoot) 0)
        ⟨finishedRoot, 0⟩ (enforceRetention smallPolicy true) s' (.ret ()) ∧
      CapacityKept smallPolicy s'.disk := by
  obtain ⟨value, s', hrun, -⟩ := @Prog.exec_of_passes _ _ _ _ _
    (Undisturbed noCodec (subdirectories finishedRoot) 0)
    (respondUndisturbed noCodec (subdirectories finishedRoot) 0)
    (fun _ _ _ _ => undisturbed_respond) (fun _ _ => true)
    (enforceRetention smallPolicy true) ⟨finishedRoot, 0⟩ (by decide +kernel)
  have hprotected : protectedBytes smallPolicy finishedRoot = 0 := by
    decide +kernel
  refine ⟨s', hrun, (capacityKept_iff (lists_subdirectories finishedRoot)
    (by decide) hrun).mpr fun newest _ _ hfits => ?_⟩
  rw [hprotected]
  exact hfits

/-- What is being written fills the root while a finished event is left. -/
theorem root_over_limit_with_deletable :
    ¬∀ (codec : Codec) (listing : List Text) (systemNow : Int)
      (policy : Policy) (s s' : Store), Lists s.disk listing →
      0 < policy.maxCapacityBytes →
      Prog.Exec (Undisturbed codec listing systemNow) s
        (enforceRetention policy true) s' (.ret ()) →
      CapacityKept policy s'.disk := by
  intro h
  obtain ⟨value, s', hrun, hcheck⟩ := @Prog.exec_of_passes _ _ _ _ _
    (Undisturbed noCodec (subdirectories mixedRoot) 0)
    (respondUndisturbed noCodec (subdirectories mixedRoot) 0)
    (fun _ _ _ _ => undisturbed_respond)
    (fun _ s' => decide (5 < sizesOf s'.disk (eventDirectories s'.disk)) &&
      deletable smallPolicy s'.disk "c_0_100000003")
    (enforceRetention smallPolicy true) ⟨mixedRoot, 0⟩ (by decide +kernel)
  rw [Bool.and_eq_true, decide_eq_true_eq] at hcheck
  rcases h noCodec _ 0 smallPolicy ⟨mixedRoot, 0⟩ s'
    (lists_subdirectories mixedRoot) (by decide) hrun with hsmall | hnone
  · exact absurd hcheck.1 (not_lt.mpr hsmall)
  · rw [hnone] at hcheck
    exact absurd hcheck.2 Bool.false_ne_true

end DataCache.Storage
