import DataCache.Foundation.Lexical
import DataCache.Foundation.Utf8
import DataCache.Receiver.Names

/-!
# The two path validators

The reader's own validator walks the components of a `std::filesystem::path`,
the receiver's splits a Python string.  On the paths both can be given they
accept the same ones, and neither lets a path out of its base directory.
-/

namespace DataCache.RecordIo

open DataCache.Foundation DataCache.Receiver

/-! ## Paths as POSIX reads them -/

def isAbsolute (path : Bytes) : Bool := path.head? == some (byteOf '/')

/--
The components an iterator visits: the root directory, the names between
slashes, and an empty one after a slash at the end.
-/
def components (path : Bytes) : List Bytes :=
  let pieces := path.splitOn (byteOf '/')
  let names := pieces.dropLast.filter (· ≠ [])
  let last := pieces.getLastD []
  (if isAbsolute path then [ascii "/"] else []) ++ names ++
    (if last.isEmpty && names.isEmpty then [] else [last])

/-- A name without a slash is a path of one component. -/
theorem components_of_name {name : Bytes} (hslash : byteOf '/' ∉ name)
    (hne : name ≠ []) :
    isAbsolute name = false ∧ components name = [name] := by
  have habsolute : isAbsolute name = false := by
    simp only [isAbsolute, beq_eq_false_iff_ne, ne_eq]
    exact fun hhead => hslash (List.mem_of_head? hhead)
  refine ⟨habsolute, ?_⟩
  simp [components, habsolute, List.splitOn_eq_singleton hslash, hne]

def kMaxRecordBytes : Nat := 2 ^ 30

def kWindowsDevices : List Bytes :=
  (["CON", "PRN", "AUX", "NUL", "COM1", "COM2", "COM3", "COM4", "COM5",
    "COM6", "COM7", "COM8", "COM9", "LPT1", "LPT2", "LPT3", "LPT4", "LPT5",
    "LPT6", "LPT7", "LPT8", "LPT9"] : List String).map ascii

def isUnsafeComponent (text : Bytes) : Bool :=
  text.isEmpty || text == ascii "." || text == ascii ".." ||
    text.contains (byteOf ':') || text.contains (byteOf '\\') ||
    text.getLast? == some (byteOf '.') || text.getLast? == some (byteOf ' ') ||
    kWindowsDevices.contains
      ((text.takeWhile (· != byteOf '.')).map upperByte)

/-- A POSIX path has no root name. -/
def safeRelativePath (path : Bytes) : Bool :=
  if path.isEmpty || isAbsolute path then false
  else !(components path).any isUnsafeComponent

/-! ## Joining -/

def nameKind (name : Bytes) : Segment :=
  if name = [] || name = ascii "." || name = ascii "/" then .here
  else if name = ascii ".." then .up
  else .down

/-- `operator/`: an absolute right side replaces the left one. -/
def appendPath (base : Place Bytes) (path : Bytes) : Place Bytes :=
  base.join ⟨isAbsolute path, components path⟩

def partKind (name : Text) : Segment :=
  if name = [] || name = ['.'] then .here
  else if name = ['.', '.'] then .up
  else .down

/-- `PurePath.joinpath`: each part may hold several names or be absolute. -/
def joinpath (base : Place Text) (parts : List Text) : Place Text :=
  parts.foldl (fun place part =>
    place.join ⟨part.head? == some '/',
      (splitPath part).filter fun name =>
        decide (name ≠ [] ∧ name ≠ ['.'])⟩) base

/-! ## Agreement -/

theorem kWindowsDevices_eq : kWindowsDevices = windowsDeviceNames.map encodeUtf8 :=
  rfl

theorem contains_encodeUtf8 {c : Char} (hc : IsAscii c) (text : Text) :
    (encodeUtf8 text).contains (byteOf c) = text.contains c := by
  rw [Bool.eq_iff_iff]
  simp [byteOf_mem_encodeUtf8 hc]

theorem beq_encodeUtf8 (first second : Text) :
    (encodeUtf8 first == encodeUtf8 second) = (first == second) := by
  rw [Bool.eq_iff_iff]
  simp [encodeUtf8_injective.eq_iff]

theorem getLast?_beq_encodeUtf8 {c : Char} (hc : IsAscii c) (text : Text) :
    ((encodeUtf8 text).getLast? == some (byteOf c)) =
      (text.getLast? == some c) := by
  rw [Bool.eq_iff_iff]
  simp [getLast?_encodeUtf8 hc]

theorem kWindowsDevices_contains (stem : Text) :
    kWindowsDevices.contains ((encodeUtf8 stem).map upperByte) =
      windowsDeviceNames.contains (upper stem) := by
  rw [kWindowsDevices_eq, map_upperByte_encodeUtf8, Bool.eq_iff_iff]
  simp only [List.contains_iff_mem]
  exact List.mem_map_of_injective encodeUtf8_injective

theorem isUnsafeComponent_encodeUtf8 {part : Text} (h : '\\' ∉ part) :
    isUnsafeComponent (encodeUtf8 part) = isUnsafePart part := by
  have hempty : (encodeUtf8 part).isEmpty = (part == []) := by
    rw [Bool.eq_iff_iff]
    simp
  have hparts : ([[], ".", ".."] : List Text).contains part =
      (part == [] || part == ".".toList || part == "..".toList) := by
    rw [Bool.eq_iff_iff]
    simp [or_assoc]
  have hslash : part.contains '\\' = false := by simpa using h
  unfold isUnsafeComponent isUnsafePart
  rw [hempty, hparts, ascii, ascii, beq_encodeUtf8, beq_encodeUtf8,
    contains_encodeUtf8 (by decide), contains_encodeUtf8 (by decide), hslash,
    getLast?_beq_encodeUtf8 (by decide), getLast?_beq_encodeUtf8 (by decide),
    takeWhile_encodeUtf8 (by decide), kWindowsDevices_contains]
  simp [Bool.or_assoc]

theorem isAbsolute_encodeUtf8 (path : Text) :
    isAbsolute (encodeUtf8 path) = (path.head? == some '/') := by
  rw [isAbsolute, Bool.eq_iff_iff]
  simp [head?_encodeUtf8 (show IsAscii '/' by decide)]

/-- A path without empty components is neither empty nor absolute. -/
theorem head?_ne_slash {path : Text} (h : [] ∉ splitPath path) :
    path ≠ [] ∧ path.head? ≠ some '/' := by
  cases path with
  | nil => simp [splitPath] at h
  | cons c path =>
      refine ⟨by simp, ?_⟩
      simp only [List.head?_cons, ne_eq, Option.some.injEq]
      rintro rfl
      simp [splitPath, List.splitOn_cons_eq_if_modifyHead] at h

theorem components_encodeUtf8 {path : Text} (h : [] ∉ splitPath path) :
    components (encodeUtf8 path) = (splitPath path).map encodeUtf8 := by
  have hhead := (head?_ne_slash h).2
  have habsolute : isAbsolute (encodeUtf8 path) = false := by
    rw [isAbsolute_encodeUtf8]
    simpa using hhead
  have hpieces : (encodeUtf8 path).splitOn (byteOf '/') =
      (splitPath path).map encodeUtf8 := splitOn_encodeUtf8 (by decide) path
  have hne := splitPath_ne_nil path
  obtain ⟨front, last, hsplit⟩ : ∃ front last, splitPath path = front ++ [last] :=
    ⟨_, _, (List.dropLast_append_getLast hne).symm⟩
  rw [hsplit] at h hpieces
  have hlast : last ≠ [] := fun heq => h (by simp [heq])
  have hfront : (front.map encodeUtf8).filter (· ≠ []) =
      front.map encodeUtf8 := by
    refine List.filter_eq_self.mpr fun name hname => ?_
    obtain ⟨part, hpart, rfl⟩ := List.mem_map.mp hname
    simp only [ne_eq, encodeUtf8_eq_nil, decide_eq_true_eq]
    rintro rfl
    exact h (by simp [hpart])
  unfold components
  simp only [hpieces, hsplit, List.map_append, List.map_cons, List.map_nil,
    List.dropLast_concat, hfront, habsolute]
  simp [hlast]

theorem startsWithDrive_unsafe {path : Text} (h : startsWithDrive path = true) :
    (splitPath path).any isUnsafePart = true := by
  unfold startsWithDrive at h
  split at h
  · next letter rest =>
      have hletter : ¬ letter = '/' := by
        rintro rfl
        exact absurd h (by decide)
      simp only [splitPath, List.splitOn_cons_eq_if_modifyHead, beq_iff_eq,
        hletter, if_false]
      cases hsplit : List.splitOn '/' rest with
      | nil => simp at hsplit
      | cons head tail => simp [isUnsafePart]
  · cases h

theorem safeRelativePath_encodeUtf8 {path : Text}
    (hlength : path.length ≤ maxRelativePath) (hnul : '\x00' ∉ path)
    (hslash : '\\' ∉ path) (hcomponents : [] ∉ splitPath path) :
    safeRelativePath (encodeUtf8 path) = (safeRelative path).isSome := by
  obtain ⟨hne, hhead⟩ := head?_ne_slash hcomponents
  have hparts : ((splitPath path).map encodeUtf8).any isUnsafeComponent =
      (splitPath path).any isUnsafePart := by
    rw [List.any_map, Bool.eq_iff_iff]
    simp only [List.any_eq_true, Function.comp_apply]
    refine exists_congr fun part => and_congr_right fun hpart => ?_
    rw [isUnsafeComponent_encodeUtf8 fun hmem =>
      hslash (mem_of_mem_splitOn hpart hmem)]
  have hlong : ¬ path.length > maxRelativePath := by omega
  have habsolute : (path.head? == some '/') = false := by simpa using hhead
  have hnulls : path.contains '\x00' = false := by simpa using hnul
  have hempty : path.isEmpty = false := by simpa using hne
  unfold safeRelativePath safeRelative
  rw [isAbsolute_encodeUtf8, components_encodeUtf8 hcomponents, hparts,
    if_neg hlong, normalizeSlashes_eq_self hslash]
  cases hdrive : startsWithDrive path with
  | true => simp [hempty, habsolute, hdrive, startsWithDrive_unsafe hdrive]
  | false =>
      simp only [hnulls, hempty, habsolute, hdrive]
      cases (splitPath path).any isUnsafePart <;> simp [hne]

/-! ## Confinement -/

theorem nameKind_of_safe {name : Bytes} (h : isUnsafeComponent name = false)
    (hslash : byteOf '/' ∉ name) : nameKind name = .down := by
  simp only [isUnsafeComponent, Bool.or_eq_false_iff, beq_eq_false_iff_ne,
    List.isEmpty_eq_false_iff] at h
  obtain ⟨⟨⟨⟨⟨⟨⟨hempty, hdot⟩, hdots⟩, -⟩, -⟩, -⟩, -⟩, -⟩ := h
  have hroot : name ≠ ascii "/" := by
    rintro rfl
    exact hslash (by decide)
  simp [nameKind, hempty, hdot, hdots, hroot]

theorem slash_not_mem_components {path name : Bytes}
    (hrelative : isAbsolute path = false) (h : name ∈ components path) :
    byteOf '/' ∉ name := by
  have hne : path.splitOn (byteOf '/') ≠ [] := List.splitOn_ne_nil _ _
  have hlast : (path.splitOn (byteOf '/')).getLastD [] ∈
      path.splitOn (byteOf '/') := by
    rw [List.getLastD_eq_getLast?, List.getLast?_eq_some_getLast hne]
    exact List.getLast_mem hne
  simp only [components, hrelative, Bool.false_eq_true, if_false,
    List.nil_append, List.mem_append, List.mem_filter] at h
  rcases h with ⟨hfront, -⟩ | h
  · exact not_mem_of_mem_splitOn (List.dropLast_subset _ hfront)
  · split at h
    · cases h
    · rw [List.mem_singleton.mp h]
      exact not_mem_of_mem_splitOn hlast

/-- The first piece of a relative path is a name. -/
theorem components_ne_nil {path : Bytes} (h : path ≠ [])
    (hrelative : isAbsolute path = false) : components path ≠ [] := by
  cases path with
  | nil => exact absurd rfl h
  | cons c path =>
      have hc : ¬ (c == byteOf '/') = true := by
        simpa [isAbsolute] using hrelative
      cases hsplit : path.splitOn (byteOf '/') with
      | nil => simp at hsplit
      | cons head tail =>
          have hpieces : (c :: path).splitOn (byteOf '/') = (c :: head) :: tail := by
            rw [List.splitOn_cons_eq_if_modifyHead, if_neg hc, hsplit]
            rfl
          cases tail with
          | nil => simp [components, hpieces, hrelative]
          | cons next tail => simp [components, hpieces, hrelative]

theorem safeRelativePath_eq_true {path : Bytes}
    (h : safeRelativePath path = true) :
    path ≠ [] ∧ isAbsolute path = false ∧
      ∀ name ∈ components path, isUnsafeComponent name = false := by
  unfold safeRelativePath at h
  split at h
  · cases h
  · next hcond =>
      simp only [Bool.or_eq_true, List.isEmpty_iff, not_or] at hcond
      refine ⟨hcond.1, by simpa using hcond.2, ?_⟩
      simpa using h

theorem safeRelativePath_below {path : Bytes} (h : safeRelativePath path = true)
    (base : Place Bytes) :
    base.StrictlyBelow nameKind (appendPath base path) := by
  obtain ⟨hne, hrelative, hsafe⟩ := safeRelativePath_eq_true h
  have hdown : ∀ name ∈ components path, nameKind name = .down :=
    fun name hname => nameKind_of_safe (hsafe name hname)
      (slash_not_mem_components hrelative hname)
  rw [appendPath, Place.join, hrelative]
  exact Place.strictlyBelow_append nameKind base
    (components_ne_nil hne hrelative) hdown

theorem partKind_of_safe {part : Text} (h : isUnsafePart part = false) :
    partKind part = .down ∧ part ≠ [] ∧ part ≠ ['.'] := by
  simp only [isUnsafePart, Bool.or_eq_false_iff] at h
  obtain ⟨⟨⟨⟨hdots, -⟩, -⟩, -⟩, -⟩ := h
  simp only [List.contains_cons, List.contains_nil, Bool.or_eq_false_iff,
    beq_eq_false_iff_ne] at hdots
  obtain ⟨hempty, hdot, hdots, -⟩ := hdots
  have hdot : part ≠ ['.'] := hdot
  have hdots : part ≠ ['.', '.'] := hdots
  simp [partKind, hempty, hdot, hdots]

/-- Parts without slashes are joined one name at a time. -/
theorem joinpath_of_safe {parts : List Text}
    (hsafe : ∀ part ∈ parts, isUnsafePart part = false)
    (hslash : ∀ part ∈ parts, '/' ∉ part) (base : Place Text) :
    joinpath base parts = { base with names := base.names ++ parts } := by
  induction parts generalizing base with
  | nil => simp [joinpath]
  | cons part parts ih =>
      obtain ⟨-, hne, hdot⟩ := partKind_of_safe (hsafe part (by simp))
      have hnot : '/' ∉ part := hslash part (by simp)
      have hhead : (part.head? == some '/') = false := by
        simp only [beq_eq_false_iff_ne, ne_eq]
        exact fun heq => hnot (List.mem_of_head? heq)
      have hsplit : splitPath part = [part] := List.splitOn_eq_singleton hnot
      have hrest := ih (fun other hother => hsafe other (by simp [hother]))
        (fun other hother => hslash other (by simp [hother]))
      have hfirst : base.join ⟨part.head? == some '/',
          (splitPath part).filter fun name =>
            decide (name ≠ [] ∧ name ≠ ['.'])⟩ =
          { base with names := base.names ++ [part] } := by
        rw [Place.join, hhead, hsplit]
        simp [hne, hdot]
      rw [joinpath, List.foldl_cons, hfirst, ← joinpath, hrest]
      simp

theorem safeRelative_below {path : Text} {parts : List Text}
    (h : safeRelative path = some parts) (base : Place Text) :
    base.StrictlyBelow partKind (joinpath base parts) := by
  obtain ⟨hparts, hsafe⟩ := safeRelative_eq_some h
  have hslash : ∀ part ∈ parts, '/' ∉ part := by
    rw [hparts]
    exact fun part hpart => slash_not_mem_splitPath hpart
  have hne : parts ≠ [] := by
    rw [hparts]
    exact splitPath_ne_nil _
  rw [joinpath_of_safe hsafe hslash]
  exact Place.strictlyBelow_append partKind base hne
    fun part hpart => (partKind_of_safe (hsafe part hpart)).1

/-! ## Both together -/

/--
On the paths both validators can be given they agree, the receiver's parts are
the path's components, and what either accepts stays below every base.
-/
theorem validators_agree_and_confine :
    (∀ path : Text, path.length ≤ maxRelativePath → '\x00' ∉ path →
      '\\' ∉ path → [] ∉ splitPath path →
        (safeRelativePath (encodeUtf8 path) = true ↔
          (safeRelative path).isSome = true) ∧
        ∀ parts, safeRelative path = some parts → parts = splitPath path) ∧
    (∀ (path : Bytes) (base : Place Bytes), safeRelativePath path = true →
      base.StrictlyBelow nameKind (appendPath base path)) ∧
    (∀ (path : Text) (parts : List Text) (base : Place Text),
      safeRelative path = some parts →
        base.StrictlyBelow partKind (joinpath base parts)) := by
  refine ⟨fun path hlength hnul hslash hcomponents => ⟨?_, ?_⟩, ?_, ?_⟩
  · rw [safeRelativePath_encodeUtf8 hlength hnul hslash hcomponents]
  · intro parts hparts
    rw [(safeRelative_eq_some hparts).1, normalizeSlashes_eq_self hslash]
  · exact fun path base h => safeRelativePath_below h base
  · exact fun path parts base h => safeRelative_below h base

end DataCache.RecordIo
