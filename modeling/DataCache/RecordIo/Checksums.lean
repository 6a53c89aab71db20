import DataCache.RecordIo.Paths
import DataCache.Foundation.Lines
import DataCache.Storage.Rounds

/-!
# The checksum manifest and its verifier

The worker lists the digests of an event's files; the verifier reads the list,
looks at the files it finds, and accepts when neither differs from the other.
-/

namespace DataCache.RecordIo

open DataCache.Foundation DataCache.Storage

/-! ## Names of files -/

/-- A file name's extension, for any kind of character. -/
def extensionBy {α : Type*} [DecidableEq α] (dot : α) (name : List α) : List α :=
  let tail := (name.reverse.takeWhile fun c => decide (c ≠ dot)).reverse
  if tail.length = name.length || tail.length + 1 = name.length ||
      name = [dot, dot] then []
  else dot :: tail

/-- The files that both traversals keep. -/
def isChecked (path : List Bytes) : Bool :=
  let name := path.getLastD []
  name != ascii "manifest.sha256" &&
    (name.isEmpty || name.head? != some (byteOf '.')) &&
    extensionBy (byteOf '.') name != ascii ".tmp"

def genericString (path : List Bytes) : Bytes := [byteOf '/'].intercalate path

/-! ## The verifier -/

/--
A directory as the verifier finds it: the regular files of its traversal, and
what opening any path reads, through symbolic links where there are some.
-/
structure Tree where
  files : List (List Bytes)
  nodup : files.Nodup
  named : ∀ path ∈ files, path ≠ [] ∧
    ∀ name ∈ path, name ≠ [] ∧ byteOf '/' ∉ name
  content : List Bytes → Option Bytes
  traversed : Bool

def Tree.checked (tree : Tree) : List (List Bytes) := tree.files.filter isChecked

/-- `std::string::find`. -/
def find (wanted : Bytes) : Bytes → Option Nat
  | [] => if wanted.isEmpty then some 0 else none
  | c :: rest =>
      if wanted.isPrefixOf (c :: rest) then some 0
      else (find wanted rest).map (· + 1)

def isHex (digest : Bytes) : Bool :=
  digest.all fun byte => (ascii "0123456789abcdef").contains byte

abbrev Expected := Dict Bytes Bytes

def readChecksumLine (lineNumber : Nat) (line : Bytes)
    (expected : Expected) : Except Bytes Expected :=
  if find (ascii "  ") line ≠ some 64 || line.length ≤ 66 then
    .error (ascii "manifest.sha256 line " ++ encodeUtf8 (showNat lineNumber) ++
      ascii ": malformed entry")
  else
    let digest := line.take 64
    let relative := line.drop 66
    if !isHex digest || !safeRelativePath relative ||
        expected.contains relative then
      .error (ascii "manifest.sha256 line " ++ encodeUtf8 (showNat lineNumber) ++
        ascii ": invalid path or digest")
    else .ok (expected.set relative digest)

def readChecksums : List Bytes → Nat → Expected → List Bytes →
    Expected × List Bytes
  | [], _, expected, problems => (expected, problems)
  | line :: rest, lineNumber, expected, problems =>
      match readChecksumLine (lineNumber + 1) line expected with
      | .error problem =>
          readChecksums rest (lineNumber + 1) expected (problems ++ [problem])
      | .ok expected => readChecksums rest (lineNumber + 1) expected problems

def digestText (digest : Digest) : Bytes := encodeUtf8 (hexdigest digest)

def sha256File (sha256 : Bytes → Digest) (content : Option Bytes) : Option Bytes :=
  content.map fun bytes => digestText (sha256 bytes)

def digestProblem (sha256 : Bytes → Digest) (tree : Tree) :
    Bytes × Bytes → Option Bytes
  | (relative, wanted) =>
      match sha256File sha256 (tree.content (components relative)) with
      | none => some (ascii "checksum file cannot be read: " ++ relative)
      | some actual =>
          if actual ≠ wanted then some (ascii "sha256 mismatch: " ++ relative)
          else none

def fileSetProblems (tree : Tree) (expected : Expected) : List Bytes :=
  let actualFiles := tree.checked.map genericString
  if !tree.traversed then
    [ascii "cannot traverse event directory for checksum verification"]
  else if actualFiles.length ≠ expected.size then
    [ascii "checksum manifest file set mismatch"]
  else (actualFiles.filter fun relative => !expected.contains relative).map
    fun relative => ascii "checksum manifest missing file: " ++ relative

def verifyChecksumManifest (sha256 : Bytes → Digest) (tree : Tree)
    (problems : List Bytes) : Bool × List Bytes :=
  match tree.content [ascii "manifest.sha256"] with
  | none => (false, problems ++ [ascii "manifest.sha256 missing"])
  | some content =>
      let read := readChecksums (getLines (byteOf '\n') content) 0 .empty problems
      let problems := read.2 ++ read.1.entries.filterMap (digestProblem sha256 tree) ++
        fileSetProblems tree read.1
      (read.1.size != 0 && problems.isEmpty, problems)

/-! ## One filter -/

section Extensions

variable {α : Type*} [DecidableEq α] {dot : α}

/-- A name in front of, at and after its last dot. -/
theorem exists_tail (dot : α) (name : List α) : ∃ front tail,
    name = front ++ tail ∧ dot ∉ tail ∧
      (front = [] ∨ ∃ stem, front = stem ++ [dot]) := by
  induction name with
  | nil => exact ⟨[], [], rfl, by simp, .inl rfl⟩
  | cons c name ih =>
      obtain ⟨front, tail, rfl, htail, rfl | ⟨stem, rfl⟩⟩ := ih
      · by_cases hc : c = dot
        · exact ⟨[c], tail, rfl, htail, .inr ⟨[], by simp [hc]⟩⟩
        · exact ⟨[], c :: tail, rfl, by simp [Ne.symm hc, htail], .inl rfl⟩
      · exact ⟨c :: (stem ++ [dot]), tail, by simp, htail, .inr ⟨c :: stem, by simp⟩⟩

theorem tail_eq {front tail : List α} (htail : dot ∉ tail)
    (hfront : front = [] ∨ ∃ stem, front = stem ++ [dot]) :
    ((front ++ tail).reverse.takeWhile fun c => decide (c ≠ dot)).reverse =
      tail := by
  have hall : ∀ c ∈ tail.reverse, decide (c ≠ dot) = true := by
    intro c hc
    have hne : c ≠ dot := fun heq => htail (by simpa [heq] using hc)
    simpa using hne
  rw [List.reverse_append, List.takeWhile_append_of_pos hall]
  rcases hfront with rfl | ⟨stem, rfl⟩ <;> simp

theorem extensionBy_append {front tail : List α} (htail : dot ∉ tail)
    (hfront : front = [] ∨ ∃ stem, front = stem ++ [dot]) :
    extensionBy dot (front ++ tail) =
      if front = [] ∨ front = [dot] ∨ (front = [dot, dot] ∧ tail = []) then []
      else dot :: tail := by
  have hdots : front ++ tail = [dot, dot] ↔ front = [dot, dot] ∧ tail = [] := by
    constructor
    · intro h
      have hlast : tail = [] := by
        cases hcase : tail.getLast? with
        | none => simpa using hcase
        | some c =>
            have hc : (front ++ tail).getLast? = some c := by simp [hcase]
            have hdot : c = dot := by simpa [h] using hc.symm
            exact absurd (hdot ▸ List.mem_of_getLast? hcase) htail
      exact ⟨by simpa [hlast] using h, hlast⟩
    · rintro ⟨rfl, rfl⟩
      rfl
  have hone : tail.length + 1 = (front ++ tail).length ↔ front = [dot] := by
    rcases hfront with rfl | ⟨stem, rfl⟩
    · simp
    · simp only [List.length_append, List.length_singleton]
      cases stem with
      | nil => simp; omega
      | cons c stem => simp; omega
  have hempty : tail.length = (front ++ tail).length ↔ front = [] := by simp
  unfold extensionBy
  simp only [tail_eq htail hfront, hone, hempty, hdots, Bool.or_eq_true,
    decide_eq_true_eq, or_assoc]

end Extensions

theorem extensionBy_encodeUtf8 (name : Text) :
    extensionBy (byteOf '.') (encodeUtf8 name) = encodeUtf8 (extension name) := by
  obtain ⟨front, tail, rfl, htail, hfront⟩ := exists_tail '.' name
  have hdot : encodeUtf8 ['.'] = [byteOf '.'] := rfl
  have hdots : encodeUtf8 ['.', '.'] = [byteOf '.', byteOf '.'] := rfl
  have htail' : byteOf '.' ∉ encodeUtf8 tail := by
    rwa [byteOf_mem_encodeUtf8 (by decide)]
  have hfront' : encodeUtf8 front = [] ∨
      ∃ stem, encodeUtf8 front = stem ++ [byteOf '.'] := by
    rcases hfront with rfl | ⟨stem, rfl⟩
    · exact .inl rfl
    · exact .inr ⟨encodeUtf8 stem, by rw [encodeUtf8_append, hdot]⟩
  have hname : extension (front ++ tail) = extensionBy '.' (front ++ tail) := rfl
  rw [hname, encodeUtf8_append, extensionBy_append htail hfront,
    extensionBy_append htail' hfront', ← hdots, ← hdot]
  simp only [encodeUtf8_eq_nil, encodeUtf8_injective.eq_iff]
  split
  · rfl
  · rw [encodeUtf8_cons_of_isAscii (by decide)]

theorem head?_ne_encodeUtf8 {c : Char} (hc : IsAscii c) (name : Text) :
    ((encodeUtf8 name).isEmpty || (encodeUtf8 name).head? != some (byteOf c)) =
      (name.head? != some c) := by
  have hhead : (encodeUtf8 name).head? = some (byteOf c) ↔ name.head? = some c := by
    simp [head?_encodeUtf8 hc]
  rw [Bool.eq_iff_iff]
  simp only [Bool.or_eq_true, List.isEmpty_iff, bne_iff_ne, ne_eq, hhead,
    encodeUtf8_eq_nil]
  exact ⟨fun h => h.elim (fun hempty => by simp [hempty]) id, .inr⟩

/-- The verifier's filter is the worker's. -/
theorem isChecked_map_encodeUtf8 (path : Path) :
    isChecked (path.map encodeUtf8) = isCovered path := by
  have hlast : (path.map encodeUtf8).getLastD [] =
      encodeUtf8 (path.getLastD []) := by
    rw [List.getLastD_eq_getLast?, List.getLastD_eq_getLast?, List.getLast?_map]
    cases path.getLast? <;> rfl
  simp only [isChecked, isCovered, hlast, extensionBy_encodeUtf8,
    head?_ne_encodeUtf8 (show IsAscii '.' by decide)]
  simp only [bne, ascii, beq_encodeUtf8]

/-! ## Reading what was written -/

/-- Names as a file system has them, on a path the reader accepts. -/
structure Listable (path : Path) : Prop where
  named : ∀ name ∈ path, name ≠ [] ∧ '/' ∉ name
  safe : safeRelativePath (encodeUtf8 (joinPath path)) = true
  oneLine : '\n' ∉ joinPath path

def relativeOf (path : Path) : Bytes := encodeUtf8 (joinPath path)

theorem encodeUtf8_checksumLine (digest : Digest) (path : Path) :
    encodeUtf8 (checksumLine digest path) =
      (digestText digest ++ ascii "  " ++ relativeOf path) ++ [byteOf '\n'] := by
  simp only [checksumLine, encodeUtf8_append, digestText, relativeOf]
  rfl

theorem digestText_eq (digest : Digest) :
    digestText digest = (hexdigest digest).map byteOf := by
  refine encodeUtf8_map_of_isAscii fun c hc => ?_
  have hascii : ∀ n < 16, IsAscii n.digitChar := by decide
  obtain ⟨n, hn, rfl⟩ := mem_hexdigest hc
  exact hascii n hn

theorem mem_digestText {digest : Digest} {byte : UInt8}
    (h : byte ∈ digestText digest) : ∃ n < 16, byte = byteOf n.digitChar := by
  rw [digestText_eq, List.mem_map] at h
  obtain ⟨c, hc, rfl⟩ := h
  obtain ⟨n, hn, rfl⟩ := mem_hexdigest hc
  exact ⟨n, hn, rfl⟩

theorem length_digestText (digest : Digest) : (digestText digest).length = 64 := by
  rw [digestText_eq, List.length_map, length_hexdigest]

theorem isHex_digestText (digest : Digest) : isHex (digestText digest) = true := by
  have hdigits : ∀ n < 16,
      (ascii "0123456789abcdef").contains (byteOf n.digitChar) = true := by
    decide
  refine List.all_eq_true.mpr fun byte hbyte => ?_
  obtain ⟨n, hn, rfl⟩ := mem_digestText hbyte
  exact hdigits n hn

theorem not_mem_digestText (digest : Digest) :
    byteOf ' ' ∉ digestText digest ∧ byteOf '\n' ∉ digestText digest := by
  have hdigits : ∀ n < 16, byteOf ' ' ≠ byteOf n.digitChar ∧
      byteOf '\n' ≠ byteOf n.digitChar := by
    decide
  constructor <;> intro hmem <;> obtain ⟨n, hn, heq⟩ := mem_digestText hmem
  · exact (hdigits n hn).1 heq
  · exact (hdigits n hn).2 heq

theorem find_append {c : UInt8} {front : Bytes} (h : c ∉ front)
    (wanted rest : Bytes) :
    find (c :: wanted) (front ++ (c :: wanted ++ rest)) = some front.length := by
  induction front with
  | nil => simp [find]
  | cons d front ih =>
      have hd : ¬ c = d := fun heq => h (by simp [heq])
      have hfront := ih fun hmem => h (by simp [hmem])
      rw [List.cons_append, find, hfront]
      simp [hd]

theorem readChecksumLine_written {path : Path} (h : Listable path)
    (digest : Digest) (lineNumber : Nat) {expected : Expected}
    (hfresh : expected.get? (relativeOf path) = none) :
    readChecksumLine lineNumber
      (digestText digest ++ ascii "  " ++ relativeOf path) expected =
        .ok (expected.set (relativeOf path) (digestText digest)) := by
  have hlength := length_digestText digest
  have hne : relativeOf path ≠ [] := (safeRelativePath_eq_true h.safe).1
  have hspaces : ascii "  " = [byteOf ' ', byteOf ' '] := rfl
  have hfind : find (ascii "  ")
      (digestText digest ++ ascii "  " ++ relativeOf path) = some 64 := by
    rw [hspaces, List.append_assoc, ← hlength]
    exact find_append (not_mem_digestText digest).1 _ _
  have hlong : ¬ (digestText digest ++ ascii "  " ++ relativeOf path).length ≤ 66 := by
    have hpos := List.length_pos_iff.mpr hne
    simp only [List.length_append, hlength, hspaces, List.length_cons,
      List.length_nil]
    omega
  have htake : (digestText digest ++ ascii "  " ++ relativeOf path).take 64 =
      digestText digest := by
    rw [List.append_assoc, ← hlength, List.take_left]
  have hdrop : (digestText digest ++ ascii "  " ++ relativeOf path).drop 66 =
      relativeOf path := by
    have hfront : (digestText digest ++ ascii "  ").length = 66 := by
      rw [List.length_append, hlength, hspaces]
      rfl
    rw [← hfront, List.drop_left]
  have hsafe : safeRelativePath (relativeOf path) = true := h.safe
  generalize digestText digest ++ ascii "  " ++ relativeOf path = line at *
  simp [readChecksumLine, hfind, hlong, htake, hdrop, isHex_digestText, hsafe,
    Dict.contains, hfresh]

theorem readChecksums_written (digest : Path → Digest) :
    ∀ (files : List Path) (lineNumber : Nat) {expected : Expected}
      (problems : List Bytes), (∀ path ∈ files, Listable path) →
      (expected.keys ++ files.map relativeOf).Nodup →
      ∃ read : Expected, readChecksums (files.map fun path =>
          digestText (digest path) ++ ascii "  " ++ relativeOf path)
          lineNumber expected problems = (read, problems) ∧
        read.entries = expected.entries ++ files.map fun path =>
          (relativeOf path, digestText (digest path))
  | [], _, expected, _, _, _ => ⟨expected, rfl, by simp⟩
  | path :: rest, lineNumber, expected, problems, hlistable, hnodup => by
      have hfresh : expected.get? (relativeOf path) = none := by
        rw [Dict.get?_eq_none_iff]
        intro hmem
        exact (List.nodup_append.mp hnodup).2.2 _ hmem _ (by simp) rfl
      have hentries : (expected.set (relativeOf path)
          (digestText (digest path))).entries = _ :=
        Dict.entries_set_of_absent hfresh
      have hrest : ((expected.set (relativeOf path)
          (digestText (digest path))).keys ++ rest.map relativeOf).Nodup := by
        simpa [Dict.keys, hentries] using hnodup
      obtain ⟨read, hread, hall⟩ := readChecksums_written digest rest
        (lineNumber + 1) problems
        (fun other hother => hlistable other (by simp [hother])) hrest
      refine ⟨read, ?_, by simp [hall, hentries]⟩
      rw [List.map_cons, readChecksums, readChecksumLine_written
        (hlistable path (by simp)) _ _ hfresh]
      exact hread

/-! ## Two sets of files -/

theorem length_eq_and_subset_iff {α : Type*} {actual expected : List α}
    (hactual : actual.Nodup) (hexpected : expected.Nodup) :
    (actual.length = expected.length ∧ ∀ x ∈ actual, x ∈ expected) ↔
      ∀ x, x ∈ actual ↔ x ∈ expected := by
  constructor
  · rintro ⟨hlength, hsubset⟩ x
    have hperm : actual.Perm expected :=
      (List.subperm_of_subset hactual hsubset).perm_of_length_le hlength.ge
    exact hperm.mem_iff
  · intro h
    exact ⟨((List.perm_ext_iff_of_nodup hactual hexpected).mpr h).length_eq,
      fun x => (h x).mp⟩

theorem mem_map_congr {α β : Type*} {f : α → β} {actual expected : List α}
    (hinj : ∀ a ∈ actual, ∀ b ∈ expected, f a = f b → a = b) :
    (∀ y, y ∈ actual.map f ↔ y ∈ expected.map f) ↔
      ∀ x, x ∈ actual ↔ x ∈ expected := by
  constructor
  · intro h x
    constructor
    · intro hx
      obtain ⟨b, hb, heq⟩ := List.mem_map.mp ((h _).mp (List.mem_map_of_mem hx))
      rwa [hinj x hx b hb heq.symm]
    · intro hx
      obtain ⟨a, ha, heq⟩ := List.mem_map.mp ((h _).mpr (List.mem_map_of_mem hx))
      rwa [← hinj a ha x hx heq]
  · intro h y
    simp only [List.mem_map, h]

theorem genericString_injective {first second : List Bytes}
    (hfirst : first ≠ [] ∧ ∀ name ∈ first, name ≠ [] ∧ byteOf '/' ∉ name)
    (hsecond : second ≠ [] ∧ ∀ name ∈ second, name ≠ [] ∧ byteOf '/' ∉ name)
    (h : genericString first = genericString second) : first = second := by
  have hsplit := fun (path : List Bytes) (hpath : path ≠ [] ∧
      ∀ name ∈ path, name ≠ [] ∧ byteOf '/' ∉ name) =>
    List.splitOn_intercalate (byteOf '/') (fun name hname => (hpath.2 name hname).2)
      hpath.1
  rw [← hsplit first hfirst, ← hsplit second hsecond, ← genericString,
    ← genericString, h]

variable {tree : Tree} {expected : Expected}

theorem Tree.nodup_checked (tree : Tree) :
    (tree.checked.map genericString).Nodup := by
  refine List.Nodup.map_on (fun first hfirst second hsecond h => ?_)
    (tree.nodup.filter _)
  exact genericString_injective (tree.named first (List.mem_of_mem_filter hfirst))
    (tree.named second (List.mem_of_mem_filter hsecond)) h

/-- Equal sizes and one inclusion are enough. -/
theorem fileSetProblems_eq_nil (htraversed : tree.traversed = true) :
    fileSetProblems tree expected = [] ↔
      ∀ relative, relative ∈ tree.checked.map genericString ↔
        relative ∈ expected.keys := by
  have hcontains : ∀ relative, expected.contains relative = true ↔
      relative ∈ expected.keys := by
    intro relative
    rw [Dict.contains_iff, Dict.mem_keys_iff]
  rw [← length_eq_and_subset_iff tree.nodup_checked expected.keys_nodup,
    ← Dict.size_eq_length_keys]
  simp only [fileSetProblems, htraversed, Bool.not_true, Bool.false_eq_true,
    if_false]
  split
  · next hlength => exact iff_of_false (by simp) fun h => hlength h.1
  · next hlength =>
      simp only [List.map_eq_nil_iff, List.filter_eq_nil_iff, Bool.not_eq_true',
        Bool.not_eq_false, hcontains]
      exact (and_iff_right (not_not.mp hlength)).symm

theorem verifyChecksumManifest_iff {sha256 : Bytes → Digest} {content : Bytes}
    (hcontent : tree.content [ascii "manifest.sha256"] = some content)
    (hread : readChecksums (getLines (byteOf '\n') content) 0 .empty [] =
      (expected, [])) :
    (verifyChecksumManifest sha256 tree []).1 = true ↔
      expected.entries ≠ [] ∧
      (∀ entry ∈ expected.entries, digestProblem sha256 tree entry = none) ∧
      fileSetProblems tree expected = [] := by
  simp [verifyChecksumManifest, hcontent, hread, Dict.size]

/-! ## What the verifier finds out -/

theorem Listable.ne_nil {path : Path} (h : Listable path) : path ≠ [] := by
  rintro rfl
  exact (safeRelativePath_eq_true h.safe).1 rfl

theorem Listable.encoded {path : Path} (h : Listable path) :
    path.map encodeUtf8 ≠ [] ∧
      ∀ name ∈ path.map encodeUtf8, name ≠ [] ∧ byteOf '/' ∉ name := by
  refine ⟨by simpa using h.ne_nil, fun name hname => ?_⟩
  obtain ⟨text, htext, rfl⟩ := List.mem_map.mp hname
  rw [ne_eq, encodeUtf8_eq_nil, byteOf_mem_encodeUtf8 (by decide)]
  exact h.named text htext

theorem Listable.splitPath {path : Path} (h : Listable path) :
    splitPath (joinPath path) = path :=
  splitPath_joinPath h.ne_nil fun name hname => (h.named name hname).2

theorem components_relativeOf {path : Path} (h : Listable path) :
    components (relativeOf path) = path.map encodeUtf8 := by
  have hnames : [] ∉ Foundation.splitPath (joinPath path) := by
    rw [h.splitPath]
    exact fun hmem => (h.named [] hmem).1 rfl
  rw [relativeOf, components_encodeUtf8 hnames, h.splitPath]

theorem genericString_map_encodeUtf8 (path : Path) :
    genericString (path.map encodeUtf8) = relativeOf path := by
  have hslash : encodeUtf8 ['/'] = [byteOf '/'] := rfl
  unfold genericString relativeOf joinPath
  induction path with
  | nil => rfl
  | cons name path ih =>
      cases path with
      | nil => simp
      | cons next path =>
          rw [List.map_cons, List.map_cons, List.intercalate_cons_cons,
            List.intercalate_cons_cons, encodeUtf8_append, encodeUtf8_append,
            hslash, ← ih, List.map_cons]

theorem relativeOf_inj {first second : Path} (hfirst : Listable first)
    (hsecond : Listable second) (h : relativeOf first = relativeOf second) :
    first = second := by
  rw [← hfirst.splitPath, ← hsecond.splitPath, encodeUtf8_injective h]

theorem newline_not_mem_line {path : Path} (h : Listable path) (digest : Digest) :
    byteOf '\n' ∉ digestText digest ++ ascii "  " ++ relativeOf path := by
  have hrelative : byteOf '\n' ∉ relativeOf path := by
    rw [relativeOf, byteOf_mem_encodeUtf8 (by decide)]
    exact h.oneLine
  simp only [List.mem_append, not_or]
  exact ⟨⟨(not_mem_digestText digest).2, by decide⟩, hrelative⟩

theorem encodeUtf8_checksumLines (digest : Path → Digest) (files : List Path) :
    encodeUtf8 (files.flatMap fun path => checksumLine (digest path) path) =
      joinLines (byteOf '\n') (files.map fun path =>
        digestText (digest path) ++ ascii "  " ++ relativeOf path) := by
  induction files with
  | nil => rfl
  | cons path files ih =>
      rw [List.flatMap_cons, encodeUtf8_append, encodeUtf8_checksumLine, ih]
      simp [joinLines]

theorem digestProblem_eq_none {sha256 : Bytes → Digest} {path : Path}
    (h : Listable path) (digest : Digest) :
    digestProblem sha256 tree (relativeOf path, digestText digest) = none ↔
      (tree.content (path.map encodeUtf8)).map sha256 = some digest := by
  rw [digestProblem, components_relativeOf h]
  cases tree.content (path.map encodeUtf8) with
  | none => simp [sha256File]
  | some bytes =>
      have hinj : digestText (sha256 bytes) = digestText digest ↔
          sha256 bytes = digest :=
        (encodeUtf8_injective.comp hexdigest_injective).eq_iff
      simp [sha256File, hinj]

/-- With a manifest of some files, their digests as they were. -/
theorem verify_written {sha256 : Bytes → Digest} {files : List Path}
    {digest : Path → Digest} (hne : files ≠ []) (hnodup : files.Nodup)
    (hlistable : ∀ path ∈ files, Listable path)
    (hcontent : tree.content [ascii "manifest.sha256"] = some (encodeUtf8
      (files.flatMap fun path => checksumLine (digest path) path)))
    (htraversed : tree.traversed = true) :
    (verifyChecksumManifest sha256 tree []).1 = true ↔
      (∀ path, path ∈ tree.checked ↔ path ∈ files.map (List.map encodeUtf8)) ∧
      ∀ path ∈ files,
        (tree.content (path.map encodeUtf8)).map sha256 = some (digest path) := by
  have hrelatives : (files.map relativeOf).Nodup :=
    hnodup.map_on fun first hfirst second hsecond =>
      relativeOf_inj (hlistable first hfirst) (hlistable second hsecond)
  obtain ⟨expected, hread, hentries⟩ := @readChecksums_written digest files 0
    .empty [] hlistable (by simpa [Dict.keys] using hrelatives)
  have hlines : getLines (byteOf '\n') (encodeUtf8
      (files.flatMap fun path => checksumLine (digest path) path)) =
        files.map fun path =>
          digestText (digest path) ++ ascii "  " ++ relativeOf path := by
    rw [encodeUtf8_checksumLines]
    have hall : ∀ line ∈ files.map fun path =>
        digestText (digest path) ++ ascii "  " ++ relativeOf path,
        byteOf '\n' ∉ line := by
      intro line hline
      obtain ⟨path, hpath, rfl⟩ := List.mem_map.mp hline
      exact newline_not_mem_line (hlistable path hpath) _
    simpa only [List.append_nil, getLines] using getLines_joinLines hall []
  have hkeys : expected.keys = (files.map (List.map encodeUtf8)).map genericString := by
    simp [Dict.keys, hentries, genericString_map_encodeUtf8]
  have hdigests : (∀ entry ∈ expected.entries,
      digestProblem sha256 tree entry = none) ↔ ∀ path ∈ files,
        (tree.content (path.map encodeUtf8)).map sha256 = some (digest path) := by
    rw [hentries]
    simp only [Dict.entries_empty, List.nil_append, List.forall_mem_map]
    exact forall₂_congr fun path hpath =>
      digestProblem_eq_none (hlistable path hpath) _
  have hpaths : (∀ relative, relative ∈ tree.checked.map genericString ↔
      relative ∈ expected.keys) ↔
        ∀ path, path ∈ tree.checked ↔ path ∈ files.map (List.map encodeUtf8) := by
    rw [hkeys]
    refine mem_map_congr fun path hpath other hother => ?_
    obtain ⟨names, hnames, rfl⟩ := List.mem_map.mp hother
    exact genericString_injective (tree.named path (List.mem_of_mem_filter hpath))
      (hlistable names hnames).encoded
  have hentries_ne : expected.entries ≠ [] := by simp [hentries, hne]
  rw [verifyChecksumManifest_iff hcontent (by rw [hlines, hread]),
    fileSetProblems_eq_nil htraversed, hdigests, hpaths,
    and_iff_right hentries_ne, and_comm]

/-! ## Exactly the files of then -/

/-- The visible files of a directory are the ones it had, with their digests. -/
structure SameFiles (sha256 : Bytes → Digest) (visible : List Bytes → Bool)
    (directory : Text) (disk : FileSystem) (tree : Tree) : Prop where
  present : ∀ path, visible path = true → (path ∈ tree.files ↔
    ∃ names, path = names.map encodeUtf8 ∧ disk.isFile (directory :: names) = true)
  digest : ∀ names, visible (names.map encodeUtf8) = true →
    disk.isFile (directory :: names) = true →
      (tree.content (names.map encodeUtf8)).map sha256 =
        (disk.read? (directory :: names)).map sha256

theorem getD_read?_of_isFile {disk : FileSystem} {path : Path}
    (h : disk.isFile path = true) :
    disk.read? path = some ((disk.read? path).getD []) := by
  obtain ⟨content, hcontent⟩ := Option.isSome_iff_exists.mp h
  rw [hcontent, Option.getD_some]

section Exact

variable {codec : Codec} {sha256 : Bytes → Digest} {directory : Text}
  {s s' : Watched}

/-- The worker's list of files says the same as the directory did. -/
theorem sameFiles_iff {disk : FileSystem} {files : List Path}
    (hmem : ∀ path, path ∈ files ↔
      isCovered path = true ∧ disk.isFile (directory :: path) = true) :
    SameFiles sha256 isChecked directory disk tree ↔
      (∀ path, path ∈ tree.checked ↔ path ∈ files.map (List.map encodeUtf8)) ∧
      ∀ path ∈ files, (tree.content (path.map encodeUtf8)).map sha256 =
        some (sha256 ((disk.read? (directory :: path)).getD [])) := by
  have hread : ∀ path ∈ files,
      (disk.read? (directory :: path)).map sha256 =
        some (sha256 ((disk.read? (directory :: path)).getD [])) := by
    intro path hpath
    rw [getD_read?_of_isFile ((hmem path).mp hpath).2, Option.map_some,
      Option.getD_some]
  have hlisted : ∀ path, isChecked path = true →
      (path ∈ files.map (List.map encodeUtf8) ↔ ∃ names,
        path = names.map encodeUtf8 ∧ disk.isFile (directory :: names) = true) := by
    intro path hchecked
    simp only [List.mem_map, hmem]
    constructor
    · rintro ⟨names, ⟨-, hfile⟩, rfl⟩
      exact ⟨names, rfl, hfile⟩
    · rintro ⟨names, rfl, hfile⟩
      exact ⟨names, ⟨by rwa [← isChecked_map_encodeUtf8], hfile⟩, rfl⟩
  constructor
  · rintro ⟨hpresent, hdigest⟩
    refine ⟨fun path => ?_, fun path hpath => ?_⟩
    · rw [Tree.checked, List.mem_filter]
      constructor
      · rintro ⟨hfile, hchecked⟩
        exact (hlisted path hchecked).mpr ((hpresent path hchecked).mp hfile)
      · intro hpath
        have hchecked : isChecked path = true := by
          obtain ⟨names, hnames, rfl⟩ := List.mem_map.mp hpath
          rw [isChecked_map_encodeUtf8]
          exact ((hmem names).mp hnames).1
        exact ⟨(hpresent path hchecked).mpr ((hlisted path hchecked).mp hpath),
          hchecked⟩
    · obtain ⟨hcovered, hfile⟩ := (hmem path).mp hpath
      rw [← hread path hpath]
      exact hdigest path (by rwa [isChecked_map_encodeUtf8]) hfile
  · rintro ⟨hpaths, hdigests⟩
    refine ⟨fun path hchecked => ?_, fun names hchecked hfile => ?_⟩
    · rw [← hlisted path hchecked, ← hpaths, Tree.checked, List.mem_filter,
        and_iff_left hchecked]
    · have hnames : names ∈ files :=
        (hmem names).mpr ⟨by rwa [← isChecked_map_encodeUtf8], hfile⟩
      rw [hread names hnames, hdigests names hnames]

/--
After the manifest has been written the directory may change in any way that
leaves the manifest itself alone.  The verifier accepts it exactly when the
files it covers are there as they were.
-/
theorem checksum_manifest_exact
    (hexec : Prog.Exec (WorkerEffect codec directory) s
      (writeChecksumManifest sha256 directory) s' (.ret true))
    (hswept : s'.swept = false)
    (hlistable : ∀ path, isCovered path = true →
      s.disk.isFile (directory :: path) = true → Listable path)
    (hmanifest : tree.content [ascii "manifest.sha256"] =
      s'.disk.read? (checksumsPath directory))
    (htraversed : tree.traversed = true) :
    (verifyChecksumManifest sha256 tree []).1 = true ↔
      SameFiles sha256 isChecked directory s.disk tree := by
  obtain ⟨-, hframe, hpost⟩ := Prog.wp_exec hexec (Frame.refl s)
    (writeChecksumManifest_does sha256)
  obtain ⟨⟨files, hne, hfiles⟩, -⟩ := hpost hswept rfl
  have hsame : ∀ {path : Path}, isCovered path = true →
      Disk.SameAt (directory :: path) s.disk s'.disk := fun h =>
    hframe.same hswept _ (owned_of_covered h) (not_checksums_of_covered h)
  have hmem : ∀ path, path ∈ files ↔
      isCovered path = true ∧ s.disk.isFile (directory :: path) = true := by
    intro path
    rw [hfiles.mem]
    exact and_congr_right fun hcovered => by rw [(hsame hcovered).isFile]
  have hcontent : tree.content [ascii "manifest.sha256"] =
      some (encodeUtf8 (files.flatMap fun path => checksumLine
        (sha256 ((s.disk.read? (directory :: path)).getD [])) path)) := by
    rw [hmanifest, hfiles.kept.read?]
    congr 2
    refine List.flatMap_congr fun path hpath => ?_
    rw [Storage.lineOf, (hsame ((hmem path).mp hpath).1).read?]
  rw [sameFiles_iff hmem]
  exact verify_written hne hfiles.nodup (fun path hpath =>
    hlistable path ((hmem path).mp hpath).1 ((hmem path).mp hpath).2)
    hcontent htraversed

end Exact

/-! ### A nested manifest -/

open EventState (plainCodec)

/-- `a.bin`, and a file in a directory below that is named like the manifest. -/
def nestedDisk : FileSystem :=
  (((((Disk.blank.mkdirs [brakeDirectory, "sub"]).getD .blank).create
    [brakeDirectory, "a.bin"]).append [brakeDirectory, "a.bin"] [7]).create
      [brakeDirectory, "sub", "manifest.sha256"])

def sumOf (bytes : Bytes) : Digest := Vector.replicate 32 (bytes.foldl (· + ·) 0)

def nestedManifest : Bytes := encodeUtf8 (checksumLine (sumOf [7]) ["a.bin"])

/-- The directory afterwards, when the nested file has been removed. -/
def prunedTree : Tree where
  files := [[ascii "a.bin"], [ascii "manifest.sha256"]]
  nodup := by decide
  named := by decide
  content path :=
    if path = [ascii "a.bin"] then some [7]
    else if path = [ascii "manifest.sha256"] then some nestedManifest
    else none
  traversed := true

theorem nested_written : ∃ s',
    Prog.Exec (WorkerEffect plainCodec brakeDirectory) ⟨⟨nestedDisk, 0⟩, false⟩
      (writeChecksumManifest sumOf brakeDirectory) s' (.ret true) ∧
    s'.swept = false ∧
    prunedTree.content [ascii "manifest.sha256"] =
      s'.disk.read? (checksumsPath brakeDirectory) := by
  have hrun : Prog.passes (Watched.respond plainCodec 0 brakeDirectory)
      (fun ok s' => ok && !s'.swept && decide (some nestedManifest =
        s'.disk.read? (checksumsPath brakeDirectory)))
      (writeChecksumManifest sumOf brakeDirectory) ⟨⟨nestedDisk, 0⟩, false⟩ = true := by
    decide +kernel
  obtain ⟨ok, s', hexec, hcheck⟩ := watched_exec hrun
  simp only [Bool.and_eq_true, Bool.not_eq_true', decide_eq_true_eq] at hcheck
  obtain ⟨⟨rfl, hunswept⟩, hread⟩ := hcheck
  exact ⟨s', hexec, hunswept, hread⟩

theorem pruned_accepted :
    (verifyChecksumManifest sumOf prunedTree []).1 = true := by
  decide +kernel

theorem nestedDisk_files {path : Path}
    (h : nestedDisk.isFile (brakeDirectory :: path) = true) :
    path = ["a.bin"] ∨ path = ["sub", "manifest.sha256"] := by
  have hfiles : filesBelow nestedDisk [brakeDirectory] =
      ([["a.bin"], ["sub", "manifest.sha256"]] : List Path) := by
    decide +kernel
  have hmem : path ∈ filesBelow nestedDisk [brakeDirectory] :=
    isFile_of_mem_filesBelow.mpr h
  simpa [hfiles] using hmem

theorem listable_nested {path : Path}
    (h : nestedDisk.isFile (brakeDirectory :: path) = true) : Listable path := by
  rcases nestedDisk_files h with rfl | rfl <;>
    exact ⟨by decide, by decide +kernel, by decide⟩

theorem checksum_manifest_exact_nested :
    SameFiles sumOf isChecked brakeDirectory nestedDisk prunedTree := by
  obtain ⟨s', hexec, hunswept, hread⟩ := nested_written
  exact (checksum_manifest_exact hexec hunswept
    (fun _ _ hfile => listable_nested hfile) hread rfl).mp pruned_accepted

/-- Every file but the manifest that is neither hidden nor temporary. -/
def isVisible (path : List Bytes) : Bool :=
  let name := path.getLastD []
  path != [ascii "manifest.sha256"] &&
    (name.isEmpty || name.head? != some (byteOf '.')) &&
    extensionBy (byteOf '.') name != ascii ".tmp"

theorem nested_manifest_unnoticed :
    ¬∀ (sha256 : Bytes → Digest) (directory : Text) (s s' : Watched) (tree : Tree),
      Prog.Exec (WorkerEffect plainCodec directory) s
        (writeChecksumManifest sha256 directory) s' (.ret true) →
      s'.swept = false →
      (∀ path, s.disk.isFile (directory :: path) = true → Listable path) →
      tree.content [ascii "manifest.sha256"] =
        s'.disk.read? (checksumsPath directory) →
      tree.traversed = true →
      (∀ path ∈ tree.files, path.getLastD [] = ascii "manifest.sha256" →
        path = [ascii "manifest.sha256"] ∨ ∃ names, path = names.map encodeUtf8 ∧
          s.disk.isFile (directory :: names) = true) →
      ((verifyChecksumManifest sha256 tree []).1 = true ↔
        SameFiles sha256 isVisible directory s.disk tree) := by
  intro h
  obtain ⟨s', hexec, hunswept, hread⟩ := nested_written
  have hadded : ∀ path ∈ prunedTree.files,
      path.getLastD [] = ascii "manifest.sha256" →
      path = [ascii "manifest.sha256"] ∨ ∃ names, path = names.map encodeUtf8 ∧
        nestedDisk.isFile (brakeDirectory :: names) = true := by
    intro path hpath hname
    simp only [prunedTree, List.mem_cons, List.not_mem_nil, or_false] at hpath
    rcases hpath with rfl | rfl
    · exact absurd hname (by decide)
    · exact .inl rfl
  have hsame := (h _ _ _ _ _ hexec hunswept (fun _ => listable_nested) hread rfl
    hadded).mp pruned_accepted
  have hgone : [ascii "sub", ascii "manifest.sha256"] ∈ prunedTree.files :=
    (hsame.present _ (by decide)).mpr ⟨["sub", "manifest.sha256"], rfl,
      by decide +kernel⟩
  exact absurd hgone (by decide)

end DataCache.RecordIo
