import Mathlib.Data.List.TakeWhile
import DataCache.Foundation.Lines
import DataCache.Foundation.Utf8

/-!
# Reading the lists

`manifest.csv` and `pairs.csv` are read the same way: the header is skipped,
an empty line too, and every other line is split into fields and parsed.  A
line that does not parse is noted and left out.
-/

namespace DataCache.RecordIo

open DataCache.Foundation

/-! ## Fields -/

/-- The loop over the bytes of a line, with the field read so far. -/
def splitFields : Bytes → Bytes → List Bytes
  | current, [] => [current]
  | current, c :: rest =>
      if c = byteOf ',' then current :: splitFields [] rest
      else if c ≠ byteOf '\r' then splitFields (current ++ [c]) rest
      else splitFields current rest

def splitCsvLine (line : Bytes) : List Bytes := splitFields [] line

theorem splitFields_field {field : Bytes} (hcomma : byteOf ',' ∉ field)
    (hreturn : byteOf '\r' ∉ field) (current rest : Bytes) :
    splitFields current (field ++ rest) = splitFields (current ++ field) rest := by
  induction field generalizing current with
  | nil => simp
  | cons c field ih =>
      simp only [List.mem_cons, not_or] at hcomma hreturn
      have hrest := ih hcomma.2 hreturn.2 (current ++ [c])
      simp [splitFields, Ne.symm hcomma.1, Ne.symm hreturn.1, hrest]

/-- Fields without a comma or a carriage return read back as they are. -/
theorem splitCsvLine_intercalate {fields : List Bytes} (hne : fields ≠ [])
    (hcomma : ∀ field ∈ fields, byteOf ',' ∉ field)
    (hreturn : ∀ field ∈ fields, byteOf '\r' ∉ field) :
    splitCsvLine ([byteOf ','].intercalate fields) = fields := by
  induction fields with
  | nil => exact absurd rfl hne
  | cons field fields ih =>
      have hfield : ∀ rest, splitCsvLine (field ++ rest) = splitFields field rest := by
        intro rest
        have hsplit := splitFields_field (hcomma field (by simp))
          (hreturn field (by simp)) [] rest
        rwa [List.nil_append] at hsplit
      cases fields with
      | nil => simpa [splitFields] using hfield []
      | cons next fields =>
          have hrest := ih (by simp) (fun other hother => hcomma other (by simp [hother]))
            fun other hother => hreturn other (by simp [hother])
          rw [List.intercalate_cons_cons, List.append_assoc, hfield]
          simp only [List.singleton_append, splitFields, if_true]
          rw [← splitCsvLine, hrest]

theorem not_mem_intercalate {α : Type*} {c : α} {separator : List α}
    {fields : List (List α)} (hseparator : c ∉ separator)
    (h : ∀ field ∈ fields, c ∉ field) : c ∉ separator.intercalate fields := by
  induction fields with
  | nil => simp
  | cons field fields ih =>
      have hrest := ih fun other hother => h other (by simp [hother])
      cases fields with
      | nil => simpa using h field (by simp)
      | cons next fields =>
          rw [List.intercalate_cons_cons]
          simp [hseparator, h field (by simp), hrest]

/-! ### Rows of texts -/

def csvLine (fields : List Text) : Bytes :=
  [byteOf ','].intercalate (fields.map encodeUtf8)

/-- No field contains what separates fields and rows. -/
def CleanFields (fields : List Text) : Prop :=
  ∀ c ∈ [',', '\r', '\n'], ∀ field ∈ fields, c ∉ field

theorem CleanFields.not_mem {fields : List Text} (h : CleanFields fields)
    {c : Char} (hc : c ∈ [',', '\r', '\n']) :
    ∀ field ∈ fields.map encodeUtf8, byteOf c ∉ field := by
  have hascii : IsAscii c := by
    have hcases : c = ',' ∨ c = '\r' ∨ c = '\n' := by simpa using hc
    rcases hcases with rfl | rfl | rfl <;> decide
  intro field hfield
  obtain ⟨text, htext, rfl⟩ := List.mem_map.mp hfield
  rw [byteOf_mem_encodeUtf8 hascii]
  exact h c hc text htext

theorem splitCsvLine_csvLine {fields : List Text} (h : CleanFields fields)
    (hne : fields ≠ []) :
    splitCsvLine (csvLine fields) = fields.map encodeUtf8 :=
  splitCsvLine_intercalate (by simpa using hne) (h.not_mem (by simp))
    (h.not_mem (by simp))

theorem newline_not_mem_csvLine {fields : List Text} (h : CleanFields fields) :
    byteOf '\n' ∉ csvLine fields :=
  not_mem_intercalate (by decide) (h.not_mem (by simp))

/-! ## Numbers -/

def isSpaceByte (byte : UInt8) : Bool :=
  byte == byteOf ' ' || (byteOf '\t' ≤ byte && byte ≤ byteOf '\r')

def isDigitByte (byte : UInt8) : Bool :=
  byteOf '0' ≤ byte && byte ≤ byteOf '9'

def decimal (digits : Bytes) : Nat :=
  digits.foldl (fun value byte => 10 * value + (byte.toNat - 48)) 0

/-- The sign of a number, and what follows it. -/
def scanSign : Bytes → Bool × Bytes
  | [] => (false, [])
  | c :: rest =>
      if c = byteOf '-' then (true, rest)
      else if c = byteOf '+' then (false, rest)
      else (false, c :: rest)

/--
`strtoll` and `strtoull`, base ten: whether the number has a minus sign, its
magnitude, and what was not consumed; `none` where there is no number.
-/
def scanInteger (text : Bytes) : Option (Bool × Nat × Bytes) :=
  let (negative, unsigned) := scanSign (text.dropWhile isSpaceByte)
  let digits := unsigned.takeWhile isDigitByte
  if digits.isEmpty then none
  else some (negative, decimal digits, unsigned.dropWhile isDigitByte)

/-- `std::stoll`, refusing what it throws on and anything left over. -/
def parseI64 (text : Bytes) : Option Int :=
  match scanInteger text with
  | none => none
  | some (negative, magnitude, rest) =>
      let value : Int := if negative then -magnitude else magnitude
      if value < -2 ^ 63 ∨ 2 ^ 63 ≤ value then none
      else if rest.isEmpty then some value else none

/-- `std::stoull` takes a minus sign after a space and wraps around. -/
def parseU64 (text : Bytes) : Option Nat :=
  if text.isEmpty || text.head? == some (byteOf '-') then none
  else
    match scanInteger text with
    | none => none
    | some (negative, magnitude, rest) =>
        if 2 ^ 64 ≤ magnitude then none
        else if rest.isEmpty then
          some (if negative then (2 ^ 64 - magnitude) % 2 ^ 64 else magnitude)
        else none

theorem isAscii_of_isDigit {c : Char} (h : c.isDigit = true) : IsAscii c := by
  have hle : c.toNat ≤ 57 := (Char.isDigit_iff_toNat.mp h).2
  exact Nat.lt_of_le_of_lt hle (by decide)

theorem isDigitByte_iff {byte : UInt8} :
    isDigitByte byte = true ↔ 48 ≤ byte.toNat ∧ byte.toNat ≤ 57 := by
  simp only [isDigitByte, Bool.and_eq_true, decide_eq_true_eq]
  exact Iff.rfl

theorem isDigitByte_byteOf {c : Char} (h : c.isDigit = true) :
    isDigitByte (byteOf c) = true := by
  rw [isDigitByte_iff, toNat_byteOf (isAscii_of_isDigit h)]
  exact Char.isDigit_iff_toNat.mp h

theorem encodeUtf8_showNat (n : Nat) :
    encodeUtf8 (showNat n) = (showNat n).map byteOf :=
  encodeUtf8_map_of_isAscii fun _ hc => isAscii_of_isDigit (isDigit_of_mem_showNat hc)

theorem isDigitByte_of_mem_showNat {n : Nat} {byte : UInt8}
    (h : byte ∈ encodeUtf8 (showNat n)) : isDigitByte byte = true := by
  rw [encodeUtf8_showNat] at h
  obtain ⟨c, hc, rfl⟩ := List.mem_map.mp h
  exact isDigitByte_byteOf (isDigit_of_mem_showNat hc)

theorem decimal_map {text : Text} (h : ∀ c ∈ text, c.isDigit = true)
    (value : Nat) :
    (text.map byteOf).foldl (fun value byte => 10 * value + (byte.toNat - 48))
      value = Nat.ofDigitChars 10 text value := by
  induction text generalizing value with
  | nil => rfl
  | cons c text ih =>
      have hc := isAscii_of_isDigit (h c (by simp))
      rw [List.map_cons, List.foldl_cons, Nat.ofDigitChars_cons,
        ih fun d hd => h d (by simp [hd]), toNat_byteOf hc]
      rfl

theorem decimal_showNat (n : Nat) : decimal (encodeUtf8 (showNat n)) = n := by
  rw [encodeUtf8_showNat, decimal, decimal_map fun _ => isDigit_of_mem_showNat]
  simp [showNat]

theorem not_space_of_digit {byte : UInt8} (h : isDigitByte byte = true) :
    isSpaceByte byte = false ∧ byte ≠ byteOf '-' ∧ byte ≠ byteOf '+' := by
  obtain ⟨hlow, -⟩ := isDigitByte_iff.mp h
  refine ⟨?_, ?_, ?_⟩
  · simp only [isSpaceByte, Bool.or_eq_false_iff, beq_eq_false_iff_ne,
      Bool.and_eq_false_imp, decide_eq_true_eq, decide_eq_false_iff_not]
    refine ⟨?_, fun _ hle => ?_⟩
    · rintro rfl
      exact absurd hlow (by decide)
    · have hle : byte.toNat ≤ 13 := hle
      omega
  · rintro rfl
    exact absurd hlow (by decide)
  · rintro rfl
    exact absurd hlow (by decide)

section Scan

variable {digits : Bytes}

theorem scanSign_digits (hne : digits ≠ [])
    (h : ∀ byte ∈ digits, isDigitByte byte = true) :
    scanSign (digits.dropWhile isSpaceByte) = (false, digits) := by
  cases digits with
  | nil => exact absurd rfl hne
  | cons first digits =>
      obtain ⟨hspace, hminus, hplus⟩ := not_space_of_digit (h first (by simp))
      simp [hspace, scanSign, hminus, hplus]

theorem scanInteger_digits (hne : digits ≠ [])
    (h : ∀ byte ∈ digits, isDigitByte byte = true) :
    scanInteger digits = some (false, decimal digits, []) := by
  simp [scanInteger, scanSign_digits hne h, List.takeWhile_eq_self_iff.mpr h,
    List.dropWhile_eq_nil_iff.mpr h, hne]

theorem scanInteger_minus (hne : digits ≠ [])
    (h : ∀ byte ∈ digits, isDigitByte byte = true) :
    scanInteger (byteOf '-' :: digits) = some (true, decimal digits, []) := by
  have hspace : isSpaceByte (byteOf '-') = false := by decide
  simp [scanInteger, hspace, scanSign, List.takeWhile_eq_self_iff.mpr h,
    List.dropWhile_eq_nil_iff.mpr h, hne]

end Scan

def InInt64 (n : Int) : Prop := -2 ^ 63 ≤ n ∧ n < 2 ^ 63

instance : DecidablePred InInt64 := fun n =>
  inferInstanceAs (Decidable (-2 ^ 63 ≤ n ∧ n < 2 ^ 63))

theorem scanInteger_showNat (n : Nat) :
    scanInteger (encodeUtf8 (showNat n)) = some (false, n, []) := by
  have hne : encodeUtf8 (showNat n) ≠ [] := by simp [showNat_ne_nil]
  rw [scanInteger_digits hne fun _ => isDigitByte_of_mem_showNat, decimal_showNat]

theorem parseI64_showInt {n : Int} (h : InInt64 n) :
    parseI64 (encodeUtf8 (showInt n)) = some n := by
  obtain ⟨hlow, hhigh⟩ := h
  cases n with
  | ofNat n =>
      have hhigh : (n : Int) < 2 ^ 63 := hhigh
      have hrange : ¬((n : Int) < -2 ^ 63 ∨ 2 ^ 63 ≤ (n : Int)) := by omega
      simp only [parseI64, showInt, scanInteger_showNat, Bool.false_eq_true,
        if_false, hrange, List.isEmpty_nil, if_true]
      rfl
  | negSucc n =>
      have hne : encodeUtf8 (showNat (n + 1)) ≠ [] := by simp [showNat_ne_nil]
      have hscan : scanInteger (encodeUtf8 ('-' :: showNat (n + 1))) =
          some (true, n + 1, []) := by
        rw [encodeUtf8_cons_of_isAscii (by decide),
          scanInteger_minus hne fun _ => isDigitByte_of_mem_showNat, decimal_showNat]
      have hlow : -2 ^ 63 ≤ -((n + 1 : Nat) : Int) := hlow
      have hrange : ¬(-((n + 1 : Nat) : Int) < -2 ^ 63 ∨
          2 ^ 63 ≤ -((n + 1 : Nat) : Int)) := by omega
      simp only [parseI64, showInt, hscan, if_true, hrange, if_false,
        List.isEmpty_nil]
      rfl

theorem parseU64_showNat {n : Nat} (h : n < 2 ^ 64) :
    parseU64 (encodeUtf8 (showNat n)) = some n := by
  have hne : encodeUtf8 (showNat n) ≠ [] := by simp [showNat_ne_nil]
  have hhead : (encodeUtf8 (showNat n)).head? ≠ some (byteOf '-') := by
    intro hhead
    exact (not_space_of_digit (isDigitByte_of_mem_showNat
      (List.mem_of_head? hhead))).2.1 rfl
  have hrange : ¬ 18446744073709551616 ≤ n := by omega
  simp [parseU64, hne, hhead, scanInteger_showNat, hrange]

/-! ## Rows -/

/-- Both readers' loop: what was parsed, and what was noted. -/
def readRows {ε : Type} (parse : Nat → List Bytes → Except Bytes ε) :
    Nat → List Bytes → List ε × List Bytes
  | _, [] => ([], [])
  | lineNumber, line :: rest =>
      let (entries, problems) := readRows parse (lineNumber + 1) rest
      if line.isEmpty then (entries, problems)
      else
        match parse lineNumber (splitCsvLine line) with
        | .ok entry => (entry :: entries, problems)
        | .error problem => (entries, problem :: problems)

/-- The header is the first line; the first row is on line 2. -/
def readList {ε : Type} (parse : Nat → List Bytes → Except Bytes ε)
    (content : Option Bytes) : List ε × List Bytes :=
  match content with
  | none => ([], [])
  | some content => readRows parse 2 ((getLines (byteOf '\n') content).drop 1)

/-- A header and rows, each with its newline, and whatever comes after. -/
theorem getLines_list {α : Type} {header : Bytes} {line : α → Bytes}
    {rows : List α} (hheader : byteOf '\n' ∉ header)
    (hrows : ∀ row ∈ rows, byteOf '\n' ∉ line row) (rest : Bytes) :
    (getLines (byteOf '\n') (header ++ [byteOf '\n'] ++
      rows.flatMap (fun row => line row ++ [byteOf '\n']) ++ rest)).drop 1 =
        rows.map line ++ getLines (byteOf '\n') rest := by
  have hlines : ∀ row ∈ rows.map line, byteOf '\n' ∉ row := by
    simpa using hrows
  have hjoin : rows.flatMap (fun row => line row ++ [byteOf '\n']) =
      joinLines (byteOf '\n') (rows.map line) := by
    simp [joinLines, List.flatMap_map]
  rw [hjoin, List.append_assoc, List.append_assoc, List.singleton_append,
    getLines_line hheader, getLines_joinLines hlines, List.drop_one,
    List.tail_cons]

theorem readRows_append {ε : Type} {parse : Nat → List Bytes → Except Bytes ε}
    (first second : List Bytes) (lineNumber : Nat) :
    readRows parse lineNumber (first ++ second) =
      ((readRows parse lineNumber first).1 ++
          (readRows parse (lineNumber + first.length) second).1,
        (readRows parse lineNumber first).2 ++
          (readRows parse (lineNumber + first.length) second).2) := by
  induction first generalizing lineNumber with
  | nil => simp [readRows]
  | cons line first ih =>
      have hnumber : lineNumber + (line :: first).length =
          lineNumber + 1 + first.length := by
        simp only [List.length_cons]
        omega
      rw [List.cons_append, readRows, readRows, ih, hnumber]
      cases line.isEmpty with
      | true => simp
      | false => cases parse lineNumber (splitCsvLine line) <;> simp

/-- Lines that all parse, each as one entry of a list. -/
theorem readRows_ok {ε α : Type} {parse : Nat → List Bytes → Except Bytes ε}
    (line : α → Bytes) (entry : α → ε) {rows : List α}
    (hne : ∀ row ∈ rows, line row ≠ [])
    (h : ∀ row ∈ rows, ∀ lineNumber,
      parse lineNumber (splitCsvLine (line row)) = .ok (entry row))
    (lineNumber : Nat) :
    readRows parse lineNumber (rows.map line) = (rows.map entry, []) := by
  induction rows generalizing lineNumber with
  | nil => rfl
  | cons row rows ih =>
      have hrest := ih (fun other hother => hne other (by simp [hother]))
        (fun other hother => h other (by simp [hother])) (lineNumber + 1)
      simp [readRows, hrest, hne row (by simp), h row (by simp)]

/-- A file with a header and rows that all parse. -/
theorem readList_written {ε α : Type} {parse : Nat → List Bytes → Except Bytes ε}
    {header : Bytes} {line : α → Bytes} {entry : α → ε} {rows : List α}
    (hheader : byteOf '\n' ∉ header)
    (hrows : ∀ row ∈ rows, byteOf '\n' ∉ line row ∧ line row ≠ [] ∧
      ∀ lineNumber, parse lineNumber (splitCsvLine (line row)) = .ok (entry row)) :
    readList parse (some (header ++ [byteOf '\n'] ++
      rows.flatMap fun row => line row ++ [byteOf '\n'])) =
        (rows.map entry, []) := by
  have hlines := getLines_list hheader (fun row hrow => (hrows row hrow).1) []
  simp only [List.append_nil, getLines] at hlines
  rw [readList, hlines]
  exact readRows_ok line entry (fun row hrow => (hrows row hrow).2.1)
    (fun row hrow => (hrows row hrow).2.2) 2

end DataCache.RecordIo
