import DataCache.Foundation.Text

/-!
# The number at the front of a text

Reading a number as `strtol` does, in base ten: blanks and one sign are skipped,
the longest run of digits counts, and what follows it is left over.  A relation
says which number is written at the front of a text, and the scanner finds
exactly that one.
-/

namespace DataCache.Foundation

/-! ## Splitting after a run -/

section

variable {α : Type*} {p : α → Bool} {front rest : List α}

theorem takeWhile_run (hfront : ∀ a ∈ front, p a = true)
    (hrest : ∀ a ∈ rest.head?, p a = false) :
    (front ++ rest).takeWhile p = front := by
  rw [List.takeWhile_append_of_pos hfront]
  cases rest with
  | nil => simp
  | cons a rest =>
      have ha : p a = false := hrest a rfl
      simp [ha]

theorem dropWhile_run (hfront : ∀ a ∈ front, p a = true)
    (hrest : ∀ a ∈ rest.head?, p a = false) :
    (front ++ rest).dropWhile p = rest := by
  rw [List.dropWhile_append_of_pos hfront]
  cases rest with
  | nil => simp
  | cons a rest =>
      have ha : p a = false := hrest a rfl
      simp [ha]

theorem of_mem_takeWhile {list : List α} {a : α} (h : a ∈ list.takeWhile p) :
    p a = true :=
  List.all_eq_true.mp List.all_takeWhile a h

theorem of_mem_head?_dropWhile {list : List α} {a : α}
    (h : a ∈ (list.dropWhile p).head?) : p a = false := by
  have hnot := List.head?_dropWhile_not p list
  rw [Option.mem_def.mp h] at hnot
  simpa using hnot

end

/-! ## Numerals -/

def isBlank (c : Char) : Bool := c = ' ' || ('\t' ≤ c && c ≤ '\r')

inductive Sign : Text → Bool → Prop
  | absent : Sign [] false
  | plus : Sign ['+'] false
  | minus : Sign ['-'] true

def signed (negative : Bool) (magnitude : Nat) : Int :=
  if negative then -magnitude else magnitude

/-- Blanks, a sign and digits stand at the front; no digit starts the rest. -/
inductive Numeral : Text → Int → Text → Prop
  | intro {blanks sign digits rest : Text} {negative : Bool}
      (hblanks : ∀ c ∈ blanks, isBlank c = true) (hsign : Sign sign negative)
      (hne : digits ≠ []) (hdigits : ∀ c ∈ digits, c.isDigit = true)
      (hrest : ∀ c ∈ rest.head?, c.isDigit = false) :
      Numeral (blanks ++ (sign ++ (digits ++ rest)))
        (signed negative (Nat.ofDigitChars 10 digits 0)) rest

theorem Numeral.of_eq {text blanks sign digits rest : Text} {negative : Bool}
    (htext : text = blanks ++ (sign ++ (digits ++ rest)))
    (hblanks : ∀ c ∈ blanks, isBlank c = true) (hsign : Sign sign negative)
    (hne : digits ≠ []) (hdigits : ∀ c ∈ digits, c.isDigit = true)
    (hrest : ∀ c ∈ rest.head?, c.isDigit = false) :
    Numeral text (signed negative (Nat.ofDigitChars 10 digits 0)) rest :=
  htext ▸ .intro hblanks hsign hne hdigits hrest

def takeSign : Text → Bool × Text
  | '-' :: rest => (true, rest)
  | '+' :: rest => (false, rest)
  | rest => (false, rest)

/-- The number at the front and what is left over; `none` where there is none. -/
def takeNumber (text : Text) : Option (Int × Text) :=
  let unsigned := takeSign (text.dropWhile isBlank)
  let digits := unsigned.2.takeWhile Char.isDigit
  if digits = [] then none
  else some (signed unsigned.1 (Nat.ofDigitChars 10 digits 0),
    unsigned.2.dropWhile Char.isDigit)

theorem exists_takeSign (text : Text) :
    ∃ sign, Sign sign (takeSign text).1 ∧ text = sign ++ (takeSign text).2 := by
  unfold takeSign
  split
  · exact ⟨_, .minus, rfl⟩
  · exact ⟨_, .plus, rfl⟩
  · exact ⟨_, .absent, rfl⟩

theorem takeSign_append {sign : Text} {negative : Bool} (h : Sign sign negative)
    {c : Char} (hc : c.isDigit = true) (rest : Text) :
    takeSign (sign ++ c :: rest) = (negative, c :: rest) := by
  have hminus : c ≠ '-' := by rintro rfl; revert hc; decide
  have hplus : c ≠ '+' := by rintro rfl; revert hc; decide
  cases h with
  | absent => simp [takeSign, hminus, hplus]
  | plus => rfl
  | minus => rfl

theorem isBlank_eq_false_of_isDigit {c : Char} (h : c.isDigit = true) :
    isBlank c = false := by
  have hle := (Char.isDigit_iff_toNat.mp h).1
  have hzero : '0'.toNat = 48 := rfl
  have hspace : c ≠ ' ' := by rintro rfl; revert h; decide
  have hhigh : ¬ c ≤ '\r' := by
    intro hc
    have hnat : c.toNat ≤ '\r'.toNat := hc
    have hreturn : '\r'.toNat = 13 := rfl
    omega
  simp [isBlank, hspace, hhigh]

/-- Neither a sign nor a digit is a blank. -/
theorem Sign.head_not_blank {sign : Text} {negative : Bool} (h : Sign sign negative)
    {c : Char} (hc : c.isDigit = true) (rest : Text) :
    ∀ d ∈ (sign ++ c :: rest).head?, isBlank d = false := by
  intro d hd
  cases h with
  | absent =>
      cases hd
      exact isBlank_eq_false_of_isDigit hc
  | plus => cases hd; decide
  | minus => cases hd; decide

theorem takeNumber_numeral {text rest : Text} {number : Int}
    (h : Numeral text number rest) : takeNumber text = some (number, rest) := by
  obtain ⟨hblanks, hsign, hne, hdigits, hrest⟩ := h
  next blanks sign digits negative =>
    obtain ⟨c, others, rfl⟩ := List.exists_cons_of_ne_nil hne
    have hc : c.isDigit = true := hdigits c List.mem_cons_self
    have hskip : (blanks ++ (sign ++ (c :: others ++ rest))).dropWhile isBlank =
        sign ++ (c :: others ++ rest) :=
      dropWhile_run hblanks (hsign.head_not_blank hc _)
    have htake : takeSign (sign ++ (c :: others ++ rest)) =
        (negative, c :: others ++ rest) :=
      takeSign_append hsign hc (others ++ rest)
    simp only [takeNumber, hskip, htake, takeWhile_run hdigits hrest,
      dropWhile_run hdigits hrest, if_neg hne]

theorem numeral_of_takeNumber {text rest : Text} {number : Int}
    (h : takeNumber text = some (number, rest)) : Numeral text number rest := by
  obtain ⟨sign, hsign, hunsigned⟩ := exists_takeSign (text.dropWhile isBlank)
  have htext : text = text.takeWhile isBlank ++ (sign ++
      ((takeSign (text.dropWhile isBlank)).2.takeWhile Char.isDigit ++
        (takeSign (text.dropWhile isBlank)).2.dropWhile Char.isDigit)) := by
    rw [List.takeWhile_append_dropWhile, ← hunsigned,
      List.takeWhile_append_dropWhile]
  simp only [takeNumber] at h
  split at h
  · cases h
  next hne =>
    obtain ⟨rfl, rfl⟩ := Prod.mk.inj (Option.some.inj h)
    exact .of_eq htext (fun _ => of_mem_takeWhile) hsign hne
      (fun _ => of_mem_takeWhile) (fun _ => of_mem_head?_dropWhile)

theorem takeNumber_eq_some_iff {text rest : Text} {number : Int} :
    takeNumber text = some (number, rest) ↔ Numeral text number rest :=
  ⟨numeral_of_takeNumber, takeNumber_numeral⟩

end DataCache.Foundation
