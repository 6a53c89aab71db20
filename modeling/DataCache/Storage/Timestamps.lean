import DataCache.Storage.Retention

/-!
# The time in a directory's name

The last component of an event directory's name is a decimal number.  Reading it
back is exact as long as the number fits into 64 bits.
-/

namespace DataCache.Storage

open DataCache.Foundation

/-! ## Digits -/

theorem le_ofDigitChars :
    ∀ (digits : Text) (value : Nat), value ≤ Nat.ofDigitChars 10 digits value
  | [], value => by rw [Nat.ofDigitChars_nil]
  | c :: rest, value => by
      rw [Nat.ofDigitChars_cons]
      exact le_trans (by omega) (le_ofDigitChars rest _)

/-- The digits are read exactly while the number fits. -/
theorem parseDigits_eq :
    ∀ (digits : Text) (value : Nat), (∀ c ∈ digits, c.isDigit = true) →
      (Nat.ofDigitChars 10 digits value : Int) ≤ maxInt64 →
      parseDigits value digits = Nat.ofDigitChars 10 digits value
  | [], value, _, _ => by rw [parseDigits, Nat.ofDigitChars_nil]
  | c :: rest, value, hdigits, hfits => by
      have hdigit : c.isDigit = true := hdigits c List.mem_cons_self
      rw [Nat.ofDigitChars_cons] at hfits ⊢
      have hle := le_ofDigitChars rest (10 * value + (c.toNat - '0'.toNat))
      have hvalue : ¬(value : Int) >
          (maxInt64 - (c.toNat - '0'.toNat : Nat)) / 10 := by
        omega
      have hnext : (value : Int) * 10 + (c.toNat - '0'.toNat : Nat) =
          (10 * value + (c.toNat - '0'.toNat) : Nat) := by
        push_cast
        omega
      rw [parseDigits]
      simp only [hdigit, Bool.not_true, Bool.false_eq_true, if_false]
      rw [if_neg hvalue, hnext]
      exact parseDigits_eq rest _
        (fun c hc => hdigits c (List.mem_cons_of_mem _ hc)) hfits

/-- Everything else is refused; the guard is exact at the last admissible number. -/
theorem parseDigits_refuses :
    ∀ (digits : Text) (value : Nat), (value : Int) ≤ maxInt64 →
      ¬((∀ c ∈ digits, c.isDigit = true) ∧
        (Nat.ofDigitChars 10 digits value : Int) ≤ maxInt64) →
      parseDigits value digits = -1
  | [], value, hvalue, hbad => by
      rw [Nat.ofDigitChars_nil] at hbad
      exact absurd ⟨nofun, hvalue⟩ hbad
  | c :: rest, value, hvalue, hbad => by
      rw [parseDigits]
      by_cases hdigit : c.isDigit = true
      case neg => simp [hdigit]
      case pos =>
        simp only [hdigit, Bool.not_true, Bool.false_eq_true, if_false]
        by_cases hguard : (value : Int) > (maxInt64 - (c.toNat - '0'.toNat : Nat)) / 10
        case pos => exact if_pos hguard
        case neg =>
          have hnext : (value : Int) * 10 + (c.toNat - '0'.toNat : Nat) =
              (10 * value + (c.toNat - '0'.toNat) : Nat) := by
            push_cast
            omega
          rw [if_neg hguard, hnext]
          refine parseDigits_refuses rest _ (by omega) fun ⟨hdigits, hfits⟩ => ?_
          refine hbad ⟨fun other hother => ?_, ?_⟩
          · rcases List.mem_cons.mp hother with rfl | hother
            · exact hdigit
            · exact hdigits other hother
          · rwa [Nat.ofDigitChars_cons]

/-- Every number the loop computes: two for its guard and two for its update. -/
def computed : Int → Text → List Int
  | _, [] => []
  | value, c :: rest =>
      if !c.isDigit then []
      else
        let digit : Int := (c.toNat - '0'.toNat : Nat)
        [maxInt64 - digit, (maxInt64 - digit) / 10] ++
          if value > (maxInt64 - digit) / 10 then []
          else [value * 10, value * 10 + digit] ++
            computed (value * 10 + digit) rest

theorem toNat_sub_le_of_isDigit {c : Char} (h : c.isDigit = true) :
    c.toNat - '0'.toNat ≤ 9 := by
  have hle := (Char.isDigit_iff_toNat.mp h).2
  have hzero : '9'.toNat = '0'.toNat + 9 := rfl
  omega

theorem computed_fits :
    ∀ (digits : Text) (value : Int), 0 ≤ value →
      ∀ number ∈ computed value digits, 0 ≤ number ∧ number ≤ maxInt64
  | [], _, _, _, hmem => nomatch hmem
  | c :: rest, value, hvalue, number, hmem => by
      rw [computed] at hmem
      split at hmem
      · cases hmem
      next hdigit =>
        have hsmall := toNat_sub_le_of_isDigit (c := c) (by simpa using hdigit)
        have hmax : maxInt64 = 9223372036854775807 := rfl
        rcases List.mem_append.mp hmem with hguard | hmem
        · simp only [List.mem_cons, List.not_mem_nil, or_false] at hguard
          omega
        split at hmem
        · cases hmem
        rcases List.mem_append.mp hmem with hupdate | hmem
        · simp only [List.mem_cons, List.not_mem_nil, or_false] at hupdate
          omega
        · exact computed_fits rest _ (by omega) number hmem

/-! ## The last component -/

theorem lastSegment_append {front digits : Text} (h : '_' ∉ digits) :
    lastSegment (front ++ '_' :: digits) = some digits := by
  have hall : ∀ c ∈ digits.reverse, decide (c ≠ '_') = true := by
    intro c hc
    rw [decide_eq_true_eq]
    exact fun heq => h (heq ▸ List.mem_reverse.mp hc)
  have hcontains : (front ++ '_' :: digits).contains '_' = true := by
    simp
  rw [lastSegment, if_pos hcontains, List.reverse_append, List.reverse_cons,
    List.append_assoc, List.takeWhile_append_of_pos hall]
  simp

theorem lastSegment_eq_some_iff {name digits : Text} :
    lastSegment name = some digits ↔
      ∃ front, name = front ++ '_' :: digits ∧ '_' ∉ digits := by
  constructor
  · intro h
    have hmem : '_' ∈ name.reverse := by
      rw [lastSegment] at h
      split at h
      next hcontains => simpa using hcontains
      next => cases h
    obtain ⟨tail, front, hsplit, hfree⟩ := List.eq_append_cons_of_mem hmem
    have hname : name = front.reverse ++ '_' :: tail.reverse := by
      rw [← List.reverse_reverse name, hsplit]
      simp
    rw [hname, lastSegment_append (by simpa using hfree)] at h
    cases h
    exact ⟨front.reverse, hname, by simpa using hfree⟩
  · rintro ⟨front, rfl, hfree⟩
    exact lastSegment_append hfree

/-- `<prefix>_<digits>` with this number, which fits into 64 bits. -/
structure Timestamped (name : Text) (value : Nat) (front digits : Text) : Prop where
  split : name = front ++ '_' :: digits
  named : front ≠ []
  long : 9 ≤ digits.length
  decimal : ∀ c ∈ digits, c.isDigit = true
  reads : Nat.ofDigitChars 10 digits 0 = value
  fits : (value : Int) ≤ maxInt64

theorem Timestamped.last {name front digits : Text} {value : Nat}
    (h : Timestamped name value front digits) : '_' ∉ digits := fun hmem =>
  absurd (h.decimal _ hmem) (by decide)

theorem Timestamped.parsed {name front digits : Text} {value : Nat}
    (h : Timestamped name value front digits) : parseEventTimestamp name = value := by
  have hpositive := List.length_pos_iff.mpr h.named
  have hlong := h.long
  have hfits := h.fits
  rw [← h.reads] at hfits
  rw [h.split, parseEventTimestamp, lastSegment_append h.last]
  dsimp only
  rw [if_neg, ← Nat.cast_zero, parseDigits_eq _ _ h.decimal hfits, h.reads]
  rw [Bool.or_eq_true, decide_eq_true_eq, decide_eq_true_eq, not_or,
    List.length_append, List.length_cons]
  omega

/-- A name that does not have this form gets `-1`. -/
theorem parseEventTimestamp_cases (name : Text) :
    (∃ value front digits, Timestamped name value front digits) ∨
      parseEventTimestamp name = -1 := by
  rw [parseEventTimestamp]
  split
  next => exact .inr rfl
  next digits hlast =>
    obtain ⟨front, rfl, hfree⟩ := lastSegment_eq_some_iff.mp hlast
    split
    next => exact .inr rfl
    next hshape =>
      rw [Bool.or_eq_true, decide_eq_true_eq, decide_eq_true_eq, not_or,
        List.length_append, List.length_cons] at hshape
      by_cases hread : (∀ c ∈ digits, c.isDigit = true) ∧
          (Nat.ofDigitChars 10 digits 0 : Int) ≤ maxInt64
      · refine .inl ⟨_, front, digits, rfl, ?_, by omega, hread.1, rfl, hread.2⟩
        rintro rfl
        exact hshape.1 (by simp)
      · exact .inr (parseDigits_refuses digits 0 (by decide) hread)

/-- The accepted names are exactly these, and nothing overflows on any name. -/
theorem parseEventTimestamp_exact (name : Text) :
    (∀ value : Int, (parseEventTimestamp name = value ∧ 0 ≤ value) ↔
      ∃ number front digits, Timestamped name number front digits ∧
        value = number) ∧
    (0 ≤ parseEventTimestamp name ∨ parseEventTimestamp name = -1) ∧
    ∀ digits, lastSegment name = some digits →
      ∀ number ∈ computed 0 digits, 0 ≤ number ∧ number ≤ maxInt64 := by
  refine ⟨fun value => ⟨?_, ?_⟩, ?_, fun digits _ =>
    computed_fits digits 0 (le_refl 0)⟩
  · rintro ⟨rfl, hvalue⟩
    rcases parseEventTimestamp_cases name with ⟨number, front, digits, h⟩ | hnone
    · exact ⟨number, front, digits, h, h.parsed⟩
    · rw [hnone] at hvalue
      exact absurd hvalue (by decide)
  · rintro ⟨number, front, digits, h, rfl⟩
    exact ⟨h.parsed, Int.natCast_nonneg number⟩
  · rcases parseEventTimestamp_cases name with ⟨number, front, digits, h⟩ | hnone
    · exact .inl (h.parsed ▸ Int.natCast_nonneg number)
    · exact .inr hnone

/-- The time is read back, whatever comes before its underscore. -/
theorem parseEventTimestamp_append {front : Text} {time : Nat}
    (hfront : front ≠ []) (hlow : 10 ^ 8 ≤ time) (hhigh : time < 2 ^ 63) :
    parseEventTimestamp (front ++ '_' :: showNat time) = time := by
  have hlong : ¬(showNat time).length ≤ 8 := fun h =>
    absurd ((Nat.length_toDigits_le_iff (by omega) (by omega)).mp h) (by omega)
  have hstamped : Timestamped (front ++ '_' :: showNat time) time front
      (showNat time) := by
    refine ⟨rfl, hfront, by omega, fun _ => isDigit_of_mem_showNat,
      Nat.ofDigitChars_ten_toDigits, ?_⟩
    rw [maxInt64]
    omega
  exact hstamped.parsed

end DataCache.Storage
