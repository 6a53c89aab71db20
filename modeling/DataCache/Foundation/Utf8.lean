import DataCache.Foundation.Text

/-!
# ASCII inside UTF-8

Programs that keep their texts as bytes look for separators one byte at a
time.  An ASCII character is one byte of UTF-8, and no other character has
that byte in its encoding, so such a search finds the same places in the bytes
as in the text.
-/

namespace DataCache.Foundation

def byteOf (c : Char) : UInt8 := UInt8.ofNat c.toNat

def IsAscii (c : Char) : Prop := c.toNat < 128

instance : DecidablePred IsAscii := fun c =>
  inferInstanceAs (Decidable (c.toNat < 128))

/-- The bytes of a literal. -/
def ascii (literal : String) : Bytes := encodeUtf8 literal.toList

@[simp] theorem encodeUtf8_nil : encodeUtf8 [] = [] := rfl

theorem encodeUtf8_cons (c : Char) (text : Text) :
    encodeUtf8 (c :: text) = String.utf8EncodeChar c ++ encodeUtf8 text := by
  simp [encodeUtf8]

theorem utf8EncodeChar_of_isAscii {c : Char} (h : IsAscii c) :
    String.utf8EncodeChar c = [byteOf c] := by
  have hle : c.val.toNat ≤ 0x7f := Nat.le_of_lt_succ h
  simp only [String.utf8EncodeChar, hle, if_true]
  rfl

theorem encodeUtf8_cons_of_isAscii {c : Char} (h : IsAscii c) (text : Text) :
    encodeUtf8 (c :: text) = byteOf c :: encodeUtf8 text := by
  rw [encodeUtf8_cons, utf8EncodeChar_of_isAscii h, List.singleton_append]

theorem le_of_mem_utf8EncodeChar {c : Char} {byte : UInt8} (hc : ¬ IsAscii c)
    (h : byte ∈ String.utf8EncodeChar c) : 128 ≤ byte.toNat := by
  have hbig : ¬ c.val.toNat ≤ 0x7f := fun hle => hc (Nat.lt_succ_of_le hle)
  have hlt : c.val.toNat < 0x110000 := by
    rcases c.valid with hvalid | hvalid <;> simp only [UInt32.toNat] at * <;> omega
  simp only [String.utf8EncodeChar, hbig, if_false] at h
  split at h
  · simp only [List.mem_cons, List.not_mem_nil, or_false] at h
    rcases h with rfl | rfl <;> simp only [UInt8.toNat_ofNat'] <;> omega
  · split at h
    · simp only [List.mem_cons, List.not_mem_nil, or_false] at h
      rcases h with rfl | rfl | rfl <;> simp only [UInt8.toNat_ofNat'] <;> omega
    · simp only [List.mem_cons, List.not_mem_nil, or_false] at h
      rcases h with rfl | rfl | rfl | rfl <;>
        simp only [UInt8.toNat_ofNat'] <;> omega

theorem toNat_byteOf {c : Char} (h : IsAscii c) : (byteOf c).toNat = c.toNat := by
  have hlt : c.toNat < 128 := h
  simp only [byteOf, UInt8.toNat_ofNat']
  omega

theorem byteOf_inj {c d : Char} (hc : IsAscii c) (hd : IsAscii d)
    (h : byteOf c = byteOf d) : c = d := by
  have hnat := congrArg UInt8.toNat h
  rw [toNat_byteOf hc, toNat_byteOf hd] at hnat
  exact Char.toNat_inj.mp hnat

theorem byteOf_mem_utf8EncodeChar {c d : Char} (hc : IsAscii c) :
    byteOf c ∈ String.utf8EncodeChar d ↔ c = d := by
  by_cases hd : IsAscii d
  · simp only [utf8EncodeChar_of_isAscii hd, List.mem_singleton]
    exact ⟨byteOf_inj hc hd, congrArg byteOf⟩
  · constructor
    · intro h
      have hle := le_of_mem_utf8EncodeChar hd h
      have hlt : c.toNat < 128 := hc
      rw [toNat_byteOf hc] at hle
      omega
    · rintro rfl
      exact absurd hc hd

theorem byteOf_mem_encodeUtf8 {c : Char} {text : Text} (hc : IsAscii c) :
    byteOf c ∈ encodeUtf8 text ↔ c ∈ text := by
  simp [encodeUtf8, byteOf_mem_utf8EncodeChar hc]

@[simp] theorem encodeUtf8_eq_nil {text : Text} : encodeUtf8 text = [] ↔ text = [] := by
  constructor
  · intro h
    exact encodeUtf8_injective (by simpa using h)
  · rintro rfl
    rfl

theorem encodeUtf8_map_of_isAscii {text : Text} (h : ∀ c ∈ text, IsAscii c) :
    encodeUtf8 text = text.map byteOf := by
  induction text with
  | nil => rfl
  | cons c text ih =>
      rw [encodeUtf8_cons, utf8EncodeChar_of_isAscii (h c (by simp)),
        ih fun d hd => h d (List.mem_cons_of_mem c hd)]
      rfl

/-! ## Splitting at an ASCII character -/

theorem splitOn_append_of_not_mem {α : Type*} [BEq α] [LawfulBEq α]
    {separator : α} {front : List α} (h : separator ∉ front) (rest : List α) :
    (front ++ rest).splitOn separator =
      (rest.splitOn separator).modifyHead (front ++ ·) := by
  induction front with
  | nil => cases hsplit : rest.splitOn separator <;> simp [hsplit]
  | cons c front ih =>
      have hc : ¬ c = separator := fun heq => h (by simp [heq])
      have hrest : separator ∉ front := fun hmem => h (by simp [hmem])
      simp only [List.cons_append, List.splitOn_cons_eq_if_modifyHead,
        beq_iff_eq, hc, if_false, ih hrest]
      cases rest.splitOn separator <;> simp

theorem mem_of_mem_splitOn {α : Type*} [BEq α] [LawfulBEq α]
    {separator c : α} {list part : List α} (hpart : part ∈ list.splitOn separator)
    (hc : c ∈ part) : c ∈ list := by
  induction list generalizing part with
  | nil =>
      simp only [List.splitOn_nil, List.mem_singleton] at hpart
      simp [hpart] at hc
  | cons first list ih =>
      rw [List.splitOn_cons_eq_if_modifyHead] at hpart
      split at hpart
      · rcases List.mem_cons.mp hpart with rfl | hpart
        · cases hc
        · exact List.mem_cons_of_mem _ (ih hpart hc)
      · cases hsplit : list.splitOn separator with
        | nil => simp [hsplit] at hpart
        | cons head tail =>
            simp only [hsplit, List.modifyHead_cons, List.mem_cons] at hpart
            rcases hpart with rfl | hpart
            · rcases List.mem_cons.mp hc with rfl | hc
              · simp
              · exact List.mem_cons_of_mem _ (ih (by simp [hsplit]) hc)
            · exact List.mem_cons_of_mem _ (ih (by simp [hsplit, hpart]) hc)

theorem splitOn_encodeUtf8 {separator : Char} (h : IsAscii separator)
    (text : Text) :
    (encodeUtf8 text).splitOn (byteOf separator) =
      (text.splitOn separator).map encodeUtf8 := by
  induction text with
  | nil => simp
  | cons c text ih =>
      rw [encodeUtf8_cons, List.splitOn_cons_eq_if_modifyHead]
      by_cases hc : c = separator
      · subst hc
        rw [utf8EncodeChar_of_isAscii h, List.singleton_append,
          List.splitOn_cons_eq_if_modifyHead]
        simp [ih]
      · have hnot : byteOf separator ∉ String.utf8EncodeChar c := by
          rw [byteOf_mem_utf8EncodeChar h]
          exact Ne.symm hc
        rw [splitOn_append_of_not_mem hnot, ih]
        cases text.splitOn separator <;> simp [hc, encodeUtf8_cons]

theorem takeWhile_encodeUtf8 {separator : Char} (h : IsAscii separator)
    (text : Text) :
    (encodeUtf8 text).takeWhile (· != byteOf separator) =
      encodeUtf8 (text.takeWhile (· ≠ separator)) := by
  induction text with
  | nil => simp
  | cons c text ih =>
      rw [encodeUtf8_cons]
      by_cases hc : c = separator
      · subst hc
        simp [utf8EncodeChar_of_isAscii h]
      · have hall : ∀ byte ∈ String.utf8EncodeChar c,
            (byte != byteOf separator) = true := by
          intro byte hbyte
          simp only [bne_iff_ne]
          rintro rfl
          exact hc ((byteOf_mem_utf8EncodeChar h).mp hbyte).symm
        rw [List.takeWhile_append_of_pos hall, ih]
        simp [hc, encodeUtf8_cons]

theorem getLast?_encodeUtf8 {c : Char} (h : IsAscii c) (text : Text) :
    (encodeUtf8 text).getLast? = some (byteOf c) ↔ text.getLast? = some c := by
  rcases List.eq_nil_or_concat text with rfl | ⟨front, last, rfl⟩
  · simp
  · have hne : String.utf8EncodeChar last ≠ [] := String.utf8EncodeChar_ne_nil
    rw [List.concat_eq_append, encodeUtf8_append, encodeUtf8_cons,
      encodeUtf8_nil, List.append_nil, List.getLast?_append_of_ne_nil _ hne]
    simp only [List.getLast?_append, List.getLast?_singleton, Option.some_or,
      Option.some.injEq]
    constructor
    · intro hlast
      exact ((byteOf_mem_utf8EncodeChar h).mp (List.mem_of_getLast? hlast)).symm
    · rintro rfl
      simp [utf8EncodeChar_of_isAscii h]

theorem head?_encodeUtf8 {c : Char} (h : IsAscii c) (text : Text) :
    (encodeUtf8 text).head? = some (byteOf c) ↔ text.head? = some c := by
  cases text with
  | nil => simp
  | cons first text =>
      have hne : String.utf8EncodeChar first ≠ [] := String.utf8EncodeChar_ne_nil
      rw [encodeUtf8_cons, List.head?_append_of_ne_nil _ hne]
      simp only [List.head?_cons, Option.some.injEq]
      constructor
      · intro hhead
        exact ((byteOf_mem_utf8EncodeChar h).mp (List.mem_of_head? hhead)).symm
      · rintro rfl
        simp [utf8EncodeChar_of_isAscii h]

/-! ## Case -/

/-- `std::toupper` of the "C" locale. -/
def upperByte (byte : UInt8) : UInt8 :=
  if byteOf 'a' ≤ byte ∧ byte ≤ byteOf 'z' then byte - 32 else byte

theorem upperByte_of_le {byte : UInt8} (h : 128 ≤ byte.toNat) :
    upperByte byte = byte := by
  refine if_neg fun hcond => ?_
  have hle : byte.toNat ≤ 122 := hcond.2
  omega

theorem upperByte_byteOf : ∀ n < 128,
    upperByte (byteOf (Char.ofNat n)) = byteOf (Char.ofNat n).toUpper ∧
      IsAscii (Char.ofNat n).toUpper := by
  decide

theorem toUpper_of_not_isAscii {c : Char} (h : ¬ IsAscii c) : c.toUpper = c := by
  unfold Char.toUpper
  split
  · next hc =>
      have hle : c.val.toNat ≤ 122 := hc.2
      exact absurd (show c.toNat < 128 by simp only [Char.toNat]; omega) h
  · rfl

theorem map_upperByte_encodeUtf8 (text : Text) :
    (encodeUtf8 text).map upperByte = encodeUtf8 (text.map Char.toUpper) := by
  induction text with
  | nil => rfl
  | cons c text ih =>
      rw [List.map_cons, encodeUtf8_cons, encodeUtf8_cons, List.map_append, ih]
      congr 1
      by_cases hc : IsAscii c
      · have hupper := upperByte_byteOf c.toNat hc
        rw [Char.ofNat_toNat] at hupper
        rw [utf8EncodeChar_of_isAscii hc, utf8EncodeChar_of_isAscii hupper.2]
        simp [hupper.1]
      · rw [toUpper_of_not_isAscii hc]
        conv_rhs => rw [← List.map_id (String.utf8EncodeChar c)]
        refine List.map_congr_left fun byte hbyte => upperByte_of_le ?_
        exact le_of_mem_utf8EncodeChar hc hbyte

end DataCache.Foundation
