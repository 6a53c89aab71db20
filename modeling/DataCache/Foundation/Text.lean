import Mathlib.Data.List.Basic
import Mathlib.Data.Nat.Digits.Defs

/-!
# Texts, bytes and their printed forms

Texts are lists of characters and file contents are lists of bytes.  UTF-8
connects the two.  Decimal and hexadecimal printing, lines terminated by a
newline, and slash-separated paths are stated here once, each together with
the reading function that inverts it.
-/

namespace DataCache.Foundation

abbrev Text := List Char

abbrev Bytes := List UInt8

instance stringToText : Coe String (List Char) := ⟨String.toList⟩

/-! ## UTF-8 -/

def encodeUtf8 (text : Text) : Bytes := text.flatMap String.utf8EncodeChar

def decodeUtf8? (bytes : Bytes) : Option Text :=
  (ByteArray.utf8Decode? ⟨bytes.toArray⟩).map Array.toList

@[simp] theorem decodeUtf8?_encodeUtf8 (text : Text) :
    decodeUtf8? (encodeUtf8 text) = some text := by
  have h : (⟨(encodeUtf8 text).toArray⟩ : ByteArray) = text.utf8Encode := by
    simp [encodeUtf8, List.utf8Encode, ByteArray.ext_iff]
  simp [decodeUtf8?, h]

theorem encodeUtf8_append (first second : Text) :
    encodeUtf8 (first ++ second) = encodeUtf8 first ++ encodeUtf8 second := by
  simp [encodeUtf8]

theorem encodeUtf8_injective : Function.Injective encodeUtf8 := by
  intro first second h
  have hdecoded := congrArg decodeUtf8? h
  simpa using hdecoded

/-! ## Numbers -/

def showNat (n : Nat) : Text := Nat.toDigits 10 n

def showInt : Int → Text
  | .ofNat n => showNat n
  | .negSucc n => '-' :: showNat (n + 1)

theorem isDigit_of_mem_showNat {n : Nat} {c : Char} (h : c ∈ showNat n) :
    c.isDigit = true :=
  Nat.isDigit_of_mem_toDigits (by omega) (by omega) h

theorem showNat_ne_nil (n : Nat) : showNat n ≠ [] := Nat.toDigits_ne_nil

theorem length_showNat_le {n k : Nat} (hk : 0 < k) (h : n < 10 ^ k) :
    (showNat n).length ≤ k :=
  (Nat.length_toDigits_le_iff (by omega) hk).mpr h

theorem showNat_injective : Function.Injective showNat := by
  intro first second h
  have hparsed := congrArg (fun digits => Nat.ofDigitChars 10 digits 0) h
  simpa [showNat] using hparsed

/-- A 256-bit digest. -/
abbrev Digest := Vector UInt8 32

def hexPair (byte : UInt8) : Text :=
  [(byte.toNat / 16).digitChar, (byte.toNat % 16).digitChar]

def hexdigest (digest : Digest) : Text := digest.toList.flatMap hexPair

def isHexChar (c : Char) : Bool := c.isDigit || ('a' ≤ c && c ≤ 'f')

theorem length_hexdigest (digest : Digest) : (hexdigest digest).length = 64 := by
  simp [hexdigest, hexPair, List.length_flatMap]

theorem mem_hexdigest {digest : Digest} {c : Char} (h : c ∈ hexdigest digest) :
    ∃ n < 16, c = n.digitChar := by
  simp only [hexdigest, hexPair, List.mem_flatMap, List.mem_cons,
    List.not_mem_nil, or_false] at h
  obtain ⟨byte, -, rfl | rfl⟩ := h
  · exact ⟨_, by have := byte.toNat_lt; omega, rfl⟩
  · exact ⟨_, by omega, rfl⟩

theorem hexPair_injective : Function.Injective hexPair := by
  have hdigits : ∀ m < 16, ∀ n < 16, m.digitChar = n.digitChar → m = n := by
    decide
  intro first second h
  simp only [hexPair, List.cons.injEq, and_true] at h
  have hhigh := hdigits _ (by have := first.toNat_lt; omega) _
    (by have := second.toNat_lt; omega) h.1
  have hlow := hdigits _ (by omega) _ (by omega) h.2
  exact UInt8.toNat_inj.mp (by omega)

theorem hexdigest_injective : Function.Injective hexdigest := by
  have hlists : ∀ first second : List UInt8,
      first.flatMap hexPair = second.flatMap hexPair → first = second := by
    intro first
    induction first with
    | nil => intro second h; cases second with
      | nil => rfl
      | cons byte rest => simp [hexPair] at h
    | cons byte rest ih => intro second h; cases second with
      | nil => simp [hexPair] at h
      | cons byte' rest' =>
          rw [List.flatMap_cons, List.flatMap_cons] at h
          obtain ⟨hpair, hrest⟩ := List.append_inj h rfl
          rw [hexPair_injective hpair, ih rest' hrest]
  intro first second h
  exact Vector.toList_inj.mp (hlists _ _ h)

/-! ## Slash-separated paths -/

def joinPath (parts : List Text) : Text := ['/'].intercalate parts

def splitPath (path : Text) : List Text := path.splitOn '/'

@[simp] theorem joinPath_splitPath (path : Text) :
    joinPath (splitPath path) = path := by
  simp [joinPath, splitPath]

theorem splitPath_joinPath {parts : List Text} (hne : parts ≠ [])
    (h : ∀ part ∈ parts, '/' ∉ part) : splitPath (joinPath parts) = parts :=
  List.splitOn_intercalate '/' h hne

theorem not_mem_of_mem_splitOn {α : Type*} [BEq α] [LawfulBEq α]
    {separator : α} {list part : List α}
    (h : part ∈ list.splitOn separator) : separator ∉ part := by
  induction list generalizing part with
  | nil => simp at h; simp [h]
  | cons c list ih =>
      rw [List.splitOn_cons_eq_if_modifyHead] at h
      split at h
      · rcases List.mem_cons.mp h with rfl | h
        · simp
        · exact ih h
      · next hc =>
          have hne : ¬ separator = c := fun heq => hc (by simp [heq])
          cases hsplit : list.splitOn separator with
          | nil => simp [hsplit] at h
          | cons head tail =>
              simp only [hsplit, List.modifyHead_cons, List.mem_cons] at h
              rcases h with rfl | h
              · have hhead := @ih head (by simp [hsplit])
                simp [hhead, hne]
              · exact ih (by simp [hsplit, h])

theorem slash_not_mem_splitPath {path part : Text} (h : part ∈ splitPath path) :
    '/' ∉ part :=
  not_mem_of_mem_splitOn h

theorem splitPath_ne_nil (path : Text) : splitPath path ≠ [] := by
  simp [splitPath]

theorem joinPath_prefix {front parts : List Text} (h : front <+: parts) :
    joinPath front <+: joinPath parts := by
  induction front generalizing parts with
  | nil => exact List.nil_prefix
  | cons part front ih =>
      obtain ⟨rest, rfl⟩ := h
      cases front with
      | nil =>
          cases rest with
          | nil => exact List.prefix_refl _
          | cons next rest =>
              simp only [joinPath, List.cons_append, List.nil_append,
                List.intercalate_cons_cons, List.intercalate_singleton]
              exact ⟨_, (List.append_assoc _ _ _).symm⟩
      | cons next front =>
          obtain ⟨tail, htail⟩ := ih (List.prefix_append (next :: front) rest)
          refine ⟨tail, ?_⟩
          simp only [joinPath, List.cons_append, List.intercalate_cons_cons,
            List.append_assoc] at htail ⊢
          rw [htail]

/-- A list is told apart at the last occurrence of an element. -/
theorem append_cons_inj_last {α : Type*} {c : α} {front front' back back' : List α}
    (hback : c ∉ back) (hback' : c ∉ back')
    (h : front ++ c :: back = front' ++ c :: back') :
    front = front' ∧ back = back' := by
  rcases List.append_eq_append_iff.mp h with ⟨gap, rfl, hgap⟩ | ⟨gap, rfl, hgap⟩
  · cases gap with
    | nil => simpa using hgap
    | cons d gap =>
        rw [List.cons_append, List.cons.injEq] at hgap
        exact absurd (by rw [hgap.2]; simp) hback
  · cases gap with
    | nil => simpa using hgap.symm
    | cons d gap =>
        rw [List.cons_append, List.cons.injEq] at hgap
        exact absurd (by rw [hgap.2]; simp) hback'

end DataCache.Foundation
