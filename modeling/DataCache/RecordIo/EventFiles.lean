import DataCache.RecordIo.Checksums
import DataCache.RecordIo.RoundTrip
import DataCache.Storage.Contents

/-!
# The names of an event's files

All of them are made of lower-case letters, digits and three marks, and no part
of one is refused by a path validator; so a checksum manifest can list them.
-/

namespace DataCache.RecordIo

open DataCache.Foundation DataCache.Capture DataCache.Storage DataCache.Receiver

def isNameChar (c : Char) : Bool :=
  c.isLower || c.isDigit || c == '_' || c == '-' || c == '.'

theorem isNameChar_of_digit {c : Char} (h : c.isDigit = true) :
    isNameChar c = true := by
  simp [isNameChar, h]

theorem isNameChar_showInt {n : Int} {c : Char} (h : c ∈ showInt n) :
    isNameChar c = true := by
  cases n with
  | ofNat n => exact isNameChar_of_digit (isDigit_of_mem_showNat h)
  | negSucc n =>
      rcases List.mem_cons.mp h with rfl | h
      · decide
      · exact isNameChar_of_digit (isDigit_of_mem_showNat h)

theorem isNameChar_base {record : SensorData} {base : Text}
    (h : IsBaseName record base) {c : Char} (hc : c ∈ base) :
    isNameChar c = true := by
  have hfront : ∀ c ∈ basePrefix record, isNameChar c = true := by
    have hsensor : ∀ type, ∀ c ∈ sensorPrefix type ++ ("_" : Text),
        isNameChar c = true := by
      rintro (_ | _) <;> exact List.all_eq_true.mp (by decide)
    intro c hc
    rcases List.mem_append.mp hc with hc | hc
    · exact hsensor _ c hc
    · exact isNameChar_showInt hc
  rcases h with rfl | ⟨n, -, rfl⟩
  · exact hfront c hc
  · rcases List.mem_append.mp hc with hc | hc
    · rcases List.mem_append.mp hc with hc | hc
      · exact hfront c hc
      · rw [List.mem_singleton.mp hc]
        decide
    · exact isNameChar_of_digit (isDigit_of_mem_showNat hc)

theorem isNameChar_ending {ending : Text}
    (h : ending ∈ storedEndings ++ copyEndings) : ∀ c ∈ ending, isNameChar c = true :=
  List.all_eq_true.mp ((show ∀ ending ∈ storedEndings ++ copyEndings,
    ending.all isNameChar = true by decide) ending h)

/-! ## Safe paths -/

theorem safeRelativePath_joinPath {path : Path} (hne : path ≠ [])
    (hslash : ∀ name ∈ path, '/' ∉ name)
    (hsafe : ∀ name ∈ path, '\\' ∉ name ∧ isUnsafePart name = false) :
    safeRelativePath (encodeUtf8 (joinPath path)) = true := by
  have hsplit := splitPath_joinPath hne hslash
  have hnames : [] ∉ splitPath (joinPath path) := by
    rw [hsplit]
    exact fun hmem => absurd (hsafe [] hmem).2 (by decide)
  obtain ⟨hjoined, hhead⟩ := head?_ne_slash hnames
  have hparts : ((path.map encodeUtf8).any isUnsafeComponent) = false := by
    rw [List.any_map, List.any_eq_false]
    intro name hname
    rw [Function.comp_apply, isUnsafeComponent_encodeUtf8 (hsafe name hname).1,
      (hsafe name hname).2]
    exact Bool.false_ne_true
  unfold safeRelativePath
  rw [isAbsolute_encodeUtf8, components_encodeUtf8 hnames, hsplit, hparts]
  simp [hjoined, hhead]

/-- A character of a joined path is one of a name or a slash. -/
theorem mem_joinPath {path : Path} {c : Char} (h : c ∈ joinPath path) :
    c = '/' ∨ ∃ name ∈ path, c ∈ name := by
  induction path with
  | nil => cases h
  | cons name path ih =>
      cases path with
      | nil => exact .inr ⟨name, List.mem_cons_self, by simpa [joinPath] using h⟩
      | cons next path =>
          rw [joinPath, List.intercalate_cons_cons, List.mem_append,
            List.mem_append, List.mem_singleton] at h
          rcases h with (h | h) | h
          · exact .inr ⟨name, List.mem_cons_self, h⟩
          · exact .inl h
          · refine (ih h).imp_right fun hrest => ?_
            obtain ⟨other, hother, hc⟩ := hrest
            exact ⟨other, List.mem_cons_of_mem _ hother, hc⟩

end DataCache.RecordIo

namespace DataCache.Storage.EventFile

open DataCache.Foundation DataCache.Capture DataCache.Receiver DataCache.RecordIo

variable {records : List SensorData} {path : Path}

theorem chars (h : EventFile records path) :
    ∀ name ∈ path, ∀ c ∈ name, isNameChar c = true := by
  have hnamed : ∀ {record base ending}, IsBaseName record base →
      ending ∈ storedEndings ++ copyEndings →
      ∀ c ∈ base ++ ending, isNameChar c = true := by
    intro record base ending hbase hending c hc
    rcases List.mem_append.mp hc with hc | hc
    · exact isNameChar_base hbase hc
    · exact isNameChar_ending hending c hc
  have hdirectory : ∀ type, ∀ c ∈ convertedDirectory type, isNameChar c = true := by
    rintro (_ | _) <;> exact List.all_eq_true.mp (by decide)
  cases h with
  | manifest | pairs | checksums =>
      exact List.forall_mem_singleton.mpr (List.all_eq_true.mp (by decide))
  | stored _ hbase hending =>
      exact List.forall_mem_singleton.mpr
        (hnamed hbase (List.mem_append_left _ hending))
  | copied _ hbase hending =>
      exact List.forall_mem_cons.mpr ⟨hdirectory _, List.forall_mem_singleton.mpr
        (hnamed hbase (List.mem_append_right _ hending))⟩
  | directory type => exact List.forall_mem_singleton.mpr (hdirectory type)

theorem not_mem (h : EventFile records path) {c : Char}
    (hc : isNameChar c = false) : ∀ name ∈ path, c ∉ name := by
  intro name hname hmem
  rw [h.chars name hname c hmem] at hc
  cases hc

theorem safe (h : EventFile records path) :
    ∀ name ∈ path, isUnsafePart name = false := by
  have hdirectory : ∀ type, isUnsafePart (convertedDirectory type) = false := by
    rintro (_ | _) <;> decide
  cases h with
  | manifest => decide
  | pairs => decide
  | checksums => decide
  | stored _ hbase hending =>
      exact List.forall_mem_singleton.mpr
        (isUnsafePart_named hbase (List.mem_append_left _ hending)).1
  | copied _ hbase hending =>
      exact List.forall_mem_cons.mpr ⟨hdirectory _, List.forall_mem_singleton.mpr
        (isUnsafePart_named hbase (List.mem_append_right _ hending)).1⟩
  | directory type => exact List.forall_mem_singleton.mpr (hdirectory type)

theorem ne_nil (h : EventFile records path) : path ≠ [] := by
  cases h <;> exact List.cons_ne_nil _ _

theorem not_mem_joinPath (h : EventFile records path) {c : Char}
    (hc : isNameChar c = false) (hslash : c ≠ '/') : c ∉ joinPath path := by
  intro hmem
  rcases mem_joinPath hmem with heq | ⟨name, hname, hcname⟩
  · exact hslash heq
  · exact h.not_mem hc name hname hcname

/-- The checksum manifest can list every file of an event. -/
theorem listable (h : EventFile records path) : Listable path where
  named name hname := by
    refine ⟨?_, h.not_mem (by decide) name hname⟩
    rintro rfl
    exact absurd (h.safe [] hname) (by decide)
  safe := safeRelativePath_joinPath h.ne_nil (h.not_mem (by decide))
    fun name hname => ⟨h.not_mem (by decide) name hname, h.safe name hname⟩
  oneLine := h.not_mem_joinPath (by decide) (by decide)

end DataCache.Storage.EventFile
