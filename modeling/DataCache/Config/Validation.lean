import DataCache.Config.Manager

/-!
# What validation promises

Validation and the getters read the same entries, and they agree on an entry
unless a number is followed by something else.  Lines that add no entry, and
entries that a later line replaces, are out of their sight.
-/

namespace DataCache.Config

open DataCache.Foundation

/-! ## Types of values -/

def WellTyped (value : Text) : KeyType → Prop
  | .string => True
  | .int => ∃ number, Numeral value number [] ∧ minInt32 ≤ number ∧ number ≤ maxInt32
  | .bool => value ∈ ["true".toList, "false".toList, "1".toList, "0".toList]

theorem parseInt_iff {text : Text} :
    parseInt text = true ↔ WellTyped text .int := by
  unfold parseInt WellTyped
  simp only [← stoi_eq_some_iff]
  cases stoi text with
  | none => simp
  | some found => simp [Prod.ext_iff]

theorem parseBool_iff {text : Text} :
    parseBool text = true ↔ WellTyped text .bool := by
  simp [parseBool, WellTyped, or_assoc]

theorem expectedBy_eq_none_iff {keyType : KeyType} {value : Text} :
    expectedBy keyType value = none ↔ WellTyped value keyType := by
  cases keyType with
  | string => exact iff_of_true rfl trivial
  | int =>
      rw [← parseInt_iff, expectedBy]
      cases parseInt value <;> simp only [if_true, Bool.false_eq_true, if_false,
        reduceCtorEq]
  | bool =>
      rw [← parseBool_iff, expectedBy]
      cases parseBool value <;> simp only [if_true, Bool.false_eq_true, if_false,
        reduceCtorEq]

theorem check_eq_none_iff {key value : Text} :
    check key value = none ↔
      ∃ keyType, lookupType key = some keyType ∧ WellTyped value keyType := by
  unfold check
  cases lookupType key with
  | none => simp
  | some keyType => simp [expectedBy_eq_none_iff]

/-! ## Reports and defaults -/

def Reported (manager : Manager) (key : Text) : Prop :=
  ∃ expected value, Problem.invalidValue key expected value ∈ manager.problems

/-- The getter of the declared type hands back whatever default it is given. -/
def FallsBack (manager : Manager) (key : Text) : Prop :=
  (lookupType key = some .int →
    ∀ defaultValue, manager.getIntConfig key defaultValue = defaultValue) ∧
  (lookupType key = some .bool →
    ∀ defaultValue, manager.getBoolConfig key defaultValue = defaultValue)

/-- The key stands in front of the first equals sign of a line. -/
def Occurs (file key : Text) : Prop :=
  ∃ line ∈ getLines '\n' file, ∃ front rest, Assigns line front rest ∧ trim front = key

/-- A number that fits stands at the front, and something else follows it. -/
def PartNumber (value : Text) : Prop :=
  ∃ number rest, Numeral value number rest ∧ rest ≠ [] ∧
    minInt32 ≤ number ∧ number ≤ maxInt32

theorem check_eq_invalid_iff {key key' value value' expected : Text} :
    check key value = some (.invalidValue key' expected value') ↔
      key = key' ∧ value = value' ∧
        ∃ keyType, lookupType key = some keyType ∧
          expectedBy keyType value = some expected := by
  unfold check
  cases lookupType key with
  | none => simp
  | some keyType => simp [and_assoc, and_comm]

theorem reported_iff {manager : Manager} {file key : Text} {keyType : KeyType}
    (h : lookupType key = some keyType) :
    Reported (manager.loadConfig (some file)).1 key ↔
      ∃ value, (readConfig file).get? key = some value ∧ ¬WellTyped value keyType := by
  simp only [Reported, mem_problems_validate, check_eq_invalid_iff,
    ← expectedBy_eq_none_iff, ← ne_eq, Option.ne_none_iff_exists']
  constructor
  · rintro ⟨expected, value, _, _, hget, rfl, rfl, _, htype, hexpected⟩
    rw [h, Option.some.injEq] at htype
    exact ⟨_, hget, expected, htype ▸ hexpected⟩
  · rintro ⟨value, hget, expected, hexpected⟩
    exact ⟨expected, value, key, value, hget, rfl, rfl, keyType, h, hexpected⟩

/-! ## What the getters make of a value -/

theorem stoi_eq_none_iff {value : Text} :
    stoi value = none ↔ ¬WellTyped value .int ∧ ¬PartNumber value := by
  constructor
  · intro h
    constructor
    · rintro ⟨number, hnumber⟩
      rw [stoi_eq_some_iff.mpr hnumber] at h
      cases h
    · rintro ⟨number, rest, hnumeral, -, hrange⟩
      rw [stoi_eq_some_iff.mpr ⟨hnumeral, hrange⟩] at h
      cases h
  · rintro ⟨htyped, hpart⟩
    refine Option.eq_none_iff_forall_not_mem.mpr fun ⟨number, rest⟩ h => ?_
    obtain ⟨hnumeral, hrange⟩ := stoi_eq_some_iff.mp h
    by_cases hrest : rest = []
    · exact htyped ⟨number, hrest ▸ hnumeral, hrange⟩
    · exact hpart ⟨number, rest, hnumeral, hrest, hrange⟩

theorem PartNumber.not_wellTyped {value : Text} (h : PartNumber value) :
    ¬WellTyped value .int := by
  obtain ⟨number, rest, hnumeral, hrest, hrange⟩ := h
  rintro ⟨whole, hwhole⟩
  have hsame := (stoi_eq_some_iff.mpr ⟨hnumeral, hrange⟩).symm.trans
    (stoi_eq_some_iff.mpr hwhole)
  exact hrest (Prod.mk.inj (Option.some.inj hsame)).2

theorem getIntConfig_falls_back_iff {manager : Manager} {key value : Text}
    (h : manager.config.get? key = some value) :
    (∀ defaultValue, manager.getIntConfig key defaultValue = defaultValue) ↔
      stoi value = none := by
  simp only [Manager.getIntConfig, h]
  cases stoi value with
  | none => simp
  | some found =>
      simp only [reduceCtorEq, iff_false, not_forall]
      exact ⟨found.1 + 1, by omega⟩

theorem getBoolConfig_falls_back_iff {manager : Manager} {key value : Text}
    (h : manager.config.get? key = some value) :
    (∀ defaultValue, manager.getBoolConfig key defaultValue = defaultValue) ↔
      ¬WellTyped value .bool := by
  have htypes : WellTyped value .bool ↔
      (value = "true".toList ∨ value = "1".toList) ∨
        value = "false".toList ∨ value = "0".toList := by
    simp only [WellTyped, List.mem_cons, List.not_mem_nil, or_false]
    tauto
  simp only [Manager.getBoolConfig, h, htypes, Bool.forall_bool, Bool.or_eq_true,
    decide_eq_true_eq]
  by_cases hyes : value = "true".toList ∨ value = "1".toList
  · simp only [if_pos hyes]
    exact iff_of_false (fun hall => nomatch hall.1) fun hnot => hnot (.inl hyes)
  · by_cases hno : value = "false".toList ∨ value = "0".toList
    · simp only [if_neg hyes, if_pos hno]
      exact iff_of_false (fun hall => nomatch hall.2) fun hnot => hnot (.inr hno)
    · simp only [if_neg hyes, if_neg hno]
      exact iff_of_true ⟨trivial, trivial⟩ (not_or.mpr ⟨hyes, hno⟩)

/-! ## Agreement -/

theorem reported_iff_fallsBack_of_get? {manager : Manager} {file key value : Text}
    (hget : (readConfig file).get? key = some value) {keyType : KeyType}
    (htype : lookupType key = some keyType) (hstring : keyType ≠ .string) :
    (Reported (manager.loadConfig (some file)).1 key ↔
        FallsBack (manager.loadConfig (some file)).1 key) ↔
      ¬(keyType = .int ∧ PartNumber value) := by
  have hreported : Reported (manager.loadConfig (some file)).1 key ↔
      ¬WellTyped value keyType := by
    simp [reported_iff htype, hget]
  have hloaded : (manager.loadConfig (some file)).1.config.get? key = some value := hget
  rw [hreported, FallsBack, htype]
  cases keyType with
  | string => exact absurd rfl hstring
  | int =>
      have hpart : PartNumber value → ¬WellTyped value .int := PartNumber.not_wellTyped
      simp only [getIntConfig_falls_back_iff hloaded, stoi_eq_none_iff, true_implies,
        Option.some.injEq, reduceCtorEq, false_implies, and_true, true_and]
      tauto
  | bool =>
      have hfalls := getBoolConfig_falls_back_iff hloaded
      simp only [hfalls, reduceCtorEq, Option.some.injEq, false_implies, true_implies,
        true_and, false_and, not_false_eq_true]

/--
Validation and the getter agree on a number or a boolean exactly if some line assigns
it and the last one does not assign a number followed by something else.
-/
theorem reported_iff_fallsBack_iff (manager : Manager) (file key : Text)
    (htype : lookupType key = some .int ∨ lookupType key = some .bool) :
    (Reported (manager.loadConfig (some file)).1 key ↔
        FallsBack (manager.loadConfig (some file)).1 key) ↔
      ∃ value, LastAssigned (getLines '\n' file) key value ∧
        ¬(lookupType key = some .int ∧ PartNumber value) := by
  obtain ⟨keyType, hlookup, hstring⟩ :
      ∃ keyType, lookupType key = some keyType ∧ keyType ≠ .string := by
    rcases htype with htype | htype
    · exact ⟨.int, htype, by decide⟩
    · exact ⟨.bool, htype, by decide⟩
  simp only [← get?_readConfig]
  cases hget : (readConfig file).get? key with
  | none =>
      have hquiet : ¬Reported (manager.loadConfig (some file)).1 key := by
        simp [reported_iff hlookup, hget]
      have hdefault : FallsBack (manager.loadConfig (some file)).1 key := by
        simp [FallsBack, Manager.getIntConfig, Manager.getBoolConfig,
          loadConfig_config, hget]
      simp [hquiet, hdefault]
  | some value =>
      simp [reported_iff_fallsBack_of_get? hget hlookup hstring, hlookup]

theorem reported_iff_fallsBack_octal :
    Reported (Manager.initial.loadConfig (some "image_quality = -007 # seven\n".toList)).1
        "image_quality" ↔
      FallsBack (Manager.initial.loadConfig (some "image_quality = -007 # seven\n".toList)).1
        "image_quality" :=
  (reported_iff_fallsBack_iff .initial _ _ (.inl (by decide +kernel))).mpr
    ⟨"-007".toList, get?_readConfig.mp (by decide +kernel), fun h =>
      h.2.not_wellTyped (parseInt_iff.mp (by decide +kernel))⟩

/-- The validator rejects the rest of the number that the getter hands out. -/
theorem reported_number_used :
    ¬∀ (manager : Manager) (file key : Text),
      (manager.loadConfig (some file)).1.strict = false → Occurs file key →
        lookupType key = some .int ∨ lookupType key = some .bool →
          (Reported (manager.loadConfig (some file)).1 key ↔
            FallsBack (manager.loadConfig (some file)).1 key) := by
  intro hclaim
  have hagree := hclaim .initial "buffer_size=12abc\n" "buffer_size" (by decide +kernel)
    ⟨"buffer_size=12abc", by decide +kernel, "buffer_size", "12abc",
      ⟨by decide +kernel, by decide +kernel⟩, by decide +kernel⟩
    (.inl (by decide +kernel))
  have hreported : Reported
      (Manager.initial.loadConfig (some "buffer_size=12abc\n".toList)).1 "buffer_size" :=
    ⟨"int", "12abc", by decide +kernel⟩
  have hzero := (hagree.mp hreported).1 (by decide +kernel) 0
  revert hzero
  decide +kernel

/-! ## Strict mode -/

def Blank (line : Text) : Prop := trim (uncomment line) = []

theorem not_blank_of_assigns {line front rest : Text} (h : Assigns line front rest) :
    ¬Blank line := by
  rw [Blank, trim_eq_nil_iff, h.1]
  intro hall
  have hsign := hall '=' (by simp)
  revert hsign
  decide

/-- The line is `key=value`, the declared key has a value of its type, and it counts. -/
def Sound (line : Text) : Prop :=
  ∃ front rest keyType, Assigns line front rest ∧
    lookupType (trim front) = some keyType ∧ WellTyped (trim rest) keyType ∧
      readLine line = some (trim front, trim rest)

/-- A later line gives the key another value. -/
def Superseded (lines : List Text) (key value : Text) : Prop :=
  ∃ before line after later other, lines = before ++ line :: after ∧ later ∈ after ∧
    readLine line = some (key, value) ∧ readLine later = some (key, other)

theorem accepted_wellTyped {manager : Manager} {file key value : Text}
    (hstrict : (manager.loadConfig (some file)).1.strict = true)
    (haccepted : (manager.loadConfig (some file)).2 = true)
    (hget : (readConfig file).get? key = some value) :
    ∃ keyType, lookupType key = some keyType ∧ WellTyped value keyType := by
  have hempty : (manager.loadConfig (some file)).1.problems = [] := by
    change (!((manager.loadConfig (some file)).1.strict &&
      !(manager.loadConfig (some file)).1.problems.isEmpty)) = true at haccepted
    simpa [hstrict] using haccepted
  rw [← check_eq_none_iff]
  refine Option.eq_none_iff_forall_not_mem.mpr fun problem hproblem => ?_
  have hmem : problem ∈ (manager.loadConfig (some file)).1.problems :=
    mem_problems_validate.mpr ⟨key, value, hget, hproblem⟩
  rw [hempty] at hmem
  cases hmem

theorem lastAssigned_or_superseded {lines : List Text} {line key value : Text}
    (hline : line ∈ lines) (hread : readLine line = some (key, value)) :
    LastAssigned lines key value ∨ Superseded lines key value := by
  obtain ⟨before, after, rfl⟩ := List.append_of_mem hline
  by_cases hlater : ∃ later ∈ after, ∃ other, readLine later = some (key, other)
  · obtain ⟨later, hlater, other, hother⟩ := hlater
    exact .inr ⟨before, line, after, later, other, rfl, hlater, hread, hother⟩
  · refine .inl ⟨before, line, after, rfl, hread, fun later hmem other hother => ?_⟩
    exact hlater ⟨later, hmem, other, hother⟩

/--
In a file that a strict manager accepts, every line that says anything is sound exactly
if every such line assigns something and no value that was replaced is ill-typed.
-/
theorem strict_accepts_sound_iff (manager : Manager) (file : Text)
    (hstrict : (manager.loadConfig (some file)).1.strict = true)
    (haccepted : (manager.loadConfig (some file)).2 = true) :
    (∀ line ∈ getLines '\n' file, ¬Blank line → Sound line) ↔
      (∀ line ∈ getLines '\n' file, ¬Blank line →
        ∃ front rest, Assigns line front rest ∧ rest ≠ []) ∧
      ∀ key value, Superseded (getLines '\n' file) key value →
        ∀ keyType, lookupType key = some keyType → WellTyped value keyType := by
  constructor
  · intro hsound
    constructor
    · intro line hline hblank
      obtain ⟨front, rest, keyType, hassigns, -, -, hread⟩ := hsound line hline hblank
      refine ⟨front, rest, hassigns, fun hrest => ?_⟩
      rw [readLine_of_assigns (newline_not_mem_getLines hline) hassigns,
        if_pos hrest] at hread
      cases hread
    · rintro key value ⟨before, line, after, later, other, hlines, -, hread, -⟩ keyType
        htype
      have hline : line ∈ getLines '\n' file := by simp [hlines]
      obtain ⟨front, rest, hassigns, -⟩ :=
        (readLine_eq_some_iff (newline_not_mem_getLines hline)).mp hread
      obtain ⟨front', rest', keyType', -, htype', htyped, hread'⟩ :=
        hsound line hline (not_blank_of_assigns hassigns)
      obtain ⟨rfl, rfl⟩ := Prod.mk.inj (Option.some.inj (hread'.symm.trans hread))
      obtain rfl := Option.some.inj (htype'.symm.trans htype)
      exact htyped
  · rintro ⟨hcomplete, hsuperseded⟩ line hline hblank
    obtain ⟨front, rest, hassigns, hrest⟩ := hcomplete line hline hblank
    have hread : readLine line = some (trim front, trim rest) := by
      rw [readLine_of_assigns (newline_not_mem_getLines hline) hassigns, if_neg hrest]
    obtain ⟨last, hlast⟩ := exists_lastAssigned hline hread
    obtain ⟨keyType, htype, hlastTyped⟩ :=
      accepted_wellTyped hstrict haccepted (get?_readConfig.mpr hlast)
    refine ⟨front, rest, keyType, hassigns, htype, ?_, hread⟩
    rcases lastAssigned_or_superseded hline hread with hcounts | hgone
    · obtain ⟨keyType', htype', htyped⟩ :=
        accepted_wellTyped hstrict haccepted (get?_readConfig.mpr hcounts)
      exact Option.some.inj (htype'.symm.trans htype) ▸ htyped
    · exact hsuperseded _ _ hgone keyType htype

theorem strict_accepts_sound_alone :
    (Manager.initial.loadConfig (some "# on\nconfig_strict = true\n")).2 = true ∧
      ∀ line ∈ getLines '\n' "# on\nconfig_strict = true\n".toList,
        ¬Blank line → Sound line := by
  have hlines : getLines '\n' "# on\nconfig_strict = true\n".toList =
      ["# on".toList, "config_strict = true".toList] := by decide +kernel
  have haccepted : (Manager.initial.loadConfig
      (some "# on\nconfig_strict = true\n")).2 = true := by decide +kernel
  refine ⟨haccepted, (strict_accepts_sound_iff .initial _ (by decide +kernel)
    haccepted).mpr ⟨?_, ?_⟩⟩
  · intro line hline hblank
    rw [hlines, List.mem_cons, List.mem_singleton] at hline
    rcases hline with rfl | rfl
    · exact absurd (show trim _ = _ by decide +kernel) hblank
    · exact ⟨"config_strict ".toList, " true".toList,
        ⟨by decide +kernel, by decide +kernel⟩, by decide +kernel⟩
  · rintro key value ⟨before, line, after, later, other, heq, hlater, hread, hother⟩
    have hnone : readLine "# on" = none := by decide +kernel
    rw [hlines] at heq
    cases before with
    | nil =>
        obtain ⟨rfl, -⟩ := List.cons.inj heq
        rw [hnone] at hread
        cases hread
    | cons first before =>
        cases before with
        | nil =>
            obtain ⟨-, -, rfl⟩ := by simpa using heq
            cases hlater
        | cons second before => simp at heq

/-- A strict manager accepts a line that says nothing after the sign, and drops it. -/
theorem strict_accepts_empty_value :
    ¬∀ (manager : Manager) (file : Text),
      (manager.loadConfig (some file)).1.strict = true →
        (manager.loadConfig (some file)).2 = true →
          ∀ line ∈ getLines '\n' file, ¬Blank line → Sound line := by
  intro hclaim
  have hblank : ¬Blank "buffer_size=" := by
    unfold Blank
    decide +kernel
  obtain ⟨front, rest, keyType, -, -, -, hread⟩ :=
    hclaim .initial "config_strict=true\nbuffer_size=\n" (by decide +kernel)
      (by decide +kernel) "buffer_size=" (by decide +kernel) hblank
  have hnone : readLine "buffer_size=" = none := by decide +kernel
  rw [hnone] at hread
  cases hread

end DataCache.Config
