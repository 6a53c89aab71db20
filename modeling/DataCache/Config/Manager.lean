import DataCache.Config.Keys
import DataCache.Foundation.Lines
import DataCache.Foundation.Numerals
import Mathlib.Data.List.Induction
import Mathlib.Data.List.TakeWhile

/-!
# The configuration manager

Loading reads the file line by line, cuts comments off, keeps what has the form
`key=value` and checks every kept entry against its declared type.  The getters
read the kept entries again, each with its own idea of a number or a boolean.
-/

namespace DataCache.Config

open DataCache.Foundation

/-! ## Lines -/

def uncomment (line : Text) : Text := line.takeWhile fun c => decide (c ≠ '#')

def isTrimmed (c : Char) : Bool := c ∈ [' ', '\t', '\r', '\n']

def trim (value : Text) : Text :=
  ((value.dropWhile isTrimmed).reverse.dropWhile isTrimmed).reverse

/--
`std::getline` on what is left of a string stream, `none` once a read has met
the end.  A read that finds no character at all fails.
-/
def getline (delimiter : Char) : Option Text → Option (Text × Option Text)
  | none => none
  | some [] => none
  | some stream =>
      let front := stream.takeWhile fun c => decide (c ≠ delimiter)
      match stream.dropWhile fun c => decide (c ≠ delimiter) with
      | [] => some (front, none)
      | _ :: rest => some (front, some rest)

/-- The entry a line adds, if both reads succeed. -/
def readLine (line : Text) : Option (Text × Text) := do
  let (key, stream) ← getline '=' (some (uncomment line))
  let (value, _) ← getline '\n' stream
  return (trim key, trim value)

def storeLine (config : Dict Text Text) (line : Text) : Dict Text Text :=
  match readLine line with
  | some (key, value) => config.set key value
  | none => config

def readConfig (file : Text) : Dict Text Text :=
  (getLines '\n' file).foldl storeLine Dict.empty

/-! ## Values -/

def minInt32 : Int := -2147483648

def maxInt32 : Int := 2147483647

/-- `std::stoi`: the number and what was not consumed, or an exception. -/
def stoi (text : Text) : Option (Int × Text) :=
  match takeNumber text with
  | none => none
  | some (number, rest) =>
      if number < minInt32 ∨ maxInt32 < number then none else some (number, rest)

def parseInt (text : Text) : Bool :=
  match stoi text with
  | some (_, rest) => rest.isEmpty
  | none => false

def parseBool (text : Text) : Bool :=
  text = ("true" : Text) || text = ("false" : Text) || text = ("1" : Text) ||
    text = ("0" : Text)

/-! ## Problems -/

inductive Problem where
  | unknownKey (key : Text)
  | invalidValue (key expected value : Text)
  deriving DecidableEq

def Problem.message : Problem → Text
  | .unknownKey key => ("unknown config key '" : Text) ++ key ++ "'"
  | .invalidValue key expected value =>
      ("invalid " : Text) ++ expected ++ " value for '" ++ key ++ "': '" ++ value ++ "'"

/-- What the value of a declared key should have been. -/
def expectedBy (keyType : KeyType) (value : Text) : Option Text :=
  match keyType with
  | .string => none
  | .int => if parseInt value then none else some "int".toList
  | .bool => if parseBool value then none else some "bool (true/false/1/0)".toList

def check (key value : Text) : Option Problem :=
  match lookupType key with
  | none => some (.unknownKey key)
  | some keyType =>
      (expectedBy keyType value).map fun expected => .invalidValue key expected value

/-! ## The manager -/

structure Manager where
  config : Dict Text Text
  problems : List Problem
  deriving DecidableEq

namespace Manager

def initial : Manager := ⟨Dict.empty, []⟩

def validationProblems (manager : Manager) : List Text :=
  manager.problems.map Problem.message

def getConfig (manager : Manager) (key : Text) : Text :=
  match manager.config.get? key with
  | none => []
  | some value => value

def getIntConfig (manager : Manager) (key : Text) (defaultValue : Int) : Int :=
  match manager.config.get? key with
  | none => defaultValue
  | some value =>
      match stoi value with
      | some (number, _) => number
      | none => defaultValue

def getBoolConfig (manager : Manager) (key : Text) (defaultValue : Bool) : Bool :=
  match manager.config.get? key with
  | none => defaultValue
  | some value =>
      if value = ("true" : Text) || value = ("1" : Text) then true
      else if value = ("false" : Text) || value = ("0" : Text) then false
      else defaultValue

def strict (manager : Manager) : Bool :=
  manager.getBoolConfig "config_strict" false

/-- The map is visited in no particular order; here, in order of first entry. -/
def validate (manager : Manager) : Manager × Bool :=
  let problems := manager.problems ++
    manager.config.entries.filterMap fun entry => check entry.1 entry.2
  ({ manager with problems := problems }, !(manager.strict && !problems.isEmpty))

/-- No file: the manager keeps what it has. -/
def loadConfig (manager : Manager) : Option Text → Manager × Bool
  | none => (manager, false)
  | some file => validate ⟨readConfig file, []⟩

end Manager

/-! ## What each part reads -/

theorem trim_eq_nil_iff {text : Text} :
    trim text = [] ↔ ∀ c ∈ text, isTrimmed c = true := by
  rw [trim, List.reverse_eq_nil_iff, List.dropWhile_eq_nil_iff]
  constructor
  · intro h c hc
    rw [← List.takeWhile_append_dropWhile (p := isTrimmed) (l := text)] at hc
    rcases List.mem_append.mp hc with hc | hc
    · exact of_mem_takeWhile hc
    · exact h c (List.mem_reverse.mpr hc)
  · intro h c hc
    exact h c (List.dropWhile_subset _ (List.mem_reverse.mp hc))

theorem getline_split {delimiter : Char} {front : Text} (h : delimiter ∉ front)
    (rest : Text) :
    getline delimiter (some (front ++ delimiter :: rest)) =
      some (front, some rest) := by
  have hfront : ∀ c ∈ front, decide (c ≠ delimiter) = true := by
    intro c hc
    simpa using fun heq : c = delimiter => h (heq ▸ hc)
  have hstop : ∀ c ∈ (delimiter :: rest).head?, decide (c ≠ delimiter) = false := by
    simp
  have hne : front ++ delimiter :: rest ≠ [] := by simp
  cases hstream : front ++ delimiter :: rest with
  | nil => exact absurd hstream hne
  | cons c stream =>
      simp only [getline, ← hstream, takeWhile_run hfront hstop,
        dropWhile_run hfront hstop]

theorem getline_end {delimiter : Char} {stream : Text} (h : delimiter ∉ stream)
    (hne : stream ≠ []) : getline delimiter (some stream) = some (stream, none) := by
  have hall : ∀ c ∈ stream, decide (c ≠ delimiter) = true := by
    intro c hc
    simpa using fun heq : c = delimiter => h (heq ▸ hc)
  cases stream with
  | nil => exact absurd rfl hne
  | cons c stream =>
      simp only [getline, List.takeWhile_eq_self_iff.mpr hall,
        List.dropWhile_eq_nil_iff.mpr hall]

/-- Without its comment, the line is the first text, an equals sign and the second. -/
def Assigns (line front rest : Text) : Prop :=
  uncomment line = front ++ '=' :: rest ∧ '=' ∉ front

/-- A line that says nothing after the sign adds no entry. -/
theorem readLine_of_assigns {line front rest : Text} (hline : '\n' ∉ line)
    (h : Assigns line front rest) :
    readLine line = if rest = [] then none else some (trim front, trim rest) := by
  obtain ⟨huncomment, hfront⟩ := h
  have hrest : '\n' ∉ rest := fun hmem => hline
    (List.takeWhile_subset _ (show '\n' ∈ uncomment line by simp [huncomment, hmem]))
  rw [readLine, huncomment, getline_split hfront]
  by_cases hne : rest = []
  · subst hne
    rfl
  · simp [getline_end hrest hne, hne]

theorem readLine_of_not_mem {line : Text} (h : '=' ∉ uncomment line) :
    readLine line = none := by
  by_cases hne : uncomment line = []
  · simp [readLine, hne, getline]
  · rw [readLine, getline_end h hne]
    rfl

theorem assigns_or_not_mem (line : Text) :
    (∃ front rest, Assigns line front rest) ∨ '=' ∉ uncomment line := by
  by_cases h : '=' ∈ uncomment line
  · obtain ⟨front, rest, hline, hfront⟩ := List.eq_append_cons_of_mem h
    exact .inl ⟨front, rest, hline, hfront⟩
  · exact .inr h

theorem readLine_eq_some_iff {line key value : Text} (hline : '\n' ∉ line) :
    readLine line = some (key, value) ↔
      ∃ front rest, Assigns line front rest ∧ rest ≠ [] ∧
        trim front = key ∧ trim rest = value := by
  constructor
  · intro h
    rcases assigns_or_not_mem line with ⟨front, rest, hassigns⟩ | hnone
    · rw [readLine_of_assigns hline hassigns] at h
      split at h
      · cases h
      · next hne =>
          obtain ⟨hkey, hvalue⟩ := Prod.mk.inj (Option.some.inj h)
          exact ⟨front, rest, hassigns, hne, hkey, hvalue⟩
    · rw [readLine_of_not_mem hnone] at h
      cases h
  · rintro ⟨front, rest, hassigns, hne, rfl, rfl⟩
    rw [readLine_of_assigns hline hassigns, if_neg hne]

theorem stoi_eq_some_iff {text rest : Text} {number : Int} :
    stoi text = some (number, rest) ↔
      Numeral text number rest ∧ minInt32 ≤ number ∧ number ≤ maxInt32 := by
  rw [← takeNumber_eq_some_iff, stoi]
  cases takeNumber text with
  | none => simp
  | some found =>
      obtain ⟨found, left⟩ := found
      by_cases hrange : found < minInt32 ∨ maxInt32 < found
      · simp only [if_pos hrange, reduceCtorEq, false_iff]
        rintro ⟨hfound, hlow, hhigh⟩
        cases hfound
        omega
      · simp only [if_neg hrange, Option.some.injEq, Prod.mk.injEq]
        constructor
        · rintro ⟨rfl, rfl⟩
          exact ⟨⟨rfl, rfl⟩, by omega⟩
        · exact And.left

/-- The last line that assigns to a key decides its value. -/
def LastAssigned (lines : List Text) (key value : Text) : Prop :=
  ∃ before line after, lines = before ++ line :: after ∧
    readLine line = some (key, value) ∧
    ∀ later ∈ after, ∀ other, readLine later ≠ some (key, other)

theorem lastAssigned_concat {lines : List Text} {line key value : Text} :
    LastAssigned (lines ++ [line]) key value ↔
      readLine line = some (key, value) ∨
        (∀ other, readLine line ≠ some (key, other)) ∧
          LastAssigned lines key value := by
  constructor
  · rintro ⟨before, found, after, hlines, hread, hafter⟩
    rcases List.eq_nil_or_concat' after with rfl | ⟨after, last, rfl⟩
    · obtain ⟨-, hlast⟩ := List.append_inj' hlines rfl
      rw [List.singleton_inj.mp hlast]
      exact .inl hread
    · rw [← List.cons_append, ← List.append_assoc] at hlines
      obtain ⟨rfl, hlast⟩ := List.append_inj' hlines rfl
      rw [List.singleton_inj.mp hlast]
      exact .inr ⟨hafter last (by simp), before, found, after, rfl, hread,
        fun later hlater => hafter later (by simp [hlater])⟩
  · rintro (hread | ⟨hother, before, found, after, rfl, hread, hafter⟩)
    · exact ⟨lines, line, [], rfl, hread, nofun⟩
    · refine ⟨before, found, after ++ [line], by simp, hread, fun later hlater => ?_⟩
      rcases List.mem_append.mp hlater with hlater | hlater
      · exact hafter later hlater
      · rw [List.mem_singleton.mp hlater]
        exact hother

/-- Some line decides the value of every key that is assigned at all. -/
theorem exists_lastAssigned {lines : List Text} {line key value : Text}
    (hline : line ∈ lines) (hread : readLine line = some (key, value)) :
    ∃ last, LastAssigned lines key last := by
  induction lines using List.reverseRecOn with
  | nil => cases hline
  | append_singleton lines final ih =>
      simp only [lastAssigned_concat]
      by_cases hfinal : ∃ last, readLine final = some (key, last)
      · obtain ⟨last, hlast⟩ := hfinal
        exact ⟨last, .inl hlast⟩
      · have hother : ∀ other, readLine final ≠ some (key, other) := not_exists.mp hfinal
        rcases List.mem_append.mp hline with hline | hline
        · obtain ⟨last, hlast⟩ := ih hline
          exact ⟨last, .inr ⟨hother, hlast⟩⟩
        · rw [List.mem_singleton.mp hline] at hread
          exact absurd hread (hother value)

theorem get?_storeLine (config : Dict Text Text) (line key value : Text) :
    (storeLine config line).get? key = some value ↔
      readLine line = some (key, value) ∨
        (∀ other, readLine line ≠ some (key, other)) ∧
          config.get? key = some value := by
  unfold storeLine
  split
  · next assigned stored hread =>
      rw [Dict.get?_set, hread]
      by_cases hkey : assigned = key
      · simp [hkey]
      · simp [hkey]
  · next hread => simp [hread]

theorem get?_readConfig {file key value : Text} :
    (readConfig file).get? key = some value ↔
      LastAssigned (getLines '\n' file) key value := by
  unfold readConfig
  generalize getLines '\n' file = lines
  induction lines using List.reverseRecOn with
  | nil => simp [LastAssigned]
  | append_singleton lines line ih =>
      rw [List.foldl_append, List.foldl_cons, List.foldl_nil, get?_storeLine, ih,
        lastAssigned_concat]

/-! ## What validation reports -/

theorem mem_problems_validate {file : Text} {manager : Manager} {problem : Problem} :
    problem ∈ (manager.loadConfig (some file)).1.problems ↔
      ∃ key value, (readConfig file).get? key = some value ∧
        check key value = some problem := by
  simp only [Manager.loadConfig, Manager.validate, List.nil_append,
    List.mem_filterMap, Prod.exists, Dict.mem_entries_iff]

theorem loadConfig_config (manager : Manager) (file : Text) :
    (manager.loadConfig (some file)).1.config = readConfig file := rfl

end DataCache.Config
