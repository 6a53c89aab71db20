import DataCache.Foundation.Text

/-!
# Names the receiver accepts

Event names and transfer ids become directory names inside the inbox, and
chunk paths become files below a staging directory.  Both are checked before
anything touches the disk.
-/

namespace DataCache.Receiver

open DataCache.Foundation

def maxEventName : Nat := 160

def maxRelativePath : Nat := 1024

def windowsDeviceNames : List Text :=
  ["CON", "PRN", "AUX", "NUL", "COM1", "COM2", "COM3", "COM4", "COM5",
    "COM6", "COM7", "COM8", "COM9", "LPT1", "LPT2", "LPT3", "LPT4", "LPT5",
    "LPT6", "LPT7", "LPT8", "LPT9"]

def isEventNameChar (c : Char) : Bool :=
  c.isAlphanum || c == '_' || c == '.' || c == '-'

/-- Full match of `[A-Za-z0-9][A-Za-z0-9_.-]*`. -/
def matchesEventName : Text → Bool
  | [] => false
  | first :: rest => first.isAlphanum && rest.all isEventNameChar

def validateEventName (name : Text) : Option Text :=
  if name.length ≤ maxEventName && matchesEventName name &&
      !([".", ".."] : List Text).contains name then some name
  else none

/--
`str.upper`, as far as the comparison with the device names can tell: no
character outside ASCII upper-cases to a letter or digit sequence that occurs
in them.
-/
def upper (text : Text) : Text := text.map Char.toUpper

def normalizeSlashes (path : Text) : Text :=
  path.map fun c => if c = '\\' then '/' else c

def startsWithDrive : Text → Bool
  | letter :: ':' :: _ => letter.isAlpha
  | _ => false

def isUnsafePart (part : Text) : Bool :=
  ([[], ".", ".."] : List Text).contains part || part.contains ':' ||
    part.getLast? == some '.' || part.getLast? == some ' ' ||
    windowsDeviceNames.contains (upper (part.takeWhile (· ≠ '.')))

/-- Normalized path components, or `none` for an absolute or traversal path. -/
def safeRelative (path : Text) : Option (List Text) :=
  if path.length > maxRelativePath then none
  else
    let normalized := normalizeSlashes path
    if normalized.isEmpty || normalized.contains '\x00' ||
        normalized.head? == some '/' || startsWithDrive normalized then none
    else
      let parts := splitPath normalized
      if parts.any isUnsafePart then none else some parts

theorem validateEventName_eq_some {name accepted : Text}
    (h : validateEventName name = some accepted) :
    accepted = name ∧ name.length ≤ maxEventName ∧
      matchesEventName name = true := by
  unfold validateEventName at h
  split at h
  · next hcond =>
      simp only [Bool.and_eq_true, decide_eq_true_eq] at hcond
      exact ⟨(Option.some.inj h).symm, hcond.1.1, hcond.1.2⟩
  · cases h

/-- An accepted path is its own component list, read with `/` for `\`. -/
theorem safeRelative_eq_some {path : Text} {parts : List Text}
    (h : safeRelative path = some parts) :
    parts = splitPath (normalizeSlashes path) ∧
      ∀ part ∈ parts, isUnsafePart part = false := by
  unfold safeRelative at h
  split at h
  · cases h
  · simp only at h
    split at h
    · cases h
    · split at h
      · cases h
      · next hparts =>
          cases h
          refine ⟨rfl, fun part hpart => ?_⟩
          by_contra hunsafe
          exact hparts (List.any_eq_true.mpr ⟨part, hpart, by simpa using hunsafe⟩)

theorem joinPath_of_safeRelative {path : Text} {parts : List Text}
    (h : safeRelative path = some parts) :
    joinPath parts = normalizeSlashes path := by
  rw [(safeRelative_eq_some h).1, joinPath_splitPath]

theorem splitPath_joinPath_of_safeRelative {path : Text} {parts : List Text}
    (h : safeRelative path = some parts) : splitPath (joinPath parts) = parts := by
  rw [joinPath_of_safeRelative h, (safeRelative_eq_some h).1]

theorem normalizeSlashes_eq_self {path : Text} (h : '\\' ∉ path) :
    normalizeSlashes path = path := by
  unfold normalizeSlashes
  conv_rhs => rw [← List.map_id path]
  refine List.map_congr_left fun c hc => ?_
  have hne : c ≠ '\\' := fun heq => h (heq ▸ hc)
  simp [hne]

theorem backslash_not_mem_normalizeSlashes (path : Text) :
    '\\' ∉ normalizeSlashes path := by
  intro h
  obtain ⟨c, -, hc⟩ := List.mem_map.mp h
  split at hc <;> simp_all

theorem proper_of_append {front tail : Text} (hne : front ≠ [])
    (h : ((front ++ tail).isEmpty || (front ++ tail).contains '\x00' ||
      (front ++ tail).head? == some '/' || startsWithDrive (front ++ tail)) =
        false) :
    (front.isEmpty || front.contains '\x00' || front.head? == some '/' ||
      startsWithDrive front) = false := by
  cases front with
  | nil => exact absurd rfl hne
  | cons first rest =>
      simp only [Bool.or_eq_false_iff, List.cons_append, List.isEmpty_cons,
        List.head?_cons, true_and] at h ⊢
      obtain ⟨⟨hnul, hslash⟩, hdrive⟩ := h
      refine ⟨⟨?_, hslash⟩, ?_⟩
      · rw [← Bool.not_eq_true, List.contains_iff_mem] at hnul ⊢
        exact fun hmem => hnul (by
          rw [← List.cons_append]
          exact List.mem_append_left _ hmem)
      · cases rest with
        | nil => rfl
        | cons second rest =>
            by_cases hcolon : second = ':'
            · subst hcolon
              exact hdrive
            · unfold startsWithDrive
              split
              next heq =>
                cases heq
                exact absurd rfl hcolon
              next => rfl

/-- The directories on the way to an accepted path are accepted paths too. -/
theorem safeRelative_prefix {path : Text} {parts front : List Text}
    (h : safeRelative path = some parts) (hstarts : front <+: parts)
    (hne : front ≠ []) : safeRelative (joinPath front) = some front := by
  obtain ⟨hparts, hsafe⟩ := safeRelative_eq_some h
  have hjoined : joinPath front <+: normalizeSlashes path :=
    joinPath_of_safeRelative h ▸ joinPath_prefix hstarts
  have hfront : ∀ part ∈ front, isUnsafePart part = false := fun part hpart =>
    hsafe part (hstarts.subset hpart)
  have hnormal : normalizeSlashes (joinPath front) = joinPath front :=
    normalizeSlashes_eq_self fun hmem =>
      backslash_not_mem_normalizeSlashes path (hjoined.subset hmem)
  have hsplit : splitPath (joinPath front) = front := by
    refine splitPath_joinPath hne fun part hpart => ?_
    exact slash_not_mem_splitPath (hparts ▸ hstarts.subset hpart)
  have hnonempty : joinPath front ≠ [] := by
    intro hempty
    -- An empty text splits into one empty component, which is unsafe.
    rw [hempty] at hsplit
    have hunsafe := hfront [] (by rw [← hsplit]; decide)
    exact absurd hunsafe (by decide)
  unfold safeRelative at h
  simp only at h
  split at h
  · cases h
  next hlength =>
    split at h
    · cases h
    next hstart =>
      obtain ⟨tail, htail⟩ := hjoined
      have hnormalized : (normalizeSlashes path).length = path.length :=
        List.length_map _
      have hshort : ¬(joinPath front).length > maxRelativePath := by
        have hsum := congrArg List.length htail
        rw [List.length_append, hnormalized] at hsum
        omega
      have hproper : ((joinPath front).isEmpty ||
          (joinPath front).contains '\x00' ||
          (joinPath front).head? == some '/' ||
          startsWithDrive (joinPath front)) = false := by
        rw [Bool.not_eq_true, ← htail] at hstart
        exact proper_of_append hnonempty hstart
      have hall : ¬front.any isUnsafePart = true := by
        rw [List.any_eq_true]
        rintro ⟨part, hpart, hunsafe⟩
        rw [hfront part hpart] at hunsafe
        cases hunsafe
      unfold safeRelative
      simp only [hshort, if_false, hnormal, hproper, Bool.false_eq_true, hsplit,
        hall]

end DataCache.Receiver
