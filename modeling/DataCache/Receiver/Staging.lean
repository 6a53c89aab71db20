import DataCache.Receiver.Node

/-!
# Staging directory names

A staging directory is called `.<event>.<transfer_id>.part`.  Both names may
contain dots, so two different transfers can be given one directory: exactly
when one event name is the other extended by `.p` and the other transfer id
starts with `p.`.  Transfer ids without a dot rule this out.
-/

namespace DataCache.Receiver

open DataCache.Foundation

/-- `second` reads its event as `first`'s extended by a dotted middle part. -/
def Extends (first second : Text × Text) : Prop :=
  ∃ middle, second.1 = first.1 ++ '.' :: middle ∧
    first.2 = middle ++ '.' :: second.2

def Overlaps (first second : Text × Text) : Prop :=
  Extends first second ∨ Extends second first

theorem stagingName_eq_iff_append {event event' transferId transferId' : Text} :
    stagingName event transferId = stagingName event' transferId' ↔
      event ++ '.' :: transferId = event' ++ '.' :: transferId' := by
  have h : ∀ event transferId : Text, stagingName event transferId =
      '.' :: ((event ++ '.' :: transferId) ++ (".part" : Text)) := by
    intro event transferId
    simp [stagingName]
  rw [h, h, List.cons_inj_right, List.append_cancel_right_eq]

theorem stagingName_eq_iff {first second : Text × Text} (hne : first ≠ second) :
    stagingName first.1 first.2 = stagingName second.1 second.2 ↔
      Overlaps first second := by
  obtain ⟨event, transferId⟩ := first
  obtain ⟨event', transferId'⟩ := second
  rw [stagingName_eq_iff_append, List.append_eq_append_iff]
  constructor
  · rintro (⟨middle, hevent, htail⟩ | ⟨middle, hevent, htail⟩)
    · cases middle with
      | nil => exact absurd (by simp_all) hne
      | cons c middle =>
          simp only [List.cons_append, List.cons.injEq] at htail
          obtain ⟨rfl, htail⟩ := htail
          exact .inl ⟨middle, hevent, htail⟩
    · cases middle with
      | nil => exact absurd (by simp_all) hne
      | cons c middle =>
          simp only [List.cons_append, List.cons.injEq] at htail
          obtain ⟨rfl, htail⟩ := htail
          exact .inr ⟨middle, hevent, htail⟩
  · rintro (⟨middle, hevent, htail⟩ | ⟨middle, hevent, htail⟩)
    · exact .inl ⟨'.' :: middle, hevent, by simpa using htail⟩
    · exact .inr ⟨'.' :: middle, hevent, by simpa using htail⟩

theorem not_overlaps_of_dotFree {first second : Text × Text}
    (hfirst : '.' ∉ first.2) (hsecond : '.' ∉ second.2) :
    ¬Overlaps first second := by
  rintro (⟨middle, -, h⟩ | ⟨middle, -, h⟩)
  · exact hfirst (h ▸ by simp)
  · exact hsecond (h ▸ by simp)

theorem stagingName_ne_backupName (event transferId event' : Text) :
    stagingName event transferId ≠ backupName event' := by
  intro h
  have hstaging : stagingName event transferId =
      (("." : Text) ++ event ++ "." ++ transferId ++ ".par") ++ ['t'] := by
    simp [stagingName]
  have hbackup : backupName event' =
      (("." : Text) ++ event' ++ ".backu") ++ ['p'] := by
    simp [backupName]
  have hlast := congrArg List.getLast? (hstaging.symm.trans (h.trans hbackup))
  rw [List.getLast?_concat, List.getLast?_concat] at hlast
  exact absurd hlast (by decide)

theorem head?_of_matchesEventName {name : Text}
    (h : matchesEventName name = true) :
    ∃ first rest, name = first :: rest ∧ first.isAlphanum = true := by
  cases name with
  | nil => simp [matchesEventName] at h
  | cons first rest =>
      simp only [matchesEventName, Bool.and_eq_true] at h
      exact ⟨first, rest, rfl, h.1⟩

/-- A published name never starts with a dot, unlike staging and backup names. -/
theorem dot_cons_ne_of_matchesEventName {name rest : Text}
    (h : matchesEventName name = true) : '.' :: rest ≠ name := by
  obtain ⟨first, tail, rfl, hfirst⟩ := head?_of_matchesEventName h
  intro heq
  cases heq
  exact absurd hfirst (by decide)

theorem stagingName_ne_of_matchesEventName {name : Text}
    (h : matchesEventName name = true) (event transferId : Text) :
    stagingName event transferId ≠ name :=
  dot_cons_ne_of_matchesEventName h

theorem backupName_ne_of_matchesEventName {name : Text}
    (h : matchesEventName name = true) (event : Text) :
    backupName event ≠ name :=
  dot_cons_ne_of_matchesEventName h

end DataCache.Receiver
