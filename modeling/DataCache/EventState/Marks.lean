import DataCache.EventState.Markers

/-!
# What the marker operations do to the markers

Of a store only the three markers of one event directory matter here.  Every
operation either leaves them alone, installs one by a rename, or removes one;
the rules below run the marker programs over this view.  Other activity may
change everything else in the store at any moment.
-/

namespace DataCache.EventState

open DataCache.Foundation DataCache.Storage

inductive Marker where
  | pending
  | complete
  | failed
  deriving DecidableEq

def Marker.name : Marker → Text
  | pending => ".pending"
  | complete => ".complete"
  | failed => ".failed"

theorem Marker.name_injective : Function.Injective Marker.name := by
  intro first second h
  cases first <;> cases second <;> first | rfl | exact absurd h (by decide)

def Marker.path (marker : Marker) (directory : Text) : Path :=
  markerPath directory marker.name

theorem Marker.path_inj {first second : Marker} {directory other : Text}
    (h : first.path directory = second.path other) :
    first = second ∧ directory = other := by
  simp only [Marker.path, markerPath, List.cons.injEq, and_true] at h
  exact ⟨Marker.name_injective h.2, h.1⟩

theorem tempPath_ne_path (marker other : Marker) (directory directory' : Text) :
    tempPath (marker.path directory) ≠ other.path directory' := by
  intro h
  simp only [Marker.path, markerPath, tempPath, List.dropLast_cons_cons,
    List.dropLast_singleton, List.getLastD_cons, List.getLastD_nil,
    List.cons_append, List.nil_append, List.cons.injEq, and_true] at h
  exact absurd h.2 (by cases marker <;> cases other <;> decide)

/-! ## Executions with other activity -/

/-- The store with what happened to it: which renames were executed, and whether
every temporary file since the last restart was written. -/
structure Tracked where
  store : Store
  begun : Bool
  published : Bool
  clean : Bool

def installs (directory : Text) (marker : Marker) : FsOp → Bool
  | .rename _ target => decide (target = marker.path directory)
  | _ => false

def removes (directory : Text) (marker : Marker) : FsOp → Bool
  | .remove path => decide (path = marker.path directory)
  | _ => false

def wroteTemp : (op : FsOp) → op.Res → Bool
  | .createDirectories _, r => r
  | .openTrunc _, r => r
  | .append _ _, r => r
  | _, _ => true

/-- Renames, removals, existence checks and listings do not fail. -/
def reliable : (op : FsOp) → op.Res → Bool
  | .rename _ _, r => r
  | .remove _, r => r
  | .exists _, r => Option.isSome r
  | .listDirectories, r => r.2
  | _, _ => true

def track (directory : Text) (s : Tracked) (op : FsOp) (r : op.Res)
    (store : Store) : Tracked where
  store := store
  begun := s.begun || installs directory .pending op
  published := s.published || installs directory .complete op
  clean := s.clean && wroteTemp op r

/-- Other activity leaves the directory and its markers alone. -/
structure Elsewhere (directory : Text) (s s' : Store) : Prop where
  own : s'.disk.node? [directory] = s.disk.node? [directory]
  markers : ∀ marker : Marker, s'.disk.node? (marker.path directory) =
    s.disk.node? (marker.path directory)

def TrackedEffect (codec : Codec) (directory : Text) :
    Prog.Effect FsOp.Res Tracked := fun s op r s' =>
  ∃ before during after, Elsewhere directory s.store before ∧
    Effect codec before op r during ∧ reliable op r = true ∧
    Elsewhere directory during after ∧ s' = track directory s op r after

/-! ## The view of the markers -/

structure Marks where
  present : Marker → Bool
  directory : Bool
  begun : Bool
  published : Bool
  clean : Bool

def view (directory : Text) (s : Tracked) : Marks where
  present marker := (s.store.disk.node? (marker.path directory)).isSome
  directory := s.store.disk.isDir [directory]
  begun := s.begun
  published := s.published
  clean := s.clean

/-- The operations marker programs use touch markers only by rename and remove. -/
def Placed (directory : Text) : FsOp → Prop
  | .createDirectories path => path.length ≤ 1
  | .openTrunc path => path.length = 2 ∧ ∀ marker : Marker,
      path ≠ marker.path directory
  | .append path _ => path.length = 2 ∧ ∀ marker : Marker,
      path ≠ marker.path directory
  | .rename source target => source.length = 2 ∧ target.length = 2 ∧
      ∀ marker : Marker, source ≠ marker.path directory
  | .syncFile path => path.length = 2 ∧ ∀ marker : Marker,
      path ≠ marker.path directory
  | .remove path => path.length = 2
  | .syncDirectory _ => True
  | .exists _ => True
  | .listDirectories => True
  | .systemNow => True
  | _ => False

/-- What an operation answers, given the markers. -/
def Answers (directory : Text) (m : Marks) : (op : FsOp) → op.Res → Prop
  | .rename _ _, r => r = true
  | .exists path, r => ∀ marker : Marker, path = marker.path directory →
      r = some (m.present marker)
  | .listDirectories, r => m.directory = true → directory ∈ r.1
  | _, _ => True

structure Next (directory : Text) (m : Marks) (op : FsOp) (r : op.Res)
    (m' : Marks) : Prop where
  present : ∀ marker, m'.present marker =
    ((m.present marker && !removes directory marker op) ||
      installs directory marker op)
  kept : m.directory = true → m'.directory = true
  parent : ∀ marker, installs directory marker op = true → m.directory = true
  begun : m'.begun = (m.begun || installs directory .pending op)
  published : m'.published = (m.published || installs directory .complete op)
  clean : m'.clean = (m.clean && wroteTemp op r)
  answers : Answers directory m op r

theorem path_length (marker : Marker) (directory : Text) :
    (marker.path directory).length = 2 := rfl

/-- A well-placed operation that neither installs nor removes a marker. -/
theorem Placed.markers_untouched {directory : Text} {op : FsOp}
    (h : Placed directory op) (marker : Marker)
    (hinstalls : installs directory marker op = false)
    (hremoves : removes directory marker op = false) :
    ¬op.Touches (marker.path directory) := by
  cases op with
  | createDirectories path =>
      intro hstarts
      have hlength := List.IsPrefix.length_le hstarts
      rw [path_length] at hlength
      have hshort : path.length ≤ 1 := h
      omega
  | openTrunc path => exact fun heq => h.2 marker heq.symm
  | append path data => exact fun heq => h.2 marker heq.symm
  | syncFile path => exact fun heq => h.2 marker heq.symm
  | rename source target =>
      rintro (heq | heq)
      · exact h.2.2 marker heq.symm
      · simp [installs, heq] at hinstalls
  | remove path =>
      intro heq
      simp only [removes, decide_eq_false_iff_not] at hremoves
      exact hremoves heq.symm
  | syncDirectory path => exact id
  | «exists» path => exact id
  | listDirectories => exact id
  | systemNow => exact id
  | _ => exact absurd h id

theorem Placed.not_removeAll {directory : Text} {op : FsOp}
    (h : Placed directory op) (target : Path) : op ≠ .removeAll target := by
  rintro rfl
  exact h

theorem Elsewhere.present {directory : Text} {s s' : Store}
    (h : Elsewhere directory s s') (marker : Marker) :
    (s'.disk.node? (marker.path directory)).isSome =
      (s.disk.node? (marker.path directory)).isSome := by
  rw [h.markers marker]

theorem Elsewhere.isDir {directory : Text} {s s' : Store}
    (h : Elsewhere directory s s') :
    s'.disk.isDir [directory] = s.disk.isDir [directory] :=
  Disk.isDir_congr h.own

/-- The markers after an operation, from the markers before it. -/
theorem Effect.present {codec : Codec} {s s' : Store} {op : FsOp} {r : op.Res}
    {directory : Text} (hplaced : Placed directory op) (hreliable : reliable op r = true)
    (h : Effect codec s op r s') (marker : Marker) :
    (s'.disk.node? (marker.path directory)).isSome =
      (((s.disk.node? (marker.path directory)).isSome &&
        !removes directory marker op) || installs directory marker op) := by
  by_cases hinstalls : installs directory marker op = true
  · cases op with
    | rename source target =>
        obtain rfl : target = marker.path directory := by
          simpa [installs] using hinstalls
        rcases h with ⟨-, hfile, -, rfl⟩ | ⟨hfail, -⟩
        · obtain ⟨inode, content, synced, hnode⟩ := Disk.isFile_iff.mp hfile
          rw [hinstalls, Bool.or_true, Store.setDisk,
            Disk.node?_rename_target hnode, Option.isSome_some]
        · exact absurd (hfail.symm.trans hreliable) Bool.false_ne_true
    | _ => cases hinstalls
  · rw [Bool.not_eq_true] at hinstalls
    by_cases hremoves : removes directory marker op = true
    · cases op with
      | remove path =>
          obtain rfl : path = marker.path directory := by
            simpa [removes] using hremoves
          rcases h with ⟨-, hdir, rfl⟩ | ⟨hfail, -⟩
          · rw [hremoves, hinstalls, Store.setDisk, Disk.node?_remove_self hdir]
            simp
          · exact absurd (hfail.symm.trans hreliable) Bool.false_ne_true
      | _ => cases hremoves
    · rw [Bool.not_eq_true] at hremoves
      rw [hinstalls, hremoves,
        (h.sameAt (hplaced.markers_untouched marker hinstalls hremoves)).node]
      simp

theorem Effect.answers {codec : Codec} {s : Tracked} {store : Store}
    {op : FsOp} {r : op.Res} {directory : Text} (hreliable : reliable op r = true)
    (hbefore : Elsewhere directory s.store store) {after : Store}
    (h : Effect codec store op r after) :
    Answers directory (view directory s) op r := by
  cases op with
  | rename source target => exact hreliable
  | «exists» path =>
      rintro marker rfl
      rcases h with ⟨-, hr | hr⟩
      · rw [hr, Disk.pathExists_eq (by simp [Marker.path, markerPath]),
          hbefore.present marker]
        rfl
      · rw [hr] at hreliable
        cases hreliable
  | listDirectories =>
      intro hdir
      refine h.2.2.2 hreliable directory ?_
      rw [hbefore.isDir]
      exact hdir
  | _ => trivial

theorem TrackedEffect.next {codec : Codec} {directory : Text} {s s' : Tracked}
    {op : FsOp} {r : op.Res} (hplaced : Placed directory op)
    (h : TrackedEffect codec directory s op r s') :
    Next directory (view directory s) op r (view directory s') := by
  obtain ⟨before, during, after, hbefore, heffect, hreliable, hafter, rfl⟩ := h
  refine ⟨fun marker => ?_, fun hdir => ?_, fun marker hinstalls => ?_, rfl, rfl,
    rfl, Effect.answers hreliable hbefore heffect⟩
  · change (after.disk.node? (marker.path directory)).isSome = _
    rw [hafter.present, Effect.present hplaced hreliable heffect, hbefore.present]
    rfl
  · change after.disk.isDir [directory] = true
    rw [hafter.isDir]
    have hdir' : before.disk.isDir [directory] = true := by
      rw [hbefore.isDir]
      exact hdir
    rw [(heffect.sameAt_of_isDir (List.cons_ne_nil _ _) hdir'
      fun target heq => absurd heq (hplaced.not_removeAll target)).isDir, hdir']
  · cases op with
    | rename source target =>
        obtain rfl : target = marker.path directory := by
          simpa [installs] using hinstalls
        rcases heffect with ⟨-, -, hopen, -⟩ | ⟨hfail, -⟩
        · change s.store.disk.isDir [directory] = true
          rw [← hbefore.isDir]
          exact (Bool.and_eq_true _ _ ▸ hopen).1
        · exact nomatch hfail.symm.trans hreliable
    | _ => cases hinstalls

end DataCache.EventState
