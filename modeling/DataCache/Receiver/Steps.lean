import DataCache.Foundation.Prog
import DataCache.Receiver.Cases
import DataCache.Receiver.Staging

/-!
# Publication in single steps

What `finish` does after its checks, and the recovery pass of a restart, as
programs over the file-system calls they make below the inbox.  A removal
ignores errors and may leave any part of the tree behind.
-/

namespace DataCache.Receiver

open DataCache.Foundation

/-- `none` is the inbox itself. -/
inductive InboxOp where
  | removeTree (name : Text)
  | syncDirectory (name : Option Text)
  | exists (name : Text)
  | replace (source target : Text)
  | globBackups

/-- The calls that can raise answer whether they did not. -/
def InboxOp.Res : InboxOp → Type
  | removeTree _ => Unit
  | syncDirectory _ => Bool
  | «exists» _ => Bool
  | replace _ _ => Bool
  | globBackups => List Text

inductive OSError where
  | raised
  deriving DecidableEq

abbrev Steps (α : Type) : Type := Prog InboxOp.Res OSError α

def perform (op : InboxOp) : Steps op.Res := .call op .ret

def orRaise (p : Steps Bool) : Steps Unit := do
  let done ← p
  if done then return
  else .raise .raised

/-! ## The publication -/

/-- A copy that is already there is kept as the backup. -/
def moveAside (state : TransferState) : Steps Unit := do
  let previous : Bool ← perform (.exists state.finalDir)
  if previous then
    orRaise (perform (.replace state.finalDir (backupName state.event)))
  else return

/-- The exception handler; it raises again. -/
def rollBack (state : TransferState) : Steps Unit := do
  let backup : Bool ← perform (.exists (backupName state.event))
  if !backup then .raise .raised
  else
    let final : Bool ← perform (.exists state.finalDir)
    if final then .raise .raised
    else
      orRaise (perform (.replace (backupName state.event) state.finalDir))
      .raise .raised

def putInPlace (state : TransferState) : Steps Unit := do
  let replaced : Bool ← perform (.replace state.stagingDir state.finalDir)
  if replaced then return
  else rollBack state

def publishSteps (state : TransferState) : Steps Unit := do
  orRaise (perform (.syncDirectory (some state.stagingDir)))
  perform (.removeTree (backupName state.event))
  orRaise (perform (.syncDirectory none))
  moveAside state
  putInPlace state
  perform (.removeTree (backupName state.event))
  orRaise (perform (.syncDirectory none))

/-! ## The recovery -/

/-- `backup.name[1:-len(".backup")]` -/
def backupEvent (name : Text) : Text :=
  (name.take (name.length - (".backup" : Text).length)).drop 1

/-- The pattern `.*.backup`. -/
def isBackup (name : Text) : Bool :=
  name.head? == some '.' && (".backup" : Text).isSuffixOf (name.drop 1)

def recoverBackup (name : Text) : Steps Unit :=
  if (validateEventName (backupEvent name)).isNone then return
  else do
    let final : Bool ← perform (.exists (backupEvent name))
    if final then perform (.removeTree name)
    else orRaise (perform (.replace name (backupEvent name)))

def recoverAll : List Text → Steps Unit
  | [] => return
  | name :: rest => do
      recoverBackup name
      recoverAll rest

def recoverBackups : Steps Unit := do
  let (names : List Text) ← perform .globBackups
  recoverAll names

/-! ## Effects -/

/-- A part of a tree that a removal left behind. -/
def Leftover (tree rest : Tree) : Prop :=
  rest.files.entries ⊆ tree.files.entries ∧ rest.dirs ⊆ tree.dirs

/-- A directory that another one may be renamed onto. -/
def isEmptyTree (tree : Tree) : Bool :=
  tree.files.entries.isEmpty && tree.dirs.all List.isEmpty

def isStaging (name : Text) : Bool :=
  name.head? == some '.' && (".part" : Text).isSuffixOf name

/-- The inbox, and the names a staging directory was ever renamed to. -/
structure Shelf where
  inbox : Dict Text Tree
  published : List Text
  deriving DecidableEq

def Shelf.move (s : Shelf) (source target : Text) (tree : Tree) : Shelf where
  inbox := (s.inbox.erase source).set target tree
  published := if isStaging source then s.published ++ [target] else s.published

/-- The renames that put a backup back where nothing is. -/
def Restores (s : Shelf) (source target : Text) : Prop :=
  source = backupName target ∧ s.inbox.get? source ≠ none ∧
    s.inbox.get? target = none

def ListsBackups (s : Shelf) (names : List Text) : Prop :=
  ∀ name, name ∈ names ↔ s.inbox.get? name ≠ none ∧ isBackup name = true

/--
What the calls may do.  Every rename may fail, except one that puts a backup
back; a rename onto a directory that is not empty does fail.
-/
def InboxEffect : Prog.Effect InboxOp.Res Shelf
  | s, .removeTree name, _, s' =>
      s' = { s with inbox := s.inbox.erase name } ∨
        ∃ tree rest, s.inbox.get? name = some tree ∧ Leftover tree rest ∧
          s' = { s with inbox := s.inbox.set name rest }
  | s, .syncDirectory _, _, s' => s' = s
  | s, .exists name, found, s' => found = (s.inbox.get? name).isSome ∧ s' = s
  | s, .replace source target, replaced, s' =>
      (replaced = true ∧ ∃ tree, s.inbox.get? source = some tree ∧
        (s.inbox.get? target).all isEmptyTree = true ∧
        s' = s.move source target tree) ∨
      (replaced = false ∧ s' = s ∧ ¬Restores s source target)
  | s, .globBackups, names, s' => s' = s ∧ ListsBackups s names

/-- An inbox where nothing fails. -/
def Shelf.respond (s : Shelf) : (op : InboxOp) → op.Res × Shelf
  | .removeTree name => ((), { s with inbox := s.inbox.erase name })
  | .syncDirectory _ => (true, s)
  | .exists name => ((s.inbox.get? name).isSome, s)
  | .replace source target =>
      match s.inbox.get? source with
      | some tree =>
          if (s.inbox.get? target).all isEmptyTree then
            (true, s.move source target tree)
          else (false, s)
      | none => (false, s)
  | .globBackups => (s.inbox.keys.filter isBackup, s)

theorem inboxEffect_respond (s : Shelf) (op : InboxOp) :
    InboxEffect s op (s.respond op).1 (s.respond op).2 := by
  cases op with
  | removeTree name => exact .inl rfl
  | syncDirectory name => rfl
  | «exists» name => exact ⟨rfl, rfl⟩
  | globBackups =>
      refine ⟨rfl, fun name => ?_⟩
      rw [Shelf.respond, List.mem_filter, Dict.mem_keys_iff,
        ← Option.isSome_iff_exists, Option.isSome_iff_ne_none]
  | replace source target =>
      simp only [Shelf.respond]
      cases hsource : s.inbox.get? source with
      | none =>
          exact .inr ⟨rfl, rfl, fun h => h.2.1 hsource⟩
      | some tree =>
          dsimp only
          split
          next hempty => exact .inl ⟨rfl, tree, hsource, hempty, rfl⟩
          next hfull =>
            refine .inr ⟨rfl, rfl, fun h => hfull ?_⟩
            rw [h.2.2]
            rfl

/-! ## Names -/

theorem isStaging_stagingName (event transferId : Text) :
    isStaging (stagingName event transferId) = true := by
  have hpart : (".part" : Text) <:+ stagingName event transferId :=
    List.suffix_append _ _
  simp only [isStaging, Bool.and_eq_true]
  refine ⟨?_, List.isSuffixOf_iff_suffix.mpr hpart⟩
  simp [stagingName]

theorem backupName_eq (event : Text) :
    backupName event = '.' :: (event ++ (".backup" : Text)) := by
  simp [backupName]

theorem not_isStaging_backupName (event : Text) :
    isStaging (backupName event) = false := by
  rw [← Bool.not_eq_true]
  intro h
  simp only [isStaging, Bool.and_eq_true] at h
  obtain ⟨start, hstart⟩ := List.isSuffixOf_iff_suffix.mp h.2
  have hpart : start ++ (".part" : Text) = (start ++ (".par" : Text)) ++ ['t'] := by
    simp
  have hbackup : backupName event =
      (("." : Text) ++ event ++ ".backu") ++ ['p'] := by
    simp [backupName]
  have hlast := congrArg List.getLast? (hpart.symm.trans (hstart.trans hbackup))
  rw [List.getLast?_concat, List.getLast?_concat] at hlast
  exact absurd hlast (by decide)

theorem not_isStaging_of_matchesEventName {name : Text}
    (h : matchesEventName name = true) : isStaging name = false := by
  cases name with
  | nil => rfl
  | cons first rest =>
      have hne : first ≠ '.' := by
        rintro rfl
        exact dot_cons_ne_of_matchesEventName h rfl
      simp [isStaging, hne]

theorem isBackup_backupName (event : Text) : isBackup (backupName event) = true := by
  rw [backupName_eq]
  simp only [isBackup, List.head?_cons, BEq.rfl, Bool.true_and, List.drop_one,
    List.tail_cons]
  exact List.isSuffixOf_iff_suffix.mpr (List.suffix_append _ _)

theorem backupEvent_backupName (event : Text) :
    backupEvent (backupName event) = event := by
  rw [backupName_eq, backupEvent]
  have hlength : ('.' :: (event ++ (".backup" : Text))).length -
      (".backup" : Text).length = event.length + 1 := by
    rw [List.length_cons, List.length_append]
    omega
  rw [hlength, List.take_succ_cons, List.take_left, List.drop_one,
    List.tail_cons]

/-- A name the pattern matches is a backup name. -/
theorem eq_backupName_of_isBackup {name : Text} (h : isBackup name = true) :
    name = backupName (backupEvent name) := by
  simp only [isBackup, Bool.and_eq_true, beq_iff_eq] at h
  obtain ⟨hhead, hsuffix⟩ := h
  cases name with
  | nil => cases hhead
  | cons first rest =>
      cases hhead
      obtain ⟨event, hevent⟩ := List.isSuffixOf_iff_suffix.mp hsuffix
      have hrest : rest = event ++ (".backup" : Text) := hevent.symm
      subst hrest
      rw [← backupName_eq, backupEvent_backupName]

theorem backupName_injective : Function.Injective backupName := by
  intro event event' h
  rw [← backupEvent_backupName event, h, backupEvent_backupName]

end DataCache.Receiver
