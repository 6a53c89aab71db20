import DataCache.Foundation.Answers
import DataCache.Receiver.Published

/-!
# Receivers that answer alike

Two receivers with the same tables whose staging directories hold the same files
give the same answers for ever, provided that the directories they differ in
stand at paths that no chunk can name any more: another spelling of the path is
registered, so the chunk is turned away before it reaches the disk.
-/

namespace DataCache.Receiver

open DataCache.Foundation

/-! ## The tables of a transfer -/

/-- Files in the table are registered and within their declared size. -/
def Listed (runtime : Runtime) (state : TransferState) : Prop :=
  ∀ relative file, state.files.get? relative = some file →
    state.canonicalPaths.get? (runtime.casefold relative) = some relative ∧
      file.receivedBytes ≤ file.expectedBytes

theorem fileFor_le {runtime : Runtime} {state : TransferState}
    (h : Listed runtime state) (relative : Text) (totalBytes : Nat) :
    (state.fileFor relative totalBytes).receivedBytes ≤
      (state.fileFor relative totalBytes).expectedBytes := by
  unfold TransferState.fileFor
  cases hget : state.files.get? relative with
  | none => exact Nat.zero_le _
  | some file => exact (h relative file hget).2

theorem storeData_le {fault : WriteFault} {tree? : Option Tree}
    {path : List Text} {relative : Text} {file : FileState} {offset : Nat}
    {data : Bytes} (h : file.receivedBytes ≤ file.expectedBytes) :
    (storeData fault tree? path relative file offset data).2.1.receivedBytes ≤
      (storeData fault tree? path relative file offset data).2.1.expectedBytes := by
  unfold storeData
  split
  · exact h
  next hroom =>
    split
    · exact h
    next made _ =>
      split
      · exact h
      · split
        · exact h
        · cases writeChunk fault made path offset data with
          | mk result written =>
              cases result with
              | error error => exact h
              | ok _ => exact Nat.not_lt.mp hroom

theorem Listed.storeChunk {runtime : Runtime} {fault : WriteFault}
    {state : TransferState} (h : Listed runtime state) {tree? : Option Tree}
    {request : Request} :
    Listed runtime (storeChunk runtime fault state tree? request).2.1 := by
  by_cases hfree : ∃ parts, safeRelative request.filePath = some parts ∧
      ¬Blocked runtime state parts
  · obtain ⟨parts, hsafe, hfree⟩ := hfree
    rw [storeChunk_eq hsafe hfree]
    intro relative file hget
    dsimp only at hget ⊢
    rw [TransferState.setFile, TransferState.register, Dict.get?_set] at hget
    rw [TransferState.setFile, TransferState.register, Dict.get?_set]
    split at hget
    next heq =>
      subst heq
      rw [Option.some.injEq] at hget
      refine ⟨if_pos rfl, ?_⟩
      subst hget
      split
      · exact fileFor_le h _ _
      · exact storeData_le (fileFor_le h _ _)
    next hne =>
      obtain ⟨hcanonical, hle⟩ := h relative file hget
      refine ⟨?_, hle⟩
      split
      next heq =>
        -- The path of the chunk is not blocked, so the entry is its own.
        have hsame : ¬∃ other, state.canonicalPaths.get?
            (runtime.casefold (joinPath parts)) = some other ∧
              other ≠ joinPath parts := hfree
        rw [heq] at hsame
        exact absurd ⟨relative, hcanonical, Ne.symm hne⟩ hsame
      · exact hcanonical
  · simp only [not_exists, not_and, not_not] at hfree
    obtain ⟨message, hstore⟩ := storeChunk_turned_away hfree
    rw [hstore]
    exact h

/-! ## The invariant -/

/-- What holds of every active transfer, whoever shares its directory. -/
structure Registered (runtime : Runtime) (node : Node) : Prop where
  keyed : ∀ key state, node.transfers.get? key = some state → state.key = key
  named : ∀ key state, node.transfers.get? key = some state →
    (validateEventName key.1).isSome = true ∧
      (validateEventName key.2).isSome = true
  listed : ∀ key state, node.transfers.get? key = some state →
    Listed runtime state

namespace Registered

variable {runtime : Runtime} {node : Node}

theorem start (inbox : Dict Text Tree) :
    Registered runtime ⟨inbox, Dict.empty⟩ :=
  ⟨nofun, nofun, nofun⟩

theorem sub (h : Registered runtime node) {node' : Node}
    (hsub : ∀ key state, node'.transfers.get? key = some state →
      node.transfers.get? key = some state) : Registered runtime node' :=
  ⟨fun key state hget => h.keyed key state (hsub key state hget),
    fun key state hget => h.named key state (hsub key state hget),
    fun key state hget => h.listed key state (hsub key state hget)⟩

theorem prune (h : Registered runtime node) (now : Time) :
    Registered runtime (pruneIdleTransfers now node) :=
  h.sub fun _ _ => active_pruneIdleTransfers

theorem set (h : Registered runtime node) {key : Text × Text}
    {state : TransferState} (hkey : state.key = key)
    (hnamed : (validateEventName key.1).isSome = true ∧
      (validateEventName key.2).isSome = true)
    (hlisted : Listed runtime state) (inbox : Dict Text Tree) :
    Registered runtime ⟨inbox, node.transfers.set key state⟩ := by
  refine ⟨fun other found hget => ?_, fun other found hget => ?_,
    fun other found hget => ?_⟩ <;>
    rw [Dict.get?_set] at hget <;> split at hget
  next heq => cases hget; exact hkey.trans heq
  next => exact h.keyed other found hget
  next heq => cases heq; exact hnamed
  next => exact h.named other found hget
  next => cases hget; exact hlisted
  next => exact h.listed other found hget

theorem put (h : Registered runtime node) {key : Text × Text}
    {state : TransferState} (hget : node.transfers.get? key = some state)
    (now : Time) : Registered runtime (putTransfer node (touch state now)) := by
  have hkey : (touch state now).key = key := h.keyed key state hget
  rw [putTransfer, hkey]
  exact h.set hkey (h.named key state hget) (h.listed key state hget) _

theorem dispatch (h : Registered runtime node) (clock : Clock)
    (fault : WriteFault) (request : Request) :
    Registered runtime (Receiver.dispatch runtime clock fault node request).2 := by
  have hpruned := h.prune clock.pruneAt
  cases hdispatch : Receiver.dispatch runtime clock fault node request with
  | mk reply node' =>
  rcases dispatch_cases hdispatch with ⟨rfl, -⟩ | ⟨hevent, htransfer, hhandled⟩
  · exact hpruned
  · cases hhandled with
    | unchanged => exact hpruned
    | begun now _ _ =>
        have hnamed : (validateEventName request.eventName).isSome = true ∧
            (validateEventName request.transferId).isSome = true :=
          ⟨by rw [hevent]; rfl, by rw [htransfer]; rfl⟩
        have hlisted : Listed runtime ⟨request.eventName, request.transferId,
            request.fileCount, request.totalBytes, Dict.empty, Dict.empty, now⟩ :=
          fun _ _ hget => by cases hget
        exact @Registered.set runtime _ hpruned
          (request.eventName, request.transferId) _ rfl hnamed hlisted _
    | @chunk state state' _ tree? now fault _ hstate hchunk =>
        have hkey : state.key = _ := hpruned.keyed _ state hstate
        have hlisted : Listed runtime (touch state now) :=
          hpruned.listed _ state hstate
        have hnext : Listed runtime state' := by
          have hstored := @Listed.storeChunk runtime fault _ hlisted
            ((pruneIdleTransfers clock.pruneAt node).inbox.get? state.stagingDir)
            request
          rwa [hchunk] at hstored
        have hsame := (@storeChunk_key runtime fault (touch state now)
          ((pruneIdleTransfers clock.pruneAt node).inbox.get? state.stagingDir)
          request).2
        rw [hchunk] at hsame
        have hkey' : state'.key = _ := hsame.trans hkey
        rw [hkey]
        exact hpruned.set hkey' (hpruned.named _ state hstate) hnext _
    | @ended state _ _ now _ hstate hfinish =>
        have hput := hpruned.put hstate now
        rcases finish_cases hfinish with ⟨rfl, -⟩ | ⟨tree, -, -, rfl, -⟩
        · exact hput
        · refine hput.sub fun key found hget => ?_
          rw [transfers_publish, Dict.get?_erase] at hget
          split at hget
          · cases hget
          · exact hget

end Registered

theorem Reachable.registered {runtime : Runtime}
    {allowed : Node → Request → Prop} {node : Node}
    (h : Reachable runtime allowed node) : Registered runtime node := by
  induction h with
  | start inbox => exact .start inbox
  | request clock fault request _ _ ih => exact ih.dispatch clock fault request

/-! ## Directories that hold the same files -/

/-- The same files, and the same directories where nothing is blocked. -/
structure Close (blocked : List Text → Prop) (first second : Option Tree) :
    Prop where
  files : (first.getD DirTree.empty).files = (second.getD DirTree.empty).files
  dirs : ∀ path, ¬blocked path →
    (first.getD DirTree.empty).isDir path = (second.getD DirTree.empty).isDir path

theorem Close.refl (blocked : List Text → Prop) (tree? : Option Tree) :
    Close blocked tree? tree? :=
  ⟨rfl, fun _ _ => rfl⟩

/-- A directory and every missing ancestor, in both or in neither. -/
theorem Close.mkdirs {blocked : List Text → Prop} {first second : Option Tree}
    (h : Close blocked first second) (path : List Text) :
    ((first.getD DirTree.empty).mkdirs path = none ∧
        (second.getD DirTree.empty).mkdirs path = none) ∨
      ∃ made made', (first.getD DirTree.empty).mkdirs path = some made ∧
        (second.getD DirTree.empty).mkdirs path = some made' ∧
        Close blocked (some made) (some made') := by
  have hsome : ((first.getD DirTree.empty).mkdirs path).isSome =
      ((second.getD DirTree.empty).mkdirs path).isSome := by
    rw [Bool.eq_iff_iff, DirTree.mkdirs_isSome, DirTree.mkdirs_isSome]
    simp only [DirTree.isFile, h.files]
  cases hmade : (first.getD DirTree.empty).mkdirs path with
  | none =>
      rw [hmade, Option.isSome_none, eq_comm, Option.isSome_eq_false_iff,
        Option.isNone_iff_eq_none] at hsome
      exact .inl ⟨rfl, hsome⟩
  | some made =>
      rw [hmade, Option.isSome_some, eq_comm, Option.isSome_iff_exists] at hsome
      obtain ⟨made', hmade'⟩ := hsome
      refine .inr ⟨made, made', rfl, hmade', ?_, fun other hother => ?_⟩
      · exact (DirTree.mkdirs_files hmade).trans
          (h.files.trans (DirTree.mkdirs_files hmade').symm)
      · rw [Option.getD_some, Option.getD_some, Bool.eq_iff_iff,
          DirTree.isDir_mkdirs hmade, DirTree.isDir_mkdirs hmade',
          h.dirs other hother]

theorem Close.write {blocked : List Text → Prop} {first second : Tree}
    (h : Close blocked (some first) (some second)) (path : List Text)
    (content : Bytes) :
    Close blocked (some (first.write path content))
      (some (second.write path content)) :=
  ⟨congrArg (·.set path content) h.files, h.dirs⟩

theorem Close.read? {blocked : List Text → Prop} {first second : Option Tree}
    (h : Close blocked first second) (path : List Text) :
    (first.getD DirTree.empty).read? path =
      (second.getD DirTree.empty).read? path := by
  rw [DirTree.read?, h.files]
  rfl

theorem Close.writeChunk {blocked : List Text → Prop} {first second : Tree}
    (h : Close blocked (some first) (some second)) {path : List Text}
    (hpath : first.isDir path = second.isDir path) (fault : WriteFault)
    (offset : Nat) (data : Bytes) :
    (Receiver.writeChunk fault first path offset data).1 =
        (Receiver.writeChunk fault second path offset data).1 ∧
      Close blocked (some (Receiver.writeChunk fault first path offset data).2)
        (some (Receiver.writeChunk fault second path offset data).2) := by
  have hread : first.read? path = second.read? path := h.read? path
  unfold Receiver.writeChunk
  rw [hpath, hread]
  split
  · exact ⟨rfl, h⟩
  · cases fault with
    | none => exact ⟨rfl, h.write _ _⟩
    | openFails => exact ⟨rfl, h⟩
    | stopsAfter count => exact ⟨rfl, h.write _ _⟩

theorem Close.duplicateReply {blocked : List Text → Prop} {first second : Tree}
    (h : Close blocked (some first) (some second)) {path : List Text}
    (hpath : first.isDir path = second.isDir path) (relative : Text)
    (file : FileState) (offset : Nat) (data : Bytes) :
    Receiver.duplicateReply first path relative file offset data =
      Receiver.duplicateReply second path relative file offset data := by
  have hread : first.read? path = second.read? path := h.read? path
  have hexists : first.pathExists path = second.pathExists path := by
    have hfiles : first.files = second.files := h.files
    rw [DirTree.pathExists, DirTree.pathExists, DirTree.isFile, DirTree.isFile,
      hfiles, hpath]
  rw [Receiver.duplicateReply, Receiver.duplicateReply, hread, hexists]

/-- A chunk whose path is a directory in both or in neither is handled alike. -/
theorem Close.storeData {blocked : List Text → Prop} {first second : Option Tree}
    (h : Close blocked first second) {path : List Text}
    (hpath : (first.getD DirTree.empty).isDir path =
      (second.getD DirTree.empty).isDir path)
    (fault : WriteFault) (relative : Text) (file : FileState) (offset : Nat)
    (data : Bytes) :
    (Receiver.storeData fault first path relative file offset data).1 =
        (Receiver.storeData fault second path relative file offset data).1 ∧
      (Receiver.storeData fault first path relative file offset data).2.1 =
        (Receiver.storeData fault second path relative file offset data).2.1 ∧
      Close blocked
        (Receiver.storeData fault first path relative file offset data).2.2
        (Receiver.storeData fault second path relative file offset data).2.2 := by
  have herror : mkdirError (first.getD DirTree.empty) path.dropLast =
      mkdirError (second.getD DirTree.empty) path.dropLast := by
    have hfile : (first.getD DirTree.empty).isFile path.dropLast =
        (second.getD DirTree.empty).isFile path.dropLast := by
      rw [DirTree.isFile, DirTree.isFile, h.files]
    rw [mkdirError, mkdirError, hfile]
  unfold Receiver.storeData
  split
  · exact ⟨rfl, rfl, h⟩
  · rcases h.mkdirs path.dropLast with
      ⟨hnone, hnone'⟩ | ⟨made, made', hmade, hmade', hclose⟩
    · simp only [hnone, hnone']
      exact ⟨congrArg Reply.raised herror, trivial, h⟩
    · simp only [hmade, hmade']
      have hpath' : made.isDir path = made'.isDir path := by
        rw [Bool.eq_iff_iff, DirTree.isDir_mkdirs hmade,
          DirTree.isDir_mkdirs hmade', hpath]
      split
      · exact ⟨hclose.duplicateReply hpath' relative file offset data, rfl, hclose⟩
      · split
        · exact ⟨rfl, rfl, hclose⟩
        · obtain ⟨hresult, hwritten⟩ := hclose.writeChunk hpath' fault offset data
          cases hfirst : Receiver.writeChunk fault made path offset data with
          | mk result written =>
          cases hsecond : Receiver.writeChunk fault made' path offset data with
          | mk result' written' =>
          rw [hfirst, hsecond] at hresult hwritten
          cases hresult
          cases result with
          | error error => exact ⟨rfl, rfl, hwritten⟩
          | ok _ => exact ⟨rfl, rfl, hwritten⟩

/-- A missing directory is checked as an empty one. -/
theorem checkStaged_getD (runtime : Runtime) (tree? : Option Tree) (total : Nat)
    (relative : Text) (file : FileState) :
    checkStaged runtime tree? total relative file =
      checkStaged runtime (some (tree?.getD DirTree.empty)) total relative file := by
  cases tree? with
  | some tree => rfl
  | none =>
      have hdir : (DirTree.empty : Tree).isDir (splitPath relative) = false := by
        rw [DirTree.isDir, decide_eq_false_iff_not, not_or]
        exact ⟨splitPath_ne_nil _, List.not_mem_nil⟩
      unfold checkStaged
      simp only [stagedSize, Option.getD_none, hdir, Bool.false_eq_true, if_false,
        DirTree.read?_empty, Option.any_none, Option.any_some]

theorem Close.checkStaged {runtime : Runtime} {state : TransferState}
    {first second : Option Tree} (h : Close (Blocked runtime state) first second)
    {relative : Text} {file : FileState}
    (hcanonical : state.canonicalPaths.get? (runtime.casefold relative) =
      some relative) (total : Nat) :
    Receiver.checkStaged runtime first total relative file =
      Receiver.checkStaged runtime second total relative file := by
  have hfree : ¬Blocked runtime state (splitPath relative) := by
    rintro ⟨other, hget, hne⟩
    rw [joinPath_splitPath, hcanonical] at hget
    cases hget
    exact hne (joinPath_splitPath relative).symm
  have hsize : stagedSize runtime (some (first.getD DirTree.empty))
      (splitPath relative) =
        stagedSize runtime (some (second.getD DirTree.empty))
          (splitPath relative) := by
    simp only [stagedSize]
    rw [h.dirs _ hfree, h.read?]
  rw [checkStaged_getD, checkStaged_getD runtime second]
  unfold Receiver.checkStaged
  dsimp only
  rw [hsize, Option.any_some, Option.any_some, h.dirs _ hfree]

theorem findSome?_congr {α β : Type} {f g : α → Option β} {entries : List α}
    (h : ∀ entry ∈ entries, f entry = g entry) :
    entries.findSome? f = entries.findSome? g := by
  induction entries with
  | nil => rfl
  | cons entry entries ih =>
      rw [List.findSome?_cons, List.findSome?_cons, h entry List.mem_cons_self,
        ih fun other hother => h other (List.mem_cons_of_mem _ hother)]

theorem verifyChecksums_congr {runtime : Runtime} {first second : Tree}
    (h : first.files = second.files) (files : Dict Text FileState) :
    verifyChecksums runtime first files = verifyChecksums runtime second files := by
  unfold verifyChecksums
  rw [DirTree.read?, h]
  rfl

theorem Close.mono {blocked blocked' : List Text → Prop}
    {first second : Option Tree} (h : Close blocked first second)
    (hmono : ∀ path, blocked path → blocked' path) :
    Close blocked' first second :=
  ⟨h.files, fun path hpath => h.dirs path (mt (hmono path) hpath)⟩

/-- A registered spelling stays registered. -/
theorem Blocked.storeChunk {runtime : Runtime} {state : TransferState}
    {path : List Text} (h : Blocked runtime state path) (fault : WriteFault)
    (tree? : Option Tree) (request : Request) :
    Blocked runtime (Receiver.storeChunk runtime fault state tree? request).2.1
      path := by
  by_cases hfree : ∃ parts, safeRelative request.filePath = some parts ∧
      ¬Blocked runtime state parts
  · obtain ⟨parts, hsafe, hfree⟩ := hfree
    obtain ⟨other, hget, hne⟩ := h
    rw [storeChunk_eq hsafe hfree]
    refine ⟨other, ?_, hne⟩
    dsimp only
    rw [TransferState.setFile, TransferState.register, Dict.get?_set]
    split
    next heq =>
      rw [← heq] at hget
      by_contra hother
      exact hfree ⟨other, hget, fun hsame => hother (by rw [hsame])⟩
    · exact hget
  · simp only [not_exists, not_and, not_not] at hfree
    obtain ⟨message, hstore⟩ := storeChunk_turned_away hfree
    rw [hstore]
    exact h

/-- A chunk is handled alike over directories close in its own transfer's eyes. -/
theorem storeChunk_alike {runtime : Runtime} {state : TransferState}
    {first second : Option Tree} (h : Close (Blocked runtime state) first second)
    (fault : WriteFault) (request : Request) :
    (storeChunk runtime fault state first request).1 =
        (storeChunk runtime fault state second request).1 ∧
      (storeChunk runtime fault state first request).2.1 =
        (storeChunk runtime fault state second request).2.1 ∧
      ∀ blocked, Close blocked first second →
        Close blocked (storeChunk runtime fault state first request).2.2
          (storeChunk runtime fault state second request).2.2 := by
  by_cases hfree : ∃ parts, safeRelative request.filePath = some parts ∧
      ¬Blocked runtime state parts
  · obtain ⟨parts, hsafe, hfree⟩ := hfree
    rw [storeChunk_eq hsafe hfree, storeChunk_eq hsafe hfree]
    dsimp only
    split
    · exact ⟨rfl, rfl, fun _ hclose => hclose⟩
    · have hpath := h.dirs parts hfree
      obtain ⟨hreply, hfile, -⟩ := h.storeData hpath fault (joinPath parts)
        (state.fileFor (joinPath parts) request.totalBytes) request.offset
        request.data
      exact ⟨hreply, by rw [hfile], fun blocked hclose =>
        (hclose.storeData hpath _ _ _ _ _).2.2⟩
  · simp only [not_exists, not_and, not_not] at hfree
    obtain ⟨message, hstore⟩ := storeChunk_turned_away hfree
    rw [hstore, hstore]
    exact ⟨rfl, rfl, fun _ hclose => hclose⟩

theorem get?_setStaging_ne (inbox : Dict Text Tree) {directory name : Text}
    (tree? : Option Tree) (hne : directory ≠ name) :
    (setStaging inbox directory tree?).get? name = inbox.get? name := by
  cases tree? with
  | none => rfl
  | some tree => exact Dict.get?_set_ne _ _ hne

/-- A staging directory that exists stays, so what is put back is what is there. -/
theorem get?_setStaging_storeChunk (runtime : Runtime) (fault : WriteFault)
    (state : TransferState) (inbox : Dict Text Tree) (request : Request) :
    (setStaging inbox state.stagingDir (storeChunk runtime fault state
        (inbox.get? state.stagingDir) request).2.2).get? state.stagingDir =
      (storeChunk runtime fault state (inbox.get? state.stagingDir)
        request).2.2 := by
  cases hstored : (storeChunk runtime fault state (inbox.get? state.stagingDir)
      request).2.2 with
  | some tree => exact Dict.get?_set_self _ _ _
  | none =>
      cases htree : inbox.get? state.stagingDir with
      | none => exact htree
      | some tree =>
          rw [htree] at hstored
          obtain ⟨tree', htree', -⟩ := storeChunk_outcome
            (Prod.ext rfl (Prod.ext rfl hstored) :
              storeChunk runtime fault state (some tree) request = (_, _, none))
          cases htree'

/-! ## Nodes -/

/-- The same tables, over directories that hold the same files. -/
structure Alike (runtime : Runtime) (first second : Node) : Prop where
  transfers : first.transfers = second.transfers
  staged : ∀ key state, first.transfers.get? key = some state →
    Close (Blocked runtime state) (first.inbox.get? state.stagingDir)
      (second.inbox.get? state.stagingDir)

namespace Alike

variable {runtime : Runtime} {first second : Node}

theorem refl (node : Node) : Alike runtime node node :=
  ⟨rfl, fun _ _ _ => .refl _ _⟩

theorem discard (h : Alike runtime first second) (key : Text × Text)
    (state : TransferState) :
    Alike runtime (Receiver.discard first key state)
      (Receiver.discard second key state) := by
  refine ⟨congrArg (·.erase key) h.transfers, fun other found hget => ?_⟩
  rw [Receiver.discard, Dict.get?_erase] at hget
  rw [Receiver.discard, Receiver.discard, Dict.get?_erase, Dict.get?_erase]
  split at hget
  · cases hget
  · split
    · exact .refl _ _
    · exact h.staged other found hget

theorem pruneEntries {cutoff : Time}
    (entries : List ((Text × Text) × TransferState)) {first second : Node}
    (h : Alike runtime first second) :
    Alike runtime (Receiver.pruneEntries cutoff entries first)
      (Receiver.pruneEntries cutoff entries second) := by
  induction entries generalizing first second with
  | nil => exact h
  | cons entry entries ih =>
      unfold Receiver.pruneEntries
      split
      · exact ih h
      · exact ih (h.discard _ _)

theorem prune (h : Alike runtime first second) (now : Time) :
    Alike runtime (pruneIdleTransfers now first)
      (pruneIdleTransfers now second) := by
  rw [pruneIdleTransfers, pruneIdleTransfers, h.transfers]
  exact h.pruneEntries _

/-- Two new versions of one transfer's directory, and nothing else. -/
theorem set (h : Alike runtime first second) {key : Text × Text}
    {state : TransferState} {directory : Text}
    (hdirectory : state.stagingDir = directory) {tree? tree?' : Option Tree}
    (hclose : ∀ key' other, (first.transfers.set key state).get? key' =
        some other → other.stagingDir = directory →
      Close (Blocked runtime other) tree? tree?') {inbox inbox' : Dict Text Tree}
    (hown : inbox.get? directory = tree?)
    (hown' : inbox'.get? directory = tree?')
    (hinbox : ∀ name, directory ≠ name →
      inbox.get? name = first.inbox.get? name)
    (hinbox' : ∀ name, directory ≠ name →
      inbox'.get? name = second.inbox.get? name) :
    Alike runtime ⟨inbox, first.transfers.set key state⟩
      ⟨inbox', second.transfers.set key state⟩ := by
  refine ⟨congrArg (·.set key state) h.transfers, fun other found hget => ?_⟩
  by_cases hsame : directory = found.stagingDir
  · rw [← hsame, hown, hown']
    exact hclose other found hget hsame.symm
  · rw [hinbox _ hsame, hinbox' _ hsame]
    rw [Dict.get?_set] at hget
    split at hget
    · cases hget
      exact absurd hdirectory.symm hsame
    · exact h.staged other found hget

theorem begin (h : Alike runtime first second) (event transferId : Text)
    (expectedFiles expectedBytes : Nat) (now : Time) :
    (Receiver.begin first event transferId expectedFiles expectedBytes now).1 =
        (Receiver.begin second event transferId expectedFiles expectedBytes
          now).1 ∧
      Alike runtime
        (Receiver.begin first event transferId expectedFiles expectedBytes now).2
        (Receiver.begin second event transferId expectedFiles expectedBytes
          now).2 := by
  unfold Receiver.begin
  rw [h.transfers]
  split
  · exact ⟨rfl, h⟩
  · split
    · exact ⟨rfl, h⟩
    · split
      · exact ⟨rfl, h⟩
      · split
        · exact ⟨rfl, h⟩
        · split
          · exact ⟨rfl, h⟩
          · refine ⟨rfl, ?_⟩
            have hfresh : ∀ (inbox : Dict Text Tree) (directory name : Text),
                directory ≠ name → ((inbox.erase directory).set directory
                  DirTree.empty).get? name = inbox.get? name := by
              intro inbox directory name hne
              rw [Dict.get?_set_ne _ _ hne, Dict.get?_erase_ne _ hne]
            exact h.set rfl (fun _ _ _ _ => .refl _ _) (Dict.get?_set_self _ _ _)
              (Dict.get?_set_self _ _ _) (hfresh _ _) (hfresh _ _)

/-- Touching a transfer changes neither its paths nor its directory. -/
theorem put (h : Alike runtime first second) {key : Text × Text}
    {state : TransferState} (hget : first.transfers.get? key = some state)
    (now : Time) :
    Alike runtime (putTransfer first (touch state now))
      (putTransfer second (touch state now)) := by
  refine h.set rfl (fun key' other hget' hdirectory => ?_) rfl rfl
    (fun _ _ => rfl) fun _ _ => rfl
  rw [Dict.get?_set] at hget'
  split at hget'
  · cases hget'
    exact h.staged key state hget
  · have hother := h.staged key' other hget'
    rw [hdirectory] at hother
    exact hother

/-- A chunk of an active transfer. -/
theorem handleChunk (h : Alike runtime first second) {state : TransferState}
    (hget : first.transfers.get? state.key = some state) (fault : WriteFault)
    (request : Request) :
    (Receiver.handleChunk runtime fault first state request).1 =
        (Receiver.handleChunk runtime fault second state request).1 ∧
      Alike runtime (Receiver.handleChunk runtime fault first state request).2
        (Receiver.handleChunk runtime fault second state request).2 := by
  have hown := h.staged state.key state hget
  obtain ⟨hreply, hstate, hclose⟩ := storeChunk_alike hown fault request
  refine ⟨hreply, ?_⟩
  have hkey := (@storeChunk_key runtime fault state
    (first.inbox.get? state.stagingDir) request).2
  have hdirectory : (storeChunk runtime fault state
      (first.inbox.get? state.stagingDir) request).2.1.stagingDir =
        state.stagingDir := by
    have hnames := Prod.ext_iff.mp hkey
    exact congrArg₂ stagingName hnames.1 hnames.2
  unfold Receiver.handleChunk
  dsimp only
  rw [← hstate]
  refine h.set hdirectory (fun key' other hother hsame => ?_)
    (get?_setStaging_storeChunk runtime fault state first.inbox request)
    (get?_setStaging_storeChunk runtime fault state second.inbox request)
    (fun _ => get?_setStaging_ne _ _) (fun _ => get?_setStaging_ne _ _)
  rw [Dict.get?_set] at hother
  split at hother
  · cases hother
    exact (hclose _ hown).mono fun path hblocked =>
      hblocked.storeChunk fault _ request
  · have hstaged := h.staged key' other hother
    rw [hsame] at hstaged
    exact hclose _ hstaged

theorem publish (h : Alike runtime first second) {state : TransferState}
    (hnamed : matchesEventName state.event = true) (tree tree' : Tree) :
    Alike runtime (Receiver.publish first state tree)
      (Receiver.publish second state tree') := by
  refine ⟨congrArg (·.erase state.key) h.transfers, fun key other hget => ?_⟩
  rw [transfers_publish, Dict.get?_erase] at hget
  have hbackup : backupName state.event ≠ other.stagingDir :=
    (stagingName_ne_backupName _ _ _).symm
  have hfinal : state.finalDir ≠ other.stagingDir :=
    (stagingName_ne_of_matchesEventName hnamed _ _).symm
  rw [get?_inbox_publish, get?_inbox_publish, if_neg hbackup, if_neg hbackup,
    if_neg hfinal, if_neg hfinal]
  split at hget
  · cases hget
  · split
    · exact .refl _ _
    · exact h.staged key other hget

theorem finish (h : Alike runtime first second) {state : TransferState}
    (hget : first.transfers.get? state.key = some state)
    (hlisted : Listed runtime state)
    (hnamed : matchesEventName state.event = true) :
    (Receiver.finish runtime first state).1 =
        (Receiver.finish runtime second state).1 ∧
      Alike runtime (Receiver.finish runtime first state).2
        (Receiver.finish runtime second state).2 := by
  have hclose := h.staged state.key state hget
  have hchecked : (state.files.entries.findSome? fun entry =>
        checkStaged runtime (first.inbox.get? state.stagingDir)
          (receivedTotal state) entry.1 entry.2) =
      state.files.entries.findSome? fun entry =>
        checkStaged runtime (second.inbox.get? state.stagingDir)
          (receivedTotal state) entry.1 entry.2 := by
    refine findSome?_congr fun entry hentry => ?_
    have hlisted := (hlisted _ _ (state.files.mem_entries_iff.mp hentry)).1
    exact hclose.checkStaged hlisted _
  unfold Receiver.finish
  dsimp only
  rw [hchecked]
  split
  · exact ⟨rfl, h⟩
  · split
    · exact ⟨rfl, h⟩
    · split
      · exact ⟨rfl, h⟩
      · -- A directory without files lacks the manifest, as a missing one does.
        have hmissing : ∀ {tree : Tree}, tree.files = (DirTree.empty : Tree).files →
            verifyChecksums runtime tree state.files =
              .ok (some "manifest.sha256 is required") := by
          intro tree hempty
          rw [verifyChecksums_congr hempty, verifyChecksums, DirTree.read?_empty]
        have hfiles := hclose.files
        cases hfirst : first.inbox.get? state.stagingDir with
        | none =>
            cases hsecond : second.inbox.get? state.stagingDir with
            | none => exact ⟨rfl, h⟩
            | some tree' =>
                rw [hfirst, hsecond] at hfiles
                have hempty : tree'.files = (DirTree.empty : Tree).files :=
                  hfiles.symm
                simp only [hmissing hempty]
                exact ⟨trivial, h⟩
        | some tree =>
            cases hsecond : second.inbox.get? state.stagingDir with
            | none =>
                rw [hfirst, hsecond] at hfiles
                have hempty : tree.files = (DirTree.empty : Tree).files := hfiles
                simp only [hmissing hempty]
                exact ⟨trivial, h⟩
            | some tree' =>
                rw [hfirst, hsecond] at hfiles
                have hsame := @verifyChecksums_congr runtime _ _ hfiles state.files
                simp only [Option.getD_some] at hsame
                simp only [hsame]
                split
                · exact ⟨rfl, h⟩
                · exact ⟨rfl, h⟩
                · exact ⟨rfl, h.publish hnamed tree tree'⟩

theorem dispatchPruned (h : Alike runtime first second)
    (hfirst : Registered runtime first) (now : Time) (fault : WriteFault)
    (event transferId : Text) (request : Request) :
    (Receiver.dispatchPruned runtime now fault first event transferId request).1 =
        (Receiver.dispatchPruned runtime now fault second event transferId
          request).1 ∧
      Alike runtime
        (Receiver.dispatchPruned runtime now fault first event transferId
          request).2
        (Receiver.dispatchPruned runtime now fault second event transferId
          request).2 := by
  unfold Receiver.dispatchPruned
  rw [← h.transfers]
  split
  · exact h.begin _ _ _ _ _
  · split
    · exact ⟨rfl, h⟩
    next state hstate =>
      have hkey : (touch state now).key = (event, transferId) :=
        hfirst.keyed _ state hstate
      have hput := h.put hstate now
      have hown : (putTransfer first (touch state now)).transfers.get?
          (touch state now).key = some (touch state now) :=
        Dict.get?_set_self _ _ _
      split
      · -- Storing the touched transfer first makes no difference.
        have hstored := hput.handleChunk hown fault request
        simp only [Receiver.handleChunk, putTransfer, Dict.set_set] at hstored
        exact hstored
      · split
        · have hnamed := (hfirst.named _ state hstate).1
          obtain ⟨event', hevent⟩ := Option.isSome_iff_exists.mp hnamed
          have hmatches := (validateEventName_eq_some hevent).2.2
          have hsame : (touch state now).event = event :=
            (Prod.ext_iff.mp hkey).1
          exact hput.finish hown (hfirst.listed _ state hstate)
            (hsame ▸ hmatches)
        · exact ⟨rfl, h⟩

theorem dispatch (h : Alike runtime first second)
    (hfirst : Registered runtime first) (clock : Clock) (fault : WriteFault)
    (request : Request) :
    (Receiver.dispatch runtime clock fault first request).1 =
        (Receiver.dispatch runtime clock fault second request).1 ∧
      Alike runtime (Receiver.dispatch runtime clock fault first request).2
        (Receiver.dispatch runtime clock fault second request).2 := by
  have hpruned := h.prune clock.pruneAt
  unfold Receiver.dispatch
  dsimp only
  split
  · exact hpruned.dispatchPruned (hfirst.prune _) _ _ _ _ _
  · exact ⟨rfl, hpruned⟩

end Alike

/-! ## Answers -/

/-- One request, at a time and with the write fault it meets. -/
abbrev Incoming := Clock × WriteFault × Request

def answer (runtime : Runtime) (node : Node) (incoming : Incoming) :
    Response × Node :=
  handleRequest runtime incoming.1 incoming.2.1 node incoming.2.2

/-- No later request tells the two receivers apart. -/
theorem Alike.indistinguishable {runtime : Runtime} {first second : Node}
    (h : Alike runtime first second) (hfirst : Registered runtime first) :
    Indistinguishable (answer runtime) first second := by
  have hkept : Bisimulation (answer runtime) fun first second =>
      Alike runtime first second ∧ Registered runtime first := by
    refine ⟨fun first second incoming ⟨halike, hregistered⟩ => ?_,
      fun first second incoming ⟨halike, hregistered⟩ => ?_⟩
    · exact congrArg (Reply.toResponse runtime)
        (halike.dispatch hregistered _ _ _).1
    · exact ⟨(halike.dispatch hregistered _ _ _).2,
        hregistered.dispatch _ _ _⟩
  exact hkept.indistinguishable ⟨h, hfirst⟩

end DataCache.Receiver
