import DataCache.Receiver.Node

/-!
# What one chunk can do

Case lemmas for the two halves of `store_chunk`.  They list every way the
request can change the file's state and the staging directory, so the
invariants of the receiver are proved by cases and never unfold the handler.
-/

namespace DataCache.Receiver

open DataCache.Foundation

/-- The ways a chunk changes one file's state and the staged bytes. -/
inductive StoreOutcome (tree : Tree) (path : List Text) (file : FileState)
    (offset : Nat) (data : Bytes) : Reply → FileState → Tree → Prop
  | kept {reply : Reply} {tree' : Tree}
      (hread : ∀ other, tree'.read? other = tree.read? other) :
      StoreOutcome tree path file offset data reply file tree'
  | torn {error : PyError} {tree' : Tree} (count : Nat)
      (hoffset : offset = file.receivedBytes)
      (hread : ∀ other, tree'.read? other =
        if path = other then
          some (overwrite 0 ((tree.read? path).getD []) offset (data.take count))
        else tree.read? other) :
      StoreOutcome tree path file offset data (.raised error) file tree'
  | stored {tree' : Tree} (hoffset : offset = file.receivedBytes)
      (hsize : offset + data.length ≤ file.expectedBytes)
      (hread : ∀ other, tree'.read? other =
        if path = other then
          some (overwrite 0 ((tree.read? path).getD []) offset data)
        else tree.read? other) :
      StoreOutcome tree path file offset data
        (.answer true "chunk stored" (offset + data.length))
        { file with
          hasher := file.hasher ++ data
          receivedBytes := offset + data.length } tree'

theorem writeChunk_cases {fault : WriteFault} {tree tree' : Tree}
    {path : List Text} {offset : Nat} {data : Bytes}
    {result : Except PyError Unit}
    (h : writeChunk fault tree path offset data = (result, tree')) :
    (∃ error, result = .error error ∧ (tree' = tree ∨ ∃ count,
      tree' = tree.write path
        (overwrite 0 ((tree.read? path).getD []) offset (data.take count)))) ∨
    (result = .ok () ∧
      tree' = tree.write path
        (overwrite 0 ((tree.read? path).getD []) offset data)) := by
  unfold writeChunk at h
  split at h
  · cases h
    exact .inl ⟨_, rfl, .inl rfl⟩
  · cases fault with
    | none =>
        cases h
        exact .inr ⟨rfl, rfl⟩
    | openFails =>
        cases h
        exact .inl ⟨_, rfl, .inl rfl⟩
    | stopsAfter count =>
        cases h
        exact .inl ⟨_, rfl, .inr ⟨count, rfl⟩⟩

theorem storeData_outcome {fault : WriteFault} {tree : Tree} {path : List Text}
    {relative : Text} {file file' : FileState} {offset : Nat} {data : Bytes}
    {reply : Reply} {tree?' : Option Tree}
    (h : storeData fault (some tree) path relative file offset data =
      (reply, file', tree?')) :
    ∃ tree', tree?' = some tree' ∧
      StoreOutcome tree path file offset data reply file' tree' := by
  unfold storeData at h
  split at h
  · cases h
    exact ⟨tree, rfl, .kept fun _ => rfl⟩
  next hsize =>
    simp only [Option.getD_some] at h
    cases hmkdirs : tree.mkdirs path.dropLast with
    | none =>
        simp only [hmkdirs] at h
        cases h
        exact ⟨tree, rfl, .kept fun _ => rfl⟩
    | some made =>
        have hmade : ∀ other, made.read? other = tree.read? other :=
          DirTree.read?_mkdirs hmkdirs
        simp only [hmkdirs] at h
        split at h
        · cases h
          exact ⟨made, rfl, .kept hmade⟩
        · split at h
          · cases h
            exact ⟨made, rfl, .kept hmade⟩
          next hoffset =>
            have hoffset : offset = file.receivedBytes := by simpa using hoffset
            cases hwrite : writeChunk fault made path offset data with
            | mk result written =>
                rcases writeChunk_cases hwrite with
                  ⟨error, rfl, rfl | ⟨count, rfl⟩⟩ | ⟨rfl, rfl⟩
                · simp only [hwrite] at h
                  cases h
                  exact ⟨_, rfl, .kept hmade⟩
                · simp only [hwrite] at h
                  cases h
                  exact ⟨_, rfl, .torn count hoffset fun other => by
                    simp [DirTree.read?_write, hmade]⟩
                · simp only [hwrite] at h
                  cases h
                  exact ⟨_, rfl, .stored hoffset (by omega) fun other => by
                    simp [DirTree.read?_write, hmade]⟩

/-- The ways a chunk changes its transfer and the staging directory. -/
inductive ChunkOutcome (state : TransferState) (tree : Tree)
    (request : Request) : Reply → TransferState → Tree → Prop
  | refused {reply : Reply} {state' : TransferState}
      (hfiles : state'.files = state.files)
      (hevent : state'.event = state.event)
      (htransfer : state'.transferId = state.transferId)
      (hcount : state'.expectedFiles = state.expectedFiles)
      (hbytes : state'.expectedBytes = state.expectedBytes)
      (hfail : ∀ message bytes, reply ≠ .answer true message bytes) :
      ChunkOutcome state tree request reply state' tree
  | handled {parts : List Text} {file file' : FileState} {reply : Reply}
      {state' : TransferState} {tree' : Tree}
      (hsafe : safeRelative request.filePath = some parts)
      (hfile : file = (state.files.get? (joinPath parts)).getD
        (FileState.fresh request.totalBytes))
      (hfiles : state'.files = state.files.set (joinPath parts) file')
      (hevent : state'.event = state.event)
      (htransfer : state'.transferId = state.transferId)
      (hcount : state'.expectedFiles = state.expectedFiles)
      (hbytes : state'.expectedBytes = state.expectedBytes)
      (hstored : StoreOutcome tree parts file request.offset request.data
        reply file' tree') :
      ChunkOutcome state tree request reply state' tree'

theorem storeChunk_outcome {runtime : Runtime} {fault : WriteFault}
    {state state' : TransferState} {tree : Tree} {request : Request}
    {reply : Reply} {tree?' : Option Tree}
    (h : storeChunk runtime fault state (some tree) request =
      (reply, state', tree?')) :
    ∃ tree', tree?' = some tree' ∧
      ChunkOutcome state tree request reply state' tree' := by
  unfold storeChunk at h
  cases hsafe : safeRelative request.filePath with
  | none =>
      simp only [hsafe] at h
      cases h
      exact ⟨tree, rfl, .refused rfl rfl rfl rfl rfl (by simp)⟩
  | some parts =>
      simp only [hsafe] at h
      split at h
      · cases h
        exact ⟨tree, rfl, .refused rfl rfl rfl rfl rfl (by simp)⟩
      · generalize hfile : ((state.register (runtime.casefold (joinPath parts))
          (joinPath parts)).files.get? (joinPath parts)).getD
            (FileState.fresh request.totalBytes) = file at h
        have hfile' : file = (state.files.get? (joinPath parts)).getD
            (FileState.fresh request.totalBytes) := hfile.symm
        by_cases hsize : file.expectedBytes ≠ request.totalBytes
        · simp only [if_pos hsize] at h
          cases h
          exact ⟨tree, rfl, .handled hsafe hfile' rfl rfl rfl rfl rfl
            (.kept fun _ => rfl)⟩
        · simp only [if_neg hsize] at h
          cases hdata : storeData fault (some tree) parts (joinPath parts) file
              request.offset request.data with
          | mk reply₀ rest =>
              obtain ⟨file', tree?₀⟩ := rest
              obtain ⟨tree', rfl, hstored⟩ := storeData_outcome hdata
              simp only [hdata] at h
              cases h
              exact ⟨tree', rfl, .handled hsafe hfile'
                (by simp [TransferState.setFile, TransferState.register])
                rfl rfl rfl rfl hstored⟩

theorem storeChunk_key {runtime : Runtime} {fault : WriteFault}
    {state : TransferState} {tree? : Option Tree} {request : Request} :
    (storeChunk runtime fault state tree? request).2.1.event = state.event ∧
      (storeChunk runtime fault state tree? request).2.1.key = state.key := by
  unfold storeChunk
  split
  · exact ⟨rfl, rfl⟩
  · dsimp only
    split
    · exact ⟨rfl, rfl⟩
    · split <;> exact ⟨rfl, rfl⟩

/-! ## Chunks that are let through -/

/-- Another spelling of the path is registered. -/
def Blocked (runtime : Runtime) (state : TransferState) (path : List Text) :
    Prop :=
  ∃ other, state.canonicalPaths.get? (runtime.casefold (joinPath path)) =
    some other ∧ other ≠ joinPath path

theorem not_blocked_iff {runtime : Runtime} {state : TransferState}
    {path : List Text} :
    ¬Blocked runtime state path ↔ (state.canonicalPaths.get?
      (runtime.casefold (joinPath path))).any (· ≠ joinPath path) = false := by
  cases hget : state.canonicalPaths.get? (runtime.casefold (joinPath path)) with
  | none => simp [Blocked, hget]
  | some other => simp [Blocked, hget]

/-- A file's entry when its chunk has been let through. -/
def TransferState.fileFor (state : TransferState) (relative : Text)
    (totalBytes : Nat) : FileState :=
  (state.files.get? relative).getD (FileState.fresh totalBytes)

/-- A chunk of a proper path either changes nothing or gives its file an entry. -/
theorem storeChunk_eq {runtime : Runtime} {fault : WriteFault}
    {state : TransferState} {tree? : Option Tree} {request : Request}
    {parts : List Text} (hsafe : safeRelative request.filePath = some parts)
    (hfree : ¬Blocked runtime state parts) :
    storeChunk runtime fault state tree? request =
      let relative := joinPath parts
      let file := state.fileFor relative request.totalBytes
      let result :=
        if file.expectedBytes ≠ request.totalBytes then
          (.answer false (("file size changed for " : Text) ++ relative)
            file.receivedBytes, file, tree?)
        else
          storeData fault tree? parts relative file request.offset request.data
      (result.1, (state.register (runtime.casefold relative) relative).setFile
        relative result.2.1, result.2.2) := by
  have hnone := not_blocked_iff.mp hfree
  unfold storeChunk
  simp only [hsafe, hnone, Bool.false_eq_true, if_false]
  split
  next hsize =>
    have hsize' : (state.fileFor (joinPath parts) request.totalBytes).expectedBytes ≠
        request.totalBytes := hsize
    simp only [if_pos hsize']
    rfl
  next hsize =>
    have hsize' : ¬(state.fileFor (joinPath parts)
        request.totalBytes).expectedBytes ≠ request.totalBytes := hsize
    simp only [if_neg hsize', TransferState.setFile, TransferState.register,
      Dict.set_set]
    rfl

/-- A chunk that is turned away before it is registered. -/
theorem storeChunk_turned_away {runtime : Runtime} {state : TransferState}
    {request : Request}
    (h : ∀ parts, safeRelative request.filePath = some parts →
      Blocked runtime state parts) :
    ∃ message, ∀ fault tree?, storeChunk runtime fault state tree? request =
      (.answer false message 0, state, tree?) := by
  unfold storeChunk
  cases hsafe : safeRelative request.filePath with
  | none => exact ⟨_, fun _ _ => rfl⟩
  | some parts =>
      have hblocked : (state.canonicalPaths.get?
          (runtime.casefold (joinPath parts))).any (· ≠ joinPath parts) = true := by
        have hnot := not_blocked_iff.not.mp (not_not.mpr (h parts hsafe))
        simpa using hnot
      simp only [hblocked, if_true]
      exact ⟨_, fun _ _ => rfl⟩

end DataCache.Receiver
