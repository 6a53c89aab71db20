import DataCache.Receiver.Alike
import DataCache.Receiver.Isolation

/-!
# What a refused chunk leaves behind

`store_chunk` registers the path and the declared size of a new file before it
looks at the chunk's offset and size, and creates the parent directories before
it compares offsets.  A refusal before these steps changes nothing; one after
them leaves an entry or a directory that later requests run into.
-/

namespace DataCache.Receiver

open DataCache.Foundation

/-! ## The refusal -/

/-- The same tables and the same staged bytes. -/
def SameStaging (key : Text × Text) (before after : Node) : Prop :=
  ∃ state state', before.transfers.get? key = some state ∧
    after.transfers.get? key = some state' ∧
    state'.files = state.files ∧
    state'.canonicalPaths = state.canonicalPaths ∧
    ∀ path, ((after.inbox.get? state.stagingDir).getD DirTree.empty).read? path =
      ((before.inbox.get? state.stagingDir).getD DirTree.empty).read? path

/-- The directories that the chunk's `mkdir` adds to a staging directory. -/
def NewDirectory (tree? : Option Tree) (parts path : List Text) : Prop :=
  path <+: parts.dropLast ∧ (tree?.getD DirTree.empty).isDir path = false

/--
The path is turned away, or the file is in the table and either the refusal
comes before the directories are made or every new directory stands where no
transfer staged there can still put a file.
-/
def LeavesNoTrace (runtime : Runtime) (node : Node) (state : TransferState)
    (request : Request) : Prop :=
  ∀ parts, safeRelative request.filePath = some parts →
    Blocked runtime state parts ∨
    ∃ file, state.files.get? (joinPath parts) = some file ∧
      (file.expectedBytes ≠ request.totalBytes ∨
        file.expectedBytes < request.offset + request.data.length ∨
        ∀ path, NewDirectory (node.inbox.get? state.stagingDir) parts path →
          ∀ key other, node.transfers.get? key = some other →
            other.stagingDir = state.stagingDir → Blocked runtime other path)

/-- A refused chunk keeps its file's state, and at most makes directories. -/
theorem storeData_refused {fault : WriteFault} {tree? tree?' : Option Tree}
    {path : List Text} {relative : Text} {file file' : FileState} {offset : Nat}
    {data : Bytes} {message : Text} {bytes : Nat}
    (h : storeData fault tree? path relative file offset data =
      (.answer false message bytes, file', tree?')) :
    file' = file ∧
      ((file.expectedBytes < offset + data.length ∧ tree?' = tree?) ∨
        (offset + data.length ≤ file.expectedBytes ∧ ∃ made,
          (tree?.getD DirTree.empty).mkdirs path.dropLast = some made ∧
            tree?' = some made)) := by
  unfold storeData at h
  split at h
  next hsize =>
    cases h
    exact ⟨rfl, .inl ⟨hsize, rfl⟩⟩
  next hroom =>
    have hroom := Nat.not_lt.mp hroom
    split at h
    · cases h
    next made hmade =>
      split at h
      · obtain ⟨-, hfile, htree⟩ := Prod.ext_iff.mp h |>.imp_right Prod.ext_iff.mp
        exact ⟨hfile.symm, .inr ⟨hroom, made, hmade, htree.symm⟩⟩
      · split at h
        · cases h
          exact ⟨rfl, .inr ⟨hroom, made, hmade, rfl⟩⟩
        · split at h <;> cases h

theorem storeChunk_enters {runtime : Runtime} {fault : WriteFault}
    {state : TransferState} {tree? : Option Tree} {request : Request}
    {parts : List Text} (hsafe : safeRelative request.filePath = some parts)
    (hfree : ¬Blocked runtime state parts) :
    (storeChunk runtime fault state tree? request).2.1.files.get?
      (joinPath parts) ≠ none := by
  rw [storeChunk_eq hsafe hfree]
  dsimp only
  rw [TransferState.setFile, Dict.get?_set_self]
  exact Option.some_ne_none _

/-- Registering a file of the table once more changes nothing. -/
theorem Listed.register {runtime : Runtime} {state : TransferState}
    (h : Listed runtime state) {relative : Text} {file : FileState}
    (hget : state.files.get? relative = some file) :
    (state.register (runtime.casefold relative) relative).setFile relative file =
      state := by
  rw [TransferState.setFile, TransferState.register]
  simp only [Dict.set_of_get? hget, Dict.set_of_get? (h relative file hget).1]

/-- A refused chunk of a file in the table leaves the tables alone. -/
theorem storeChunk_refused {runtime : Runtime} {fault : WriteFault}
    {state state' : TransferState} {tree? tree?' : Option Tree}
    {request : Request} {message : Text} {bytes : Nat} {parts : List Text}
    {file : FileState} (hlisted : Listed runtime state)
    (hsafe : safeRelative request.filePath = some parts)
    (hfree : ¬Blocked runtime state parts)
    (hget : state.files.get? (joinPath parts) = some file)
    (h : storeChunk runtime fault state tree? request =
      (.answer false message bytes, state', tree?')) :
    state' = state ∧
      ((tree?' = tree? ∧ (file.expectedBytes ≠ request.totalBytes ∨
          file.expectedBytes < request.offset + request.data.length)) ∨
        (file.expectedBytes = request.totalBytes ∧
          request.offset + request.data.length ≤ file.expectedBytes ∧ ∃ made,
          (tree?.getD DirTree.empty).mkdirs parts.dropLast = some made ∧
            tree?' = some made)) := by
  have hfile : state.fileFor (joinPath parts) request.totalBytes = file := by
    rw [TransferState.fileFor, hget, Option.getD_some]
  rw [storeChunk_eq hsafe hfree] at h
  dsimp only at h
  rw [hfile] at h
  split at h
  next hsize =>
    cases h
    exact ⟨hlisted.register hget, .inl ⟨rfl, .inl hsize⟩⟩
  next hsize =>
    have hsize := not_not.mp hsize
    cases hdata : storeData fault tree? parts (joinPath parts) file
        request.offset request.data with
    | mk reply rest =>
    obtain ⟨file', tree?''⟩ := rest
    rw [hdata] at h
    cases h
    obtain ⟨rfl, hlarge | ⟨hroom, hmade⟩⟩ := storeData_refused hdata
    · exact ⟨hlisted.register hget, .inl ⟨hlarge.2, .inr hlarge.1⟩⟩
    · exact ⟨hlisted.register hget, .inr ⟨hsize, hroom, hmade⟩⟩

/-- Directories that are new only where nothing can be stored. -/
theorem close_of_mkdirs {blocked : List Text → Prop} {tree? : Option Tree}
    {path : List Text} {made : Tree}
    (hmade : (tree?.getD DirTree.empty).mkdirs path = some made)
    (h : ∀ other, other <+: path →
      (tree?.getD DirTree.empty).isDir other = false → blocked other) :
    Close blocked tree? (some made) := by
  refine ⟨(DirTree.mkdirs_files hmade).symm, fun other hother => ?_⟩
  rw [Option.getD_some, Bool.eq_iff_iff, DirTree.isDir_mkdirs hmade, iff_or_self]
  intro hstarts
  by_contra hnew
  exact hother (h other hstarts (by simpa using hnew))

/-! ## Refusals without a trace -/

/-- What the refused chunk leaves, when the condition is met. -/
theorem storeChunk_leaves_no_trace {runtime : Runtime} {fault : WriteFault}
    {node : Node} {state state' : TransferState} {tree?' : Option Tree}
    {request : Request} {message : Text} {bytes : Nat} (now : Time)
    (hlisted : Listed runtime state)
    (htrace : LeavesNoTrace runtime node state request)
    (h : storeChunk runtime fault (touch state now)
      (node.inbox.get? state.stagingDir) request =
        (.answer false message bytes, state', tree?')) :
    state' = touch state now ∧
      (∀ path, (tree?'.getD DirTree.empty).read? path =
        ((node.inbox.get? state.stagingDir).getD DirTree.empty).read? path) ∧
      ∀ key other, node.transfers.get? key = some other →
        other.stagingDir = state.stagingDir →
        Close (Blocked runtime other) (node.inbox.get? state.stagingDir) tree?' := by
  by_cases hfree : ∃ parts, safeRelative request.filePath = some parts ∧
      ¬Blocked runtime state parts
  · obtain ⟨parts, hsafe, hfree⟩ := hfree
    obtain hblocked | ⟨file, hget, hcases⟩ := htrace parts hsafe
    · exact absurd hblocked hfree
    · have htouched : Listed runtime (touch state now) := hlisted
      obtain ⟨rfl, ⟨rfl, -⟩ | ⟨hsize, hroom, made, hmade, rfl⟩⟩ :=
        storeChunk_refused htouched hsafe hfree hget h
      · exact ⟨rfl, fun _ => rfl, fun _ _ _ _ => .refl _ _⟩
      · refine ⟨rfl, fun path => DirTree.read?_mkdirs hmade path,
          fun key other hother hsame => close_of_mkdirs hmade ?_⟩
        intro path hstarts hdir
        rcases hcases with hchanged | hlarge | hdirectories
        · exact absurd hsize hchanged
        · omega
        · exact hdirectories path ⟨hstarts, hdir⟩ key other hother hsame
  · simp only [not_exists, not_and, not_not] at hfree
    have hfree : ∀ parts, safeRelative request.filePath = some parts →
        Blocked runtime (touch state now) parts := hfree
    obtain ⟨_, hstore⟩ := storeChunk_turned_away hfree
    rw [hstore] at h
    cases h
    exact ⟨rfl, fun _ => rfl, fun _ _ _ _ => .refl _ _⟩

/-- The chunk's transfer and the others after such a refusal. -/
theorem handleChunk_leaves_no_trace {runtime : Runtime} {fault : WriteFault}
    {node : Node} {key : Text × Text} {state : TransferState} {request : Request}
    {message : Text} {bytes : Nat} {node' : Node} {now : Time}
    (hnode : Registered runtime node)
    (hstate : node.transfers.get? key = some state)
    (htrace : LeavesNoTrace runtime node state request)
    (h : handleChunk runtime fault node (touch state now) request =
      (.answer false message bytes, node')) :
    SameStaging key (putTransfer node (touch state now)) node' ∧
      Alike runtime (putTransfer node (touch state now)) node' := by
  have hkey : (touch state now).key = key := hnode.keyed key state hstate
  cases hstored : storeChunk runtime fault (touch state now)
      (node.inbox.get? (touch state now).stagingDir) request with
  | mk reply rest =>
  obtain ⟨state', tree?'⟩ := rest
  have hstaging := get?_setStaging_storeChunk runtime fault (touch state now)
    node.inbox request
  unfold handleChunk at h
  simp only [hstored] at h hstaging
  cases h
  obtain ⟨rfl, hread, hclose⟩ := storeChunk_leaves_no_trace now
    (hnode.listed key state hstate) htrace hstored
  constructor
  · refine ⟨touch state now, touch state now, ?_, ?_, rfl, rfl, fun path => ?_⟩
    · rw [← hkey]
      exact Dict.get?_set_self _ _ _
    · rw [← hkey]
      exact Dict.get?_set_self _ _ _
    · rw [hstaging]
      exact hread path
  · refine (Alike.refl node).set rfl (fun key' other hget hsame => ?_) rfl
      hstaging (fun _ _ => rfl) fun _ => get?_setStaging_ne _ _
    rw [Dict.get?_set] at hget
    split at hget
    · cases hget
      exact hclose key state hstate rfl
    · exact hclose key' other hget hsame

/-! ## Refusals with a trace -/

/-- An empty chunk where the next byte of the file at `path` is expected. -/
def probe (key : Text × Text) (state : TransferState) (path : List Text) :
    Request where
  eventName := key.1
  transferId := key.2
  opcode := opFileChunk
  filePath := joinPath path
  offset := (state.fileFor (joinPath path) 0).receivedBytes
  totalBytes := (state.fileFor (joinPath path) 0).expectedBytes
  fileCount := 0
  data := []

theorem fileFor_probe (key : Text × Text) (state : TransferState)
    (path : List Text) :
    state.fileFor (joinPath path) (probe key state path).totalBytes =
      state.fileFor (joinPath path) 0 := by
  simp only [probe, TransferState.fileFor]
  cases state.files.get? (joinPath path) <;> rfl

/-- An empty chunk is stored unless a directory is in its place. -/
theorem storeChunk_probe {runtime : Runtime} {key : Text × Text}
    {state : TransferState} {tree? : Option Tree} {path : List Text}
    (hlisted : Listed runtime state)
    (hsafe : safeRelative (joinPath path) = some path)
    (hfree : ¬Blocked runtime state path)
    (hparents : ((tree?.getD DirTree.empty).mkdirs path.dropLast).isSome = true) :
    (storeChunk runtime .none state tree? (probe key state path)).1.accepted =
      !(tree?.getD DirTree.empty).isDir path := by
  obtain ⟨made, hmade⟩ := Option.isSome_iff_exists.mp hparents
  have hne : path ≠ [] := by
    rintro rfl
    cases hsafe
  have hdir : made.isDir path = (tree?.getD DirTree.empty).isDir path := by
    have hself : ¬path <+: path.dropLast := by
      intro hstarts
      have hlength := hstarts.length_le
      have hpos := List.length_pos_iff.mpr hne
      rw [List.length_dropLast] at hlength
      omega
    rw [Bool.eq_iff_iff, DirTree.isDir_mkdirs hmade, or_iff_right hself]
  have hfile := fileFor_probe key state path
  have hsize : ¬(state.fileFor (joinPath path) 0).expectedBytes ≠
      (probe key state path).totalBytes := not_not.mpr rfl
  have hroom := Nat.not_lt.mpr (fileFor_le hlisted (joinPath path) 0)
  rw [storeChunk_eq hsafe hfree]
  dsimp only
  rw [hfile, if_neg hsize]
  unfold storeData
  simp only [probe, List.length_nil, Nat.add_zero, gt_iff_lt, hroom, if_false,
    hmade, lt_irrefl, ne_eq, not_true_eq_false]
  unfold writeChunk
  rw [hdir]
  cases (tree?.getD DirTree.empty).isDir path <;> rfl

theorem answer_probe {runtime : Runtime} {node : Node} {key : Text × Text}
    {state : TransferState} {path : List Text} {now : Time}
    (hnode : Registered runtime node)
    (hstate : node.transfers.get? key = some state)
    (hfresh : pruneIdleTransfers now node = node)
    (hsafe : safeRelative (joinPath path) = some path)
    (hfree : ¬Blocked runtime state path)
    (hparents : (((node.inbox.get? state.stagingDir).getD
      DirTree.empty).mkdirs path.dropLast).isSome = true) :
    (answer runtime node (⟨now, now⟩, .none, probe key state path)).1.success =
      !((node.inbox.get? state.stagingDir).getD DirTree.empty).isDir path := by
  have hnamed := hnode.named key state hstate
  have hdispatch := @dispatch_chunk runtime ⟨now, now⟩ .none node
    (probe key state path) state rfl hnamed.1 hnamed.2 (by rw [hfresh]; exact hstate)
  have hlisted : Listed runtime (touch state now) := hnode.listed key state hstate
  have hstored := @storeChunk_probe runtime key (touch state now)
    (node.inbox.get? state.stagingDir) path hlisted hsafe hfree hparents
  rw [answer, handleRequest, hdispatch, hfresh]
  dsimp only
  rw [success_toResponse]
  exact hstored

/-- A directory where a file could still be stored gives the refusal away. -/
theorem told_apart_by_directory {runtime : Runtime} {first second : Node}
    {key : Text × Text} {state : TransferState} {path : List Text} {now : Time}
    (hfirst : Registered runtime first) (hsecond : Registered runtime second)
    (htransfers : first.transfers = second.transfers)
    (hstate : first.transfers.get? key = some state)
    (hfresh : ∀ key state, first.transfers.get? key = some state →
      now - transferIdle ≤ state.lastActivity)
    (hsafe : safeRelative (joinPath path) = some path)
    (hfree : ¬Blocked runtime state path) {tree? : Option Tree} {made : Tree}
    (htree : first.inbox.get? state.stagingDir = tree?)
    (hmadeAt : second.inbox.get? state.stagingDir = some made)
    {directory : List Text}
    (hmade : (tree?.getD DirTree.empty).mkdirs directory = some made)
    (hstarts : path <+: directory)
    (hnew : (tree?.getD DirTree.empty).isDir path = false) :
    ¬Indistinguishable (answer runtime) first second := by
  intro hsame
  have hfree' : ∀ other, other <+: directory →
      (tree?.getD DirTree.empty).isFile other = false :=
    DirTree.mkdirs_isSome.mp (by rw [hmade]; rfl)
  have hparents : ((tree?.getD DirTree.empty).mkdirs path.dropLast).isSome =
      true :=
    DirTree.mkdirs_isSome.mpr fun other hother =>
      hfree' other ((hother.trans (List.dropLast_prefix _)).trans hstarts)
  have hparents' : (made.mkdirs path.dropLast).isSome = true := by
    rw [DirTree.mkdirs_isSome] at hparents ⊢
    simpa only [DirTree.isFile, DirTree.mkdirs_files hmade] using hparents
  have hanswer := hsame.answer (⟨now, now⟩, .none, probe key state path)
  have hfirst' := answer_probe hfirst hstate (pruneIdleTransfers_of_fresh hfresh)
    hsafe hfree (by rw [htree]; exact hparents)
  have hsecond' := answer_probe hsecond (htransfers ▸ hstate)
    (pruneIdleTransfers_of_fresh (htransfers ▸ hfresh)) hsafe hfree
    (by rw [hmadeAt]; exact hparents')
  rw [hanswer, hsecond', hmadeAt, htree, hnew, Option.getD_some,
    (DirTree.isDir_mkdirs hmade path).mpr (.inl hstarts)] at hfirst'
  cases hfirst'

/-- The node if the request had done nothing but touch its transfer. -/
def touched (clock : Clock) (node : Node) (state : TransferState) : Node :=
  putTransfer (pruneIdleTransfers clock.pruneAt node)
    (touch state clock.touchAt)

theorem touched_fresh {clock : Clock} {node : Node} {state : TransferState} :
    ∀ key other, (touched clock node state).transfers.get? key = some other →
      min clock.pruneAt clock.touchAt - transferIdle ≤ other.lastActivity := by
  intro key other hget
  rw [touched, putTransfer, Dict.get?_set] at hget
  split at hget
  · cases hget
    exact (Int.sub_le_sub_right (min_le_right _ _) _).trans
      (Int.sub_le_self _ (by decide))
  · exact (Int.sub_le_sub_right (min_le_left _ _) _).trans
      (pruneIdleTransfers_fresh hget)

/-- A chunk that leaves a trace either changes the table or can be told. -/
theorem leavesNoTrace_of_unchanged {runtime : Runtime} {node node' : Node}
    {clock : Clock} {fault : WriteFault} {request : Request}
    {state : TransferState} {message : Text} {bytes : Nat}
    (hnode : Registered runtime (pruneIdleTransfers clock.pruneAt node))
    (hstate : (pruneIdleTransfers clock.pruneAt node).transfers.get?
      (request.eventName, request.transferId) = some state)
    (hafter : Registered runtime node')
    (h : handleChunk runtime fault (pruneIdleTransfers clock.pruneAt node)
      (touch state clock.touchAt) request = (.answer false message bytes, node'))
    (hsame : SameStaging (request.eventName, request.transferId)
      (touched clock node state) node')
    (halike : Indistinguishable (answer runtime) (touched clock node state)
      node') :
    LeavesNoTrace runtime (pruneIdleTransfers clock.pruneAt node) state
      request := by
  have hkey : (touch state clock.touchAt).key =
      (request.eventName, request.transferId) := hnode.keyed _ state hstate
  have hlisted : Listed runtime (touch state clock.touchAt) :=
    hnode.listed _ state hstate
  cases hstored : storeChunk runtime fault (touch state clock.touchAt)
      ((pruneIdleTransfers clock.pruneAt node).inbox.get?
        (touch state clock.touchAt).stagingDir) request with
  | mk reply rest =>
  obtain ⟨state', tree?'⟩ := rest
  have hstaging := get?_setStaging_storeChunk runtime fault
    (touch state clock.touchAt) (pruneIdleTransfers clock.pruneAt node).inbox
    request
  unfold handleChunk at h
  simp only [hstored] at h hstaging
  cases h
  intro parts hsafe
  by_contra htrace
  rw [not_or] at htrace
  obtain ⟨hfree, htrace⟩ := htrace
  cases hget : state.files.get? (joinPath parts) with
  | none =>
      -- The file is new: the refusal has entered it into the table.
      obtain ⟨before, after, hbefore, hafter, hfiles, -⟩ := hsame
      rw [touched, putTransfer, hkey, Dict.get?_set_self] at hbefore
      rw [hkey, Dict.get?_set_self] at hafter
      cases hbefore
      cases hafter
      have hentry := @storeChunk_enters runtime fault (touch state clock.touchAt)
        ((pruneIdleTransfers clock.pruneAt node).inbox.get?
          (touch state clock.touchAt).stagingDir) request parts hsafe hfree
      rw [hstored] at hentry
      refine hentry ?_
      rw [hfiles]
      exact hget
  | some file =>
      obtain ⟨rfl, ⟨-, hearly⟩ | ⟨hsize, hroom, made, hmade, rfl⟩⟩ :=
        storeChunk_refused hlisted hsafe hfree hget hstored
      · exact htrace ⟨file, hget, hearly.imp_right .inl⟩
      · refine htrace ⟨file, hget, .inr (.inr ?_)⟩
        intro path hnew key other hother hdirectory
        by_contra hopen
        obtain ⟨other', hother', hdirectory', hopen'⟩ : ∃ other',
            (touched clock node state).transfers.get? key = some other' ∧
              other'.stagingDir = (touch state clock.touchAt).stagingDir ∧
              ¬Blocked runtime other' path := by
          rw [touched, putTransfer, hkey, Dict.get?_set]
          split
          next heq =>
            rw [heq, hother] at hstate
            cases hstate
            exact ⟨_, rfl, rfl, hopen⟩
          next => exact ⟨other, hother, hdirectory, hopen⟩
        have hne : path ≠ [] := by
          rintro rfl
          cases hnew.2
        have hsafe' := safeRelative_prefix hsafe
          (hnew.1.trans (List.dropLast_prefix _)) hne
        refine told_apart_by_directory (hnode.put hstate _) hafter rfl hother'
          touched_fresh hsafe' hopen' ?_ ?_ hmade hnew.1 hnew.2 halike
        · rw [hdirectory']
          rfl
        · rw [hdirectory']
          exact hstaging

/--
A refused chunk leaves the tables and the staged bytes as they were and every
later request the answer it would have got, exactly when it leaves no trace.
-/
theorem refusal_changes_nothing_iff {runtime : Runtime} {node node' : Node}
    {clock : Clock} {fault : WriteFault} {request : Request}
    {state : TransferState} {message : Text} {bytes : Nat}
    (hreachable : Reachable runtime (fun _ _ => True) node)
    (hopcode : request.opcode = opFileChunk)
    (hstate : (pruneIdleTransfers clock.pruneAt node).transfers.get?
      (request.eventName, request.transferId) = some state)
    (hrefused : dispatch runtime clock fault node request =
      (.answer false message bytes, node')) :
    (SameStaging (request.eventName, request.transferId)
        (touched clock node state) node' ∧
      Indistinguishable (answer runtime) (touched clock node state) node') ↔
    LeavesNoTrace runtime (pruneIdleTransfers clock.pruneAt node) state
      request := by
  have hregistered : Registered runtime node := hreachable.registered
  have hnode := hregistered.prune clock.pruneAt
  have hafter := hregistered.dispatch clock fault request
  obtain ⟨hevent, htransfer⟩ := hnode.named _ state hstate
  have hchunk := (dispatch_chunk hopcode hevent htransfer hstate).symm.trans
    hrefused
  rw [hrefused] at hafter
  constructor
  · rintro ⟨hsame, halike⟩
    exact leavesNoTrace_of_unchanged hnode hstate hafter hchunk hsame halike
  · intro htrace
    obtain ⟨hsame, halike⟩ :=
      handleChunk_leaves_no_trace hnode hstate htrace hchunk
    exact ⟨hsame, halike.indistinguishable (hnode.put hstate _)⟩

/-- A path that climbs out of the staging directory. -/
theorem refusal_changes_nothing_unsafe :
    Indistinguishable (answer sampleRuntime)
      (touched ⟨0, 0⟩ sampleBegun
        ⟨"e1", "t1", 2, 3, Dict.empty, Dict.empty, 0⟩)
      (dispatch sampleRuntime ⟨0, 0⟩ .none sampleBegun
        (sampleRequest opFileChunk "../a" 3 0 (encodeUtf8 "abc"))).2 := by
  have hreachable : Reachable sampleRuntime (fun _ _ => True) sampleBegun :=
    .request _ _ _ (.start _) trivial
  refine ((refusal_changes_nothing_iff hreachable rfl (by decide +kernel)
    (Prod.ext (by decide +kernel) rfl :
      dispatch sampleRuntime ⟨0, 0⟩ .none sampleBegun
        (sampleRequest opFileChunk "../a" 3 0 (encodeUtf8 "abc")) =
        (.answer false "unsafe file path: '../a'" 0, _))).mpr ?_).2
  intro parts hsafe
  have hunsafe : safeRelative "../a" = none := by decide +kernel
  cases hunsafe.symm.trans hsafe

/-- A first chunk that starts one byte late. -/
def lateChunk : Request :=
  { sampleRequest opFileChunk "a" 5 0 (encodeUtf8 "bc") with offset := 1 }

theorem late_chunk_poisons_path :
    ¬∀ (runtime : Runtime) (node node' : Node) (clock : Clock)
      (fault : WriteFault) (request : Request) (state : TransferState)
      (message : Text) (bytes : Nat),
      Reachable runtime (fun _ _ => True) node →
      request.opcode = opFileChunk →
      (pruneIdleTransfers clock.pruneAt node).transfers.get?
        (request.eventName, request.transferId) = some state →
      dispatch runtime clock fault node request =
        (.answer false message bytes, node') →
      SameStaging (request.eventName, request.transferId)
          (touched clock node state) node' ∧
        Indistinguishable (answer runtime) (touched clock node state) node' := by
  intro h
  have hreachable : Reachable sampleRuntime (fun _ _ => True) sampleBegun :=
    .request _ _ _ (.start _) trivial
  have hsame := (h sampleRuntime sampleBegun
    (dispatch sampleRuntime ⟨0, 0⟩ .none sampleBegun lateChunk).2 ⟨0, 0⟩ .none
    lateChunk ⟨"e1", "t1", 2, 3, Dict.empty, Dict.empty, 0⟩
    "non-contiguous offset for a: got 1, expected 0" 0 hreachable rfl
    (by decide +kernel) (Prod.ext (by decide +kernel) rfl)).2
  -- The file itself is now refused: "file size changed for a".
  have hanswer := hsame.answer
    (⟨0, 0⟩, .none, sampleRequest opFileChunk "a" 3 0 (encodeUtf8 "abc"))
  revert hanswer
  decide +kernel

end DataCache.Receiver
