import DataCache.Receiver.Cases

/-!
# Staged files, hashes and publication

The receiver computes digests from accepted chunks while the bytes live in
directories that `BEGIN`, pruning and failing writes change.  The invariant
below ties the two together for every active transfer; whatever `END`
publishes is then exactly what was hashed and compared with the manifest.
-/

namespace DataCache.Receiver

open DataCache.Foundation

/-! ## The invariant -/

/-- The staged bytes agree with the hasher on the received prefix. -/
structure FileAgrees (tree : Tree) (relative : Text) (file : FileState) :
    Prop where
  hashed : file.hasher.length = file.receivedBytes
  bounded : file.receivedBytes ≤ file.expectedBytes
  agrees : 0 < file.receivedBytes → ∃ content,
    tree.read? (splitPath relative) = some content ∧
      content.take file.receivedBytes = file.hasher

/-- A staging directory holds files of the table only, each in agreement. -/
structure StagedOk (tree : Tree) (files : Dict Text FileState) : Prop where
  known : ∀ path content, tree.read? path = some content →
    ∃ relative file, files.get? relative = some file ∧ splitPath relative = path
  agrees : ∀ relative file, files.get? relative = some file →
    FileAgrees tree relative file

structure NodeOk (node : Node) : Prop where
  keyed : ∀ key state, node.transfers.get? key = some state → key = state.key
  staged : ∀ key state, node.transfers.get? key = some state →
    ∃ tree, node.inbox.get? state.stagingDir = some tree ∧
      StagedOk tree state.files
  apart : ∀ key₁ state₁ key₂ state₂,
    node.transfers.get? key₁ = some state₁ →
    node.transfers.get? key₂ = some state₂ → key₁ ≠ key₂ →
    state₁.stagingDir ≠ state₂.stagingDir
  oneOwner : ∀ key₁ state₁ key₂ state₂,
    node.transfers.get? key₁ = some state₁ →
    node.transfers.get? key₂ = some state₂ → state₁.event = state₂.event →
    key₁ = key₂
  named : ∀ key state, node.transfers.get? key = some state →
    matchesEventName state.event = true
  bounded : node.transfers.size ≤ maxActiveTransfers

theorem stagedOk_empty : StagedOk (DirTree.empty : Tree) Dict.empty :=
  ⟨fun _ _ h => by simp at h, fun _ _ h => by simp at h⟩

theorem FileAgrees.fresh (tree : Tree) (relative : Text) (size : Nat) :
    FileAgrees tree relative (FileState.fresh size) :=
  ⟨rfl, Nat.zero_le _, fun h => absurd h (by simp [FileState.fresh])⟩

theorem FileAgrees.of_read {tree tree' : Tree} {relative : Text}
    {file : FileState} (h : FileAgrees tree relative file)
    (hread : ∀ content, tree.read? (splitPath relative) = some content →
      ∃ content', tree'.read? (splitPath relative) = some content' ∧
        content'.take file.receivedBytes = content.take file.receivedBytes) :
    FileAgrees tree' relative file := by
  refine ⟨h.hashed, h.bounded, fun hpos => ?_⟩
  obtain ⟨content, hcontent, htake⟩ := h.agrees hpos
  obtain ⟨content', hcontent', htake'⟩ := hread content hcontent
  exact ⟨content', hcontent', htake'.trans htake⟩

theorem FileAgrees.length_le {tree : Tree} {relative : Text} {file : FileState}
    (h : FileAgrees tree relative file) :
    file.receivedBytes ≤
      ((tree.read? (splitPath relative)).getD []).length := by
  rcases Nat.eq_zero_or_pos file.receivedBytes with hzero | hpos
  · omega
  · obtain ⟨content, hcontent, htake⟩ := h.agrees hpos
    have hlength := congrArg List.length htake
    rw [List.length_take, h.hashed] at hlength
    rw [hcontent, Option.getD_some]
    omega

/-- The received prefix of the staged bytes, whether or not the file exists. -/
theorem FileAgrees.take_getD {tree : Tree} {relative : Text} {file : FileState}
    (h : FileAgrees tree relative file) :
    ((tree.read? (splitPath relative)).getD []).take file.receivedBytes =
      file.hasher := by
  rcases Nat.eq_zero_or_pos file.receivedBytes with hzero | hpos
  · have hnil : file.hasher = [] := by
      rw [← List.length_eq_zero_iff, h.hashed, hzero]
    rw [hzero, hnil, List.take_zero]
  · obtain ⟨content, hcontent, htake⟩ := h.agrees hpos
    rw [hcontent, Option.getD_some, htake]

theorem splitPath_injective : Function.Injective splitPath := by
  intro first second h
  rw [← joinPath_splitPath first, h, joinPath_splitPath]

/-- Every outcome of a chunk keeps the staging directory in agreement. -/
theorem StoreOutcome.stagedOk {tree tree' : Tree} {files : Dict Text FileState}
    {relative : Text} {file file' : FileState} {offset : Nat} {data : Bytes}
    {reply : Reply}
    (h : StoreOutcome tree (splitPath relative) file offset data reply file'
      tree')
    (hfile : FileAgrees tree relative file)
    (hknown : ∀ path content, tree.read? path = some content →
      ∃ other file, (files.set relative file').get? other = some file ∧
        splitPath other = path)
    (hagrees : ∀ other file, other ≠ relative → files.get? other = some file →
      FileAgrees tree other file) :
    StagedOk tree' (files.set relative file') := by
  -- Every outcome gives the written file its own agreement and leaves the rest.
  have hrest : (∀ other, splitPath relative ≠ other →
        tree'.read? other = tree.read? other) →
      FileAgrees tree' relative file' →
      StagedOk tree' (files.set relative file') := by
    intro hread hown
    refine ⟨fun path content hpath => ?_, fun other state hget => ?_⟩
    · by_cases hp : splitPath relative = path
      · exact ⟨relative, file', Dict.get?_set_self _ _ _, hp⟩
      · rw [hread path hp] at hpath
        exact hknown path content hpath
    · by_cases ho : relative = other
      · subst ho
        rw [Dict.get?_set_self, Option.some.injEq] at hget
        exact hget ▸ hown
      · rw [Dict.get?_set_ne _ _ ho] at hget
        refine (hagrees other state (Ne.symm ho) hget).of_read
          fun content hcontent => ⟨content, ?_, rfl⟩
        rw [hread _ fun heq => ho (splitPath_injective heq)]
        exact hcontent
  cases h with
  | kept hread =>
      exact hrest (fun other _ => hread other)
        (hfile.of_read fun content hcontent =>
          ⟨content, by rw [hread, hcontent], rfl⟩)
  | torn count hoffset hread =>
      refine hrest (fun other hother => by simp [hread, hother]) ?_
      refine ⟨hfile.hashed, hfile.bounded, fun _ =>
        ⟨_, by rw [hread, if_pos rfl], ?_⟩⟩
      rw [take_overwrite_of_le _ _ _ _ _ (le_of_eq hoffset.symm)
        hfile.length_le, hfile.take_getD]
  | stored hoffset hsize hread =>
      refine hrest (fun other hother => by simp [hread, hother]) ?_
      refine ⟨by simp [hfile.hashed, hoffset], hsize, fun _ =>
        ⟨_, by rw [hread, if_pos rfl], ?_⟩⟩
      rw [take_overwrite _ _ _ _ (hoffset ▸ hfile.length_le), hoffset,
        hfile.take_getD]

theorem ChunkOutcome.stagedOk {state state' : TransferState}
    {tree tree' : Tree} {request : Request} {reply : Reply}
    (h : ChunkOutcome state tree request reply state' tree')
    (hok : StagedOk tree state.files) : StagedOk tree' state'.files := by
  cases h with
  | refused hfiles => rw [hfiles]; exact hok
  | @handled parts file file' _ _ _ hsafe hfile hfiles _ _ _ _ hstored =>
      have hsplit := splitPath_joinPath_of_safeRelative hsafe
      rw [hfiles]
      rw [← hsplit] at hstored
      refine hstored.stagedOk ?_ (fun path content hpath => ?_)
        fun other entry _ hget => hok.agrees other entry hget
      · subst hfile
        cases hget : state.files.get? (joinPath parts) with
        | none => exact FileAgrees.fresh _ _ _
        | some known => exact hok.agrees _ _ hget
      · obtain ⟨other, entry, hget, hother⟩ := hok.known path content hpath
        by_cases heq : joinPath parts = other
        · exact ⟨other, file', by simp [heq], hother⟩
        · exact ⟨other, entry, by rw [Dict.get?_set_ne _ _ heq, hget], hother⟩

/-! ## Every operation keeps the invariant -/

theorem nodeOk_start (inbox : Dict Text Tree) : NodeOk ⟨inbox, Dict.empty⟩ :=
  ⟨fun _ _ h => by simp at h, fun _ _ h => by simp at h,
    fun _ _ _ _ h => by simp at h, fun _ _ _ _ h => by simp at h,
    fun _ _ h => by simp at h, Nat.zero_le _⟩

theorem NodeOk.discard {node : Node} (hok : NodeOk node) {key : Text × Text}
    {state : TransferState} (hget : node.transfers.get? key = some state) :
    NodeOk (discard node key state) := by
  -- What remains active was active before, under another key.
  have hremaining : ∀ other other', (Receiver.discard node key state).transfers.get?
      other = some other' → node.transfers.get? other = some other' ∧
        key ≠ other := by
    intro other other' h
    rw [Receiver.discard, Dict.get?_erase] at h
    split at h
    · cases h
    · exact ⟨h, by assumption⟩
  refine ⟨fun other other' h => hok.keyed _ _ (hremaining _ _ h).1,
    fun other other' h => ?_,
    fun key₁ state₁ key₂ state₂ h₁ h₂ =>
      hok.apart _ _ _ _ (hremaining _ _ h₁).1 (hremaining _ _ h₂).1,
    fun key₁ state₁ key₂ state₂ h₁ h₂ =>
      hok.oneOwner _ _ _ _ (hremaining _ _ h₁).1 (hremaining _ _ h₂).1,
    fun other other' h => hok.named _ _ (hremaining _ _ h).1,
    (node.transfers.size_erase_le key).trans hok.bounded⟩
  obtain ⟨hother, hne⟩ := hremaining _ _ h
  obtain ⟨tree, htree, hstaged⟩ := hok.staged _ _ hother
  refine ⟨tree, ?_, hstaged⟩
  rw [Receiver.discard, Dict.get?_erase_ne _ (hok.apart _ _ _ _ hget hother hne)]
  exact htree

theorem NodeOk.prune {node : Node} (hok : NodeOk node) (now : Time) :
    NodeOk (pruneIdleTransfers now node) :=
  pruneIdleTransfers_preserves now (fun _ _ _ h hget _ => h.discard hget) hok

/-- Replacing one active transfer by another state of the same transfer. -/
theorem NodeOk.update {node : Node} (hok : NodeOk node) {key : Text × Text}
    {state state' : TransferState} {tree : Tree} {inbox : Dict Text Tree}
    (hget : node.transfers.get? key = some state)
    (hevent : state'.event = state.event)
    (htransfer : state'.transferId = state.transferId)
    (hown : inbox.get? state.stagingDir = some tree)
    (hothers : ∀ name, state.stagingDir ≠ name →
      inbox.get? name = node.inbox.get? name)
    (hstaged : StagedOk tree state'.files) :
    NodeOk { inbox, transfers := node.transfers.set key state' } := by
  have hdir : state'.stagingDir = state.stagingDir := by
    simp [TransferState.stagingDir, hevent, htransfer]
  -- An entry of the new table is the replaced one or an old one.
  have hentry : ∀ other other', (node.transfers.set key state').get? other =
      some other' → ∃ old, node.transfers.get? other = some old ∧
        old.event = other'.event ∧ old.transferId = other'.transferId ∧
        (key = other ∧ other' = state' ∨ key ≠ other ∧ other' = old) := by
    intro other other' h
    rw [Dict.get?_set] at h
    split at h
    next heq =>
      cases h
      exact ⟨state, heq ▸ hget, hevent.symm, htransfer.symm, .inl ⟨heq, rfl⟩⟩
    next hne => exact ⟨other', h, rfl, rfl, .inr ⟨hne, rfl⟩⟩
  have hsame : ∀ {old other' : TransferState}, old.event = other'.event →
      old.transferId = other'.transferId →
      other'.stagingDir = old.stagingDir := by
    intro old other' he ht
    simp [TransferState.stagingDir, he, ht]
  refine ⟨fun other other' h => ?_, fun other other' h => ?_,
    fun key₁ state₁ key₂ state₂ h₁ h₂ hne => ?_,
    fun key₁ state₁ key₂ state₂ h₁ h₂ heq => ?_, fun other other' h => ?_, ?_⟩
  · obtain ⟨old, hold, he, ht, -⟩ := hentry _ _ h
    rw [hok.keyed _ _ hold, TransferState.key, TransferState.key, he, ht]
  · obtain ⟨old, hold, he, ht, ⟨rfl, rfl⟩ | ⟨hne, rfl⟩⟩ := hentry _ _ h
    · exact ⟨tree, hdir ▸ hown, hstaged⟩
    · obtain ⟨tree', htree', hstaged'⟩ := hok.staged _ _ hold
      refine ⟨tree', ?_, hstaged'⟩
      rw [hothers _ (hok.apart _ _ _ _ hget hold hne)]
      exact htree'
  · obtain ⟨old₁, hold₁, he₁, ht₁, -⟩ := hentry _ _ h₁
    obtain ⟨old₂, hold₂, he₂, ht₂, -⟩ := hentry _ _ h₂
    rw [hsame he₁ ht₁, hsame he₂ ht₂]
    exact hok.apart _ _ _ _ hold₁ hold₂ hne
  · obtain ⟨old₁, hold₁, he₁, -, -⟩ := hentry _ _ h₁
    obtain ⟨old₂, hold₂, he₂, -, -⟩ := hentry _ _ h₂
    exact hok.oneOwner _ _ _ _ hold₁ hold₂ (by rw [he₁, he₂, heq])
  · obtain ⟨old, hold, he, -, -⟩ := hentry _ _ h
    exact he ▸ hok.named _ _ hold
  · have hcontains : node.transfers.contains key = true :=
      node.transfers.contains_iff.mpr ⟨state, hget⟩
    rw [Dict.size_set, if_pos hcontains]
    exact hok.bounded

theorem NodeOk.chunk {runtime : Runtime} {node : Node} (hok : NodeOk node)
    {key : Text × Text} {request : Request} {state state' : TransferState}
    {reply : Reply} {tree? : Option Tree} {now : Time} {fault : WriteFault}
    (hget : node.transfers.get? key = some state)
    (hchunk : storeChunk runtime fault (touch state now)
      (node.inbox.get? state.stagingDir) request = (reply, state', tree?)) :
    NodeOk
      { inbox := setStaging node.inbox state.stagingDir tree?
        transfers := node.transfers.set key state' } := by
  obtain ⟨tree, htree, hstaged⟩ := hok.staged _ _ hget
  rw [htree] at hchunk
  obtain ⟨tree', rfl, houtcome⟩ := storeChunk_outcome hchunk
  have hstaged' : StagedOk tree' state'.files := houtcome.stagedOk hstaged
  refine hok.update hget ?_ ?_ (Dict.get?_set_self _ _ _)
    (fun name hne => Dict.get?_set_ne _ _ hne) hstaged' <;>
    cases houtcome <;> assumption

/-- A new transfer is apart from the others when its name overlaps none. -/
theorem NodeOk.startTransfer {node : Node} (hok : NodeOk node)
    {event transferId : Text} {expectedFiles expectedBytes : Nat} {now : Time}
    (hadmitted : Admitted node event transferId expectedFiles expectedBytes)
    (hnamed : matchesEventName event = true)
    (hapart : ∀ key state, node.transfers.get? key = some state →
      key ≠ (event, transferId) → ¬Overlaps key (event, transferId)) :
    NodeOk (startTransfer node event transferId expectedFiles expectedBytes
      now) := by
  have hentry : ∀ other other', (Receiver.startTransfer node event transferId
      expectedFiles expectedBytes now).transfers.get? other = some other' →
      ((event, transferId) = other ∧ other' = ⟨event, transferId,
        expectedFiles, expectedBytes, Dict.empty, Dict.empty, now⟩) ∨
      ((event, transferId) ≠ other ∧
        node.transfers.get? other = some other') := by
    intro other other' h
    rw [Receiver.startTransfer, Dict.get?_set] at h
    split at h
    next heq =>
      cases h
      exact .inl ⟨heq, rfl⟩
    next hne => exact .inr ⟨hne, h⟩
  have hname : ∀ other other', node.transfers.get? other = some other' →
      (event, transferId) ≠ other →
      stagingName event transferId ≠ other'.stagingDir := by
    intro other other' h hne heq
    have hkey := hok.keyed _ _ h
    subst hkey
    exact hapart _ _ h (Ne.symm hne)
      ((stagingName_eq_iff (Ne.symm hne)).mp heq.symm)
  refine ⟨fun other other' h => ?_, fun other other' h => ?_,
    fun key₁ state₁ key₂ state₂ h₁ h₂ hne => ?_,
    fun key₁ state₁ key₂ state₂ h₁ h₂ heq => ?_, fun other other' h => ?_, ?_⟩
  · rcases hentry _ _ h with ⟨rfl, rfl⟩ | ⟨-, hold⟩
    · rfl
    · exact hok.keyed _ _ hold
  · rcases hentry _ _ h with ⟨rfl, rfl⟩ | ⟨hne, hold⟩
    · exact ⟨DirTree.empty, by
        simp [Receiver.startTransfer, TransferState.stagingDir], stagedOk_empty⟩
    · obtain ⟨tree, htree, hstaged⟩ := hok.staged _ _ hold
      refine ⟨tree, ?_, hstaged⟩
      have hdir := hname _ _ hold hne
      rw [Receiver.startTransfer, Dict.get?_set_ne _ _ hdir,
        Dict.get?_erase_ne _ hdir]
      exact htree
  · rcases hentry _ _ h₁ with ⟨rfl, rfl⟩ | ⟨hne₁, hold₁⟩ <;>
      rcases hentry _ _ h₂ with ⟨rfl, rfl⟩ | ⟨hne₂, hold₂⟩
    · exact absurd rfl hne
    · exact hname _ _ hold₂ hne₂
    · exact (hname _ _ hold₁ hne₁).symm
    · exact hok.apart _ _ _ _ hold₁ hold₂ hne
  · -- `begin` admits a second transfer id for an event only after the first left.
    have howner : ∀ other other', node.transfers.get? other = some other' →
        other'.event = event → (event, transferId) = other := by
      intro other other' h hevent
      rw [hok.keyed _ _ h, TransferState.key, hevent,
        hadmitted.owner _ _ h hevent]
    rcases hentry _ _ h₁ with ⟨rfl, rfl⟩ | ⟨hne₁, hold₁⟩ <;>
      rcases hentry _ _ h₂ with ⟨rfl, rfl⟩ | ⟨hne₂, hold₂⟩
    · rfl
    · exact howner _ _ hold₂ heq.symm
    · exact (howner _ _ hold₁ heq).symm
    · exact hok.oneOwner _ _ _ _ hold₁ hold₂ heq
  · rcases hentry _ _ h with ⟨rfl, rfl⟩ | ⟨-, hold⟩
    · exact hnamed
    · exact hok.named _ _ hold
  · rw [Receiver.startTransfer, Dict.size_set]
    split
    · exact hok.bounded
    next hcontains =>
      rcases hadmitted.room with hactive | hroom
      · exact absurd hactive hcontains
      · exact hroom

theorem NodeOk.putTransfer {node : Node} (hok : NodeOk node)
    {key : Text × Text} {state : TransferState} (now : Time)
    (hget : node.transfers.get? key = some state) :
    NodeOk (putTransfer node (touch state now)) := by
  obtain ⟨tree, htree, hstaged⟩ := hok.staged _ _ hget
  have hkey := hok.keyed _ _ hget
  subst hkey
  exact hok.update hget rfl rfl htree (fun _ _ => rfl) hstaged

theorem NodeOk.publish {node : Node} (hok : NodeOk node) {key : Text × Text}
    {state : TransferState} (tree : Tree)
    (hget : node.transfers.get? key = some state) :
    NodeOk (publish node state tree) := by
  have hkey := hok.keyed _ _ hget
  subst hkey
  have hdiscarded := hok.discard hget
  have hstaged : ∀ other other',
      (node.transfers.erase state.key).get? other = some other' →
      ∃ tree', (Receiver.publish node state tree).inbox.get?
        other'.stagingDir = some tree' ∧ StagedOk tree' other'.files := by
    intro other other' h
    have hother : node.transfers.get? other = some other' ∧ state.key ≠ other := by
      rw [Dict.get?_erase] at h
      split at h
      · cases h
      · exact ⟨h, by assumption⟩
    obtain ⟨tree', htree', hok'⟩ := hok.staged _ _ hother.1
    refine ⟨tree', ?_, hok'⟩
    have hbackup : backupName state.event ≠ other'.stagingDir :=
      (stagingName_ne_backupName _ _ _).symm
    have hfinal : state.finalDir ≠ other'.stagingDir :=
      (stagingName_ne_of_matchesEventName (hok.named _ _ hget) _ _).symm
    rw [get?_inbox_publish, if_neg hbackup, if_neg hfinal,
      if_neg (hok.apart _ _ _ _ hget hother.1 hother.2)]
    exact htree'
  exact ⟨hdiscarded.keyed, hstaged, hdiscarded.apart, hdiscarded.oneOwner,
    hdiscarded.named, hdiscarded.bounded⟩

theorem NodeOk.handled {runtime : Runtime} {node node' : Node}
    {event transferId : Text} {request : Request} {reply : Reply}
    (hok : NodeOk node) (hnamed : matchesEventName event = true)
    (hapart : request.opcode = opBegin →
      Admitted node event transferId request.fileCount request.totalBytes →
      ∀ key state, node.transfers.get? key = some state →
        key ≠ (event, transferId) → ¬Overlaps key (event, transferId))
    (h : Handled runtime node (event, transferId) request reply node') :
    NodeOk node' := by
  cases h with
  | unchanged => exact hok
  | begun now hopcode hadmitted =>
      exact hok.startTransfer hadmitted hnamed (hapart hopcode hadmitted)
  | chunk now fault hopcode hstate hchunk =>
      rw [← hok.keyed _ _ hstate]
      exact hok.chunk hstate hchunk
  | @ended state _ _ now hopcode hstate hfinish =>
      have hput := hok.putTransfer now hstate
      rcases finish_cases hfinish with ⟨rfl, -⟩ | ⟨tree, -, -, rfl, -⟩
      · exact hput
      · exact hput.publish tree (Dict.get?_set_self _ _ _)

/-! ## Reachable nodes -/

/--
Nodes reached from a fresh receiver over any inbox by requests that `allowed`
admits; it sees the node as the request's own pruning leaves it.
-/
inductive Reachable (runtime : Runtime) (allowed : Node → Request → Prop) :
    Node → Prop
  | start (inbox : Dict Text Tree) :
      Reachable runtime allowed ⟨inbox, Dict.empty⟩
  | request {node : Node} (clock : Clock) (fault : WriteFault)
      (request : Request) (hnode : Reachable runtime allowed node)
      (hallowed : allowed (pruneIdleTransfers clock.pruneAt node) request) :
      Reachable runtime allowed
        (dispatch runtime clock fault node request).2

/-- An accepted `BEGIN` whose staging name no other active transfer has. -/
def NoOverlap (node : Node) (request : Request) : Prop :=
  request.opcode = opBegin →
    (validateEventName request.eventName).isSome = true →
    (validateEventName request.transferId).isSome = true →
    Admitted node request.eventName request.transferId request.fileCount
      request.totalBytes →
    ∀ key state, node.transfers.get? key = some state →
      key ≠ (request.eventName, request.transferId) →
      ¬Overlaps key (request.eventName, request.transferId)

theorem NodeOk.dispatch {runtime : Runtime} {node : Node} (hok : NodeOk node)
    (clock : Clock) (fault : WriteFault) (request : Request)
    (happart : NoOverlap (pruneIdleTransfers clock.pruneAt node) request) :
    NodeOk (dispatch runtime clock fault node request).2 := by
  have hpruned := hok.prune clock.pruneAt
  cases hdispatch : Receiver.dispatch runtime clock fault node request with
  | mk reply node' =>
  rcases dispatch_cases hdispatch with ⟨rfl, -⟩ | ⟨hevent, htransfer, h⟩
  · exact hpruned
  · exact hpruned.handled (validateEventName_eq_some hevent).2.2
      (fun hopcode => happart hopcode (by simp [hevent]) (by simp [htransfer])) h

theorem Reachable.nodeOk {runtime : Runtime} {node : Node}
    (h : Reachable runtime NoOverlap node) : NodeOk node := by
  induction h with
  | start inbox => exact nodeOk_start inbox
  | request clock fault request _ hallowed ih =>
      exact ih.dispatch clock fault request hallowed

end DataCache.Receiver
