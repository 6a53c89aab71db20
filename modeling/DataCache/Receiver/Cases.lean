import DataCache.Receiver.Store
import DataCache.Receiver.Staging

/-!
# What one request can do

Case lemmas for `begin`, `finish`, the pruning loop and the whole dispatch.
-/

namespace DataCache.Receiver

open DataCache.Foundation

/-! ## BEGIN -/

/-- The admission checks of `begin`. -/
structure Admitted (node : Node) (event transferId : Text)
    (expectedFiles expectedBytes : Nat) : Prop where
  someFiles : 0 < expectedFiles
  fileLimit : expectedFiles ≤ maxFiles
  byteLimit : expectedBytes ≤ maxTotalBytes
  nameLimit : event.length + transferId.length + "...part".length ≤ 240
  room : node.transfers.contains (event, transferId) = true ∨
    node.transfers.size < maxActiveTransfers
  owner : ∀ key state, node.transfers.get? key = some state →
    state.event = event → state.transferId = transferId

theorem begin_cases {node node' : Node} {event transferId : Text}
    {expectedFiles expectedBytes : Nat} {now : Time} {reply : Reply}
    (h : begin node event transferId expectedFiles expectedBytes now =
      (reply, node')) :
    (node' = node ∧ ∃ message, reply = .answer false message 0) ∨
    (reply = .answer true "transfer started" 0 ∧
      node' = startTransfer node event transferId expectedFiles expectedBytes
        now ∧
      Admitted node event transferId expectedFiles expectedBytes) := by
  unfold begin at h
  split at h
  · cases h
    exact .inl ⟨rfl, _, rfl⟩
  next hfiles =>
    split at h
    · cases h
      exact .inl ⟨rfl, _, rfl⟩
    next hbytes =>
      split at h
      · cases h
        exact .inl ⟨rfl, _, rfl⟩
      next hnames =>
        split at h
        · cases h
          exact .inl ⟨rfl, _, rfl⟩
        next hroom =>
          split at h
          · cases h
            exact .inl ⟨rfl, _, rfl⟩
          next howner =>
            cases h
            refine .inr ⟨rfl, rfl, ?_⟩
            simp only [Bool.or_eq_true, decide_eq_true_eq, not_or] at hfiles
            simp only [Bool.and_eq_true, Bool.not_eq_true', decide_eq_true_eq,
              not_and_or, not_le, Bool.not_eq_false] at hroom
            refine ⟨by omega, by omega, by omega, by omega, by simpa using hroom,
              fun key state hget hevent => ?_⟩
            by_contra hne
            refine howner (List.any_eq_true.mpr ⟨state, ?_, ?_⟩)
            · exact List.mem_map.mpr
                ⟨(key, state), node.transfers.mem_entries_iff.mpr hget, rfl⟩
            · simp [hevent, hne]

theorem begin_of_admitted {node : Node} {event transferId : Text}
    {expectedFiles expectedBytes : Nat}
    (h : Admitted node event transferId expectedFiles expectedBytes)
    (now : Time) :
    begin node event transferId expectedFiles expectedBytes now =
      (.answer true "transfer started" 0,
        startTransfer node event transferId expectedFiles expectedBytes now) := by
  have hfiles : (expectedFiles = 0 || expectedFiles > maxFiles) = false := by
    have := h.someFiles
    have := h.fileLimit
    simp only [Bool.or_eq_false_iff, decide_eq_false_iff_not]
    omega
  have hbytes : ¬expectedBytes > maxTotalBytes := by
    have := h.byteLimit
    omega
  have hnames : ¬event.length + transferId.length + "...part".length > 240 := by
    have := h.nameLimit
    omega
  have hroom : (!node.transfers.contains (event, transferId) &&
      decide (node.transfers.size ≥ maxActiveTransfers)) = false := by
    rcases h.room with hactive | hroom
    · simp [hactive]
    · simp [hroom]
  have howner : (node.transfers.values.any fun state =>
      state.event == event && state.transferId != transferId) = false := by
    rw [List.any_eq_false]
    intro state hmem
    obtain ⟨⟨key, state⟩, hentry, rfl⟩ := List.mem_map.mp hmem
    have hsame := h.owner key state (node.transfers.mem_entries_iff.mp hentry)
    simpa using hsame
  unfold begin
  simp [hfiles, hbytes, hnames, hroom, howner]

/-! ## END -/

/-- What the checks before publication establish. -/
structure Passed (runtime : Runtime) (tree : Tree) (state : TransferState) :
    Prop where
  count : state.files.size = state.expectedFiles
  total : receivedTotal state = state.expectedBytes
  staged : ∀ relative file, state.files.get? relative = some file →
    file.receivedBytes = file.expectedBytes ∧
      ∃ content, tree.read? (splitPath relative) = some content ∧
        content.length = file.expectedBytes
  checksums : verifyChecksums runtime tree state.files = .ok none

theorem checkStaged_eq_none {runtime : Runtime} {tree : Tree} {total : Nat}
    {relative : Text} {file : FileState}
    (h : checkStaged runtime (some tree) total relative file = none) :
    file.receivedBytes = file.expectedBytes ∧
      ∃ content, tree.read? (splitPath relative) = some content ∧
        content.length = file.expectedBytes := by
  unfold checkStaged at h
  simp only [Option.any_some] at h
  split at h
  · cases h
  next hsize =>
    split at h
    · cases h
    next hdir =>
      rw [not_or, not_not, not_not] at hsize
      refine ⟨hsize.1, ?_⟩
      have hactual := hsize.2
      simp only [stagedSize, hdir] at hactual
      cases hread : tree.read? (splitPath relative) with
      | none =>
          simp only [hread] at hactual
          exact absurd hactual (by simp)
      | some content =>
          simp only [hread] at hactual
          exact ⟨content, rfl, by simpa using hactual⟩

theorem finish_cases {runtime : Runtime} {node node' : Node}
    {state : TransferState} {reply : Reply}
    (h : finish runtime node state = (reply, node')) :
    (node' = node ∧ ∀ message bytes, reply ≠ .answer true message bytes) ∨
    (∃ tree, node.inbox.get? state.stagingDir = some tree ∧
      reply = .answer true "transfer complete" (receivedTotal state) ∧
      node' = publish node state tree ∧ Passed runtime tree state) := by
  unfold finish at h
  simp only at h
  split at h
  · cases h
    exact .inl ⟨rfl, by simp⟩
  next hcount =>
    split at h
    · cases h
      exact .inl ⟨rfl, by simp⟩
    next htotal =>
      split at h
      next reply₀ hfind =>
        cases h
        refine .inl ⟨rfl, fun message bytes heq => ?_⟩
        subst heq
        obtain ⟨entry, -, hentry⟩ := List.exists_of_findSome?_eq_some hfind
        unfold checkStaged at hentry
        simp only at hentry
        split at hentry
        · cases hentry
        · split at hentry <;> cases hentry
      next hfind =>
        split at h
        · cases h
          exact .inl ⟨rfl, by simp⟩
        next tree htree =>
          split at h
          · cases h
            exact .inl ⟨rfl, by simp⟩
          · cases h
            exact .inl ⟨rfl, by simp⟩
          next hchecksums =>
            cases h
            refine .inr ⟨tree, htree, rfl, rfl, not_not.mp hcount,
              not_not.mp htotal, fun relative file hget => ?_, hchecksums⟩
            have hmem := state.files.mem_entries_iff.mpr hget
            have hnone := (List.findSome?_eq_none_iff.mp hfind) _ hmem
            rw [htree] at hnone
            exact checkStaged_eq_none hnone

theorem get?_inbox_publish (node : Node) (state : TransferState) (tree : Tree)
    (name : Text) :
    (publish node state tree).inbox.get? name =
      if backupName state.event = name then none
      else if state.finalDir = name then some tree
      else if state.stagingDir = name then none
      else node.inbox.get? name := by
  unfold publish
  simp only [Dict.get?_erase, Dict.get?_set]
  split
  · rfl
  next hbackup =>
    split
    · rfl
    next hfinal =>
      split
      · rfl
      · split <;>
          simp only [Dict.get?_erase, Dict.get?_set, hbackup, hfinal, if_false]

@[simp] theorem transfers_publish (node : Node) (state : TransferState)
    (tree : Tree) :
    (publish node state tree).transfers = node.transfers.erase state.key := rfl

/-! ## Pruning -/

/-- A property that survives discarding any idle transfer survives pruning. -/
theorem pruneEntries_preserves {P : Node → Prop} {cutoff : Time}
    (hdiscard : ∀ node key state, P node →
      node.transfers.get? key = some state → state.lastActivity < cutoff →
      P (discard node key state)) :
    ∀ (entries : List ((Text × Text) × TransferState)) (node : Node),
      (entries.map Prod.fst).Nodup →
      (∀ entry ∈ entries, node.transfers.get? entry.1 = some entry.2) →
      P node → P (pruneEntries cutoff entries node)
  | [], _, _, _, h => h
  | (key, state) :: rest, node, hnodup, hactive, h => by
      simp only [List.map_cons, List.nodup_cons] at hnodup
      have hrest : ∀ entry ∈ rest,
          node.transfers.get? entry.1 = some entry.2 := fun entry hentry =>
        hactive entry (List.mem_cons_of_mem _ hentry)
      unfold pruneEntries
      split
      · exact pruneEntries_preserves hdiscard rest node hnodup.2 hrest h
      next hidle =>
        refine pruneEntries_preserves hdiscard rest _ hnodup.2 ?_
          (hdiscard node key state h (hactive (key, state) List.mem_cons_self)
            (lt_of_not_ge hidle))
        intro entry hentry
        have hne : key ≠ entry.1 := fun heq =>
          hnodup.1 (heq ▸ List.mem_map_of_mem hentry)
        rw [discard, Dict.get?_erase_ne _ hne]
        exact hrest entry hentry

theorem pruneIdleTransfers_preserves {P : Node → Prop} (now : Time)
    (hdiscard : ∀ node key state, P node →
      node.transfers.get? key = some state →
      state.lastActivity < now - transferIdle → P (discard node key state))
    {node : Node} (h : P node) : P (pruneIdleTransfers now node) :=
  pruneEntries_preserves hdiscard _ node node.transfers.nodupKeys
    (fun _ hentry => node.transfers.mem_entries_iff.mp hentry) h

/-- What is left after pruning is not idle. -/
theorem pruneEntries_fresh {cutoff : Time} :
    ∀ (entries : List ((Text × Text) × TransferState)) (node : Node),
      (∀ key state, node.transfers.get? key = some state →
        state.lastActivity < cutoff → (key, state) ∈ entries) →
      ∀ key state, (pruneEntries cutoff entries node).transfers.get? key =
        some state → cutoff ≤ state.lastActivity
  | [], node, hidle, key, state, hget => by
      by_contra hlt
      cases hidle key state hget (lt_of_not_ge hlt)
  | (victim, discarded) :: rest, node, hidle, key, state, hget => by
      unfold pruneEntries at hget
      split at hget
      next hfresh =>
        refine pruneEntries_fresh rest node (fun other found hother hlt => ?_) key
          state hget
        rcases List.mem_cons.mp (hidle other found hother hlt) with heq | hrest
        · cases heq
          exact absurd hlt (not_lt_of_ge hfresh)
        · exact hrest
      next =>
        refine pruneEntries_fresh rest _ (fun other found hother hlt => ?_) key
          state hget
        rw [discard, Dict.get?_erase] at hother
        split at hother
        · cases hother
        next hne =>
          rcases List.mem_cons.mp (hidle other found hother hlt) with heq | hrest
          · cases heq
            exact absurd rfl hne
          · exact hrest

theorem pruneIdleTransfers_fresh {node : Node} {now : Time} {key : Text × Text}
    {state : TransferState}
    (h : (pruneIdleTransfers now node).transfers.get? key = some state) :
    now - transferIdle ≤ state.lastActivity :=
  pruneEntries_fresh _ node
    (fun _ _ hget _ => node.transfers.mem_entries_iff.mpr hget) key state h

/-- Where no transfer is idle, pruning does nothing. -/
theorem pruneIdleTransfers_of_fresh {node : Node} {now : Time}
    (h : ∀ key state, node.transfers.get? key = some state →
      now - transferIdle ≤ state.lastActivity) :
    pruneIdleTransfers now node = node := by
  have hentries : ∀ entries : List ((Text × Text) × TransferState),
      (∀ entry ∈ entries, now - transferIdle ≤ entry.2.lastActivity) →
      pruneEntries (now - transferIdle) entries node = node := by
    intro entries hentries
    induction entries with
    | nil => rfl
    | cons entry entries ih =>
        rw [pruneEntries, if_pos (hentries entry List.mem_cons_self)]
        exact ih fun other hother => hentries other (List.mem_cons_of_mem _ hother)
  exact hentries _ fun entry hentry =>
    h entry.1 entry.2 (node.transfers.mem_entries_iff.mp hentry)

/-- A transfer staged in `directory` has been quiet for too long. -/
def IdleIn (node : Node) (directory : Text) (now : Time) : Prop :=
  ∃ key state, node.transfers.get? key = some state ∧
    state.stagingDir = directory ∧ state.lastActivity < now - transferIdle

instance (node : Node) (directory : Text) (now : Time) :
    Decidable (IdleIn node directory now) :=
  decidable_of_iff (∃ entry ∈ node.transfers.entries,
      entry.2.stagingDir = directory ∧
        entry.2.lastActivity < now - transferIdle)
    ⟨fun ⟨entry, hentry, h⟩ =>
        ⟨entry.1, entry.2, node.transfers.mem_entries_iff.mp hentry, h⟩,
      fun ⟨key, state, hget, h⟩ =>
        ⟨(key, state), node.transfers.mem_entries_iff.mpr hget, h⟩⟩

/-- Pruning keeps a directory, and the transfers staged there that are not idle. -/
theorem pruneIdleTransfers_keeps {node : Node} {directory : Text} {now : Time}
    (h : ¬IdleIn node directory now) :
    (∀ key state, node.transfers.get? key = some state →
      state.stagingDir = directory →
      (pruneIdleTransfers now node).transfers.get? key = some state) ∧
    (pruneIdleTransfers now node).inbox.get? directory =
      node.inbox.get? directory := by
  have hkept : (∀ key state,
        (pruneIdleTransfers now node).transfers.get? key = some state →
        node.transfers.get? key = some state) ∧
      (∀ key state, node.transfers.get? key = some state →
        state.stagingDir = directory →
        (pruneIdleTransfers now node).transfers.get? key = some state) ∧
      (pruneIdleTransfers now node).inbox.get? directory =
        node.inbox.get? directory := by
    refine pruneIdleTransfers_preserves (P := fun node' =>
      (∀ key state, node'.transfers.get? key = some state →
        node.transfers.get? key = some state) ∧
      (∀ key state, node.transfers.get? key = some state →
        state.stagingDir = directory →
        node'.transfers.get? key = some state) ∧
      node'.inbox.get? directory = node.inbox.get? directory) now ?_
      ⟨fun _ _ => id, fun _ _ hget _ => hget, rfl⟩
    rintro node' victim discarded ⟨hold, hactive, hinbox⟩ hvictim hidle
    have helsewhere : discarded.stagingDir ≠ directory := fun heq =>
      h ⟨victim, discarded, hold _ _ hvictim, heq, hidle⟩
    refine ⟨fun key state hget => ?_, fun key state hget hdirectory => ?_, ?_⟩
    · rw [discard, Dict.get?_erase] at hget
      split at hget
      · cases hget
      · exact hold key state hget
    · have hne : victim ≠ key := by
        rintro rfl
        rw [hold _ _ hvictim] at hget
        cases hget
        exact helsewhere hdirectory
      rw [discard, Dict.get?_erase_ne _ hne]
      exact hactive key state hget hdirectory
    · rw [discard, Dict.get?_erase_ne _ helsewhere]
      exact hinbox
  exact hkept.2

/-! ## Dispatch -/

def Reply.accepted : Reply → Bool
  | .answer success _ _ => success
  | .raised _ => false

theorem success_toResponse (runtime : Runtime) (reply : Reply) :
    (reply.toResponse runtime).success = reply.accepted := by
  cases reply <;> rfl

/-- The ways a validated request changes a pruned node. -/
inductive Handled (runtime : Runtime) (node : Node) (key : Text × Text)
    (request : Request) : Reply → Node → Prop
  | unchanged {reply : Reply}
      (hfail : ∀ message bytes, reply ≠ .answer true message bytes) :
      Handled runtime node key request reply node
  | begun (now : Time) (hopcode : request.opcode = opBegin)
      (hadmitted : Admitted node key.1 key.2 request.fileCount
        request.totalBytes) :
      Handled runtime node key request (.answer true "transfer started" 0)
        (startTransfer node key.1 key.2 request.fileCount request.totalBytes now)
  | chunk {state state' : TransferState} {reply : Reply} {tree? : Option Tree}
      (now : Time) (fault : WriteFault) (hopcode : request.opcode = opFileChunk)
      (hstate : node.transfers.get? key = some state)
      (hchunk : storeChunk runtime fault (touch state now)
        (node.inbox.get? state.stagingDir) request = (reply, state', tree?)) :
      Handled runtime node key request reply
        { inbox := setStaging node.inbox state.stagingDir tree?
          transfers := node.transfers.set state.key state' }
  | ended {state : TransferState} {reply : Reply} {node' : Node} (now : Time)
      (hopcode : request.opcode = opEnd)
      (hstate : node.transfers.get? key = some state)
      (hfinish : finish runtime (putTransfer node (touch state now))
        (touch state now) = (reply, node')) :
      Handled runtime node key request reply node'

theorem dispatchPruned_handled {runtime : Runtime} {now : Time}
    {fault : WriteFault} {node node' : Node} {event transferId : Text}
    {request : Request} {reply : Reply}
    (h : dispatchPruned runtime now fault node event transferId request =
      (reply, node')) :
    Handled runtime node (event, transferId) request reply node' := by
  unfold dispatchPruned at h
  split at h
  next hopcode =>
    rcases begin_cases h with ⟨rfl, message, rfl⟩ | ⟨rfl, rfl, hadmitted⟩
    · exact .unchanged (by simp)
    · exact .begun now hopcode hadmitted
  · split at h
    · cases h
      exact .unchanged (by simp)
    next state hstate =>
      split at h
      next hopcode =>
        unfold handleChunk at h
        cases hchunk : storeChunk runtime fault (touch state now)
            (node.inbox.get? (touch state now).stagingDir) request with
        | mk reply₀ rest =>
            obtain ⟨state', tree?⟩ := rest
            simp only [hchunk] at h
            cases h
            exact @Handled.chunk runtime node _ request state state' reply tree?
              now fault hopcode hstate hchunk
      · split at h
        next hopcode => exact .ended now hopcode hstate h
        · cases h
          exact .unchanged (by simp)

/-- A dispatch prunes, and then either refuses the names or handles the request. -/
theorem dispatch_cases {runtime : Runtime} {clock : Clock} {fault : WriteFault}
    {node node' : Node} {request : Request} {reply : Reply}
    (h : dispatch runtime clock fault node request = (reply, node')) :
    (node' = pruneIdleTransfers clock.pruneAt node ∧
      ∀ message bytes, reply ≠ .answer true message bytes) ∨
    (validateEventName request.eventName = some request.eventName ∧
      validateEventName request.transferId = some request.transferId ∧
      Handled runtime (pruneIdleTransfers clock.pruneAt node)
        (request.eventName, request.transferId) request reply node') := by
  unfold dispatch at h
  simp only at h
  split at h
  next event transferId hevent htransfer =>
    obtain ⟨rfl, -, -⟩ := validateEventName_eq_some hevent
    obtain ⟨rfl, -, -⟩ := validateEventName_eq_some htransfer
    exact .inr ⟨hevent, htransfer, dispatchPruned_handled h⟩
  · cases h
    exact .inl ⟨rfl, by simp⟩

/-- A chunk of an active transfer goes to `store_chunk`. -/
theorem dispatch_chunk {runtime : Runtime} {clock : Clock} {fault : WriteFault}
    {node : Node} {request : Request} {state : TransferState}
    (hopcode : request.opcode = opFileChunk)
    (hevent : (validateEventName request.eventName).isSome = true)
    (htransfer : (validateEventName request.transferId).isSome = true)
    (hstate : (pruneIdleTransfers clock.pruneAt node).transfers.get?
      (request.eventName, request.transferId) = some state) :
    dispatch runtime clock fault node request =
      handleChunk runtime fault (pruneIdleTransfers clock.pruneAt node)
        (touch state clock.touchAt) request := by
  obtain ⟨event, hevent⟩ := Option.isSome_iff_exists.mp hevent
  obtain ⟨transferId, htransfer⟩ := Option.isSome_iff_exists.mp htransfer
  have heq := (validateEventName_eq_some hevent).1
  have heq' := (validateEventName_eq_some htransfer).1
  subst heq heq'
  have hbegin : ¬request.opcode = opBegin := by
    rw [hopcode]
    decide
  rw [dispatch]
  simp only [hevent, htransfer, dispatchPruned, if_neg hbegin, hstate,
    if_pos hopcode]

end DataCache.Receiver
