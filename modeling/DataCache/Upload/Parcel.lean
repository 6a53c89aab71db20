import DataCache.Receiver.Isolation
import DataCache.Upload.Worker

/-!
# A directory on its way

All attempts to upload one completed directory send the same requests: the same
transfer id, the same sizes and pieces of the same bytes.  In whatever order
they arrive, the receiver has beginnings of these files and publishes all of
them or nothing.
-/

namespace DataCache.Upload

open DataCache.Foundation DataCache.Storage DataCache.Receiver

/-- The visible files of an event directory that does not change any more. -/
structure Parcel where
  event : Text
  transferId : Text
  files : List Path
  content : Path → Bytes
  identified : transferId ≠ []
  nodup : files.Nodup
  named : ∀ path ∈ files, path ≠ [] ∧ ∀ name ∈ path, '/' ∉ name
  visible : ∀ path ∈ files, isMarkerOrTemp path = false

namespace Parcel

variable (parcel : Parcel)

def key : Text × Text := (parcel.event, parcel.transferId)

def info (path : Path) : FileInfo :=
  ⟨path, joinPath path, (parcel.content path).length⟩

def totalBytes : Nat :=
  (parcel.files.map fun path => (parcel.content path).length).sum

/-- The requests of an attempt, complete or not. -/
inductive Sends : Request → Prop
  | start : Sends (beginRequest parcel.event parcel.transferId
      parcel.files.length parcel.totalBytes)
  | piece {path : Path} (hpath : path ∈ parcel.files) (offset count : Nat) :
      Sends (chunkRequest parcel.event parcel.transferId (parcel.info path) offset
        (((parcel.content path).drop offset).take count))
  | finish : Sends (endRequest parcel.event parcel.transferId)

/-- The manifest of the directory names all its other files. -/
def Completed : Prop :=
  ∃ text, decodeUtf8? (parcel.content [manifestName]) = some text ∧
    ∀ path ∈ parcel.files, path ≠ [manifestName] →
      ∃ digest, ManifestLists text (joinPath path) digest

/-- The directory holds the files that were sent and no others. -/
def Matches (tree : Tree) : Prop :=
  ∀ path content, tree.read? path = some content ↔
    path ∈ parcel.files ∧ parcel.content path = content

/-- The inbox has the directory under the event's name. -/
structure Arrived (node : Receiver.Node) : Prop where
  named : matchesEventName parcel.event = true
  published : ∃ tree, node.inbox.get? parcel.event = some tree ∧
    parcel.Matches tree

end Parcel

/-! ## What the receiver has gathered -/

/-- The name the receiver reads: a backslash separates components too. -/
def receivedName (path : Path) : Text := normalizeSlashes (joinPath path)

/-- An entry of the receiver's table is the beginning of a file that is sent. -/
structure Parcel.Begins (parcel : Parcel) (relative : Text) (file : FileState) :
    Prop where
  sent : ∃ path ∈ parcel.files, receivedName path = relative ∧
    file.expectedBytes = (parcel.content path).length
  hashed : ∀ path ∈ parcel.files, receivedName path = relative →
    (∀ other ∈ parcel.files, receivedName other = relative → other = path) →
    file.hasher = (parcel.content path).take file.receivedBytes

structure Parcel.Gathers (parcel : Parcel) (state : TransferState) : Prop where
  count : state.expectedFiles = parcel.files.length
  files : ∀ relative file, state.files.get? relative = some file →
    parcel.Begins relative file

section Gathers

variable {parcel : Parcel} {state state' : TransferState}

theorem Parcel.Begins.fresh {path : Path} (hpath : path ∈ parcel.files) :
    parcel.Begins (receivedName path)
      (FileState.fresh (parcel.content path).length) :=
  ⟨⟨path, hpath, rfl, rfl⟩, fun _ _ _ _ => rfl⟩

theorem take_append_take_drop {α : Type*} (content : List α) (offset count : Nat) :
    content.take offset ++ (content.drop offset).take count =
      content.take (offset + ((content.drop offset).take count).length) := by
  rw [List.length_take, List.take_add]
  congr 1
  rw [List.take_eq_take_iff]
  omega

/-- The next piece of a file continues what is there of it. -/
theorem Parcel.Begins.extend {path : Path} {relative : Text} {file : FileState}
    (h : parcel.Begins relative file) (hname : receivedName path = relative)
    (hpath : path ∈ parcel.files) {offset count : Nat} {data : Bytes}
    (hdata : data = ((parcel.content path).drop offset).take count)
    (hoffset : offset = file.receivedBytes) :
    parcel.Begins relative
      { file with
        hasher := file.hasher ++ data
        receivedBytes := offset + data.length } where
  sent := h.sent
  hashed other hother hsame hunique := by
    obtain rfl := hunique path hpath hname
    have hhasher := h.hashed path hpath hsame hunique
    rw [← hoffset] at hhasher
    change file.hasher ++ data = _
    rw [hhasher, hdata]
    exact take_append_take_drop _ _ _

theorem Parcel.Gathers.chunk {tree tree' : Tree} {request : Request} {reply : Reply}
    (h : parcel.Gathers state) (hsends : parcel.Sends request)
    (hopcode : request.opcode = opFileChunk)
    (houtcome : ChunkOutcome state tree request reply state' tree') :
    parcel.Gathers state' := by
  cases hsends with
  | start => exact absurd hopcode (show opBegin ≠ opFileChunk by decide)
  | finish => exact absurd hopcode (show opEnd ≠ opFileChunk by decide)
  | @piece path hpath offset count =>
      cases houtcome with
      | refused hfiles _ _ hcount => exact ⟨hcount.trans h.count, hfiles ▸ h.files⟩
      | @handled parts file file' _ _ _ hsafe hfile hfiles _ _ hcount _ hstored =>
          have hname : receivedName path = joinPath parts :=
            (joinPath_of_safeRelative hsafe).symm
          have hbegins : parcel.Begins (joinPath parts) file := by
            rw [hfile]
            cases hget : state.files.get? (joinPath parts) with
            | none => exact hname ▸ .fresh hpath
            | some known => exact h.files _ _ hget
          have hbegins' : parcel.Begins (joinPath parts) file' := by
            cases hstored with
            | kept => exact hbegins
            | torn => exact hbegins
            | stored hoffset => exact hbegins.extend hname hpath rfl hoffset
          refine ⟨hcount.trans h.count, fun relative found hget => ?_⟩
          rw [hfiles, Dict.get?_set] at hget
          split at hget
          next heq =>
            cases hget
            exact heq ▸ hbegins'
          next => exact h.files relative found hget

/-! ## What the receiver publishes -/

theorem eq_of_normalizeSlashes_eq {path name : Text} (hslash : '/' ∉ name)
    (h : normalizeSlashes path = name) : path = name := by
  rw [← h]
  refine (normalizeSlashes_eq_self fun hmem => hslash ?_).symm
  rw [← h]
  exact List.mem_map.mpr ⟨'\\', hmem, rfl⟩

theorem splitPath_joinPath_of_named {path : Path} (hpath : path ∈ parcel.files) :
    splitPath (joinPath path) = path :=
  splitPath_joinPath (parcel.named path hpath).1 (parcel.named path hpath).2

theorem path_of_manifestName {path : Path} (hpath : path ∈ parcel.files)
    (h : receivedName path = manifestName) : path = [manifestName] := by
  have hjoin := eq_of_normalizeSlashes_eq (by decide) h
  rw [← splitPath_joinPath_of_named hpath, hjoin]
  decide

section Passed

variable {runtime : Runtime} {tree : Tree}

/-- As many entries as files, each of one of them: there is one for each. -/
theorem Parcel.Gathers.names_perm (h : parcel.Gathers state)
    (hcount : state.files.size = state.expectedFiles) :
    state.files.keys.Perm (parcel.files.map receivedName) := by
  have hsub : state.files.keys ⊆ parcel.files.map receivedName := by
    intro relative hmem
    obtain ⟨file, hget⟩ := state.files.mem_keys_iff.mp hmem
    obtain ⟨path, hpath, hname, -⟩ := (h.files relative file hget).sent
    exact List.mem_map.mpr ⟨path, hpath, hname⟩
  refine (List.subperm_of_subset state.files.keys_nodup hsub).perm_of_length_le ?_
  rw [List.length_map, ← h.count, ← hcount, state.files.size_eq_length_keys]

/-- What passes the checks of `END` has every file in full. -/
theorem Parcel.Gathers.staged (h : parcel.Gathers state)
    (hpassed : Passed runtime tree state) (hok : StagedOk tree state.files)
    {path : Path} (hpath : path ∈ parcel.files) :
    (∃ file, state.files.get? (receivedName path) = some file) ∧
      tree.read? (splitPath (receivedName path)) = some (parcel.content path) := by
  have hperm := h.names_perm hpassed.count
  obtain ⟨file, hget⟩ := state.files.mem_keys_iff.mp
    (hperm.mem_iff.mpr (List.mem_map_of_mem hpath))
  have hbegins := h.files _ file hget
  have hunique : ∀ other ∈ parcel.files, receivedName other = receivedName path →
      other = path := fun other hother hname =>
    List.inj_on_of_nodup_map (hperm.nodup_iff.mp state.files.keys_nodup) hother
      hpath hname
  obtain ⟨hreceived, content, hread, hlength⟩ := hpassed.staged _ file hget
  have hsize : file.expectedBytes = (parcel.content path).length := by
    obtain ⟨other, hother, hname, hsize⟩ := hbegins.sent
    rwa [hunique other hother hname] at hsize
  have hhasher : content = file.hasher :=
    (hok.agrees _ file hget).eq_hasher hread (by omega)
  rw [hbegins.hashed path hpath rfl hunique, hreceived, hsize,
    List.take_length] at hhasher
  exact ⟨⟨file, hget⟩, hhasher ▸ hread⟩

/-- The manifest names the files, and so without a backslash. -/
theorem Parcel.Gathers.receivedName_eq (h : parcel.Gathers state)
    (hpassed : Passed runtime tree state) (hok : StagedOk tree state.files)
    (hcompleted : parcel.Completed) {path : Path} (hpath : path ∈ parcel.files) :
    receivedName path = joinPath path := by
  by_cases hmanifest : path = [manifestName]
  · subst hmanifest
    decide
  obtain ⟨content, text, hread, htext, -, hlists⟩ :=
    verifyChecksums_eq_none hpassed.checksums
  obtain ⟨text', htext', hlisted⟩ := hcompleted
  have hcontent : parcel.content [manifestName] = content := by
    obtain ⟨relative, file, hget, hsplit⟩ := hok.known _ content hread
    obtain ⟨other, hother, hname, -⟩ := (h.files relative file hget).sent
    have hrelative : relative = manifestName :=
      splitPath_injective (hsplit.trans (by decide))
    obtain rfl := path_of_manifestName hother (hname.trans hrelative)
    have hstaged := (h.staged hpassed hok hother).2
    rw [hname, hsplit] at hstaged
    exact Option.some.inj (hstaged.symm.trans hread)
  rw [hcontent, htext] at htext'
  cases htext'
  obtain ⟨digest, hdigest⟩ := hlisted path hpath hmanifest
  obtain ⟨-, file, hget, -⟩ := (hlists _ digest).mp hdigest
  obtain ⟨other, -, hname, -⟩ := (h.files _ file hget).sent
  refine normalizeSlashes_eq_self fun hmem => ?_
  rw [← hname] at hmem
  exact backslash_not_mem_normalizeSlashes _ hmem

theorem Parcel.Gathers.matches (h : parcel.Gathers state)
    (hpassed : Passed runtime tree state) (hok : StagedOk tree state.files)
    (hcompleted : parcel.Completed) : parcel.Matches tree := by
  have hstaged : ∀ path ∈ parcel.files,
      tree.read? path = some (parcel.content path) := by
    intro path hpath
    have hread := (h.staged hpassed hok hpath).2
    rwa [h.receivedName_eq hpassed hok hcompleted hpath,
      splitPath_joinPath_of_named hpath] at hread
  intro path content
  constructor
  · intro hread
    obtain ⟨relative, file, hget, hsplit⟩ := hok.known path content hread
    obtain ⟨other, hother, hname, -⟩ := (h.files relative file hget).sent
    rw [h.receivedName_eq hpassed hok hcompleted hother] at hname
    rw [← hname, splitPath_joinPath_of_named hother] at hsplit
    subst hsplit
    exact ⟨hother, Option.some.inj ((hstaged other hother).symm.trans hread)⟩
  · rintro ⟨hpath, rfl⟩
    exact hstaged path hpath

end Passed

end Gathers

/-! ## Requests at the receiver -/

theorem not_accepted {reply : Reply}
    (h : ∀ message bytes, reply ≠ .answer true message bytes) :
    ¬reply.accepted = true := by
  intro haccepted
  cases reply with
  | answer success message bytes =>
      obtain rfl : success = true := haccepted
      exact h message bytes rfl
  | raised => cases haccepted

theorem get?_pruneIdleTransfers_of_named {name : Text}
    (hname : matchesEventName name = true) (now : Time) (node : Receiver.Node) :
    (pruneIdleTransfers now node).inbox.get? name = node.inbox.get? name := by
  refine (pruneIdleTransfers_keeps ?_).2
  rintro ⟨key, state, -, hdirectory, -⟩
  exact stagingName_ne_of_matchesEventName hname _ _ hdirectory

/-- A published directory changes only when `END` publishes its event again. -/
theorem get?_handled_of_named {runtime : Runtime} {node node' : Receiver.Node}
    {key : Text × Text} {request : Request} {reply : Reply} {name : Text}
    (hok : NodeOk node) (h : Handled runtime node key request reply node')
    (hname : matchesEventName name = true) :
    node'.inbox.get? name = node.inbox.get? name ∨
      name = key.1 ∧ request.opcode = opEnd ∧ reply.accepted = true := by
  have hstaging : ∀ event transferId, stagingName event transferId ≠ name :=
    stagingName_ne_of_matchesEventName hname
  cases h with
  | unchanged => exact .inl rfl
  | begun now =>
      refine .inl ?_
      rw [startTransfer, Dict.get?_set_ne _ _ (hstaging _ _),
        Dict.get?_erase_ne _ (hstaging _ _)]
  | @chunk state state' _ tree? now fault =>
      refine .inl ?_
      cases tree? with
      | none => rfl
      | some tree => exact Dict.get?_set_ne _ _ (hstaging _ _)
  | @ended state _ _ now hopcode hstate hfinish =>
      rcases finish_cases hfinish with ⟨rfl, -⟩ | ⟨tree, -, rfl, rfl, -⟩
      · exact .inl rfl
      · by_cases hevent : name = key.1
        · exact .inr ⟨hevent, hopcode, rfl⟩
        · have hkey : state.event = key.1 :=
            (congrArg Prod.fst (hok.keyed _ _ hstate)).symm
          have hfinal : (touch state now).finalDir ≠ name := fun heq =>
            hevent (heq.symm.trans hkey)
          have hdirectory : (touch state now).stagingDir ≠ name := hstaging _ _
          refine .inl ?_
          rw [get?_inbox_publish, if_neg (backupName_ne_of_matchesEventName hname _),
            if_neg hfinal, if_neg hdirectory]
          rfl

/-- The receiver's table is sound and has of the parcel only what was sent. -/
structure Parcel.Expects (parcel : Parcel) (node : Receiver.Node) : Prop where
  ok : NodeOk node
  apart : ∀ key state, node.transfers.get? key = some state → key ≠ parcel.key →
    ¬Overlaps key parcel.key
  gathered : ∀ state, node.transfers.get? parcel.key = some state →
    parcel.Gathers state

/-- A request of a sender that uses neither the event nor its staging directory. -/
structure Parcel.Foreign (parcel : Parcel) (node : Receiver.Node) (clock : Clock)
    (request : Request) : Prop where
  event : request.eventName ≠ parcel.event
  apart : ¬Overlaps (request.eventName, request.transferId) parcel.key
  fits : NoOverlap (pruneIdleTransfers clock.pruneAt node) request

section Expects

variable {parcel : Parcel} {runtime : Runtime} {node node' : Receiver.Node}
  {request : Request} {reply : Reply} {clock : Clock} {fault : WriteFault}

theorem Parcel.Expects.prune (h : parcel.Expects node) (now : Time) :
    parcel.Expects (pruneIdleTransfers now node) where
  ok := h.ok.prune now
  apart key state hget := h.apart key state (active_pruneIdleTransfers hget)
  gathered state hget := h.gathered state (active_pruneIdleTransfers hget)

theorem Parcel.Arrived.prune (h : parcel.Arrived node) (now : Time) :
    parcel.Arrived (pruneIdleTransfers now node) := by
  obtain ⟨hnamed, tree, hget, hmatches⟩ := h
  exact ⟨hnamed, tree, by rwa [get?_pruneIdleTransfers_of_named hnamed], hmatches⟩

theorem Parcel.Expects.foreign (h : parcel.Expects node)
    (hforeign : parcel.Foreign node clock request)
    (hdispatch : dispatch runtime clock fault node request = (reply, node')) :
    parcel.Expects node' ∧ (parcel.Arrived node → parcel.Arrived node') := by
  have hpruned := h.prune clock.pruneAt
  have hok : NodeOk (dispatch runtime clock fault node request).2 :=
    h.ok.dispatch clock fault request hforeign.fits
  rw [hdispatch] at hok
  have hne : parcel.key ≠ (request.eventName, request.transferId) := fun heq =>
    hforeign.event (congrArg Prod.fst heq).symm
  rcases dispatch_cases hdispatch with ⟨rfl, -⟩ | ⟨-, -, hhandled⟩
  · exact ⟨hpruned, fun harrived => harrived.prune _⟩
  · refine ⟨⟨hok, fun key state hget hkey => ?_, fun state hget => ?_⟩,
      fun harrived => ?_⟩
    · rcases hhandled.active hpruned.ok hget with rfl | ⟨old, hold⟩
      · exact hforeign.apart
      · exact hpruned.apart key old hold hkey
    · exact hpruned.gathered state ((hhandled.others hpruned.ok hne).symm.trans hget)
    · obtain ⟨hnamed, tree, hget, hmatches⟩ := harrived.prune clock.pruneAt
      rcases get?_handled_of_named hpruned.ok hhandled hnamed with hsame | ⟨heq, -⟩
      · exact ⟨hnamed, tree, hsame.trans hget, hmatches⟩
      · exact absurd heq.symm hforeign.event

theorem Parcel.Sends.key (h : parcel.Sends request) :
    (request.eventName, request.transferId) = parcel.key := by
  cases h <;> rfl

theorem Parcel.Expects.noOverlap (h : parcel.Expects node)
    (hsends : parcel.Sends request) :
    NoOverlap (pruneIdleTransfers clock.pruneAt node) request := by
  intro _ _ _ _ key state hget hkey
  rw [hsends.key] at hkey ⊢
  exact h.apart key state (active_pruneIdleTransfers hget) hkey

/-- What the parcel's transfer has gathered after one of its requests. -/
theorem Parcel.Expects.gathers (h : parcel.Expects node)
    (hsends : parcel.Sends request)
    (hhandled : Handled runtime node parcel.key request reply node')
    {state : TransferState} (hget : node'.transfers.get? parcel.key = some state) :
    parcel.Gathers state := by
  cases hhandled with
  | unchanged => exact h.gathered state hget
  | begun now hopcode =>
      rw [startTransfer, Dict.get?_set_self] at hget
      cases hget
      cases hsends with
      | start => exact ⟨rfl, fun _ _ hget => by simp at hget⟩
      | piece => exact absurd hopcode (show opFileChunk ≠ opBegin by decide)
      | finish => exact absurd hopcode (show opEnd ≠ opBegin by decide)
  | @chunk state₀ state' _ tree? now fault hopcode hstate hchunk =>
      rw [← h.ok.keyed _ _ hstate, Dict.get?_set_self] at hget
      cases hget
      obtain ⟨tree, htree, -⟩ := h.ok.staged _ _ hstate
      rw [htree] at hchunk
      obtain ⟨tree', -, houtcome⟩ := storeChunk_outcome hchunk
      have hgathers : parcel.Gathers (touch state₀ now) :=
        ⟨(h.gathered _ hstate).count, (h.gathered _ hstate).files⟩
      exact hgathers.chunk hsends hopcode houtcome
  | @ended state₀ _ _ now hopcode hstate hfinish =>
      have hkey : (touch state₀ now).key = parcel.key := (h.ok.keyed _ _ hstate).symm
      rcases finish_cases hfinish with ⟨rfl, -⟩ | ⟨tree, -, -, rfl, -⟩
      · rw [putTransfer, hkey, Dict.get?_set_self] at hget
        cases hget
        exact ⟨(h.gathered _ hstate).count, (h.gathered _ hstate).files⟩
      · rw [transfers_publish, hkey, Dict.get?_erase_self] at hget
        cases hget

/-- A successful `END` of the parcel publishes it. -/
theorem Parcel.Expects.arrives (h : parcel.Expects node)
    (hcompleted : parcel.Completed) (hnamed : matchesEventName parcel.event = true)
    (hhandled : Handled runtime node parcel.key request reply node')
    (hopcode : request.opcode = opEnd) (haccepted : reply.accepted = true) :
    parcel.Arrived node' := by
  cases hhandled with
  | unchanged hfail => exact absurd haccepted (not_accepted hfail)
  | begun now hbegin => exact absurd (hbegin.symm.trans hopcode) (by decide)
  | chunk now fault hchunk => exact absurd (hchunk.symm.trans hopcode) (by decide)
  | @ended state _ _ now _ hstate hfinish =>
      rcases finish_cases hfinish with ⟨-, hfail⟩ | ⟨tree, htree, -, rfl, hpassed⟩
      · exact absurd haccepted (not_accepted hfail)
      · obtain ⟨tree', htree', hstaged⟩ := h.ok.staged _ _ hstate
        cases htree.symm.trans htree'
        have hfinal : (touch state now).finalDir = parcel.event :=
          (congrArg Prod.fst (h.ok.keyed _ _ hstate)).symm
        have hgathers : parcel.Gathers (touch state now) :=
          ⟨(h.gathered _ hstate).count, (h.gathered _ hstate).files⟩
        refine ⟨hnamed, tree, ?_, hgathers.matches hpassed hstaged hcompleted⟩
        rw [get?_inbox_publish, if_neg (backupName_ne_of_matchesEventName hnamed _),
          if_pos hfinal]

theorem Parcel.Expects.own (h : parcel.Expects node) (hcompleted : parcel.Completed)
    (hsends : parcel.Sends request)
    (hdispatch : dispatch runtime clock fault node request = (reply, node')) :
    parcel.Expects node' ∧ (parcel.Arrived node → parcel.Arrived node') ∧
      (request.opcode = opEnd → reply.accepted = true → parcel.Arrived node') := by
  have hpruned := h.prune clock.pruneAt
  have hok : NodeOk (dispatch runtime clock fault node request).2 :=
    h.ok.dispatch clock fault request (h.noOverlap hsends)
  rw [hdispatch] at hok
  rcases dispatch_cases hdispatch with ⟨rfl, hfail⟩ | ⟨hevent, -, hhandled⟩
  · exact ⟨hpruned, fun harrived => harrived.prune _, fun _ haccepted =>
      absurd haccepted (not_accepted hfail)⟩
  · rw [hsends.key] at hhandled
    have hname : request.eventName = parcel.event := congrArg Prod.fst hsends.key
    have hnamed : matchesEventName parcel.event = true :=
      hname ▸ (validateEventName_eq_some hevent).2.2
    have harrives := hpruned.arrives hcompleted hnamed hhandled
    refine ⟨⟨hok, fun key state hget hkey => ?_,
      fun state hget => hpruned.gathers hsends hhandled hget⟩,
      fun harrived => ?_, harrives⟩
    · rcases hhandled.active hpruned.ok hget with rfl | ⟨old, hold⟩
      · exact absurd rfl hkey
      · exact hpruned.apart key old hold hkey
    · obtain ⟨-, tree, hget, hmatches⟩ := harrived.prune clock.pruneAt
      rcases get?_handled_of_named hpruned.ok hhandled hnamed with
        hsame | ⟨-, hopcode, haccepted⟩
      · exact ⟨hnamed, tree, hsame.trans hget, hmatches⟩
      · exact harrives hopcode haccepted

end Expects

end DataCache.Upload
