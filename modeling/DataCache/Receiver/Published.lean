import DataCache.Receiver.Integrity

/-!
# What the receiver publishes

`END` compares the manifest with the digests kept in memory and renames the
staging directory.  Under the receiver's invariant the renamed directory holds
the hashed bytes and nothing else, so the comparison was one with the disk.
-/

namespace DataCache.Receiver

open DataCache.Foundation

/-! ## Parsed manifests -/

/-- Some line of a checksum manifest gives `digest` for `relative`. -/
def ManifestLists (text relative digest : Text) : Prop :=
  ∃ line ∈ splitlines text, splitDoubleBlank line = some (digest, relative)

theorem parseChecksums_cons_ok {lineNumber : Nat} {line : Text}
    {lines : List Text} {expected result : Dict Text Text}
    (h : parseChecksums lineNumber expected (line :: lines) = .ok result) :
    ∃ digest relative, splitDoubleBlank line = some (digest, relative) ∧
      isHexDigest digest = true ∧ (safeRelative relative).isSome = true ∧
      expected.contains relative = false ∧
      parseChecksums (lineNumber + 1) (expected.set relative digest) lines =
        .ok result := by
  rw [parseChecksums] at h
  split at h
  · cases h
  next digest relative hsplit =>
    split at h
    · cases h
    next hvalid =>
      simp only [Bool.or_eq_true, Bool.not_eq_true', not_or,
        Bool.not_eq_false, Option.isNone_iff_eq_none, Bool.not_eq_true] at hvalid
      exact ⟨digest, relative, hsplit, hvalid.1.1,
        Option.isSome_iff_ne_none.mpr hvalid.1.2, hvalid.2, h⟩

/-- A parsed manifest has one entry for each line and no others. -/
theorem parseChecksums_ok {lines : List Text} :
    ∀ {lineNumber : Nat} {expected result : Dict Text Text},
      parseChecksums lineNumber expected lines = .ok result →
      (∀ line ∈ lines, ∃ digest relative,
        splitDoubleBlank line = some (digest, relative)) ∧
      ∀ relative digest, result.get? relative = some digest ↔
        expected.get? relative = some digest ∨
          ∃ line ∈ lines, splitDoubleBlank line = some (digest, relative) := by
  induction lines with
  | nil =>
      intro lineNumber expected result h
      cases h
      exact ⟨fun line hline => absurd hline List.not_mem_nil,
        fun relative digest => by simp⟩
  | cons line lines ih =>
      intro lineNumber expected result h
      obtain ⟨digest, relative, hsplit, -, -, hfresh, hrest⟩ :=
        parseChecksums_cons_ok h
      obtain ⟨hlines, hentries⟩ := ih hrest
      refine ⟨List.forall_mem_cons.mpr ⟨⟨digest, relative, hsplit⟩, hlines⟩,
        fun other wanted => ?_⟩
      rw [hentries, Dict.get?_set]
      have habsent : expected.get? relative = none := by
        simpa [Dict.contains] using hfresh
      by_cases hother : relative = other
      · subst hother
        simp [habsent, hsplit, eq_comm]
      · simp [hother, hsplit]

/-! ## Verified checksums -/

theorem sameNames_iff {first second : List Text} :
    sameNames first second = true ↔ ∀ name, name ∈ first ↔ name ∈ second := by
  simp only [sameNames, Bool.and_eq_true, List.all_eq_true, List.contains_iff_mem]
  exact ⟨fun h name => ⟨h.1 name, h.2 name⟩,
    fun h => ⟨fun name => (h name).mp, fun name => (h name).mpr⟩⟩

theorem mem_dataFiles {files : Dict Text FileState} {relative : Text} :
    relative ∈ dataFiles files ↔
      relative ≠ manifestName ∧ ∃ file, files.get? relative = some file := by
  simp [dataFiles, files.mem_keys_iff, and_comm]

/-- A comparison without an error says what the manifest lists. -/
theorem compareChecksums_eq_none {runtime : Runtime}
    {files : Dict Text FileState} {expected : Dict Text Text}
    (h : compareChecksums runtime files expected = none) (relative digest : Text) :
    expected.get? relative = some digest ↔
      relative ≠ manifestName ∧ ∃ file, files.get? relative = some file ∧
        digest = hexdigest (runtime.sha256 file.hasher) := by
  unfold compareChecksums at h
  split at h
  · cases h
  · split at h
    · cases h
    next hnames =>
      split at h
      · cases h
      next hfind =>
        simp only [Bool.not_eq_true', Bool.not_eq_false] at hnames
        have hsame := sameNames_iff.mp hnames
        have hdigest : ∀ relative digest, expected.get? relative = some digest →
            ∃ file, files.get? relative = some file ∧
              digest = hexdigest (runtime.sha256 file.hasher) := by
          intro relative digest hget
          have hmatch := (List.find?_eq_none.mp hfind) _
            (expected.mem_entries_iff.mpr hget)
          simp only [digestMatches, Bool.not_eq_true', Bool.not_eq_false] at hmatch
          split at hmatch
          · cases hmatch
          next file hfile => exact ⟨file, hfile, (eq_of_beq hmatch).symm⟩
        constructor
        · intro hget
          have hmem : relative ∈ dataFiles files :=
            (hsame relative).mp (expected.mem_keys_iff.mpr ⟨digest, hget⟩)
          exact ⟨(mem_dataFiles.mp hmem).1, hdigest relative digest hget⟩
        · rintro ⟨hne, file, hfile, rfl⟩
          obtain ⟨wanted, hwanted⟩ := expected.mem_keys_iff.mp
            ((hsame relative).mpr (mem_dataFiles.mpr ⟨hne, file, hfile⟩))
          obtain ⟨file', hfile', rfl⟩ := hdigest relative wanted hwanted
          cases hfile.symm.trans hfile'
          exact hwanted

theorem verifyChecksums_eq_none {runtime : Runtime} {tree : Tree}
    {files : Dict Text FileState}
    (h : verifyChecksums runtime tree files = .ok none) :
    ∃ content text, tree.read? [manifestName] = some content ∧
      decodeUtf8? content = some text ∧
      (∀ line ∈ splitlines text, ∃ digest relative,
        splitDoubleBlank line = some (digest, relative)) ∧
      ∀ relative digest, ManifestLists text relative digest ↔
        relative ≠ manifestName ∧ ∃ file, files.get? relative = some file ∧
          digest = hexdigest (runtime.sha256 file.hasher) := by
  unfold verifyChecksums at h
  split at h
  · cases h
  next content hcontent =>
    split at h
    · cases h
    · split at h
      · cases h
      next text htext =>
        split at h
        · cases h
        next expected hparse =>
          obtain ⟨hlines, hentries⟩ := parseChecksums_ok hparse
          refine ⟨content, text, hcontent, htext, hlines, fun relative digest => ?_⟩
          rw [← compareChecksums_eq_none (Except.ok.inj h), hentries]
          simp [ManifestLists]

/-! ## The published directory -/

/-- A directory whose declared size and checksum manifest are true of it. -/
structure Published (runtime : Runtime) (state : TransferState) (tree : Tree) :
    Prop where
  count : tree.files.size = state.expectedFiles
  total : (tree.files.values.map List.length).sum = state.expectedBytes
  manifest : ∃ content text, tree.read? [manifestName] = some content ∧
    decodeUtf8? content = some text ∧
    (∀ line ∈ splitlines text, ∃ digest relative,
      splitDoubleBlank line = some (digest, relative)) ∧
    ∀ relative digest, ManifestLists text relative digest ↔
      relative ≠ manifestName ∧
        ∃ data, tree.read? (splitPath relative) = some data ∧
          digest = hexdigest (runtime.sha256 data)

/-- A completely received file holds exactly the bytes that were hashed. -/
theorem FileAgrees.eq_hasher {tree : Tree} {relative : Text} {file : FileState}
    {content : Bytes} (h : FileAgrees tree relative file)
    (hread : tree.read? (splitPath relative) = some content)
    (hlength : content.length = file.receivedBytes) : content = file.hasher := by
  have htake := h.take_getD
  rw [hread, Option.getD_some, ← hlength, List.take_length] at htake
  exact htake

/-- The staged files are those of the table, size by size. -/
theorem Passed.perm {runtime : Runtime} {tree : Tree} {state : TransferState}
    (hpassed : Passed runtime tree state) (hok : StagedOk tree state.files) :
    (tree.files.entries.map fun entry => (entry.1, entry.2.length)).Perm
      (state.files.entries.map fun entry =>
        (splitPath entry.1, entry.2.receivedBytes)) := by
  refine Dict.perm_of_correspond _ _ _ _ ?_ ?_ fun entry => ?_
  · rintro ⟨path, content⟩ hfirst ⟨path', content'⟩ hsecond heq
    obtain rfl : path = path' := (Prod.ext_iff.mp heq).1
    rw [tree.files.mem_entries_iff] at hfirst hsecond
    rw [Option.some.inj (hfirst.symm.trans hsecond)]
  · rintro ⟨relative, file⟩ hfirst ⟨relative', file'⟩ hsecond heq
    obtain rfl : relative = relative' := splitPath_injective (Prod.ext_iff.mp heq).1
    rw [state.files.mem_entries_iff] at hfirst hsecond
    rw [Option.some.inj (hfirst.symm.trans hsecond)]
  · obtain ⟨path, size⟩ := entry
    simp only [List.mem_map, Prod.mk.injEq, Prod.exists]
    constructor
    · rintro ⟨_, content, hmem, rfl, rfl⟩
      have hread := tree.files.mem_entries_iff.mp hmem
      obtain ⟨relative, file, hget, rfl⟩ := hok.known _ content hread
      obtain ⟨hsize, content', hread', hlength⟩ := hpassed.staged _ _ hget
      cases hread.symm.trans hread'
      exact ⟨relative, file, state.files.mem_entries_iff.mpr hget, rfl, by omega⟩
    · rintro ⟨relative, file, hmem, rfl, rfl⟩
      obtain ⟨hsize, content, hread, hlength⟩ :=
        hpassed.staged _ _ (state.files.mem_entries_iff.mp hmem)
      exact ⟨_, content, tree.files.mem_entries_iff.mpr hread, rfl, by omega⟩

theorem Passed.published {runtime : Runtime} {tree : Tree}
    {state : TransferState} (hpassed : Passed runtime tree state)
    (hok : StagedOk tree state.files) : Published runtime state tree := by
  have hperm := hpassed.perm hok
  refine ⟨?_, ?_, ?_⟩
  · have hlength := hperm.length_eq
    rw [List.length_map, List.length_map] at hlength
    exact hlength.trans hpassed.count
  · have hsum := (hperm.map Prod.snd).sum_eq
    have hfiles : tree.files.values.map List.length =
        (tree.files.entries.map fun entry => (entry.1, entry.2.length)).map
          Prod.snd := by
      simp [Dict.values, Function.comp_def]
    rw [hfiles, hsum, ← hpassed.total, receivedTotal, Dict.values]
    simp [Function.comp_def]
  · obtain ⟨content, text, hcontent, htext, hlines, hlists⟩ :=
      verifyChecksums_eq_none hpassed.checksums
    refine ⟨content, text, hcontent, htext, hlines, fun relative digest => ?_⟩
    rw [hlists]
    refine and_congr_right fun _ => ?_
    -- A file of the table is on disk with the hashed bytes, and conversely.
    constructor
    · rintro ⟨file, hget, rfl⟩
      obtain ⟨hsize, data, hread, hlength⟩ := hpassed.staged _ _ hget
      exact ⟨data, hread, by
        rw [(hok.agrees _ _ hget).eq_hasher hread (by omega)]⟩
    · rintro ⟨data, hread, rfl⟩
      obtain ⟨other, file, hget, hother⟩ := hok.known _ _ hread
      obtain rfl := splitPath_injective hother
      obtain ⟨hsize, data', hread', hlength⟩ := hpassed.staged _ _ hget
      cases hread.symm.trans hread'
      exact ⟨file, hget, by
        rw [(hok.agrees _ _ hget).eq_hasher hread (by omega)]⟩

/-- A successful `END` leaves a verified directory under the event's name. -/
theorem NodeOk.published {runtime : Runtime} {node node' : Node}
    (hok : NodeOk node) {clock : Clock} {fault : WriteFault} {request : Request}
    {message : Text} {bytes : Nat} (hopcode : request.opcode = opEnd)
    (h : Receiver.dispatch runtime clock fault node request =
      (.answer true message bytes, node')) :
    ∃ state tree, (pruneIdleTransfers clock.pruneAt node).transfers.get?
        (request.eventName, request.transferId) = some state ∧
      node'.inbox.get? request.eventName = some tree ∧
      Published runtime state tree := by
  have hpruned := hok.prune clock.pruneAt
  rcases dispatch_cases h with ⟨-, hfail⟩ | ⟨hevent, -, hhandled⟩
  · exact absurd rfl (hfail message bytes)
  · cases hhandled with
    | unchanged hfail => exact absurd rfl (hfail message bytes)
    | begun now hbegin => rw [hopcode] at hbegin; exact absurd hbegin (by decide)
    | chunk now fault hchunk =>
        rw [hopcode] at hchunk
        exact absurd hchunk (by decide)
    | @ended state _ _ now _ hstate hfinish =>
        rcases finish_cases hfinish with ⟨-, hfail⟩ | ⟨tree, htree, -, rfl, hpassed⟩
        · exact absurd rfl (hfail message bytes)
        · obtain ⟨tree', htree', hstaged⟩ := hpruned.staged _ _ hstate
          cases htree.symm.trans htree'
          have hfinal : (touch state now).finalDir = request.eventName :=
            (congrArg Prod.fst (hpruned.keyed _ _ hstate)).symm
          refine ⟨state, tree, hstate, ?_, ?_⟩
          · have hbackup : backupName (touch state now).event ≠ request.eventName :=
              backupName_ne_of_matchesEventName
                (validateEventName_eq_some hevent).2.2 _
            rw [get?_inbox_publish, if_neg hbackup, if_pos hfinal]
          · have hpub := hpassed.published hstaged
            exact ⟨hpub.count, hpub.total, hpub.manifest⟩

/-! ## Transfer ids without a dot -/

def DotFree (_ : Node) (request : Request) : Prop := '.' ∉ request.transferId

/-- A request leaves the table's entries of other transfers as they are. -/
theorem Handled.others {runtime : Runtime} {node node' : Node}
    {key other : Text × Text} {request : Request} {reply : Reply}
    (hok : NodeOk node) (h : Handled runtime node key request reply node')
    (hother : other ≠ key) :
    node'.transfers.get? other = node.transfers.get? other := by
  cases h with
  | unchanged => rfl
  | begun now => rw [startTransfer, Dict.get?_set_ne _ _ (Ne.symm hother)]
  | chunk now fault _ hstate =>
      rw [← hok.keyed _ _ hstate, Dict.get?_set_ne _ _ (Ne.symm hother)]
  | @ended state _ _ now _ hstate hfinish =>
      have hkey : (touch state now).key = key := (hok.keyed _ _ hstate).symm
      have hput : (putTransfer node (touch state now)).transfers.get? other =
          node.transfers.get? other := by
        rw [putTransfer, hkey, Dict.get?_set_ne _ _ (Ne.symm hother)]
      rcases finish_cases hfinish with ⟨rfl, -⟩ | ⟨tree, -, -, rfl, -⟩
      · exact hput
      · rw [transfers_publish, hkey, Dict.get?_erase_ne _ (Ne.symm hother), hput]

/-- A request makes no transfer active but the one its `BEGIN` names. -/
theorem Handled.active {runtime : Runtime} {node node' : Node}
    {key other : Text × Text} {request : Request} {reply : Reply}
    {state' : TransferState} (hok : NodeOk node)
    (h : Handled runtime node key request reply node')
    (hget : node'.transfers.get? other = some state') :
    other = key ∨ ∃ state, node.transfers.get? other = some state := by
  by_cases hother : other = key
  · exact .inl hother
  · exact .inr ⟨state', (h.others hok hother).symm.trans hget⟩

theorem active_pruneIdleTransfers {now : Time} {node : Node}
    {other : Text × Text} {state : TransferState}
    (h : (pruneIdleTransfers now node).transfers.get? other = some state) :
    node.transfers.get? other = some state := by
  have hkept : ∀ found,
      (pruneIdleTransfers now node).transfers.get? other = some found →
      node.transfers.get? other = some found := by
    refine pruneIdleTransfers_preserves
      (P := fun node' => ∀ found, node'.transfers.get? other = some found →
        node.transfers.get? other = some found) now ?_ fun _ => id
    intro node' key discarded hactive _ _ found hfound
    rw [discard, Dict.get?_erase] at hfound
    split at hfound
    · cases hfound
    · exact hactive found hfound
  exact hkept state h

/-- Runs with dot-free transfer ids have no overlapping `BEGIN`. -/
theorem Reachable.noOverlap {runtime : Runtime} {node : Node}
    (h : Reachable runtime DotFree node) :
    Reachable runtime NoOverlap node ∧
      ∀ key state, node.transfers.get? key = some state → '.' ∉ key.2 := by
  induction h with
  | start inbox => exact ⟨.start inbox, fun _ _ h => by simp at h⟩
  | @request node clock fault request _ hallowed ih =>
      obtain ⟨hreach, hfree⟩ := ih
      have hpruned : ∀ key state,
          (pruneIdleTransfers clock.pruneAt node).transfers.get? key = some state →
          '.' ∉ key.2 := fun key state h =>
        hfree key state (active_pruneIdleTransfers h)
      refine ⟨.request clock fault request hreach
        fun _ _ _ _ key state hget _ =>
          not_overlaps_of_dotFree (hpruned key state hget) hallowed, ?_⟩
      intro key state hget
      cases hdispatch : Receiver.dispatch runtime clock fault node request with
      | mk reply node' =>
      rw [hdispatch] at hget
      rcases dispatch_cases hdispatch with ⟨rfl, -⟩ | ⟨-, -, hhandled⟩
      · exact hpruned key state hget
      · rcases hhandled.active (hreach.nodeOk.prune _) hget with rfl | ⟨old, hold⟩
        · exact hallowed
        · exact hpruned key old hold

/--
Over every run with dot-free transfer ids: staged files agree with their
hashers, an event has one transfer, at most 16 are active, and a successful
`END` publishes a directory that its declared size and manifest are true of.
-/
theorem reachable_publishes_verified {runtime : Runtime} {node : Node}
    (h : Reachable runtime DotFree node) :
    (∀ key state, node.transfers.get? key = some state →
      ∃ tree, node.inbox.get? state.stagingDir = some tree ∧
        ∀ relative file, state.files.get? relative = some file →
          FileAgrees tree relative file) ∧
    (∀ event first second, node.transfers.contains (event, first) = true →
      node.transfers.contains (event, second) = true → first = second) ∧
    node.transfers.size ≤ 16 ∧
    ∀ clock fault request message bytes node', request.opcode = opEnd →
      dispatch runtime clock fault node request =
        (.answer true message bytes, node') →
      ∃ state tree, (pruneIdleTransfers clock.pruneAt node).transfers.get?
          (request.eventName, request.transferId) = some state ∧
        node'.inbox.get? request.eventName = some tree ∧
        Published runtime state tree := by
  have hok := h.noOverlap.1.nodeOk
  refine ⟨fun key state hget => ?_, fun event first second hfirst hsecond => ?_,
    hok.bounded, fun clock fault request message bytes node' hopcode hdispatch =>
      hok.published hopcode hdispatch⟩
  · obtain ⟨tree, htree, hstaged⟩ := hok.staged key state hget
    exact ⟨tree, htree, hstaged.agrees⟩
  · obtain ⟨state₁, h₁⟩ := (Dict.contains_iff _).mp hfirst
    obtain ⟨state₂, h₂⟩ := (Dict.contains_iff _).mp hsecond
    have hevent₁ := congrArg Prod.fst (hok.keyed _ _ h₁)
    have hevent₂ := congrArg Prod.fst (hok.keyed _ _ h₂)
    exact congrArg Prod.snd
      (hok.oneOwner _ _ _ _ h₁ h₂ (hevent₁.symm.trans hevent₂))

/-! ## A run -/

def abcDigest : Digest :=
  #v[0xba, 0x78, 0x16, 0xbf, 0x8f, 0x01, 0xcf, 0xea, 0x41, 0x41, 0x40,
    0xde, 0x5d, 0xae, 0x22, 0x23, 0xb0, 0x03, 0x61, 0xa3, 0x96, 0x17,
    0x7a, 0x9c, 0xb4, 0x10, 0xff, 0x61, 0xf2, 0x00, 0x15, 0xad]

/-- SHA-256 on the one file the example run uploads. -/
def sampleRuntime : Runtime where
  casefold := List.map Char.toLower
  sha256 := fun bytes =>
    if bytes = encodeUtf8 "abc" then abcDigest else Vector.replicate 32 0
  repr := fun text => ("'" : Text) ++ text ++ "'"
  errorText := fun _ => "I/O error"
  directorySize := 4096

def sampleManifest : Bytes := encodeUtf8 (hexdigest abcDigest ++ "  a\n")

def sampleRequest (opcode : UInt8) (filePath : Text) (totalBytes fileCount : Nat)
    (data : Bytes) : Request :=
  ⟨"e1", "t1", opcode, filePath, 0, totalBytes, fileCount, data⟩

def sampleNode : Node :=
  let step := fun node request =>
    (dispatch sampleRuntime ⟨0, 0⟩ .none node request).2
  step (step (step ⟨Dict.empty, Dict.empty⟩
    (sampleRequest opBegin "" 71 2 []))
    (sampleRequest opFileChunk "a" 3 0 (encodeUtf8 "abc")))
    (sampleRequest opFileChunk manifestName 68 0 sampleManifest)

theorem reachable_publishes_verified_sample :
    ∃ state tree, (pruneIdleTransfers 0 sampleNode).transfers.get?
        ("e1", "t1") = some state ∧
      (dispatch sampleRuntime ⟨0, 0⟩ .none sampleNode
        (sampleRequest opEnd "" 0 0 [])).2.inbox.get? "e1" = some tree ∧
      Published sampleRuntime state tree := by
  have hreachable : Reachable sampleRuntime DotFree sampleNode := by
    refine .request _ _ _ (.request _ _ _ (.request _ _ _ (.start _) ?_) ?_) ?_ <;>
      exact (by decide : '.' ∉ ("t1" : Text))
  exact (reachable_publishes_verified hreachable).2.2.2 ⟨0, 0⟩ .none
    (sampleRequest opEnd "" 0 0 []) "transfer complete" 71 _ rfl
    (Prod.ext (by decide +kernel) rfl)

end DataCache.Receiver
