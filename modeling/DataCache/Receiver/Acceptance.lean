import DataCache.Receiver.Retransmission
import DataCache.Storage.Worker

/-!
# What the receiver accepts

The other direction of publication: a transfer whose declared totals are its
files' and whose checksum manifest is about all the others passes every check of
`BEGIN` and of `END`, and is published as it was staged.
-/

namespace DataCache.Receiver

open DataCache.Foundation
open DataCache.Storage (checksumLine)

/-! ## The checksum manifest is read back -/

theorem splitlinesFrom_line {line : Text}
    (h : ∀ c ∈ line, isLineBreak c = false) (current rest : Text) :
    splitlinesFrom current (line ++ '\n' :: rest) =
      (current ++ line) :: splitlinesFrom [] rest := by
  induction line generalizing current with
  | nil =>
      rw [List.nil_append, List.append_nil, splitlinesFrom]
      · rfl
      · rintro _ ⟨⟩
  | cons c line ih =>
      have hc := h c List.mem_cons_self
      have hreturn : c ≠ '\r' := fun heq => by
        rw [heq] at hc
        exact absurd hc (by decide)
      rw [List.cons_append, splitlinesFrom, if_neg (by rw [hc]; exact Bool.false_ne_true),
        ih (fun d hd => h d (List.mem_cons_of_mem _ hd)), List.append_assoc]
      · rfl
      · intro _ heq
        exact absurd heq hreturn

theorem splitlines_flatMap {β : Type} (line : β → Text) :
    ∀ (items : List β), (∀ item ∈ items, ∀ c ∈ line item, isLineBreak c = false) →
      splitlines (items.flatMap fun item => line item ++ ("\n" : Text)) =
        items.map line
  | [], _ => rfl
  | item :: rest, h => by
      have hrest := splitlines_flatMap line rest fun other hother =>
        h other (List.mem_cons_of_mem _ hother)
      rw [List.flatMap_cons, List.append_assoc, splitlines]
      change splitlinesFrom [] (line item ++ '\n' :: _) = _
      rw [splitlinesFrom_line (h item List.mem_cons_self)]
      exact congrArg (line item :: ·) hrest

theorem splitDoubleBlank_append {digest : Text} (h : ' ' ∉ digest)
    (relative : Text) :
    splitDoubleBlank (digest ++ ("  " : Text) ++ relative) =
      some (digest, relative) := by
  rw [List.append_assoc]
  change splitDoubleBlank (digest ++ ' ' :: ' ' :: relative) = _
  induction digest with
  | nil => rfl
  | cons c digest ih =>
      have hc : c ≠ ' ' := fun heq => h (heq ▸ List.mem_cons_self)
      rw [List.cons_append, splitDoubleBlank, ih fun hmem =>
        h (List.mem_cons_of_mem _ hmem)]
      · rfl
      · intro _ heq
        exact absurd heq hc

theorem isHexDigest_hexdigest (digest : Digest) :
    isHexDigest (hexdigest digest) = true := by
  have hdigits : ∀ n < 16, isHexChar n.digitChar = true := by decide
  rw [isHexDigest, length_hexdigest, List.all_eq_true.mpr]
  · rfl
  · intro c hc
    obtain ⟨n, hn, rfl⟩ := mem_hexdigest hc
    exact hdigits n hn

theorem blank_not_mem_hexdigest (digest : Digest) : ' ' ∉ hexdigest digest := by
  have hdigits : ∀ n < 16, ' ' ≠ n.digitChar := by decide
  intro hmem
  obtain ⟨n, hn, heq⟩ := mem_hexdigest hmem
  exact hdigits n hn heq

theorem isLineBreak_hexdigest {digest : Digest} {c : Char}
    (h : c ∈ hexdigest digest ++ ("  " : Text)) : isLineBreak c = false := by
  have hdigits : ∀ n < 16, isLineBreak n.digitChar = false := by decide
  have hblanks : ("  " : Text).all (fun c => isLineBreak c == false) = true := by
    decide
  rcases List.mem_append.mp h with h | h
  · obtain ⟨n, hn, rfl⟩ := mem_hexdigest h
    exact hdigits n hn
  · exact beq_iff_eq.mp (List.all_eq_true.mp hblanks c h)

/-- The lines of names that are not listed yet are all taken. -/
theorem parseChecksums_written {β : Type} (relative : β → Text)
    (digest : β → Digest) : ∀ (items : List β) (lineNumber : Nat)
      {expected : Dict Text Text},
      (∀ item ∈ items, (safeRelative (relative item)).isSome = true) →
      (expected.keys ++ items.map relative).Nodup →
      ∃ result, parseChecksums lineNumber expected (items.map fun item =>
          hexdigest (digest item) ++ ("  " : Text) ++ relative item) = .ok result ∧
        result.entries = expected.entries ++
          items.map fun item => (relative item, hexdigest (digest item))
  | [], _, expected, _, _ => ⟨expected, rfl, by simp⟩
  | item :: rest, lineNumber, expected, hsafe, hnodup => by
      have hfresh : expected.get? (relative item) = none := by
        rw [Dict.get?_eq_none_iff]
        intro hmem
        exact (List.nodup_append.mp hnodup).2.2 _ hmem _ (by simp) rfl
      have hentries : (expected.set (relative item)
          (hexdigest (digest item))).entries = _ :=
        Dict.entries_set_of_absent hfresh
      have hrest : ((expected.set (relative item)
          (hexdigest (digest item))).keys ++ rest.map relative).Nodup := by
        simpa [Dict.keys, hentries] using hnodup
      obtain ⟨result, hresult, hall⟩ := parseChecksums_written relative digest rest
        (lineNumber + 1)
        (fun other hother => hsafe other (List.mem_cons_of_mem _ hother)) hrest
      refine ⟨result, ?_, by simp [hall, hentries]⟩
      have hpath : (safeRelative (relative item)).isNone = false := by
        rw [Option.isNone_eq_false_iff]
        exact hsafe item List.mem_cons_self
      rw [List.map_cons, parseChecksums,
        splitDoubleBlank_append (blank_not_mem_hexdigest _)]
      simp only [isHexDigest_hexdigest, hpath, Dict.contains, hfresh,
        Option.isSome_none, Bool.not_true, Bool.or_self, Bool.false_eq_true,
        if_false]
      exact hresult

/-- A manifest of exactly the data files, with their digests, matches. -/
theorem compareChecksums_of_iff {runtime : Runtime}
    {files : Dict Text FileState} {expected : Dict Text Text}
    (hsome : expected.size ≠ 0)
    (h : ∀ relative digest, expected.get? relative = some digest ↔
      relative ≠ manifestName ∧ ∃ file, files.get? relative = some file ∧
        digest = hexdigest (runtime.sha256 file.hasher)) :
    compareChecksums runtime files expected = none := by
  have hnames : sameNames expected.keys (dataFiles files) = true := by
    refine sameNames_iff.mpr fun relative => ?_
    rw [expected.mem_keys_iff, mem_dataFiles]
    constructor
    · rintro ⟨digest, hget⟩
      obtain ⟨hne, file, hfile, -⟩ := (h relative digest).mp hget
      exact ⟨hne, file, hfile⟩
    · rintro ⟨hne, file, hfile⟩
      exact ⟨_, (h relative _).mpr ⟨hne, file, hfile, rfl⟩⟩
  have hdigests : expected.entries.find? (fun entry =>
      !digestMatches runtime files entry.1 entry.2) = none := by
    refine List.find?_eq_none.mpr fun entry hentry => ?_
    obtain ⟨-, file, hfile, hdigest⟩ :=
      (h entry.1 entry.2).mp (expected.mem_entries_iff.mp hentry)
    simp [digestMatches, hfile, hdigest]
  unfold compareChecksums
  rw [if_neg hsome, hnames, hdigests]
  rfl

/-! ## A delivery in full -/

namespace Sending

def data (file : Sending) : Bytes := file.chunks.flatten

theorem safeRelative_relative (file : Sending) :
    (safeRelative file.relative).isSome = true := by
  have hself : file.parts <+: file.parts := List.prefix_refl _
  rw [relative, safeRelative_prefix file.safe hself parts_ne_nil]
  rfl

end Sending

/-- One of the files is the checksum manifest, with a line for each other. -/
structure Certified (runtime : Runtime) (files listed : List Sending) : Prop where
  nodup : listed.Nodup
  mem : ∀ file, file ∈ listed ↔ file ∈ files ∧ file.relative ≠ manifestName
  listsSome : listed ≠ []
  oneLine : ∀ file ∈ listed, ∀ c ∈ file.relative, isLineBreak c = false
  manifest : ∃ file ∈ files, file.relative = manifestName ∧
    file.data.length ≤ maxManifestBytes ∧
    file.data = encodeUtf8 (listed.flatMap fun other =>
      checksumLine (runtime.sha256 other.data) other.parts)

section Whole

variable {runtime : Runtime} {files listed : List Sending}
  {contents : Text → Option Bytes} {state : TransferState} {tree : Tree}

theorem Separate.nodup_relatives (h : Separate runtime files) :
    (files.map Sending.relative).Nodup :=
  List.pairwise_map.mpr (h.folded.imp fun hne heq =>
    hne (congrArg runtime.casefold heq))

/-- The table has the files that were delivered, each of them whole. -/
theorem Delivered.entries_perm (h : Delivered runtime files contents state tree)
    (hfiles : Separate runtime files)
    (hwhole : ∀ file ∈ files, contents file.relative = some file.data) :
    state.files.entries.Perm (files.map fun file =>
      (file.relative, FileState.holding file.size file.data)) := by
  have hnodup : (files.map fun file =>
      (file.relative, FileState.holding file.size file.data)).Nodup := by
    refine List.Nodup.of_map Prod.fst ?_
    rw [List.map_map]
    exact hfiles.nodup_relatives
  have htable : ∀ file ∈ files, state.files.get? file.relative =
      some (.holding file.size file.data) := fun file hfile => by
    rw [h.table file hfile, hwhole file hfile, Option.map_some]
  refine (List.perm_ext_iff_of_nodup state.files.nodup_entries hnodup).mpr ?_
  rintro ⟨relative, entry⟩
  rw [state.files.mem_entries_iff, List.mem_map]
  constructor
  · intro hget
    by_contra hnone
    have hother : ∀ file ∈ files, file.relative ≠ relative := by
      rintro file hfile rfl
      rw [htable file hfile] at hget
      cases hget
      exact hnone ⟨file, hfile, rfl⟩
    rw [h.others relative hother] at hget
    cases hget
  · rintro ⟨file, hfile, heq⟩
    cases heq
    exact htable file hfile

theorem Delivered.isDir_eq_false (h : Delivered runtime files contents state tree)
    (hfiles : Separate runtime files) {file : Sending} (hfile : file ∈ files) :
    tree.isDir file.parts = false := by
  obtain ⟨made, hmade, hfree, -⟩ := h.mkdirs hfiles hfile
  rw [← Bool.not_eq_true]
  intro hdir
  rw [(DirTree.isDir_mkdirs hmade _).mpr (.inr hdir)] at hfree
  cases hfree

theorem Delivered.checkStaged (h : Delivered runtime files contents state tree)
    (hfiles : Separate runtime files)
    (hwhole : ∀ file ∈ files, contents file.relative = some file.data)
    (total : Nat) : (state.files.entries.findSome? fun entry =>
      Receiver.checkStaged runtime (some tree) total entry.1 entry.2) = none := by
  refine List.findSome?_eq_none_iff.mpr fun entry hentry => ?_
  obtain ⟨file, hfile, rfl⟩ :=
    List.mem_map.mp ((h.entries_perm hfiles hwhole).mem_iff.mp hentry)
  have hread : tree.read? file.parts = some file.data := by
    rw [h.staged file hfile, hwhole file hfile]
  have hstagedSize : stagedSize runtime (some tree) file.parts = file.data.length := by
    simp only [stagedSize, h.isDir_eq_false hfiles hfile, hread, Bool.false_eq_true,
      if_false]
  unfold Receiver.checkStaged
  simp only [Sending.splitPath_relative, hstagedSize, Option.any_some,
    h.isDir_eq_false hfiles hfile, Bool.false_eq_true, if_false]
  exact if_neg (not_or.mpr ⟨not_not.mpr rfl, not_not.mpr rfl⟩)

theorem Certified.verifyChecksums (hcertified : Certified runtime files listed)
    (h : Delivered runtime files contents state tree)
    (hfiles : Separate runtime files)
    (hwhole : ∀ file ∈ files, contents file.relative = some file.data) :
    Receiver.verifyChecksums runtime tree state.files = .ok none := by
  obtain ⟨manifest, hmanifest, hname, hsmall, hdata⟩ := hcertified.manifest
  have hread : tree.read? [manifestName] = some manifest.data := by
    have hparts : manifest.parts = [manifestName] := by
      rw [← Sending.splitPath_relative, hname]
      decide
    rw [← hparts, h.staged manifest hmanifest, hwhole manifest hmanifest]
  have hlines : splitlines (listed.flatMap fun file =>
        checksumLine (runtime.sha256 file.data) file.parts) =
      listed.map fun file => hexdigest (runtime.sha256 file.data) ++
        ("  " : Text) ++ file.relative := by
    refine splitlines_flatMap _ listed fun file hfile c hc => ?_
    rcases List.mem_append.mp hc with hc | hc
    · exact isLineBreak_hexdigest hc
    · exact hcertified.oneLine file hfile c hc
  have hlisted : ∀ file ∈ listed, file ∈ files := fun file hfile =>
    ((hcertified.mem file).mp hfile).1
  have hnodup : ((Dict.empty : Dict Text Text).keys ++
      listed.map Sending.relative).Nodup := by
    refine hcertified.nodup.map_on fun first hfirst second hsecond heq => ?_
    exact hfiles.eq_of_relative (hlisted first hfirst) (hlisted second hsecond) heq
  obtain ⟨expected, hparse, hentries⟩ := parseChecksums_written Sending.relative
    (fun file => runtime.sha256 file.data) listed 1
    (fun file _ => file.safeRelative_relative) hnodup
  have hexpected : ∀ relative digest, expected.get? relative = some digest ↔
      relative ≠ manifestName ∧ ∃ entry, state.files.get? relative = some entry ∧
        digest = hexdigest (runtime.sha256 entry.hasher) := by
    intro relative digest
    rw [← expected.mem_entries_iff, hentries, Dict.entries_empty, List.nil_append,
      List.mem_map]
    constructor
    · rintro ⟨file, hfile, heq⟩
      cases heq
      obtain ⟨hsent, hne⟩ := (hcertified.mem file).mp hfile
      exact ⟨hne, .holding file.size file.data, by
        rw [h.table file hsent, hwhole file hsent, Option.map_some], rfl⟩
    · rintro ⟨hne, entry, hget, rfl⟩
      obtain ⟨file, hfile, heq⟩ := List.mem_map.mp
        ((h.entries_perm hfiles hwhole).mem_iff.mp
          (state.files.mem_entries_iff.mpr hget))
      cases heq
      exact ⟨file, (hcertified.mem file).mpr ⟨hfile, hne⟩, rfl⟩
  have hsome : expected.size ≠ 0 := by
    rw [Dict.size, hentries]
    simpa using hcertified.listsSome
  unfold Receiver.verifyChecksums
  rw [hread]
  simp only [if_neg (Nat.not_lt.mpr hsmall)]
  rw [hdata, decodeUtf8?_encodeUtf8]
  dsimp only
  rw [hlines, hparse]
  exact congrArg Except.ok (compareChecksums_of_iff hsome hexpected)

/-- What `BEGIN` declared is what the files come to. -/
structure Declares (files : List Sending) (state : TransferState) : Prop where
  count : state.expectedFiles = files.length
  bytes : state.expectedBytes = (files.map Sending.size).sum

theorem Delivered.receivedTotal (h : Delivered runtime files contents state tree)
    (hfiles : Separate runtime files)
    (hwhole : ∀ file ∈ files, contents file.relative = some file.data) :
    Receiver.receivedTotal state = (files.map Sending.size).sum := by
  have hperm := (h.entries_perm hfiles hwhole).map fun entry =>
    entry.2.receivedBytes
  rw [Receiver.receivedTotal, Dict.values, List.map_map]
  refine hperm.sum_eq.trans ?_
  rw [List.map_map]
  rfl

/-- A transfer in full passes `END`. -/
theorem finish_of_delivered {node : Node}
    (h : Delivered runtime files contents state tree)
    (hfiles : Separate runtime files)
    (hwhole : ∀ file ∈ files, contents file.relative = some file.data)
    (hcertified : Certified runtime files listed) (hdeclares : Declares files state)
    (htree : node.inbox.get? state.stagingDir = some tree) :
    finish runtime node state =
      (.answer true "transfer complete" (files.map Sending.size).sum,
        publish node state tree) := by
  have hcount : ¬state.files.size ≠ state.expectedFiles := by
    rw [not_not, hdeclares.count, Dict.size,
      (h.entries_perm hfiles hwhole).length_eq, List.length_map]
  have htotal := h.receivedTotal hfiles hwhole
  have hbytes : ¬Receiver.receivedTotal state ≠ state.expectedBytes := by
    rw [not_not, htotal, hdeclares.bytes]
  unfold finish
  simp only [if_neg hcount, if_neg hbytes, htree,
    h.checkStaged hfiles hwhole, hcertified.verifyChecksums h hfiles hwhole]
  rw [htotal]

end Whole

/-! ## The requests of a delivery -/

theorem storeChunk_declares {runtime : Runtime} {fault : WriteFault}
    {state : TransferState} {tree? : Option Tree} {request : Request}
    {files : List Sending} (h : Declares files state) :
    Declares files (storeChunk runtime fault state tree? request).2.1 := by
  unfold storeChunk
  split
  · exact h
  · dsimp only
    split
    · exact h
    · split <;> exact ⟨h.count, h.bytes⟩

/-- The transfer is active with the declared totals, and holds `contents`. -/
structure Awaits (runtime : Runtime) (key : Text × Text) (files : List Sending)
    (contents : Text → Option Bytes) (node : Node) : Prop where
  holds : Holds runtime key files contents node
  declares : ∀ state, node.transfers.get? key = some state → Declares files state

theorem size_pruneIdleTransfers_le (now : Time) (node : Node) :
    (pruneIdleTransfers now node).transfers.size ≤ node.transfers.size :=
  pruneIdleTransfers_preserves
    (P := fun node' => node'.transfers.size ≤ node.transfers.size) now
    (fun _ _ _ hle _ _ => (Dict.size_erase_le _ _).trans hle) (le_refl _)

section Requests

variable {runtime : Runtime} {key : Text × Text} {files listed : List Sending}
  {contents : Text → Option Bytes} {node : Node} {clock : Clock}
  {fault : WriteFault} {request : Request}

/-- The limits of `BEGIN`, on a node that has room for the event. -/
structure Fits (key : Text × Text) (files : List Sending) (node : Node) : Prop where
  event : validateEventName key.1 = some key.1
  transferId : validateEventName key.2 = some key.2
  nameLimit : key.1.length + key.2.length + "...part".length ≤ 240
  someFiles : files ≠ []
  fileLimit : files.length ≤ maxFiles
  byteLimit : (files.map Sending.size).sum ≤ maxTotalBytes
  room : node.transfers.size < maxActiveTransfers
  free : ∀ other state, node.transfers.get? other = some state →
    state.event ≠ key.1

theorem Fits.admitted (h : Fits key files node) (now : Time) :
    Admitted (pruneIdleTransfers now node) key.1 key.2 files.length
      (files.map Sending.size).sum where
  someFiles := List.length_pos_iff.mpr h.someFiles
  fileLimit := h.fileLimit
  byteLimit := h.byteLimit
  nameLimit := h.nameLimit
  room := .inr ((size_pruneIdleTransfers_le now node).trans_lt h.room)
  owner other state hget hevent :=
    absurd hevent (h.free other state (active_pruneIdleTransfers hget))

/-- `BEGIN` is accepted, and nothing is held yet. -/
theorem Fits.begin (h : Fits key files node)
    (hopcode : request.opcode = opBegin)
    (hsender : (request.eventName, request.transferId) = key)
    (hcount : request.fileCount = files.length)
    (hbytes : request.totalBytes = (files.map Sending.size).sum) :
    (dispatch runtime clock fault node request).1.accepted = true ∧
      Awaits runtime key files (fun _ => none)
        (dispatch runtime clock fault node request).2 := by
  subst hsender
  rw [dispatch_begin hopcode (by rw [h.event]; rfl) (by rw [h.transferId]; rfl)
    (by rw [hcount, hbytes]; exact h.admitted clock.pruneAt), hcount, hbytes]
  refine ⟨rfl, holds_startTransfer _ _ _ _ _, fun state hget => ?_⟩
  rw [startTransfer, Dict.get?_set_self] at hget
  cases hget
  exact ⟨rfl, rfl⟩

/-- What pruning leaves of an active transfer is all of it. -/
theorem Awaits.prune (h : Awaits runtime key files contents node)
    (hactive : ¬IdleIn node (stagingName key.1 key.2) clock.pruneAt) (now : Time) :
    ∃ state tree, (pruneIdleTransfers clock.pruneAt node).transfers.get? key =
        some (state) ∧ (touch state now).key = key ∧
      (pruneIdleTransfers clock.pruneAt node).inbox.get?
        (touch state now).stagingDir = some tree ∧
      Delivered runtime files contents (touch state now) tree ∧
      Declares files (touch state now) := by
  obtain ⟨state, tree, hstate, hkey, htree, hdelivered⟩ := h.holds
  have hdirectory : state.stagingDir = stagingName key.1 key.2 := by
    rw [← hkey]
    rfl
  obtain ⟨hkept, hinbox⟩ := pruneIdleTransfers_keeps hactive
  have hdeclares := h.declares state hstate
  refine ⟨state, tree, hkept key state hstate hdirectory, hkey, ?_,
    ⟨hdelivered.table, hdelivered.others, hdelivered.canonical, hdelivered.staged,
      hdelivered.unstaged, hdelivered.dirs⟩, hdeclares.count, hdeclares.bytes⟩
  rw [← htree, ← hinbox, ← hdirectory]
  rfl

/-- The next chunk of a file is accepted. -/
theorem Awaits.chunk (h : Awaits runtime key files contents node)
    (hfiles : Separate runtime files)
    (hevent : validateEventName key.1 = some key.1)
    (htransfer : validateEventName key.2 = some key.2)
    (hactive : ¬IdleIn node (stagingName key.1 key.2) clock.pruneAt)
    {file : Sending} (hfile : file ∈ files) {piece : Piece Text UInt8}
    (hname : piece.name = file.relative)
    (hoffset : piece.offset = ((contents file.relative).getD []).length)
    (hend : piece.end ≤ file.size) :
    (dispatch runtime clock .none node (file.request key piece)).1.accepted = true ∧
      Awaits runtime key files (addPiece contents piece)
        (dispatch runtime clock .none node (file.request key piece)).2 := by
  have hopcode : (file.request key piece).opcode = opFileChunk := rfl
  obtain ⟨haccepted, hholds⟩ := h.holds.dispatch hevent htransfer hactive
    hopcode rfl fun state tree hdelivered =>
      storeChunk_next hdelivered hfiles hfile hname hoffset hend
  refine ⟨haccepted, hholds, fun state' hget => ?_⟩
  obtain ⟨state, tree, hstate, hkey, -, -, hdeclares⟩ := h.prune hactive clock.touchAt
  rw [dispatch_chunk hopcode (Option.isSome_of_mem hevent)
    (Option.isSome_of_mem htransfer) hstate, handleChunk, hkey,
    Dict.get?_set_self] at hget
  cases hget
  exact storeChunk_declares hdeclares

/-- An `END` of an active transfer goes to `finish`. -/
theorem dispatch_end {state : TransferState} (hopcode : request.opcode = opEnd)
    (hevent : validateEventName request.eventName = some request.eventName)
    (htransfer : validateEventName request.transferId = some request.transferId)
    (hstate : (pruneIdleTransfers clock.pruneAt node).transfers.get?
      (request.eventName, request.transferId) = some state) :
    dispatch runtime clock fault node request =
      finish runtime (putTransfer (pruneIdleTransfers clock.pruneAt node)
        (touch state clock.touchAt)) (touch state clock.touchAt) := by
  have hbegin : ¬request.opcode = opBegin := by
    rw [hopcode]
    decide
  have hchunk : ¬request.opcode = opFileChunk := by
    rw [hopcode]
    decide
  rw [dispatch]
  simp only [hevent, htransfer, dispatchPruned, if_neg hbegin, hstate,
    if_neg hchunk, if_pos hopcode]

/-- `END` is accepted when all files are there, and publishes them. -/
theorem Awaits.finish (h : Awaits runtime key files contents node)
    (hfiles : Separate runtime files)
    (hwhole : ∀ file ∈ files, contents file.relative = some file.data)
    (hcertified : Certified runtime files listed)
    (hevent : validateEventName key.1 = some key.1)
    (htransfer : validateEventName key.2 = some key.2)
    (hactive : ¬IdleIn node (stagingName key.1 key.2) clock.pruneAt)
    (hopcode : request.opcode = opEnd)
    (hsender : (request.eventName, request.transferId) = key) :
    (dispatch runtime clock fault node request).1 =
        .answer true "transfer complete" (files.map Sending.size).sum ∧
      ∃ tree, (dispatch runtime clock fault node request).2.inbox.get? key.1 =
          some tree ∧
        ∀ path content, tree.read? path = some content ↔
          ∃ file ∈ files, file.parts = path ∧ file.data = content := by
  subst hsender
  obtain ⟨state, tree, hstate, hkey, htree, hdelivered, hdeclares⟩ :=
    h.prune hactive clock.touchAt
  have hput : (putTransfer (pruneIdleTransfers clock.pruneAt node)
      (touch state clock.touchAt)).inbox.get?
        (touch state clock.touchAt).stagingDir = some tree := htree
  rw [dispatch_end hopcode hevent htransfer hstate,
    finish_of_delivered hdelivered hfiles hwhole hcertified hdeclares hput]
  have hname : matchesEventName request.eventName = true :=
    (validateEventName_eq_some hevent).2.2
  have hfinal : (touch state clock.touchAt).finalDir = request.eventName :=
    congrArg Prod.fst hkey
  refine ⟨rfl, tree, ?_, fun path content => ?_⟩
  · rw [get?_inbox_publish, if_neg (backupName_ne_of_matchesEventName hname _),
      if_pos hfinal]
  · constructor
    · intro hread
      by_contra hnone
      have hother : ∀ file ∈ files, file.parts ≠ path := by
        rintro file hfile rfl
        rw [hdelivered.staged file hfile, hwhole file hfile] at hread
        exact hnone ⟨file, hfile, rfl, Option.some.inj hread⟩
      rw [hdelivered.unstaged path hother] at hread
      cases hread
    · rintro ⟨file, hfile, rfl, rfl⟩
      rw [hdelivered.staged file hfile, hwhole file hfile]

end Requests

end DataCache.Receiver
