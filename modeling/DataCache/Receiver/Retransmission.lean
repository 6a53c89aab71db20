import DataCache.Foundation.Pieces
import DataCache.Receiver.Isolation
import Mathlib.Data.List.Infix
import Mathlib.Data.List.Pairwise

/-!
# Sending chunks again

A sender that misses an answer sends the chunk once more.  The transfer's state
after the chunks of a list of files is a function of the chunks that came for
the first time: a copy of one of them either repeats bytes that are on the disk
or, when it is empty, adds nothing.
-/

namespace DataCache.Receiver

open DataCache.Foundation

/-! ## What is sent -/

/-- A file with an accepted path, cut into chunks. -/
structure Sending where
  path : Text
  parts : List Text
  safe : safeRelative path = some parts
  chunks : List Bytes

namespace Sending

def relative (file : Sending) : Text := joinPath file.parts

def size (file : Sending) : Nat := file.chunks.flatten.length

def pieces (file : Sending) : List (Piece Text UInt8) :=
  piecesFrom file.relative 0 file.chunks

def request (key : Text × Text) (file : Sending) (piece : Piece Text UInt8) :
    Request where
  eventName := key.1
  transferId := key.2
  opcode := opFileChunk
  filePath := file.path
  offset := piece.offset
  totalBytes := file.size
  fileCount := 0
  data := piece.data

end Sending

/-- The chunks of the files, one file after another. -/
def chunkRequests (key : Text × Text) (files : List Sending) : List Request :=
  files.flatMap fun file => file.pieces.map (file.request key)

/-- What a chunk request carries, under the path it is stored at. -/
def Request.piece (request : Request) : Piece Text UInt8 :=
  ⟨normalizeSlashes request.filePath, request.offset, request.data⟩

/-- Paths that differ after case folding, none a directory of another. -/
structure Separate (runtime : Runtime) (files : List Sending) : Prop where
  folded : files.Pairwise fun first second =>
    runtime.casefold first.relative ≠ runtime.casefold second.relative
  flat : ∀ first ∈ files, ∀ second ∈ files, first.parts <+: second.parts →
    first.parts = second.parts

namespace Sending

variable {file : Sending}

theorem relative_eq : file.relative = normalizeSlashes file.path :=
  joinPath_of_safeRelative file.safe

theorem splitPath_relative : splitPath file.relative = file.parts :=
  splitPath_joinPath_of_safeRelative file.safe

theorem parts_ne_nil : file.parts ≠ [] :=
  splitPath_relative ▸ splitPath_ne_nil _

theorem piece_request {key : Text × Text} {piece : Piece Text UInt8}
    (h : piece ∈ file.pieces) : (file.request key piece).piece = piece := by
  have hname := name_of_mem_piecesFrom h
  rw [relative_eq] at hname
  cases piece
  cases hname
  rfl

end Sending

theorem Separate.eq_of_casefold {runtime : Runtime} {files : List Sending}
    (h : Separate runtime files) {first second : Sending} (hfirst : first ∈ files)
    (hsecond : second ∈ files)
    (heq : runtime.casefold first.relative = runtime.casefold second.relative) :
    first = second := by
  have : Std.Symm fun first second : Sending =>
      runtime.casefold first.relative ≠ runtime.casefold second.relative :=
    ⟨fun _ _ hne => hne.symm⟩
  by_contra hne
  exact h.folded.forall hfirst hsecond hne heq

theorem Separate.eq_of_relative {runtime : Runtime} {files : List Sending}
    (h : Separate runtime files) {first second : Sending} (hfirst : first ∈ files)
    (hsecond : second ∈ files) (heq : first.relative = second.relative) :
    first = second :=
  h.eq_of_casefold hfirst hsecond (congrArg runtime.casefold heq)

theorem Separate.eq_of_parts {runtime : Runtime} {files : List Sending}
    (h : Separate runtime files) {first second : Sending} (hfirst : first ∈ files)
    (hsecond : second ∈ files) (heq : first.parts = second.parts) :
    first = second :=
  h.eq_of_relative hfirst hsecond (congrArg joinPath heq)

theorem pieces_chunkRequests (key : Text × Text) (files : List Sending) :
    (chunkRequests key files).map Request.piece =
      files.flatMap Sending.pieces := by
  rw [chunkRequests, List.map_flatMap]
  refine List.flatMap_congr fun file _ => ?_
  rw [List.map_map]
  exact (List.map_congr_left fun piece hpiece =>
    Sending.piece_request hpiece).trans (List.map_id _)

/-- A file's chunks come in order, and the file grows to its declared size. -/
theorem inOrder_pieces {runtime : Runtime} {files : List Sending}
    (h : Separate runtime files) :
    InOrder (files.flatMap Sending.pieces) ∧
      ∀ file ∈ files, ((gather (files.flatMap Sending.pieces)
        file.relative).getD []).length = file.size := by
  induction files using List.reverseRecOn with
  | nil => exact ⟨.nil, fun _ h => by cases h⟩
  | append_singleton files last ih =>
      have hsplit := List.pairwise_append.mp h.folded
      obtain ⟨horder, hsizes⟩ := ih ⟨hsplit.1, fun first hfirst second hsecond =>
        h.flat first (List.mem_append_left _ hfirst) second
          (List.mem_append_left _ hsecond)⟩
      have hne : ∀ file ∈ files, file.relative ≠ last.relative :=
        fun file hfile heq => hsplit.2.2 file hfile last (by simp)
          (congrArg runtime.casefold heq)
      have hnew : gather (files.flatMap Sending.pieces) last.relative = none := by
        refine gather_append_other [] _ fun piece hpiece => ?_
        obtain ⟨file, hfile, hpiece⟩ := List.mem_flatMap.mp hpiece
        rw [name_of_mem_piecesFrom hpiece]
        exact hne file hfile
      have hlast := horder.piecesFrom last.relative last.chunks
      rw [hnew, Option.getD_none, List.length_nil, List.nil_append] at hlast
      rw [List.flatMap_append, List.flatMap_singleton]
      refine ⟨hlast.1, fun file hfile => ?_⟩
      rcases List.mem_append.mp hfile with hfile | hfile
      · rw [gather_append_other _ _ fun piece hpiece => by
          rw [name_of_mem_piecesFrom hpiece]
          exact (hne file hfile).symm]
        exact hsizes file hfile
      · obtain rfl := List.mem_singleton.mp hfile
        rw [Sending.pieces, hlast.2]
        rfl

/-! ## What has been delivered -/

/-- The state of a file whose hasher has been fed `content`. -/
def FileState.holding (size : Nat) (content : Bytes) : FileState :=
  ⟨size, content.length, content⟩

/-- The tables and the staging directory hold `contents` and nothing else. -/
structure Delivered (runtime : Runtime) (files : List Sending)
    (contents : Text → Option Bytes) (state : TransferState) (tree : Tree) :
    Prop where
  table : ∀ file ∈ files, state.files.get? file.relative =
    (contents file.relative).map (FileState.holding file.size)
  others : ∀ relative, (∀ file ∈ files, file.relative ≠ relative) →
    state.files.get? relative = none
  canonical : ∀ canonical relative,
    state.canonicalPaths.get? canonical = some relative →
    ∃ file ∈ files, file.relative = relative ∧
      runtime.casefold file.relative = canonical
  staged : ∀ file ∈ files, tree.read? file.parts = contents file.relative
  unstaged : ∀ path, (∀ file ∈ files, file.parts ≠ path) →
    tree.read? path = none
  dirs : ∀ path ∈ tree.dirs, ∃ file ∈ files, path <+: file.parts.dropLast

namespace Delivered

variable {runtime : Runtime} {files : List Sending}
  {contents : Text → Option Bytes} {state : TransferState} {tree : Tree}

theorem start (key : Text × Text) (expectedFiles expectedBytes : Nat)
    (now : Time) :
    Delivered runtime files (fun _ => none)
      ⟨key.1, key.2, expectedFiles, expectedBytes, Dict.empty, Dict.empty, now⟩
      DirTree.empty :=
  ⟨fun _ _ => rfl, fun _ _ => rfl, nofun, fun _ _ => rfl, fun _ _ => rfl, nofun⟩

/-- No file of the transfer is in the way of another one's directories. -/
theorem mkdirs (h : Delivered runtime files contents state tree)
    (hfiles : Separate runtime files) {file : Sending} (hfile : file ∈ files) :
    ∃ made, tree.mkdirs file.parts.dropLast = some made ∧
      made.isDir file.parts = false ∧
      Delivered runtime files contents state made := by
  -- A file of the transfer below the new directories would be the file itself.
  have hproper : ∀ other ∈ files, ∀ third ∈ files,
      ¬other.parts <+: third.parts.dropLast := by
    intro other hother third hthird hstarts
    have heq := hfiles.flat other hother third hthird
      (hstarts.trans (List.dropLast_prefix _))
    have hlength := hstarts.length_le
    have hne : third.parts ≠ [] := Sending.parts_ne_nil
    have hpos := List.length_pos_iff.mpr hne
    rw [heq, List.length_dropLast] at hlength
    omega
  have hfree : (tree.mkdirs file.parts.dropLast).isSome = true := by
    refine DirTree.mkdirs_isSome.mpr fun path hpath => ?_
    have hnone : tree.read? path = none := h.unstaged path fun other hother heq =>
      hproper other hother file hfile (heq ▸ hpath)
    rw [DirTree.isFile, Dict.contains, ← DirTree.read?, hnone]
    rfl
  obtain ⟨made, hmade⟩ := Option.isSome_iff_exists.mp hfree
  have hdirs : ∀ path ∈ made.dirs, ∃ other ∈ files,
      path <+: other.parts.dropLast := by
    intro path hpath
    rcases (DirTree.mem_dirs_mkdirs hmade path).mp hpath with hnew | hold
    · exact ⟨file, hfile, hnew⟩
    · exact h.dirs path hold
  refine ⟨made, hmade, ?_, h.table, h.others, h.canonical, fun other hother => ?_,
    fun path hpath => ?_, hdirs⟩
  · rw [DirTree.isDir, decide_eq_false_iff_not, not_or]
    refine ⟨Sending.parts_ne_nil, fun hdir => ?_⟩
    obtain ⟨other, hother, hstarts⟩ := hdirs _ hdir
    exact hproper file hfile other hother hstarts
  · rw [DirTree.read?_mkdirs hmade]
    exact h.staged other hother
  · rw [DirTree.read?_mkdirs hmade]
    exact h.unstaged path hpath

/-- Registering a file of the list again and giving it `content`. -/
theorem update (h : Delivered runtime files contents state tree)
    (hfiles : Separate runtime files) {file : Sending} (hfile : file ∈ files)
    {content : Bytes} {tree' : Tree}
    (hread : ∀ path, tree'.read? path =
      if file.parts = path then some content else tree.read? path)
    (hdirs : tree'.dirs = tree.dirs) :
    Delivered runtime files
      (Function.update contents file.relative (some content))
      ((state.register (runtime.casefold file.relative) file.relative).setFile
        file.relative (.holding file.size content)) tree' := by
  refine ⟨fun other hother => ?_, fun relative hrelative => ?_,
    fun canonical relative hget => ?_, fun other hother => ?_,
    fun path hpath => ?_, hdirs ▸ h.dirs⟩
  · rw [TransferState.setFile, TransferState.register, Dict.get?_set]
    split
    next heq =>
      obtain rfl := hfiles.eq_of_relative hfile hother heq
      rw [Function.update_self, Option.map_some]
    next hne =>
      rw [Function.update_of_ne (Ne.symm hne)]
      exact h.table other hother
  · rw [TransferState.setFile, TransferState.register,
      Dict.get?_set_ne _ _ (hrelative file hfile)]
    exact h.others relative hrelative
  · rw [TransferState.setFile, TransferState.register, Dict.get?_set] at hget
    split at hget
    next heq =>
      cases hget
      exact ⟨file, hfile, rfl, heq⟩
    · exact h.canonical canonical relative hget
  · rw [hread]
    split
    next heq =>
      obtain rfl := hfiles.eq_of_parts hfile hother heq
      rw [Function.update_self]
    next hne =>
      have hne' : other.relative ≠ file.relative := fun heq =>
        hne (congrArg Sending.parts
          (hfiles.eq_of_relative hfile hother heq.symm))
      rw [Function.update_of_ne hne']
      exact h.staged other hother
  · rw [hread, if_neg (hpath file hfile)]
    exact h.unstaged path hpath

end Delivered

/-! ## One chunk -/

theorem overwrite_end {α : Type*} (filler : α) (content data : List α) :
    overwrite filler content content.length data = content ++ data := by
  unfold overwrite
  split
  next hempty => rw [List.isEmpty_iff.mp hempty, List.append_nil]
  next => simp

/-- Before its data is looked at, a chunk of a listed file is never refused. -/
theorem storeChunk_listed {runtime : Runtime} {files : List Sending}
    {contents : Text → Option Bytes} {state : TransferState} {tree : Tree}
    (h : Delivered runtime files contents state tree)
    (hfiles : Separate runtime files) {file : Sending} (hfile : file ∈ files)
    {fault : WriteFault} {tree? : Option Tree} {key : Text × Text}
    {piece : Piece Text UInt8} {content : Bytes} {reply : Reply}
    {after : FileState} {after? : Option Tree}
    (hcontent : (contents file.relative).getD [] = content)
    (hdata : storeData fault tree? file.parts file.relative
      (.holding file.size content) piece.offset piece.data =
        (reply, after, after?)) :
    storeChunk runtime fault state tree? (file.request key piece) =
      (reply, (state.register (runtime.casefold file.relative)
        file.relative).setFile file.relative after, after?) := by
  have hfree : ¬Blocked runtime state file.parts := by
    rintro ⟨relative, hget, hne⟩
    obtain ⟨other, hother, rfl, heq⟩ := h.canonical _ _ hget
    rw [hfiles.eq_of_casefold hother hfile heq] at hne
    exact hne rfl
  have hknown : state.fileFor file.relative file.size =
      .holding file.size content := by
    rw [TransferState.fileFor, h.table file hfile, ← hcontent]
    cases contents file.relative <;> rfl
  have hsize : ¬(FileState.holding file.size content).expectedBytes ≠ file.size :=
    not_not.mpr rfl
  have htotal : (file.request key piece).totalBytes = file.size := rfl
  have hstored : storeData fault tree? file.parts file.relative
      (.holding file.size content) (file.request key piece).offset
      (file.request key piece).data = (reply, after, after?) := hdata
  rw [storeChunk_eq file.safe hfree]
  dsimp only
  rw [← Sending.relative, htotal, hknown, if_neg hsize, hstored]

theorem storeData_next {tree made : Tree} {path : List Text} {relative : Text}
    {size : Nat} {content : Bytes} {offset : Nat} {data : Bytes}
    (hmade : tree.mkdirs path.dropLast = some made)
    (hfree : made.isDir path = false)
    (hread : (made.read? path).getD [] = content)
    (hoffset : offset = content.length) (hend : offset + data.length ≤ size) :
    storeData .none (some tree) path relative (.holding size content) offset
        data =
      (.answer true "chunk stored" (offset + data.length),
        .holding size (content ++ data),
        some (made.write path (content ++ data))) := by
  have hroom : ¬offset + data.length >
      (FileState.holding size content).expectedBytes := Nat.not_lt.mpr hend
  have hbelow : ¬offset < (FileState.holding size content).receivedBytes :=
    Nat.not_lt.mpr hoffset.ge
  have hnext : ¬offset ≠ (FileState.holding size content).receivedBytes :=
    not_not.mpr hoffset
  have hwrite : writeChunk .none made path offset data =
      (.ok (), made.write path (content ++ data)) := by
    simp only [writeChunk, hfree, Bool.false_eq_true, if_false, hread, hoffset,
      overwrite_end]
  unfold storeData
  simp only [if_neg hroom, Option.getD_some, hmade, if_neg hbelow, if_neg hnext,
    hwrite]
  simp [FileState.holding, hoffset]

theorem storeData_again {tree made : Tree} {path : List Text} {relative : Text}
    {size : Nat} {content : Bytes} {offset : Nat} {data : Bytes}
    {fault : WriteFault} (hmade : tree.mkdirs path.dropLast = some made)
    (hread : made.read? path = some content) (hoffset : offset < content.length)
    (hend : offset + data.length ≤ content.length)
    (hsize : content.length ≤ size)
    (hslice : (content.drop offset).take data.length = data) :
    storeData fault (some tree) path relative (.holding size content) offset
        data =
      (.answer true "duplicate chunk already stored" content.length,
        .holding size content, some made) := by
  have hexists : made.pathExists path = true := by
    rw [DirTree.pathExists, DirTree.isFile, Dict.contains, ← DirTree.read?, hread]
    rfl
  have hroom : ¬offset + data.length >
      (FileState.holding size content).expectedBytes :=
    Nat.not_lt.mpr (hend.trans hsize)
  have hbelow : offset < (FileState.holding size content).receivedBytes := hoffset
  have hwithin : (decide (offset + data.length >
      (FileState.holding size content).receivedBytes) ||
        !made.pathExists path) = false := by
    rw [hexists, Bool.not_true, Bool.or_false, decide_eq_false_iff_not]
    exact Nat.not_lt.mpr hend
  unfold storeData
  simp only [if_neg hroom, Option.getD_some, hmade, if_pos hbelow]
  rw [duplicateReply, hwithin]
  simp only [Bool.false_eq_true, if_false, hread, hslice, ne_eq,
    not_true_eq_false]
  rfl

/-- The next chunk of a file is appended. -/
theorem storeChunk_next {runtime : Runtime} {files : List Sending}
    {contents : Text → Option Bytes} {state : TransferState} {tree : Tree}
    (h : Delivered runtime files contents state tree)
    (hfiles : Separate runtime files) {file : Sending} (hfile : file ∈ files)
    {key : Text × Text} {piece : Piece Text UInt8}
    (hname : piece.name = file.relative)
    (hoffset : piece.offset = ((contents file.relative).getD []).length)
    (hend : piece.end ≤ file.size) :
    ∃ message bytes state' tree',
      storeChunk runtime .none state (some tree) (file.request key piece) =
        (.answer true message bytes, state', some tree') ∧
      state'.key = state.key ∧
      Delivered runtime files (addPiece contents piece) state' tree' := by
  obtain ⟨made, hmkdirs, hfree, hmade⟩ := h.mkdirs hfiles hfile
  have hread : (made.read? file.parts).getD [] =
      (contents file.relative).getD [] := by
    rw [hmade.staged file hfile]
  refine ⟨_, _, _, _, storeChunk_listed h hfiles hfile rfl
    (storeData_next hmkdirs hfree hread hoffset hend), rfl, ?_⟩
  rw [addPiece, hname]
  exact hmade.update hfiles hfile (DirTree.read?_write _ _ · _) rfl

/-- A chunk whose bytes are on the disk is recognized and changes nothing. -/
theorem storeChunk_again {runtime : Runtime} {files : List Sending}
    {contents : Text → Option Bytes} {state : TransferState} {tree : Tree}
    (h : Delivered runtime files contents state tree)
    (hfiles : Separate runtime files) {file : Sending} (hfile : file ∈ files)
    {key : Text × Text} {piece : Piece Text UInt8} {content : Bytes}
    (hcontent : contents file.relative = some content)
    (hoffset : piece.offset < content.length)
    (hend : piece.end ≤ content.length) (hsize : content.length ≤ file.size)
    (hslice : (content.drop piece.offset).take piece.data.length = piece.data) :
    ∃ message bytes state' tree',
      storeChunk runtime .none state (some tree) (file.request key piece) =
        (.answer true message bytes, state', some tree') ∧
      state'.key = state.key ∧
      Delivered runtime files contents state' tree' := by
  obtain ⟨made, hmkdirs, -, hmade⟩ := h.mkdirs hfiles hfile
  have hread : made.read? file.parts = some content := by
    rw [hmade.staged file hfile, hcontent]
  refine ⟨_, _, _, _, storeChunk_listed h hfiles hfile
    (by rw [hcontent, Option.getD_some])
    (storeData_again hmkdirs hread hoffset hend hsize hslice), rfl, ?_⟩
  have hsame : Function.update contents file.relative (some content) =
      contents := by
    rw [← hcontent, Function.update_eq_self]
  rw [← hsame]
  refine hmade.update hfiles hfile (fun path => ?_) rfl
  split
  next heq => rw [← heq, hread]
  next => rfl

/-! ## A run of chunks -/

/-- The node after requests that meet no failing file operation. -/
def handleAll (runtime : Runtime) (node : Node) (sent : List (Clock × Request)) :
    Node :=
  sent.foldl (fun node request =>
    (dispatch runtime request.1 .none node request.2).2) node

/-- Each request of a run, with the node it finds. -/
def Along (runtime : Runtime) (P : Node → Clock × Request → Prop) :
    Node → List (Clock × Request) → Prop
  | _, [] => True
  | node, request :: rest =>
      P node request ∧
        Along runtime P (dispatch runtime request.1 .none node request.2).2 rest

instance Along.decidable (runtime : Runtime) (P : Node → Clock × Request → Prop)
    [∀ node request, Decidable (P node request)] :
    ∀ node sent, Decidable (Along runtime P node sent)
  | _, [] => .isTrue trivial
  | node, request :: rest =>
      have := Along.decidable runtime P
        (dispatch runtime request.1 .none node request.2).2 rest
      inferInstanceAs (Decidable (_ ∧ _))

/-- No request finds a transfer staged in `directory` idle for too long. -/
def NeverIdle (runtime : Runtime) (directory : Text) :
    Node → List (Clock × Request) → Prop :=
  Along runtime fun node request => ¬IdleIn node directory request.1.pruneAt

def AllAccepted (runtime : Runtime) : Node → List (Clock × Request) → Prop :=
  Along runtime fun node request =>
    (dispatch runtime request.1 .none node request.2).1.accepted = true

instance (runtime : Runtime) (directory : Text) (node : Node)
    (sent : List (Clock × Request)) :
    Decidable (NeverIdle runtime directory node sent) :=
  inferInstanceAs (Decidable (Along ..))

instance (runtime : Runtime) (node : Node) (sent : List (Clock × Request)) :
    Decidable (AllAccepted runtime node sent) :=
  inferInstanceAs (Decidable (Along ..))

theorem handleAll_concat (runtime : Runtime) (node : Node)
    (sent : List (Clock × Request)) (request : Clock × Request) :
    handleAll runtime node (sent ++ [request]) =
      (dispatch runtime request.1 .none (handleAll runtime node sent)
        request.2).2 := by
  simp [handleAll]

theorem along_concat {runtime : Runtime} {P : Node → Clock × Request → Prop}
    {node : Node} {sent : List (Clock × Request)} {request : Clock × Request} :
    Along runtime P node (sent ++ [request]) ↔
      Along runtime P node sent ∧ P (handleAll runtime node sent) request := by
  induction sent generalizing node with
  | nil => simp [Along, handleAll]
  | cons first rest ih =>
      rw [List.cons_append, Along, ih, Along, and_assoc]
      rfl

/-- The transfer is active and its staging directory holds `contents`. -/
def Holds (runtime : Runtime) (key : Text × Text) (files : List Sending)
    (contents : Text → Option Bytes) (node : Node) : Prop :=
  ∃ state tree, node.transfers.get? key = some state ∧ state.key = key ∧
    node.inbox.get? (stagingName key.1 key.2) = some tree ∧
    Delivered runtime files contents state tree

theorem holds_startTransfer {runtime : Runtime} {files : List Sending}
    (key : Text × Text) (node : Node) (expectedFiles expectedBytes : Nat)
    (now : Time) :
    Holds runtime key files (fun _ => none)
      (startTransfer node key.1 key.2 expectedFiles expectedBytes now) :=
  ⟨_, _, Dict.get?_set_self _ _ _, rfl, Dict.get?_set_self _ _ _,
    .start key expectedFiles expectedBytes now⟩

/-- A chunk that `store_chunk` accepts is accepted by the node. -/
theorem Holds.dispatch {runtime : Runtime} {key : Text × Text}
    {files : List Sending} {contents contents' : Text → Option Bytes} {node : Node}
    (h : Holds runtime key files contents node)
    (hevent : validateEventName key.1 = some key.1)
    (htransfer : validateEventName key.2 = some key.2) {clock : Clock}
    (hactive : ¬IdleIn node (stagingName key.1 key.2) clock.pruneAt)
    {request : Request} (hopcode : request.opcode = opFileChunk)
    (hsender : (request.eventName, request.transferId) = key)
    (hstore : ∀ state tree, Delivered runtime files contents state tree →
      ∃ message bytes state' tree',
        storeChunk runtime .none state (some tree) request =
          (.answer true message bytes, state', some tree') ∧
        state'.key = state.key ∧
        Delivered runtime files contents' state' tree') :
    (Receiver.dispatch runtime clock .none node request).1.accepted = true ∧
      Holds runtime key files contents'
        (Receiver.dispatch runtime clock .none node request).2 := by
  have hname : request.eventName = key.1 := congrArg Prod.fst hsender
  have hid : request.transferId = key.2 := congrArg Prod.snd hsender
  obtain ⟨state, tree, hstate, hkey, htree, hdelivered⟩ := h
  have hdirectory : state.stagingDir = stagingName key.1 key.2 := by
    rw [← hkey]
    rfl
  obtain ⟨hkept, hinbox⟩ := pruneIdleTransfers_keeps hactive
  have htouched : Delivered runtime files contents
      (touch state clock.touchAt) tree :=
    ⟨hdelivered.table, hdelivered.others, hdelivered.canonical,
      hdelivered.staged, hdelivered.unstaged, hdelivered.dirs⟩
  obtain ⟨message, bytes, state', tree', hstored, hkey', hdelivered'⟩ :=
    hstore _ _ htouched
  have hlookup := hkept key state hstate hdirectory
  have hstaging : (pruneIdleTransfers clock.pruneAt node).inbox.get?
      (touch state clock.touchAt).stagingDir = some tree := by
    rw [← htree, ← hinbox, ← hdirectory]
    rfl
  rw [dispatch_chunk hopcode (by rw [hname, hevent]; rfl)
    (by rw [hid, htransfer]; rfl) (hsender ▸ hlookup), handleChunk, hstaging,
    hstored]
  have hkept : (touch state clock.touchAt).key = key := hkey
  have hsame : (touch state clock.touchAt).stagingDir =
      stagingName key.1 key.2 := hdirectory
  refine ⟨rfl, state', tree', ?_, hkey'.trans hkey, ?_, hdelivered'⟩
  · rw [hkept]
    exact Dict.get?_set_self _ _ _
  · rw [hsame]
    exact Dict.get?_set_self _ _ _

theorem exists_of_mem_chunkRequests {key : Text × Text} {files : List Sending}
    {request : Request} (h : request ∈ chunkRequests key files) :
    ∃ file ∈ files, request = file.request key request.piece ∧
      request.piece.name = file.relative := by
  obtain ⟨file, hfile, hpieces⟩ := List.mem_flatMap.mp h
  obtain ⟨piece, hpiece, rfl⟩ := List.mem_map.mp hpieces
  rw [Sending.piece_request hpiece]
  exact ⟨file, hfile, rfl, name_of_mem_piecesFrom hpiece⟩

/-- What has come of a file never exceeds its declared size. -/
theorem gathered_le_size {runtime : Runtime} {files : List Sending}
    (hfiles : Separate runtime files) {pieces more : List (Piece Text UInt8)}
    (h : files.flatMap Sending.pieces = pieces ++ more) {file : Sending}
    (hfile : file ∈ files) :
    ((gather pieces file.relative).getD []).length ≤ file.size := by
  rw [← (inOrder_pieces hfiles).2 file hfile, h]
  exact (gather_grows pieces more file.relative).length_le

/-- The first coming of the next chunk. -/
theorem Holds.original {runtime : Runtime} {key : Text × Text}
    {files : List Sending} {node : Node} {originals : List Request}
    (h : Holds runtime key files (gather (originals.map Request.piece)) node)
    (hfiles : Separate runtime files)
    (hevent : validateEventName key.1 = some key.1)
    (htransfer : validateEventName key.2 = some key.2) {clock : Clock}
    (hactive : ¬IdleIn node (stagingName key.1 key.2) clock.pruneAt)
    {request : Request}
    (hstarts : originals ++ [request] <+: chunkRequests key files) :
    (Receiver.dispatch runtime clock .none node request).1.accepted = true ∧
      Holds runtime key files
        (gather ((originals ++ [request]).map Request.piece))
        (Receiver.dispatch runtime clock .none node request).2 := by
  obtain ⟨file, hfile, hrequest, hname⟩ :=
    exists_of_mem_chunkRequests (hstarts.subset List.mem_concat_self)
  obtain ⟨later, hlater⟩ := hstarts
  have hpieces : files.flatMap Sending.pieces =
      (originals ++ [request]).map Request.piece ++ later.map Request.piece := by
    rw [← pieces_chunkRequests key, ← hlater, List.map_append]
  rw [List.map_append, List.map_singleton] at hpieces ⊢
  have horder := (inOrder_pieces hfiles).1
  rw [hpieces] at horder
  have hoffset := horder.of_append (originals.map Request.piece) request.piece []
    rfl
  have hend := gathered_le_size hfiles hpieces hfile
  rw [gather_concat, ← hname, addPiece_self, Option.getD_some,
    List.length_append, ← hoffset] at hend
  rw [hname] at hoffset
  refine h.dispatch hevent htransfer hactive (by rw [hrequest]; rfl)
    (by rw [hrequest]; rfl) fun state tree hdelivered => ?_
  obtain ⟨message, bytes, state', tree', hstored, hkey, hnext⟩ :=
    storeChunk_next hdelivered hfiles hfile hname hoffset hend
  rw [gather_concat]
  exact ⟨message, bytes, state', tree', by rw [hrequest]; exact hstored, hkey,
    hnext⟩

/-- A copy of a chunk that came before. -/
theorem Holds.copy {runtime : Runtime} {key : Text × Text}
    {files : List Sending} {node : Node} {originals : List Request}
    (h : Holds runtime key files (gather (originals.map Request.piece)) node)
    (hfiles : Separate runtime files)
    (hevent : validateEventName key.1 = some key.1)
    (htransfer : validateEventName key.2 = some key.2) {clock : Clock}
    (hactive : ¬IdleIn node (stagingName key.1 key.2) clock.pruneAt)
    {request : Request} (hstarts : originals <+: chunkRequests key files)
    (hmem : request ∈ originals) :
    (Receiver.dispatch runtime clock .none node request).1.accepted = true ∧
      Holds runtime key files (gather (originals.map Request.piece))
        (Receiver.dispatch runtime clock .none node request).2 := by
  obtain ⟨file, hfile, hrequest, hname⟩ :=
    exists_of_mem_chunkRequests (hstarts.subset hmem)
  obtain ⟨later, hlater⟩ := hstarts
  have hpieces : files.flatMap Sending.pieces =
      originals.map Request.piece ++ later.map Request.piece := by
    rw [← pieces_chunkRequests key, ← hlater, List.map_append]
  have horder := (inOrder_pieces hfiles).1
  rw [hpieces] at horder
  obtain ⟨content, hcontent, hend, hslice⟩ :=
    horder.of_append.slice (List.mem_map_of_mem hmem)
  have hsize := gathered_le_size hfiles hpieces hfile
  rw [hname] at hcontent
  rw [hcontent, Option.getD_some] at hsize
  refine h.dispatch hevent htransfer hactive (by rw [hrequest]; rfl)
    (by rw [hrequest]; rfl) fun state tree hdelivered => ?_
  by_cases hoffset : request.piece.offset < content.length
  · obtain ⟨message, bytes, state', tree', hstored, hkey, hagain⟩ :=
      storeChunk_again hdelivered hfiles hfile hcontent hoffset hend hsize hslice
    exact ⟨message, bytes, state', tree', by rw [hrequest]; exact hstored, hkey,
      hagain⟩
  · -- An empty copy at the end of what has come adds nothing.
    rw [Piece.end] at hend
    have hempty : request.piece.data = [] :=
      List.length_eq_zero_iff.mp (by omega)
    have hsame := addPiece_empty hempty (hname ▸ hcontent)
    rw [hempty, List.length_nil] at hend
    obtain ⟨message, bytes, state', tree', hstored, hkey, hnext⟩ :=
      storeChunk_next hdelivered hfiles hfile hname
        (by rw [hcontent, Option.getD_some]; omega)
        (by rw [Piece.end, hempty, List.length_nil]; omega)
    exact ⟨message, bytes, state', tree', by rw [hrequest]; exact hstored, hkey,
      hsame ▸ hnext⟩

/-- A run of chunks in order, with copies, delivers what the originals carry. -/
theorem Holds.handleAll {runtime : Runtime} {key : Text × Text}
    {files : List Sending} {node : Node}
    (h : Holds runtime key files (fun _ => none) node)
    (hfiles : Separate runtime files)
    (hevent : validateEventName key.1 = some key.1)
    (htransfer : validateEventName key.2 = some key.2)
    {originals requests : List Request} (hcopies : WithCopies originals requests)
    {sent : List (Clock × Request)} (hsent : sent.map Prod.snd = requests)
    (hstarts : originals <+: chunkRequests key files)
    (hactive : NeverIdle runtime (stagingName key.1 key.2) node sent) :
    AllAccepted runtime node sent ∧
      Holds runtime key files (gather (originals.map Request.piece))
        (Receiver.handleAll runtime node sent) := by
  induction hcopies generalizing sent with
  | nil =>
      obtain rfl := List.map_eq_nil_iff.mp hsent
      exact ⟨trivial, h⟩
  | @original originals requests request hcopies ih =>
      obtain ⟨before, last, rfl, hbefore, hlast⟩ := List.map_eq_append_iff.mp hsent
      obtain ⟨⟨clock, request⟩, rfl, rfl⟩ := List.map_eq_singleton_iff.mp hlast
      obtain ⟨hactive, hidle⟩ := along_concat.mp hactive
      obtain ⟨haccepted, hholds⟩ := ih hbefore
        ((List.prefix_append _ _).trans hstarts) hactive
      have hstep := hholds.original hfiles hevent htransfer hidle hstarts
      rw [handleAll_concat]
      exact ⟨along_concat.mpr ⟨haccepted, hstep.1⟩, hstep.2⟩
  | @copy originals requests request hcopies hmem ih =>
      obtain ⟨before, last, rfl, hbefore, hlast⟩ := List.map_eq_append_iff.mp hsent
      obtain ⟨⟨clock, request⟩, rfl, rfl⟩ := List.map_eq_singleton_iff.mp hlast
      obtain ⟨hactive, hidle⟩ := along_concat.mp hactive
      obtain ⟨haccepted, hholds⟩ := ih hbefore hstarts hactive
      have hstep := hholds.copy hfiles hevent htransfer hidle hstarts hmem
      rw [handleAll_concat]
      exact ⟨along_concat.mpr ⟨haccepted, hstep.1⟩, hstep.2⟩

/-! ## Retransmission -/

/-- The same declared sizes, counters, hashes and staged bytes. -/
def SameProgress (key : Text × Text) (first second : Node) : Prop :=
  ∃ state state' tree tree', first.transfers.get? key = some state ∧
    second.transfers.get? key = some state' ∧
    first.inbox.get? (stagingName key.1 key.2) = some tree ∧
    second.inbox.get? (stagingName key.1 key.2) = some tree' ∧
    (∀ relative, state.files.get? relative = state'.files.get? relative) ∧
    ∀ path, tree.read? path = tree'.read? path

theorem Holds.sameProgress {runtime : Runtime} {key : Text × Text}
    {files : List Sending} {contents : Text → Option Bytes} {first second : Node}
    (hfirst : Holds runtime key files contents first)
    (hsecond : Holds runtime key files contents second) :
    SameProgress key first second := by
  obtain ⟨state, tree, hstate, -, htree, hdelivered⟩ := hfirst
  obtain ⟨state', tree', hstate', -, htree', hdelivered'⟩ := hsecond
  refine ⟨state, state', tree, tree', hstate, hstate', htree, htree',
    fun relative => ?_, fun path => ?_⟩
  · by_cases hlisted : ∃ file ∈ files, file.relative = relative
    · obtain ⟨file, hfile, rfl⟩ := hlisted
      rw [hdelivered.table file hfile, hdelivered'.table file hfile]
    · have hother : ∀ file ∈ files, file.relative ≠ relative :=
        fun file hfile heq => hlisted ⟨file, hfile, heq⟩
      rw [hdelivered.others relative hother, hdelivered'.others relative hother]
  · by_cases hlisted : ∃ file ∈ files, file.parts = path
    · obtain ⟨file, hfile, rfl⟩ := hlisted
      rw [hdelivered.staged file hfile, hdelivered'.staged file hfile]
    · have hother : ∀ file ∈ files, file.parts ≠ path :=
        fun file hfile heq => hlisted ⟨file, hfile, heq⟩
      rw [hdelivered.unstaged path hother, hdelivered'.unstaged path hother]

/-- An accepted `BEGIN` leaves an active transfer that holds nothing. -/
theorem holds_of_begin {runtime : Runtime} {files : List Sending} {node : Node}
    {clock : Clock} {fault : WriteFault} {request : Request}
    (hopcode : request.opcode = opBegin)
    (haccepted : (dispatch runtime clock fault node request).1.accepted = true) :
    validateEventName request.eventName = some request.eventName ∧
    validateEventName request.transferId = some request.transferId ∧
    Holds runtime (request.eventName, request.transferId) files (fun _ => none)
      (dispatch runtime clock fault node request).2 := by
  cases hdispatch : dispatch runtime clock fault node request with
  | mk reply node' =>
  rw [hdispatch] at haccepted
  have hreply : ∃ message bytes, reply = .answer true message bytes := by
    cases reply with
    | answer success message bytes => exact ⟨message, bytes, by rw [← haccepted]; rfl⟩
    | raised error => cases haccepted
  obtain ⟨message, bytes, rfl⟩ := hreply
  rcases dispatch_cases hdispatch with ⟨-, hfail⟩ | ⟨hevent, htransfer, h⟩
  · exact absurd rfl (hfail message bytes)
  · refine ⟨hevent, htransfer, ?_⟩
    cases h with
    | unchanged hfail => exact absurd rfl (hfail message bytes)
    | begun now _ hadmitted =>
        exact holds_startTransfer (request.eventName, request.transferId) _ _ _ _
    | chunk now fault hchunk => exact absurd (hopcode.symm.trans hchunk) (by decide)
    | ended now hend => exact absurd (hopcode.symm.trans hend) (by decide)

/--
After an accepted `BEGIN`, chunks in order and copies of earlier ones are all
accepted, and at every moment (`originals` are the chunks that have come so far)
the transfer is where the chunks alone would have brought it.
-/
theorem retransmission_idempotent {runtime : Runtime} {node : Node}
    {clock : Clock} {beginning : Request} {files : List Sending}
    {originals : List Request} {sent alone : List (Clock × Request)}
    (hfiles : Separate runtime files) (hopcode : beginning.opcode = opBegin)
    (hbegun : (dispatch runtime clock .none node beginning).1.accepted = true)
    (hstarts : originals <+:
      chunkRequests (beginning.eventName, beginning.transferId) files)
    (hsent : WithCopies originals (sent.map Prod.snd))
    (halone : alone.map Prod.snd = originals)
    (hactive : NeverIdle runtime
      (stagingName beginning.eventName beginning.transferId)
      (dispatch runtime clock .none node beginning).2 sent)
    (hactive' : NeverIdle runtime
      (stagingName beginning.eventName beginning.transferId)
      (dispatch runtime clock .none node beginning).2 alone) :
    AllAccepted runtime (dispatch runtime clock .none node beginning).2 sent ∧
    SameProgress (beginning.eventName, beginning.transferId)
      (handleAll runtime (dispatch runtime clock .none node beginning).2 sent)
      (handleAll runtime (dispatch runtime clock .none node beginning).2 alone) := by
  obtain ⟨hevent, htransfer, hholds⟩ := @holds_of_begin runtime files _ _ _ _
    hopcode hbegun
  obtain ⟨haccepted, hwith⟩ := hholds.handleAll hfiles hevent htransfer hsent rfl
    hstarts hactive
  obtain ⟨-, hwithout⟩ := hholds.handleAll hfiles hevent htransfer (.refl originals)
    halone hstarts hactive'
  exact ⟨haccepted, hwith.sameProgress hwithout⟩

def sampleSending : Sending :=
  ⟨"d/a", ["d", "a"], by decide, [encodeUtf8 "ab", encodeUtf8 "c"]⟩

def sampleChunk (offset : Nat) (data : Bytes) : Request :=
  sampleSending.request ("e1", "t1") ⟨"d/a", offset, data⟩

theorem separate_singleton (runtime : Runtime) (file : Sending) :
    Separate runtime [file] :=
  ⟨List.pairwise_singleton _ _, fun first hfirst second hsecond _ => by
    rw [List.mem_singleton.mp hfirst, List.mem_singleton.mp hsecond]⟩

/-- The first chunk is sent three times. -/
theorem retransmission_idempotent_thrice :
    let first := sampleChunk 0 (encodeUtf8 "ab")
    let second := sampleChunk 2 (encodeUtf8 "c")
    let sent := [first, first, second, first].map fun request =>
      ((⟨0, 0⟩ : Clock), request)
    let alone := [first, second].map fun request => ((⟨5, 5⟩ : Clock), request)
    AllAccepted sampleRuntime sampleBegun sent ∧
      SameProgress ("e1", "t1") (handleAll sampleRuntime sampleBegun sent)
        (handleAll sampleRuntime sampleBegun alone) := by
  intro first second sent alone
  have hcopies : WithCopies [first, second] [first, first, second, first] :=
    .copy (.original second (.copy (.original first .nil) (by simp))) (by simp)
  exact retransmission_idempotent
    (separate_singleton sampleRuntime sampleSending) rfl (by decide +kernel)
    ⟨[], by decide +kernel⟩ hcopies rfl (by decide +kernel) (by decide +kernel)

/--
A chunk that comes 601 s after `BEGIN` finds the transfer discarded, and one
whose file cannot be opened is answered with the error.
-/
theorem chunk_refused_after_pause :
    (¬∀ (runtime : Runtime) (node : Node) (clock : Clock) (beginning : Request)
      (files : List Sending) (originals : List Request)
      (sent : List (Clock × Request)),
      Separate runtime files → beginning.opcode = opBegin →
      (dispatch runtime clock .none node beginning).1.accepted = true →
      originals <+:
        chunkRequests (beginning.eventName, beginning.transferId) files →
      WithCopies originals (sent.map Prod.snd) →
      AllAccepted runtime (dispatch runtime clock .none node beginning).2 sent) ∧
    (dispatch sampleRuntime ⟨0, 0⟩ .openFails sampleBegun
      (sampleChunk 0 (encodeUtf8 "ab"))).1.accepted = false := by
  refine ⟨fun h => ?_, by decide +kernel⟩
  have haccepted := h sampleRuntime ⟨Dict.empty, Dict.empty⟩ ⟨0, 0⟩
    (sampleBegin "e1" "t1") [sampleSending]
    [sampleChunk 0 (encodeUtf8 "ab")]
    [(⟨601000000000, 601000000000⟩, sampleChunk 0 (encodeUtf8 "ab"))]
    (separate_singleton _ _) rfl (by decide +kernel)
    ⟨[sampleChunk 2 (encodeUtf8 "c")], by decide +kernel⟩
    (.original _ .nil)
  revert haccepted
  decide +kernel

end DataCache.Receiver
