import DataCache.Foundation.DirTree
import DataCache.Receiver.Names

/-!
# The receiver node

The service that accepts an event directory as `BEGIN`, any number of
`FILE_CHUNK` and one `END` request, stages the files in a directory of its own
and publishes that directory under the event's name.  The inbox maps each
top-level name to the directory stored there; a request is handled in one step.
-/

namespace DataCache.Receiver

open DataCache.Foundation

abbrev Tree := DirTree Text Bytes

/-- Monotonic clock readings in nanoseconds. -/
abbrev Time := Int

def maxFiles : Nat := 10000

def maxTotalBytes : Nat := 100 * 1024 * 1024 * 1024

def maxActiveTransfers : Nat := 16

def transferIdle : Time := 600 * 1000000000

def maxManifestBytes : Nat := 16 * 1024 * 1024

def opBegin : UInt8 := 0

def opFileChunk : UInt8 := 1

def opEnd : UInt8 := 2

structure Request where
  eventName : Text
  transferId : Text
  opcode : UInt8
  filePath : Text
  offset : Nat
  totalBytes : Nat
  fileCount : Nat
  data : Bytes
  deriving DecidableEq

structure Response where
  success : Bool
  message : Text
  receivedBytes : Nat
  deriving DecidableEq

inductive PyError where
  | fileExists
  | notADirectory
  | isADirectory
  | writeFailed
  | unicodeDecode
  deriving DecidableEq

/--
What the node takes from Python and the operating system: Unicode case folding,
SHA-256, `repr` of a string, the text of an exception and the size `stat`
reports for a directory.
-/
structure Runtime where
  casefold : Text → Text
  sha256 : Bytes → Digest
  repr : Text → Text
  errorText : PyError → Text
  directorySize : Nat

/-- A handler's tuple, or the exception that left it. -/
inductive Reply where
  | answer (success : Bool) (message : Text) (receivedBytes : Nat)
  | raised (error : PyError)
  deriving DecidableEq

/-- How far a chunk's write gets before the operating system fails it. -/
inductive WriteFault where
  | none
  | openFails
  | stopsAfter (count : Nat)
  deriving DecidableEq

/-! ## State -/

/-- The hasher is represented by the bytes it has been fed. -/
structure FileState where
  expectedBytes : Nat
  receivedBytes : Nat
  hasher : Bytes
  deriving DecidableEq

def FileState.fresh (expectedBytes : Nat) : FileState := ⟨expectedBytes, 0, []⟩

structure TransferState where
  event : Text
  transferId : Text
  expectedFiles : Nat
  expectedBytes : Nat
  files : Dict Text FileState
  canonicalPaths : Dict Text Text
  lastActivity : Time
  deriving DecidableEq

structure Node where
  inbox : Dict Text Tree
  transfers : Dict (Text × Text) TransferState
  deriving DecidableEq

def stagingName (event transferId : Text) : Text :=
  ("." : Text) ++ event ++ "." ++ transferId ++ ".part"

def backupName (event : Text) : Text := ("." : Text) ++ event ++ ".backup"

def TransferState.stagingDir (state : TransferState) : Text :=
  stagingName state.event state.transferId

def TransferState.finalDir (state : TransferState) : Text := state.event

def TransferState.key (state : TransferState) : Text × Text :=
  (state.event, state.transferId)

/-! ## BEGIN -/

def startTransfer (node : Node) (event transferId : Text)
    (expectedFiles expectedBytes : Nat) (now : Time) : Node :=
  { inbox := (node.inbox.erase (stagingName event transferId)).set
      (stagingName event transferId) DirTree.empty
    transfers := node.transfers.set (event, transferId)
      ⟨event, transferId, expectedFiles, expectedBytes, Dict.empty, Dict.empty,
        now⟩ }

def begin (node : Node) (event transferId : Text)
    (expectedFiles expectedBytes : Nat) (now : Time) : Reply × Node :=
  if expectedFiles = 0 || expectedFiles > maxFiles then
    (.answer false "file count exceeds receiver limit" 0, node)
  else if expectedBytes > maxTotalBytes then
    (.answer false "byte count exceeds receiver limit" 0, node)
  else if event.length + transferId.length + "...part".length > 240 then
    (.answer false "event and transfer_id are too long" 0, node)
  else if !node.transfers.contains (event, transferId) &&
      decide (node.transfers.size ≥ maxActiveTransfers) then
    (.answer false "too many active transfers" 0, node)
  else if node.transfers.values.any
      fun state => state.event == event && state.transferId != transferId then
    (.answer false "another transfer already owns this event" 0, node)
  else
    (.answer true "transfer started" 0,
      startTransfer node event transferId expectedFiles expectedBytes now)

/-! ## FILE_CHUNK -/

/--
Open the target (`r+b` when it exists, `wb` otherwise) and write the chunk at
its offset.  A failing write may leave a first part of the chunk behind.
-/
def writeChunk (fault : WriteFault) (tree : Tree) (path : List Text)
    (offset : Nat) (data : Bytes) : Except PyError Unit × Tree :=
  if tree.isDir path then (.error .isADirectory, tree)
  else
    let content := (tree.read? path).getD []
    match fault with
    | .openFails => (.error .writeFailed, tree)
    | .stopsAfter count =>
        (.error .writeFailed,
          tree.write path (overwrite 0 content offset (data.take count)))
    | .none => (.ok (), tree.write path (overwrite 0 content offset data))

/-- An offset below `received_bytes`: accept only an exact duplicate. -/
def duplicateReply (tree : Tree) (path : List Text) (relative : Text)
    (file : FileState) (offset : Nat) (data : Bytes) : Reply :=
  if offset + data.length > file.receivedBytes || !tree.pathExists path then
    .answer false (("overlapping chunk for " : Text) ++ relative)
      file.receivedBytes
  else
    match tree.read? path with
    | none => .raised .isADirectory
    | some content =>
        if (content.drop offset).take data.length ≠ data then
          .answer false (("conflicting duplicate chunk for " : Text) ++ relative)
            file.receivedBytes
        else .answer true "duplicate chunk already stored" file.receivedBytes

def mkdirError (tree : Tree) (path : List Text) : PyError :=
  if tree.isFile path then .fileExists else .notADirectory

/-- The part of `store_chunk` after the file's state has been found. -/
def storeData (fault : WriteFault) (tree? : Option Tree) (path : List Text)
    (relative : Text) (file : FileState) (offset : Nat) (data : Bytes) :
    Reply × FileState × Option Tree :=
  if offset + data.length > file.expectedBytes then
    (.answer false (("chunk exceeds declared size for " : Text) ++ relative)
      file.receivedBytes, file, tree?)
  else
    match (tree?.getD DirTree.empty).mkdirs path.dropLast with
    | none =>
        (.raised (mkdirError (tree?.getD DirTree.empty) path.dropLast),
          file, tree?)
    | some tree =>
        if offset < file.receivedBytes then
          (duplicateReply tree path relative file offset data, file, some tree)
        else if offset ≠ file.receivedBytes then
          (.answer false (("non-contiguous offset for " : Text) ++ relative ++
            ": got " ++ showNat offset ++ ", expected " ++
            showNat file.receivedBytes) file.receivedBytes, file, some tree)
        else
          match writeChunk fault tree path offset data with
          | (.error error, tree) => (.raised error, file, some tree)
          | (.ok (), tree) =>
              (.answer true "chunk stored" (offset + data.length),
                { file with
                  hasher := file.hasher ++ data
                  receivedBytes := offset + data.length }, some tree)

def TransferState.register (state : TransferState) (canonical relative : Text) :
    TransferState :=
  { state with canonicalPaths := state.canonicalPaths.set canonical relative }

def TransferState.setFile (state : TransferState) (relative : Text)
    (file : FileState) : TransferState :=
  { state with files := state.files.set relative file }

def storeChunk (runtime : Runtime) (fault : WriteFault) (state : TransferState)
    (tree? : Option Tree) (request : Request) :
    Reply × TransferState × Option Tree :=
  match safeRelative request.filePath with
  | none =>
      (.answer false (("unsafe file path: " : Text) ++
        runtime.repr request.filePath) 0, state, tree?)
  | some parts =>
      let relative := joinPath parts
      let canonical := runtime.casefold relative
      if (state.canonicalPaths.get? canonical).any (· ≠ relative) then
        (.answer false (("case-insensitive path collision for " : Text) ++
          relative) 0, state, tree?)
      else
        let state := state.register canonical relative
        let file := (state.files.get? relative).getD
          (FileState.fresh request.totalBytes)
        let state := state.setFile relative file
        if file.expectedBytes ≠ request.totalBytes then
          (.answer false (("file size changed for " : Text) ++ relative)
            file.receivedBytes, state, tree?)
        else
          let (reply, file, tree?) :=
            storeData fault tree? parts relative file request.offset request.data
          (reply, state.setFile relative file, tree?)

/-! ## END -/

def receivedTotal (state : TransferState) : Nat :=
  (state.files.values.map FileState.receivedBytes).sum

/-- `path.stat().st_size if path.exists() else -1` -/
def stagedSize (runtime : Runtime) (tree? : Option Tree) (path : List Text) :
    Int :=
  match tree? with
  | none => -1
  | some tree =>
      if tree.isDir path then runtime.directorySize
      else
        match tree.read? path with
        | some content => content.length
        | none => -1

/-- The size and fsync check of one staged file; `none` when it passes. -/
def checkStaged (runtime : Runtime) (tree? : Option Tree) (total : Nat)
    (relative : Text) (file : FileState) : Option Reply :=
  let path := splitPath relative
  let actual := stagedSize runtime tree? path
  if file.receivedBytes ≠ file.expectedBytes ∨ actual ≠ file.expectedBytes then
    some (.answer false (("incomplete file " : Text) ++ relative ++ ": got " ++
      showInt actual ++ ", expected " ++ showNat file.expectedBytes) total)
  else if tree?.any fun tree => tree.isDir path then
    some (.raised .isADirectory)
  else none

def isLineBreak (c : Char) : Bool :=
  c == '\n' || c == '\r' || c == '\x0b' || c == '\x0c' || c == '\x1c' ||
    c == '\x1d' || c == '\x1e' || c == '\u0085' || c == '\u2028' ||
    c == '\u2029'

/-- `str.splitlines`, with the line read so far in `current`. -/
def splitlinesFrom (current : Text) : Text → List Text
  | [] => if current.isEmpty then [] else [current]
  | '\r' :: '\n' :: rest => current :: splitlinesFrom [] rest
  | c :: rest =>
      if isLineBreak c then current :: splitlinesFrom [] rest
      else splitlinesFrom (current ++ [c]) rest

def splitlines (text : Text) : List Text := splitlinesFrom [] text

/-- `line.split("  ", 1)`, when the line contains two consecutive blanks. -/
def splitDoubleBlank : Text → Option (Text × Text)
  | [] => none
  | ' ' :: ' ' :: rest => some ([], rest)
  | c :: rest => (splitDoubleBlank rest).map fun (left, right) => (c :: left, right)

def isHexDigest (text : Text) : Bool := text.length == 64 && text.all isHexChar

def invalidLine (lineNumber : Nat) : Text :=
  ("invalid manifest.sha256 line " : Text) ++ showNat lineNumber

def parseChecksums (lineNumber : Nat) (expected : Dict Text Text) :
    List Text → Except Text (Dict Text Text)
  | [] => .ok expected
  | line :: rest =>
      match splitDoubleBlank line with
      | none => .error (invalidLine lineNumber)
      | some (digest, relative) =>
          if !isHexDigest digest || (safeRelative relative).isNone ||
              expected.contains relative then .error (invalidLine lineNumber)
          else parseChecksums (lineNumber + 1) (expected.set relative digest) rest

def manifestName : Text := "manifest.sha256"

/-- The data files of a transfer: everything but the checksum manifest. -/
def dataFiles (files : Dict Text FileState) : List Text :=
  files.keys.filter (· ≠ manifestName)

def sameNames (first second : List Text) : Bool :=
  first.all second.contains && second.all first.contains

def digestMatches (runtime : Runtime) (files : Dict Text FileState)
    (relative wanted : Text) : Bool :=
  match files.get? relative with
  | none => false
  | some file => hexdigest (runtime.sha256 file.hasher) == wanted

def compareChecksums (runtime : Runtime) (files : Dict Text FileState)
    (expected : Dict Text Text) : Option Text :=
  if expected.size = 0 then some "manifest.sha256 contains no data files"
  else if !sameNames expected.keys (dataFiles files) then
    some "checksum manifest file set mismatch"
  else
    match expected.entries.find? fun entry =>
        !digestMatches runtime files entry.1 entry.2 with
    | some (relative, _) => some (("sha256 mismatch for " : Text) ++ relative)
    | none => none

/-- `none` when the staged manifest matches the hashed files. -/
def verifyChecksums (runtime : Runtime) (tree : Tree)
    (files : Dict Text FileState) : Except PyError (Option Text) :=
  match tree.read? [manifestName] with
  | none => .ok (some "manifest.sha256 is required")
  | some content =>
      if content.length > maxManifestBytes then
        .ok (some "manifest.sha256 exceeds receiver limit")
      else
        match decodeUtf8? content with
        | none => .error .unicodeDecode
        | some text =>
            match parseChecksums 1 Dict.empty (splitlines text) with
            | .error message => .ok (some message)
            | .ok expected => .ok (compareChecksums runtime files expected)

/-- Replace the final directory by the staged one, by way of the backup name. -/
def publish (node : Node) (state : TransferState) (tree : Tree) : Node :=
  let inbox := node.inbox.erase (backupName state.event)
  let inbox :=
    match inbox.get? state.finalDir with
    | some previous =>
        (inbox.erase state.finalDir).set (backupName state.event) previous
    | none => inbox
  let inbox := (inbox.erase state.stagingDir).set state.finalDir tree
  { inbox := inbox.erase (backupName state.event)
    transfers := node.transfers.erase state.key }

def finish (runtime : Runtime) (node : Node) (state : TransferState) :
    Reply × Node :=
  let total := receivedTotal state
  if state.files.size ≠ state.expectedFiles then
    (.answer false (("file count mismatch: got " : Text) ++
      showNat state.files.size ++ ", expected " ++
      showNat state.expectedFiles) total, node)
  else if total ≠ state.expectedBytes then
    (.answer false (("byte count mismatch: got " : Text) ++ showNat total ++
      ", expected " ++ showNat state.expectedBytes) total, node)
  else
    let tree? := node.inbox.get? state.stagingDir
    match state.files.entries.findSome? fun entry =>
        checkStaged runtime tree? total entry.1 entry.2 with
    | some reply => (reply, node)
    | none =>
        match tree? with
        | none => (.answer false "manifest.sha256 is required" total, node)
        | some tree =>
            match verifyChecksums runtime tree state.files with
            | .error error => (.raised error, node)
            | .ok (some message) => (.answer false message total, node)
            | .ok none =>
                (.answer true "transfer complete" total, publish node state tree)

/-! ## Dispatch -/

/-- The two clock readings one request takes. -/
structure Clock where
  pruneAt : Time
  touchAt : Time

def discard (node : Node) (key : Text × Text) (state : TransferState) : Node :=
  { inbox := node.inbox.erase state.stagingDir
    transfers := node.transfers.erase key }

def pruneEntries (cutoff : Time) :
    List ((Text × Text) × TransferState) → Node → Node
  | [], node => node
  | (key, state) :: rest, node =>
      if state.lastActivity ≥ cutoff then pruneEntries cutoff rest node
      else pruneEntries cutoff rest (discard node key state)

def pruneIdleTransfers (now : Time) (node : Node) : Node :=
  pruneEntries (now - transferIdle) node.transfers.entries node

def touch (state : TransferState) (now : Time) : TransferState :=
  { state with lastActivity := now }

def setStaging (inbox : Dict Text Tree) (name : Text) : Option Tree → Dict Text Tree
  | none => inbox
  | some tree => inbox.set name tree

def handleChunk (runtime : Runtime) (fault : WriteFault) (node : Node)
    (state : TransferState) (request : Request) : Reply × Node :=
  let (reply, state', tree?) := storeChunk runtime fault state
    (node.inbox.get? state.stagingDir) request
  (reply,
    { inbox := setStaging node.inbox state.stagingDir tree?
      transfers := node.transfers.set state.key state' })

def putTransfer (node : Node) (state : TransferState) : Node :=
  { node with transfers := node.transfers.set state.key state }

/-- A validated request on a node whose idle transfers are pruned. -/
def dispatchPruned (runtime : Runtime) (now : Time) (fault : WriteFault)
    (node : Node) (event transferId : Text) (request : Request) : Reply × Node :=
  if request.opcode = opBegin then
    begin node event transferId request.fileCount request.totalBytes now
  else
    match node.transfers.get? (event, transferId) with
    | none =>
        (.answer false "FILE_CHUNK/END before BEGIN for this event" 0, node)
    | some state =>
        if request.opcode = opFileChunk then
          handleChunk runtime fault node (touch state now) request
        else if request.opcode = opEnd then
          finish runtime (putTransfer node (touch state now)) (touch state now)
        else
          (.answer false (("unknown opcode " : Text) ++
            showNat request.opcode.toNat) 0, node)

def dispatch (runtime : Runtime) (clock : Clock) (fault : WriteFault)
    (node : Node) (request : Request) : Reply × Node :=
  let node := pruneIdleTransfers clock.pruneAt node
  match validateEventName request.eventName,
      validateEventName request.transferId with
  | some event, some transferId =>
      dispatchPruned runtime clock.touchAt fault node event transferId request
  | _, _ => (.answer false "unsafe event name or transfer_id" 0, node)

def Reply.toResponse (runtime : Runtime) : Reply → Response
  | .answer success message receivedBytes => ⟨success, message, receivedBytes⟩
  | .raised error =>
      ⟨false, ("receiver error: " : Text) ++ runtime.errorText error, 0⟩

def handleRequest (runtime : Runtime) (clock : Clock) (fault : WriteFault)
    (node : Node) (request : Request) : Response × Node :=
  let (reply, node) := dispatch runtime clock fault node request
  (reply.toResponse runtime, node)

end DataCache.Receiver
