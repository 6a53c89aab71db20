import DataCache.Foundation.Rely
import DataCache.Receiver.Node
import DataCache.Storage.Worker

/-!
# The upload worker

A background thread looks for event directories that are complete and not yet
uploaded, and sends each one to the receiver as one `BEGIN`, its chunks and one
`END`.  A lease marker keeps an upload to itself; another marker records that it
succeeded.
-/

namespace DataCache.Upload

open DataCache.Foundation DataCache.Storage
open DataCache.Receiver (Request Response opBegin opFileChunk opEnd)

/-- Times in the units of the configuration keys. -/
structure Config where
  serviceName : Text
  maxRetries : Int
  retryBackoffMs : Int
  chunkBytes : Nat
  leaseTimeoutSeconds : Int
  failedRescanPeriodMs : Int

def maxChunkBytes : Nat := 1024 * 1024

/-- What the constructor makes of the chunk size. -/
def Config.clamped (config : Config) : Config :=
  { config with chunkBytes := max 1 (min config.chunkBytes maxChunkBytes) }

/-! ## Operations -/

inductive UploadOp where
  | fs (op : FsOp)
  | lastWriteTime (path : Path)
  | fileClockNow
  | takeId
  | relative (directory : Text) (path : Path)
  | openRead (path : Path)
  | readChunk (path : Path) (offset count : Nat)
  | call (request : Request)

/--
`call` answers nothing when the service is missing, the request times out or the
worker is stopping; a short chunk ends the stream it was read from.
-/
def UploadOp.Res : UploadOp → Type
  | fs op => op.Res
  | lastWriteTime _ => Option Int
  | fileClockNow => Int
  | takeId => Nat
  | relative _ _ => Option Text
  | openRead _ => Bool
  | readChunk _ _ _ => Bytes
  | call _ => Option Response

abbrev Transfer (α : Type) : Type := Prog UploadOp.Res StorageError α

def perform (op : UploadOp) : Transfer op.Res := .call op .ret

/-- A program of file-system calls as a part of an upload. -/
def files {α : Type} (p : Action α) : Transfer α :=
  p.expand fun op => perform (.fs op)

/-! ## Leases -/

def uploadingPath (directory : Text) : Path := [directory, ".uploading"]

def uploadedPath (directory : Text) : Path := [directory, ".uploaded"]

def uploadFailedPath (directory : Text) : Path := [directory, ".upload_failed"]

def uploadIdPath (directory : Text) : Path := [directory, ".upload_id"]

/-- Bytes that are no UTF-8 stand for themselves. -/
def textOf (bytes : Bytes) : Text :=
  (decodeUtf8? bytes).getD (bytes.map fun byte => Char.ofNat byte.toNat)

def isSpace (c : Char) : Bool := c = ' ' || ('\t' ≤ c && c ≤ '\r')

/-- `input >> value` for a 64-bit integer. -/
def readInt64 (text : Text) : Option Int :=
  let (negative, digits) : Bool × Text :=
    match text.dropWhile isSpace with
    | '-' :: rest => (true, rest)
    | '+' :: rest => (false, rest)
    | rest => (false, rest)
  let digits := digits.takeWhile Char.isDigit
  let magnitude : Int := Nat.ofDigitChars 10 digits 0
  let value := if negative then -magnitude else magnitude
  if digits.isEmpty || value < -(2 ^ 63) || maxInt64 < value then none
  else some value

def leaseKey : Text := "started_at_ns"

/-- The start time a lease marker names. -/
def parseLease (content : Bytes) : Option Int :=
  let text := textOf content
  if text.takeWhile (fun c => decide (c ≠ '=')) = leaseKey then
    readInt64 ((text.dropWhile fun c => decide (c ≠ '=')).drop 1)
  else none

def leaseContent (startedAtNs : Int) : Bytes :=
  encodeUtf8 (leaseKey ++ "=" ++ showInt startedAtNs ++ "\n")

def dropLease (directory : Text) : Action Unit := do
  let _ ← Storage.perform (.remove (uploadingPath directory))
  return

/-- A marker that is too old or unreadable is removed. -/
def leaseActive (config : Config) (directory : Text) : Action Bool := do
  let content : Option Bytes ←
    Storage.perform (.readFile (uploadingPath directory))
  match content with
  | none => return false
  | some content =>
      match parseLease content with
      | none =>
          dropLease directory
          return false
      | some startedAt =>
          let now : Int ← Storage.perform .systemNow
          if 0 ≤ now - startedAt && now - startedAt <
              config.leaseTimeoutSeconds * Capture.nanosPerSecond then
            return true
          else
            dropLease directory
            return false

def acquireLease (config : Config) (directory : Text) : Action Bool := do
  let active ← leaseActive config directory
  if active then return false
  else
    let now : Int ← Storage.perform .systemNow
    EventState.writeAtomically (uploadingPath directory) (leaseContent now)

/-! ## Candidates -/

/-- A failed upload is tried again after the rescan period. -/
def failureExpired (config : Config) (directory : Text) : Transfer Bool :=
  if config.failedRescanPeriodMs ≤ 0 then return false
  else do
    let modified : Option Int ←
      perform (.lastWriteTime (uploadFailedPath directory))
    match modified with
    | none => return false
    | some modified =>
        let now : Int ← perform .fileClockNow
        if now - modified < config.failedRescanPeriodMs * 1000000 then
          return false
        else
          files (Storage.perform (.remove (uploadFailedPath directory)))

def isCandidate (config : Config) (directory : Text) : Transfer Bool := do
  let leased ← files (leaseActive config directory)
  if leased then return false
  else
    let uploaded ← files (existsOrThrow (uploadedPath directory))
    if uploaded then return false
    else
      let complete ← files (existsOrThrow [directory, ".complete"])
      if !complete then return false
      else
        let failed ← files (existsOrThrow (uploadFailedPath directory))
        if !failed then return true
        else failureExpired config directory

def candidatesAmong (config : Config) : List Text → Transfer (List Text)
  | [] => return []
  | directory :: rest => do
      let candidate ← isCandidate config directory
      let candidates ← candidatesAmong config rest
      return if candidate then directory :: candidates else candidates

def findUploadCandidates (config : Config) : Transfer (List Text) := do
  let (listing : List Text × Bool) ← files (Storage.perform .listDirectories)
  candidatesAmong config listing.1

/-! ## Files -/

def isMarkerOrTemp (path : Path) : Bool :=
  let name := path.getLastD []
  (decide (name.length > 1) && name.head? == some '.') ||
    extension name == ".tmp"

/-- The files to send, and whether the directory was traversed completely. -/
def collectFiles (directory : Text) : Action (List Path × Bool) := do
  let (listing : List Path × Bool) ← Storage.perform (.listFiles [directory])
  return ((listing.1.filter fun path => !isMarkerOrTemp path).insertionSort
    PathBefore, listing.2)

def firstLine (content : Bytes) : Text :=
  textOf (content.takeWhile fun byte => decide (byte ≠ 10))

/-- Empty when the id can be neither read nor stored. -/
def transferIdFor (directory : Text) : Transfer Text := do
  let content : Option Bytes ←
    files (Storage.perform (.readFile (uploadIdPath directory)))
  let stored := firstLine (content.getD [])
  if !stored.isEmpty then return stored
  else
    let now : Int ← files (Storage.perform .systemNow)
    let id : Nat ← perform .takeId
    let transferId : Text := showInt now ++ "-" ++ showNat id
    let written ← files (EventState.writeAtomically (uploadIdPath directory)
      (encodeUtf8 (transferId ++ "\n")))
    return if written then transferId else []

structure FileInfo where
  path : Path
  relative : Text
  size : Nat
  deriving DecidableEq

def maxUInt64 : Nat := 2 ^ 64 - 1

def maxUInt32 : Nat := 2 ^ 32 - 1

/-- The sizes and relative names of all files, with the total so far. -/
def measureFiles (directory : Text) : List Path → Nat →
    Transfer (Option (List FileInfo × Nat))
  | [], totalBytes => return some ([], totalBytes)
  | path :: rest, totalBytes => do
      let size : Option Nat ←
        files (Storage.perform (.fileSize (directory :: path)))
      match size with
      | none => return none
      | some size =>
          if size > maxUInt64 - totalBytes then return none
          else
            let relative : Option Text ← perform (.relative directory path)
            match relative with
            | none => return none
            | some relative =>
                if relative.isEmpty then return none
                else
                  let measured ← measureFiles directory rest (totalBytes + size)
                  return measured.map fun measured =>
                    (⟨path, relative, size⟩ :: measured.1, measured.2)

/-! ## Transfers -/

def beginRequest (event transferId : Text) (fileCount totalBytes : Nat) :
    Request where
  eventName := event
  transferId := transferId
  opcode := opBegin
  filePath := []
  offset := 0
  totalBytes := totalBytes
  fileCount := fileCount
  data := []

def chunkRequest (event transferId : Text) (file : FileInfo) (offset : Nat)
    (data : Bytes) : Request where
  eventName := event
  transferId := transferId
  opcode := opFileChunk
  filePath := file.relative
  offset := offset
  totalBytes := file.size
  fileCount := 0
  data := data

def endRequest (event transferId : Text) : Request where
  eventName := event
  transferId := transferId
  opcode := opEnd
  filePath := []
  offset := 0
  totalBytes := 0
  fileCount := 0
  data := []

def answeredOk (request : Request) : Transfer Bool := do
  let (response : Option Response) ← perform (.call request)
  return response.any Response.success

/--
The chunks from `offset` on, while the stream is `good`.  The end offset is
returned, or `none` when a chunk is refused; every round sends a byte, so the
number of rounds is bounded by the size.
-/
def sendChunks (config : Config) (event transferId : Text) (file : FileInfo) :
    Nat → Nat → Bool → Transfer (Option Nat)
  | 0, offset, _ => return some offset
  | rounds + 1, offset, good =>
      if file.size ≤ offset || !good then return some offset
      else do
        let data : Bytes ←
          perform (.readChunk (event :: file.path) offset config.chunkBytes)
        if data.isEmpty then return some offset
        else
          let ok ← answeredOk (chunkRequest event transferId file offset data)
          if !ok then return none
          else
            sendChunks config event transferId file rounds
              (offset + data.length) (decide (data.length = config.chunkBytes))

/-- An empty file is sent as one empty chunk. -/
def announceEmpty (event transferId : Text) (file : FileInfo) : Transfer Bool :=
  if file.size = 0 then answeredOk (chunkRequest event transferId file 0 [])
  else return true

/-- The bytes sent, or `none` when the file is not there in full. -/
def sendFile (config : Config) (event transferId : Text) (file : FileInfo) :
    Transfer (Option Nat) := do
  let opened : Bool ← perform (.openRead (event :: file.path))
  if !opened then return none
  else
    let announced ← announceEmpty event transferId file
    if !announced then return none
    else
      let sent ← sendChunks config event transferId file file.size 0 true
      match sent with
      | none => return none
      | some offset =>
          if offset ≠ file.size then return none
          else
            let finalSize : Option Nat ←
              files (Storage.perform (.fileSize (event :: file.path)))
            return if finalSize == some file.size then some offset else none

def sendFiles (config : Config) (event transferId : Text) :
    List FileInfo → Nat → Transfer (Option Nat)
  | [], sentBytes => return some sentBytes
  | file :: rest, sentBytes => do
      let sent ← sendFile config event transferId file
      match sent with
      | none => return none
      | some bytes => sendFiles config event transferId rest (sentBytes + bytes)

/-- The receiver's count must be the number of bytes sent. -/
def finishTransfer (event transferId : Text) (sentBytes : Nat) :
    Transfer Bool := do
  let (response : Option Response) ←
    perform (.call (endRequest event transferId))
  return response.any fun response =>
    response.success && decide (response.receivedBytes = sentBytes)

def transferMeasured (config : Config) (event transferId : Text)
    (fileInfo : List FileInfo) (totalBytes : Nat) : Transfer Bool := do
  let begun ← answeredOk
    (beginRequest event transferId fileInfo.length totalBytes)
  if !begun then return false
  else
    let sent ← sendFiles config event transferId fileInfo 0
    match sent with
    | none => return false
    | some sentBytes => finishTransfer event transferId sentBytes

def transferDirectory (config : Config) (directory : Text) : Transfer Bool := do
  let collected ← files (collectFiles directory)
  if !collected.2 || collected.1.isEmpty then return false
  else
    let transferId ← transferIdFor directory
    if transferId.isEmpty || decide (collected.1.length > maxUInt32) then
      return false
    else
      let measured ← measureFiles directory collected.1 0
      match measured with
      | none => return false
      | some measured =>
          transferMeasured config directory transferId measured.1 measured.2

/-! ## One directory -/

def uploadedContent (config : Config) (count : Nat) : Bytes :=
  encodeUtf8 (("service=" : Text) ++ config.serviceName ++ "\nfiles=" ++
    showNat count ++ "\n")

/-- The lease is given up however the transfer ends. -/
def uploadLeased (config : Config) (directory : Text) : Transfer Bool := do
  let transferred ← transferDirectory config directory
  if !transferred then
    files (dropLease directory)
    return false
  else
    let collected ← files (collectFiles directory)
    let written ← files (EventState.writeAtomically (uploadedPath directory)
      (uploadedContent config collected.1.length))
    files (dropLease directory)
    return written

def uploadDirectory (config : Config) (directory : Text) : Transfer Bool := do
  let acquired ← files (acquireLease config directory)
  if !acquired then return false
  else uploadLeased config directory

def uploadFailedContent (attempts : Nat) : Bytes :=
  encodeUtf8 (("attempts=" : Text) ++ showNat attempts ++ "\n")

/-- What `run` does when the retries are used up. -/
def markFailed (directory : Text) (attempts : Nat) : Transfer Bool :=
  files (EventState.writeAtomically (uploadFailedPath directory)
    (uploadFailedContent attempts))

/-! ## Effects -/

/-- What an upload's operations do to the record root. -/
def UploadEffect (codec : Codec) : Prog.Effect UploadOp.Res Store
  | s, .fs op, r, s' => Effect codec s op r s'
  | s, _, _, s' => s' = s

end DataCache.Upload
