import DataCache.RecordIo.Manifest
import DataCache.RecordIo.Paths

/-!
# Loading a stored record

A manifest entry names the file of its record, which is decompressed when the
entry says so.  Neither the stored nor the decompressed bytes may be more than
one gibibyte.
-/

namespace DataCache.RecordIo

open DataCache.Foundation DataCache.Storage

/-! ## The zstd library -/

inductive FrameSize where
  | error
  | unknown
  | known (size : Nat)

/-- What one call of `ZSTD_decompressStream` gives. -/
inductive StreamReply where
  | error (name : Bytes)
  | output (produced : Bytes) (frameDone : Bool)

/--
`ZSTD_decompress` is given the capacity of its output.  `stream` has the
replies of successive calls on the whole input, up to the call that makes no
progress any more.
-/
structure Zstd where
  frameContentSize : Bytes → FrameSize
  decompress : Nat → Bytes → Except Bytes Bytes
  createDStream : Bool
  stream : Bytes → List StreamReply

def safetyLimitError : Bytes := ascii "decompressed record exceeds safety limit"

def drainStream : List StreamReply → Bytes → Except Bytes Bytes
  | [], _ => .error (ascii "truncated zstd frame")
  | .error name :: _, _ => .error name
  | .output produced frameDone :: rest, out =>
      if produced.length > kMaxRecordBytes - out.length then
        .error safetyLimitError
      else if frameDone then .ok (out ++ produced)
      else drainStream rest (out ++ produced)

def decompressZstd (zstd : Zstd) (data : Bytes) : Except Bytes Bytes :=
  match zstd.frameContentSize data with
  | .known contentSize =>
      if contentSize > kMaxRecordBytes then .error safetyLimitError
      else zstd.decompress contentSize data
  | _ =>
      if !zstd.createDStream then
        .error (ascii "cannot create zstd decompressor")
      else drainStream (zstd.stream data) []

/-! ## Files -/

/-- The file under `directory / file`, for a safe relative path. -/
def fileAt (disk : FileSystem) (directory : Text) (file : Bytes) :
    Option Bytes :=
  ((components file).mapM decodeUtf8?).bind fun names =>
    disk.read? (directory :: names)

def readFileBytes (content : Option Bytes) : Option Bytes :=
  content.bind fun bytes =>
    if bytes.length > kMaxRecordBytes then none else some bytes

def loadRecordBytes (zstd : Zstd) (disk : FileSystem) (directory : Text)
    (entry : ManifestEntry) : Except Bytes Bytes :=
  if !safeRelativePath entry.file then
    .error (ascii "unsafe record path: " ++ entry.file)
  else
    match readFileBytes (fileAt disk directory entry.file) with
    | none => .error (ascii "cannot read " ++ entry.file)
    | some fileBytes =>
        if entry.encoding = ascii "zstd" then decompressZstd zstd fileBytes
        else .ok fileBytes

end DataCache.RecordIo
