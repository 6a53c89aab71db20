import Mathlib.Data.Char
import Mathlib.Data.List.Lex
import DataCache.Storage.Retention
import DataCache.EventState.Markers

/-!
# The raw storage worker

One thread takes jobs from the queue.  It stores each record, appends a row to
the event's `manifest.csv`, and after the last job of an event writes the
checksum manifest and the verdict.
-/

namespace DataCache.Storage

open DataCache.Foundation DataCache.Capture

/-- What the worker was built with; the compression context may be missing. -/
structure Worker where
  manager : Option Policy
  compressionContext : Bool
  sha256 : Bytes → Digest

/-! ## Files -/

def removeOrThrow (path : Path) : Action Unit := do
  let removed : Bool ← perform (.remove path)
  if removed then return
  else .raise .standard

def existsOrThrow (path : Path) : Action Bool := do
  let found : Option Bool ← perform (.exists path)
  match found with
  | some found => return found
  | none => .raise .standard

/-- The worker's own copy; the last removal is the one that throws. -/
def writeAtomically (target : Path) (data : Bytes) : Action Bool := do
  let opened : Bool ← perform (.openTrunc (tempPath target))
  if !opened then return false
  else
    let written : Bool ← perform (.append (tempPath target) data)
    if !written then
      let _ ← perform (.remove (tempPath target))
      return false
    else
      perform (.syncFile (tempPath target))
      let renamed : Bool ← perform (.rename (tempPath target) target)
      if !renamed then
        removeOrThrow (tempPath target)
        return false
      else
        perform (.syncDirectory target.dropLast)
        return true

/-- An output stream in append mode: what its buffer holds, and `good()`. -/
structure Stream where
  buffered : Bytes
  good : Bool

def Stream.put (path : Path) (stream : Stream) (data : Bytes) :
    Action Stream :=
  if !stream.good then return stream
  else do
    let (spilt : Nat × Bool) ←
      perform (.spill path (stream.buffered ++ data) false)
    return ⟨(stream.buffered ++ data).drop spilt.1, spilt.2⟩

def Stream.flush (path : Path) (stream : Stream) : Action Stream :=
  if !stream.good then return stream
  else do
    let (spilt : Nat × Bool) ← perform (.spill path stream.buffered true)
    return ⟨stream.buffered.drop spilt.1, spilt.2⟩

/-- Closing writes what is left, without telling whether that worked. -/
def Stream.close (path : Path) (stream : Stream) : Action Unit :=
  if stream.buffered.isEmpty then return
  else do
    let _ ← perform (.spill path stream.buffered true)
    return

def Stream.putAll (path : Path) : Stream → List Bytes → Action Stream
  | stream, [] => return stream
  | stream, data :: rest => do
      let stream ← stream.put path data
      stream.putAll path rest

/-- A stream opened at `position` writes the header of a new file. -/
def Stream.start (path : Path) (position : Nat) (header : Text) :
    Action Stream :=
  if position = 0 then Stream.put path ⟨[], true⟩ (encodeUtf8 header)
  else return ⟨[], true⟩

/-! ## Pairs -/

def pairsHeader : Text :=
  "pair_id,status,camera_timestamp,lidar_timestamp,time_diff_ns,reason\n"

def pairStatusText : PairStatus → Text
  | .matched => "matched"
  | .cameraOnly => "camera_only"
  | .lidarOnly => "lidar_only"

def renderPair (pair : PairRecord) : Text :=
  showNat pair.pairId ++ "," ++ pairStatusText pair.status ++ "," ++
    (if pair.hasCamera then showInt pair.cameraTimestamp else []) ++ "," ++
    (if pair.hasLidar then showInt pair.lidarTimestamp else []) ++ "," ++
    showInt pair.difference ++ "," ++ pair.reason ++ "\n"

def pairsPath (directory : Text) : Path := [directory, "pairs.csv"]

def writePairs (directory : Text) (pairs : List PairRecord) : Action Bool :=
  if pairs.isEmpty then return true
  else do
    let opened : Option Nat ← perform (.openAppend (pairsPath directory))
    match opened with
    | none => return false
    | some position =>
        let stream ← Stream.start (pairsPath directory) position pairsHeader
        let stream ← stream.putAll (pairsPath directory)
          (pairs.map fun pair => encodeUtf8 (renderPair pair))
        let stream ← stream.flush (pairsPath directory)
        stream.close (pairsPath directory)
        return stream.good

/-! ## Converted copies -/

def imageExtension (format : Text) : Text :=
  if format = "png" then ".png" else ".jpg"

def convertedExtension (job : Job) : SensorType → Text
  | .camera => imageExtension job.imageFormat
  | .lidar => ".pcd"

def convertedDirectory : SensorType → Text
  | .camera => "images"
  | .lidar => "pointclouds"

def convertibleEncodings : List Text :=
  ["bgr8", "rgb8", "mono8", "bgra8", "rgba8"]

def convertImage (image : Image) (directory : Path) (fileName : Text)
    (job : Job) : Action Bool :=
  if image.height = 0 || image.width = 0 || image.step = 0 ||
      image.step.toNat * image.height.toNat > image.data.length then
    return false
  else if !convertibleEncodings.contains image.encoding then return false
  else do
    let extension := imageExtension job.imageFormat
    let parameters := if extension = ".jpg" then
      [max 1 (min 100 job.imageQuality)] else []
    let response ← perform (.encodeImage extension parameters image)
    let encoded ← orThrow response
    match encoded with
    | none => return false
    | some encoded => writeAtomically (directory ++ [fileName ++ extension]) encoded

def convertPointCloud (cloud : PointCloud2) (directory : Path)
    (fileName : Text) (job : Job) : Action Bool :=
  if job.pointCloudFormat ≠ "pcd" then return false
  else do
    let target := directory ++ [fileName ++ ".pcd"]
    let response ← perform (.savePcd (tempPath target) cloud)
    let saved ← orThrow response
    if !saved then
      let _ ← perform (.remove (tempPath target))
      return false
    else
      let renamed : Bool ← perform (.rename (tempPath target) target)
      if !renamed then
        removeOrThrow (tempPath target)
        return false
      else
        perform (.syncFile target)
        perform (.syncDirectory directory)
        return true

/-- Dereferencing a null message pointer. -/
def nullPointer {α : Type} : Action α := do
  let never : Empty ← perform .hang
  never.elim

def convertMessage (record : SensorData) (directory : Path) (fileName : Text)
    (job : Job) : Action Bool :=
  match record with
  | .camera _ (some image) => convertImage image directory fileName job
  | .lidar _ (some cloud) => convertPointCloud cloud directory fileName job
  | .camera _ none => nullPointer
  | .lidar _ none => nullPointer

/-- The converted copy's path below the event directory, empty without one. -/
def convertRecord (job : Job) (record : SensorData) (baseName : Text) :
    Action Text :=
  if !job.conversionEnabled then return []
  else do
    let subdirectory := convertedDirectory record.type
    let created : Bool ←
      perform (.createDirectories [job.directory, subdirectory])
    if !created then return []
    else
      let converted ← convertMessage record [job.directory, subdirectory]
        baseName job
      if converted then
        return joinPath
          [subdirectory, baseName ++ convertedExtension job record.type]
      else return []

/-! ## Records -/

def sensorPrefix : SensorType → Text
  | .camera => "camera"
  | .lidar => "lidar"

structure ManifestRow where
  sensor : SensorType
  timestampNs : Int
  file : Text
  compressed : Bool
  convertedFile : Text

def renderRow (row : ManifestRow) : Text :=
  sensorPrefix row.sensor ++ "," ++ showInt row.timestampNs ++ "," ++
    row.file ++ "," ++ (if row.compressed then "zstd" else "raw") ++ "," ++
    row.convertedFile ++ "\n"

def serializeRecord (record : SensorData) : Action Bytes :=
  match record with
  | .camera _ none => nullPointer
  | .lidar _ none => nullPointer
  | record => do
      let response ← perform (.serialize record)
      orThrow response

def basePrefix (record : SensorData) : Text :=
  sensorPrefix record.type ++ "_" ++ showInt (timestampOf record)

def isTaken (directory name : Text) : Action Bool := do
  let raw ← existsOrThrow [directory, name ++ ".bin"]
  if raw then return true
  else existsOrThrow [directory, name ++ ".bin.zst"]

/-- Tries `name`; the duplicate counter is 64 bits wide. -/
def freshBaseName (directory : Text) (stem : Text) :
    Nat → Nat → Text → Action Text
  | 0, _, _ => nullPointer
  | tries + 1, duplicate, name => do
      let taken ← isTaken directory name
      if taken then
        freshBaseName directory stem tries (duplicate + 1)
          (stem ++ "_" ++ showNat (duplicate + 1))
      else return name

def storeCompressed (worker : Worker) (job : Job) (rawName : Text)
    (bytes : Bytes) : Action Bool :=
  if !(job.compressionEnabled && worker.compressionContext) then return false
  else do
    let response ← perform (.compress job.compressionLevel bytes)
    let compressed ← orThrow response
    match compressed with
    | none => return false
    | some compressed =>
        writeAtomically [job.directory, rawName ++ ".zst"] compressed

def storeRaw (needed : Bool) (path : Path) (bytes : Bytes) : Action Bool :=
  if needed then writeAtomically path bytes
  else return true

/-- The row of a stored record, or `none` when its raw file was not written. -/
def writeRecord (worker : Worker) (job : Job) (record : SensorData) :
    Action (Option ManifestRow) := do
  let bytes ← serializeRecord record
  let baseName ← freshBaseName job.directory (basePrefix record) (2 ^ 64) 0
    (basePrefix record)
  let rawName := baseName ++ ".bin"
  let compressed ← storeCompressed worker job rawName bytes
  let stored ← storeRaw (!compressed || job.keepRaw) [job.directory, rawName]
    bytes
  if !stored then return none
  else
    let convertedFile ← convertRecord job record baseName
    return some ⟨record.type, timestampOf record,
      if compressed then rawName ++ ".zst" else rawName, compressed,
      convertedFile⟩

/-! ## Jobs -/

structure JobOutcome where
  ok : Bool
  persistedRecords : Nat
  reason : Text

/-- The first reason is kept. -/
def JobOutcome.fail (outcome : JobOutcome) (reason : Text) : JobOutcome :=
  { outcome with
    ok := false
    reason := orElse outcome.reason reason }

def manifestPath (directory : Text) : Path := [directory, "manifest.csv"]

def manifestHeader : Text := "sensor,timestamp,file,encoding,converted_file\n"

def enabled (job : Job) (record : SensorData) : Bool :=
  match record.type with
  | .camera => job.recordCamera
  | .lidar => job.recordLidar

/-- An exception closes the manifest on its way out. -/
def writeRecords (worker : Worker) (job : Job) :
    List SensorData → Stream → JobOutcome → Action (Stream × JobOutcome)
  | [], manifest, outcome => return (manifest, outcome)
  | record :: rest, manifest, outcome =>
      if !enabled job record then writeRecords worker job rest manifest outcome
      else do
        let written ← (writeRecord worker job record).catchError fun error => do
          manifest.close (manifestPath job.directory)
          .raise error
        match written with
        | none =>
            writeRecords worker job rest manifest
              (outcome.fail "record_write_failed")
        | some row =>
            let manifest ← manifest.put (manifestPath job.directory)
              (encodeUtf8 (renderRow row))
            if !manifest.good then
              return (manifest, outcome.fail "manifest_write_failed")
            else
              writeRecords worker job rest manifest
                { outcome with persistedRecords := outcome.persistedRecords + 1 }

/-- Both lists pass the page cache before a verdict can be written. -/
def syncLists (job : Job) (outcome : JobOutcome) : Action JobOutcome :=
  if !(job.finalJob && outcome.ok) then return outcome
  else do
    perform (.syncFile (manifestPath job.directory))
    let paired ← existsOrThrow (pairsPath job.directory)
    if paired then
      perform (.syncFile (pairsPath job.directory))
      return outcome
    else return outcome

def closeManifest (directory : Text) (manifest : Stream)
    (outcome : JobOutcome) : Action JobOutcome := do
  let manifest ← manifest.flush (manifestPath directory)
  manifest.close (manifestPath directory)
  return if manifest.good then outcome
    else outcome.fail "manifest_flush_failed"

def writeOpened (worker : Worker) (job : Job) (position : Nat) :
    Action JobOutcome := do
  let manifest ← Stream.start (manifestPath job.directory) position
    manifestHeader
  let paired ← writePairs job.directory job.pairs
  let outcome : JobOutcome := if paired then ⟨true, 0, []⟩
    else ⟨false, 0, "pairs_write_failed"⟩
  let (manifest, outcome) ←
    writeRecords worker job job.records manifest outcome
  let outcome ← closeManifest job.directory manifest outcome
  syncLists job outcome

def hasSpace (worker : Worker) : Action Bool :=
  match worker.manager with
  | none => return true
  | some policy => prepareForWrite policy

def writeJob (worker : Worker) (job : Job) : Action JobOutcome := do
  let space ← hasSpace worker
  if !space then return ⟨false, 0, "insufficient_disk_space"⟩
  else
    let created : Bool ← perform (.createDirectories [job.directory])
    if !created then return ⟨false, 0, "create_directory_failed"⟩
    else
      let opened : Option Nat ←
        perform (.openAppend (manifestPath job.directory))
      match opened with
      | none => return ⟨false, 0, "manifest_open_failed"⟩
      | some position => writeOpened worker job position

def exceptionReason : StorageError → Text
  | .standard => "storage_exception"
  | .unknown => "unknown_storage_exception"

def writeGuarded (worker : Worker) (job : Job) : Action JobOutcome :=
  (writeJob worker job).catchError fun error =>
    .ret ⟨false, 0, exceptionReason error⟩

/-! ## The checksum manifest -/

/-- `path::extension` of a file name. -/
def extension (name : Text) : Text :=
  let tail := (name.reverse.takeWhile fun c => decide (c ≠ '.')).reverse
  if tail.length = name.length || tail.length + 1 = name.length ||
      name = ".." then []
  else '.' :: tail

/-- The files the checksum manifest is about. -/
def isCovered (path : Path) : Bool :=
  let name := path.getLastD []
  name != "manifest.sha256" && name.head? != some '.' &&
    extension name != ".tmp"

def PathBefore (first second : Path) : Prop := first ≤ second

instance : DecidableRel PathBefore := fun first second =>
  inferInstanceAs (Decidable (first ≤ second))

def checksumLine (digest : Digest) (path : Path) : Text :=
  hexdigest digest ++ "  " ++ joinPath path ++ "\n"

/-- `none` when a file cannot be read. -/
def checksumLines (sha256 : Bytes → Digest) (directory : Text) :
    List Path → Action (Option Text)
  | [] => return some []
  | path :: rest => do
      let content : Option Bytes ← perform (.readFile (directory :: path))
      match content with
      | none => return none
      | some content =>
          let lines ← checksumLines sha256 directory rest
          return lines.map fun lines =>
            checksumLine (sha256 content) path ++ lines

def writeChecksumManifest (sha256 : Bytes → Digest) (directory : Text) :
    Action Bool := do
  let (listing : List Path × Bool) ← perform (.listFiles [directory])
  if !listing.2 then return false
  else
    let files := (listing.1.filter isCovered).insertionSort PathBefore
    let lines ← checksumLines sha256 directory files
    match lines with
    | none => return false
    | some lines =>
        if files.isEmpty then return false
        else writeAtomically [directory, "manifest.sha256"] (encodeUtf8 lines)

/-! ## Events -/

structure EventProgress where
  failed : Bool
  persistedRecords : Nat
  reason : Text

def EventProgress.initial : EventProgress := ⟨false, 0, []⟩

def EventProgress.fail (progress : EventProgress) (reason : Text) :
    EventProgress :=
  { progress with failed := true, reason }

def EventProgress.account (progress : EventProgress) (outcome : JobOutcome) :
    EventProgress where
  failed := progress.failed || !outcome.ok
  persistedRecords := progress.persistedRecords + outcome.persistedRecords
  reason := if outcome.ok then progress.reason
    else orElse progress.reason outcome.reason

abbrev EventTable := Dict Text EventProgress

/-- Which of the two writes of a verdict succeeded; `false` if not tried. -/
structure Conclusion where
  checksums : Bool
  completed : Bool
  deriving DecidableEq

def EventProgress.requireRecords (progress : EventProgress) : EventProgress :=
  if !progress.failed && progress.persistedRecords = 0 then
    progress.fail "no_records_persisted"
  else progress

def concludeChecked (directory : Text) (progress : EventProgress)
    (checksums : Bool) : Action Conclusion :=
  if progress.failed then do
    let _ ← EventState.fail directory
      (orElse progress.reason "storage_failed")
    return ⟨checksums, false⟩
  else do
    let completed ← EventState.completeOrFail directory
      progress.persistedRecords "complete_marker_write_failed"
    return ⟨checksums, completed⟩

def conclude (worker : Worker) (directory : Text) (progress : EventProgress) :
    Action Conclusion :=
  if progress.requireRecords.failed then
    concludeChecked directory progress.requireRecords false
  else do
    let checksums ← writeChecksumManifest worker.sha256 directory
    concludeChecked directory
      (if checksums then progress.requireRecords
        else progress.requireRecords.fail "checksum_manifest_failed") checksums

def sweepAfterEvent (worker : Worker) : Action Unit :=
  match worker.manager with
  | none => return
  | some policy => enforceRetention policy false

/-- What the worker learned from one job. -/
structure Processed where
  outcome : JobOutcome
  conclusion : Option Conclusion

def finishJob (worker : Worker) (table : EventTable) (job : Job)
    (outcome : JobOutcome) : Action (EventTable × Processed) :=
  let progress := ((table.get? job.directory).getD .initial).account outcome
  if !job.finalJob then
    return (table.set job.directory progress, ⟨outcome, none⟩)
  else do
    let conclusion ← conclude worker job.directory progress
    sweepAfterEvent worker
    return ((table.set job.directory progress).erase job.directory,
      ⟨outcome, some conclusion⟩)

/-- One round of `run`. -/
def processJob (worker : Worker) (table : EventTable) (job : Job) :
    Action (EventTable × Processed) := do
  let outcome ← writeGuarded worker job
  finishJob worker table job outcome

end DataCache.Storage
