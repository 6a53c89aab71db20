import DataCache.Foundation.Dict
import DataCache.Foundation.Prog
import DataCache.Capture.DataBuffer

/-!
# The event monitor and the storage queue

The trigger and scheduler callbacks as programs over the operations they
perform on the sensor buffer, the table of active captures, the storage queue
and the event markers.  Clock readings are arguments.
-/

namespace DataCache.Capture

open DataCache.Foundation

/-! ## Configuration -/

/-- The answers of the configuration manager. -/
structure ConfigManager where
  getConfig : Text → Text
  getIntConfig : Text → Int → Int
  getBoolConfig : Text → Bool → Bool

structure Settings where
  config : ConfigManager
  requireSyncedData : Bool

def eventKey (eventName suffix : Text) : Text :=
  ("event_" : Text) ++ eventName ++ "_" ++ suffix

def getEventIntConfig (config : ConfigManager) (eventName suffix fallbackKey : Text)
    (defaultValue : Int) : Int :=
  config.getIntConfig (eventKey eventName suffix)
    (config.getIntConfig fallbackKey defaultValue)

def getEventBoolConfig (config : ConfigManager)
    (eventName suffix fallbackKey : Text) (defaultValue : Bool) : Bool :=
  config.getBoolConfig (eventKey eventName suffix)
    (config.getBoolConfig fallbackKey defaultValue)

def Settings.preSeconds (settings : Settings) (eventName : Text) : Int :=
  max 0 (getEventIntConfig settings.config eventName "pre_time" "event_pre_time" 5)

def Settings.postSeconds (settings : Settings) (eventName : Text) : Int :=
  max 0 (getEventIntConfig settings.config eventName "post_time"
    "event_post_time" 5)

def Settings.maxPendingJobs (settings : Settings) : Nat :=
  (max 1 (settings.config.getIntConfig "max_pending_storage_jobs" 20)).toNat

def Settings.maxActiveCaptures (settings : Settings) : Nat :=
  (max 1 (settings.config.getIntConfig "max_active_event_captures" 16)).toNat

def Settings.sensorStallGrace (settings : Settings) : Int :=
  max 0 (settings.config.getIntConfig "sensor_stall_grace_ms" 5000) * 1000000

/-! ## The storage queue -/

structure Job where
  directory : Text
  records : List SensorData
  recordCamera : Bool
  recordLidar : Bool
  compressionEnabled : Bool
  compressionLevel : Int
  keepRaw : Bool
  conversionEnabled : Bool
  imageFormat : Text
  imageQuality : Int
  pointCloudFormat : Text
  pairs : List PairRecord
  finalJob : Bool
  deriving DecidableEq

structure StorageQueue where
  jobs : List Job
  reservedJobs : Nat
  maxPendingJobs : Nat
  stopping : Bool
  deriving DecidableEq

namespace StorageQueue

def full (queue : StorageQueue) : Bool :=
  decide (queue.jobs.length + queue.reservedJobs ≥ queue.maxPendingJobs)

def enqueue (queue : StorageQueue) (job : Job) (reserved : Bool) :
    Bool × StorageQueue :=
  let released := { queue with
    reservedJobs := if reserved then queue.reservedJobs - 1 else queue.reservedJobs }
  if queue.stopping || (!reserved && queue.full) then (false, released)
  else (true, { released with jobs := queue.jobs ++ [job] })

def reserve (queue : StorageQueue) : Bool × StorageQueue :=
  if queue.stopping || queue.full then (false, queue)
  else (true, { queue with reservedJobs := queue.reservedJobs + 1 })

def releaseReservation (queue : StorageQueue) : StorageQueue :=
  { queue with reservedJobs := queue.reservedJobs - 1 }

end StorageQueue

/-! ## Operations of the callbacks -/

structure CaptureTask where
  taskId : Text
  eventName : Text
  eventTime : Int
  endTime : Int
  wallDeadline : Int
  directory : Text
  deriving DecidableEq

def CaptureTask.expired (task : CaptureTask) (sensorNow : Option Int)
    (steadyNow : Int) : Bool :=
  (sensorNow.any fun now => decide (now ≥ task.endTime)) ||
    decide (steadyNow ≥ task.wallDeadline)

inductive CaptureOp where
  | flushPendingPairs
  | latestSensorTimestamp
  | takeCaptureId
  | framesWithin (first last : Int)
  | pairsWithin (first last : Int)
  | reserve
  | releaseReservation
  | enqueue (job : Job) (reserved : Bool)
  | activeCaptures
  | emplaceCapture (task : CaptureTask)
  | eraseCapture (taskId : Text)
  | harvestExpired (sensorNow : Option Int) (steadyNow : Int)
  | beginEvent (directory eventName : Text) (acceptedAtNs : Int)
  | failEvent (directory reason : Text)

def CaptureOp.Res : CaptureOp → Type
  | flushPendingPairs => Unit
  | latestSensorTimestamp => Option Int
  | takeCaptureId => Nat
  | framesWithin _ _ => List SensorData
  | pairsWithin _ _ => List PairRecord
  | reserve => Bool
  | releaseReservation => Unit
  | enqueue _ _ => Bool
  | activeCaptures => Nat
  | emplaceCapture _ => Unit
  | eraseCapture _ => Unit
  | harvestExpired _ _ => List CaptureTask
  | beginEvent _ _ _ => Bool
  | failEvent _ _ => Bool

abbrev Callback (α : Type) : Type := Prog CaptureOp.Res Empty α

def perform (op : CaptureOp) : Callback op.Res := .call op .ret

/-! ## The trigger -/

structure CaptureResult where
  accepted : Bool
  directory : Text
  message : Text
  deriving DecidableEq

structure Clock where
  wallNow : Int
  systemNowNs : Int
  steadyNow : Int

def eventDirectoryName (eventName : Text) (captureId : Nat) (systemNowNs : Int) :
    Text :=
  eventName ++ "_" ++ showNat captureId ++ "_" ++ showInt systemNowNs

/-- The last component of a path. -/
def filename (path : Text) : Text :=
  (path.reverse.takeWhile fun c => decide (c ≠ '/')).reverse

def orElse (value fallback : Text) : Text :=
  if value.isEmpty then fallback else value

def makeJob (config : ConfigManager) (directory eventName : Text)
    (records : List SensorData) (pairs : List PairRecord) (finalJob : Bool) :
    Job where
  directory := directory
  records := records
  recordCamera :=
    getEventBoolConfig config eventName "record_camera" "record_camera" false
  recordLidar :=
    getEventBoolConfig config eventName "record_lidar" "record_lidar" false
  compressionEnabled := config.getBoolConfig "compression_enabled" true
  compressionLevel := max 1 (min (config.getIntConfig "compression_level" 3) 19)
  keepRaw := config.getBoolConfig "keep_raw_after_compression" false
  conversionEnabled := config.getBoolConfig "conversion_enabled" true
  imageFormat := orElse (config.getConfig "image_format") "jpg"
  imageQuality := max 1 (min (config.getIntConfig "image_quality" 90) 100)
  pointCloudFormat := orElse (config.getConfig "pointcloud_format") "pcd"
  pairs := pairs
  finalJob := finalJob

def enqueueRecords (config : ConfigManager) (directory eventName : Text)
    (records : List SensorData) (pairs : List PairRecord)
    (reserved finalJob : Bool) : Callback Bool :=
  perform (.enqueue
    (makeJob config directory eventName records pairs finalJob) reserved)

/-- A trigger without a post window: its only batch is the final one. -/
def captureImmediately (settings : Settings) (clock : Clock)
    (eventName directory : Text) (startTime eventTime : Int)
    (preWindowPairs : List PairRecord) : Callback CaptureResult := do
  let reserved ← perform .reserve
  if !reserved then
    return ⟨false, directory, "storage queue unavailable"⟩
  else
    let begun ← perform (.beginEvent directory eventName clock.systemNowNs)
    if !begun then
      perform .releaseReservation
      return ⟨false, directory, "cannot create pending event state"⟩
    else
      let records ← perform (.framesWithin startTime eventTime)
      let accepted ← enqueueRecords settings.config directory eventName records
        preWindowPairs true true
      if !accepted then
        let _ ← perform (.failEvent directory "storage_queue_unavailable")
        return ⟨false, directory, "storage queue unavailable"⟩
      else
        return ⟨true, directory, "accepted for storage"⟩

/-- Store what was buffered up to the event and leave the capture active. -/
def enqueuePreBatch (settings : Settings) (eventName directory taskId : Text)
    (startTime eventTime : Int) (preWindowPairs : List PairRecord) :
    Callback CaptureResult := do
  let records ← perform (.framesWithin startTime eventTime)
  let accepted ← enqueueRecords settings.config directory eventName records
    preWindowPairs false false
  if !accepted then
    perform (.eraseCapture taskId)
    perform .releaseReservation
    let _ ← perform (.failEvent directory "pre_event_queue_unavailable")
    return ⟨false, directory, "pre-event storage queue unavailable"⟩
  else
    return ⟨true, directory, "accepted for storage"⟩

/-- A trigger with a post window: reserve the final batch, then store the first. -/
def captureWithPost (settings : Settings) (clock : Clock)
    (eventName : Text) (task : CaptureTask) (startTime : Int)
    (preWindowPairs : List PairRecord) : Callback CaptureResult := do
  let reserved ← perform .reserve
  if !reserved then
    return ⟨false, task.directory, "storage queue unavailable"⟩
  else
    let active : Nat ← perform .activeCaptures
    if settings.maxActiveCaptures ≤ active then
      perform .releaseReservation
      return ⟨false, task.directory, "maximum active captures reached"⟩
    else
      let begun ← perform
        (.beginEvent task.directory eventName clock.systemNowNs)
      if !begun then
        perform .releaseReservation
        return ⟨false, task.directory, "cannot create pending event state"⟩
      else
        perform (.emplaceCapture task)
        enqueuePreBatch settings eventName task.directory task.taskId startTime
          task.eventTime preWindowPairs

def makeTask (settings : Settings) (clock : Clock) (eventName directory : Text)
    (eventTime : Int) : CaptureTask where
  taskId := filename directory
  eventName := eventName
  eventTime := eventTime
  endTime := eventTime + settings.postSeconds eventName * nanosPerSecond
  wallDeadline := clock.steadyNow + settings.postSeconds eventName *
    nanosPerSecond + settings.sensorStallGrace
  directory := directory

def recordDataAroundEventDetailed (settings : Settings) (clock : Clock)
    (eventName : Text) : Callback CaptureResult := do
  perform .flushPendingPairs
  let sensorNow ← perform .latestSensorTimestamp
  let eventTime := sensorNow.getD clock.wallNow
  let startTime := eventTime - settings.preSeconds eventName * nanosPerSecond
  let captureId ← perform .takeCaptureId
  let directory := eventDirectoryName eventName captureId clock.systemNowNs
  let preWindowPairs ← perform (.pairsWithin startTime eventTime)
  if settings.requireSyncedData &&
      !preWindowPairs.any fun record => decide (record.status = .matched) then
    return ⟨false, directory, "no synchronized data in pre-event window"⟩
  else if settings.postSeconds eventName ≤ 0 then
    captureImmediately settings clock eventName directory startTime eventTime
      preWindowPairs
  else
    captureWithPost settings clock eventName
      (makeTask settings clock eventName directory eventTime) startTime
      preWindowPairs

/-! ## The scheduler -/

def withoutBoundary (eventTime : Int) (records : List SensorData) :
    List SensorData :=
  records.filter fun record => decide (timestampOf record ≠ eventTime)

def storePostBatch (settings : Settings) (task : CaptureTask) : Callback Unit := do
  perform .flushPendingPairs
  let records ← perform (.framesWithin task.eventTime task.endTime)
  let pairs ← perform (.pairsWithin task.eventTime task.endTime)
  let accepted ← enqueueRecords settings.config task.directory task.eventName
    (withoutBoundary task.eventTime records)
    (pairs.filter fun record => decide (record.timestamp ≠ task.eventTime))
    true true
  if !accepted then
    let _ ← perform (.failEvent task.directory "post_event_queue_unavailable")
    return ()
  else
    return ()

def storePostBatches (settings : Settings) : List CaptureTask → Callback Unit
  | [] => return ()
  | task :: rest => do
      storePostBatch settings task
      storePostBatches settings rest

def processExpiredCaptures (settings : Settings) (clock : Clock) :
    Callback Unit := do
  let sensorNow ← perform .latestSensorTimestamp
  let expired ← perform (.harvestExpired sensorNow clock.steadyNow)
  storePostBatches settings expired

end DataCache.Capture
