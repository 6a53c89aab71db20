import DataCache.Capture.Data
import Mathlib.Tactic.Linarith

/-!
# The sensor buffer and the pair ledger

One queue of frames for each sensor, bounded by count, age and payload bytes,
together with the newest stamp that was ever offered; and the ledger of camera
and lidar pairs.
-/

namespace DataCache.Capture

open DataCache.Foundation

def sizeMax : Nat := 2 ^ 64 - 1

structure SensorQueue where
  frames : List SensorData
  bytes : Nat
  deriving DecidableEq

structure DataBuffer where
  maxSize : Nat
  maxAge : Int
  maxBytesPerSensor : Nat
  camera : SensorQueue
  lidar : SensorQueue
  latestTimestamp : Option Int
  deriving DecidableEq

namespace DataBuffer

def empty (maxSize : Nat) (maxAge : Int) (maxBytesPerSensor : Nat) : DataBuffer :=
  ⟨maxSize, maxAge, maxBytesPerSensor, ⟨[], 0⟩, ⟨[], 0⟩, none⟩

def queue (buffer : DataBuffer) : SensorType → SensorQueue
  | .camera => buffer.camera
  | .lidar => buffer.lidar

def setQueue (buffer : DataBuffer) : SensorType → SensorQueue → DataBuffer
  | .camera, queue => { buffer with camera := queue }
  | .lidar, queue => { buffer with lidar := queue }

/-! ## Recording a frame -/

/-- `push_back`, or insertion at the upper bound of an earlier stamp. -/
def insertFrame (frames : List SensorData) (data : SensorData) :
    List SensorData :=
  if frames.getLast?.all fun last => decide (timestampOf last ≤ timestampOf data)
  then frames ++ [data]
  else
    frames.takeWhile (fun candidate => decide (timestampOf candidate ≤
      timestampOf data)) ++
    data :: frames.dropWhile (fun candidate => decide (timestampOf candidate ≤
      timestampOf data))

def addBytes (bytes added : Nat) : Nat :=
  if added > sizeMax - bytes then sizeMax else bytes + added

/-- Pop from the front while `full`; the argument is the queue that is left. -/
def popWhile (full : List SensorData → Nat → Bool) :
    List SensorData → Nat → SensorQueue
  | [], bytes => ⟨[], bytes⟩
  | first :: rest, bytes =>
      if full (first :: rest) bytes then
        popWhile full rest (bytes - payloadBytes first)
      else ⟨first :: rest, bytes⟩

def overLimit (buffer : DataBuffer) (frames : List SensorData) (bytes : Nat) :
    Bool :=
  decide (frames.length > buffer.maxSize) ||
    (decide (buffer.maxBytesPerSensor > 0) &&
      decide (bytes > buffer.maxBytesPerSensor))

def expired (oldestAllowed : Int) (frames : List SensorData) (_ : Nat) : Bool :=
  frames.head?.any fun front => decide (timestampOf front < oldestAllowed)

def evictExpired (buffer : DataBuffer) : DataBuffer :=
  match buffer.latestTimestamp with
  | none => buffer
  | some latest =>
      if buffer.maxAge ≤ 0 then buffer
      else
        let full := expired (latest - buffer.maxAge)
        { buffer with
          camera := popWhile full buffer.camera.frames buffer.camera.bytes
          lidar := popWhile full buffer.lidar.frames buffer.lidar.bytes }

def newest (latest : Option Int) (timestamp : Int) : Int :=
  match latest with
  | none => timestamp
  | some latest => if timestamp > latest then timestamp else latest

def addData (buffer : DataBuffer) (data : SensorData) : DataBuffer :=
  if buffer.maxSize = 0 then buffer
  else
    let latest := newest buffer.latestTimestamp (timestampOf data)
    let buffer := { buffer with latestTimestamp := some latest }
    if buffer.maxAge > 0 && decide (timestampOf data < latest - buffer.maxAge)
    then buffer
    else
      let queue := buffer.queue data.type
      let kept := popWhile buffer.overLimit (insertFrame queue.frames data)
        (addBytes queue.bytes (payloadBytes data))
      (buffer.setQueue data.type kept).evictExpired

def addAll (buffer : DataBuffer) (arrivals : List SensorData) : DataBuffer :=
  arrivals.foldl addData buffer

/-! ## Queries -/

def getAllData (buffer : DataBuffer) : List SensorData :=
  buffer.camera.frames ++ buffer.lidar.frames

def within (first last : Int) (data : SensorData) : Bool :=
  decide (first ≤ timestampOf data) && decide (timestampOf data ≤ last)

def getDataWithinTimeRange (buffer : DataBuffer) (first last : Int) :
    List SensorData :=
  buffer.getAllData.filter (within first last)

def latestSensorTimestamp (buffer : DataBuffer) : Option Int :=
  buffer.latestTimestamp

/-! ## The newest stamp bounds the buffer -/

/-- No buffered frame is newer than the newest stamp. -/
def Bounded (buffer : DataBuffer) : Prop :=
  ∀ frame ∈ buffer.getAllData,
    ∃ latest, buffer.latestTimestamp = some latest ∧ timestampOf frame ≤ latest

theorem mem_insertFrame {frames : List SensorData} {data frame : SensorData}
    (h : frame ∈ insertFrame frames data) : frame = data ∨ frame ∈ frames := by
  unfold insertFrame at h
  split at h
  · rcases List.mem_append.mp h with h | h
    · exact .inr h
    · exact .inl (List.mem_singleton.mp h)
  · rcases List.mem_append.mp h with h | h
    · exact .inr ((List.takeWhile_sublist _).subset h)
    · rcases List.mem_cons.mp h with h | h
      · exact .inl h
      · exact .inr ((List.dropWhile_sublist _).subset h)

theorem popWhile_suffix (full : List SensorData → Nat → Bool) :
    ∀ (frames : List SensorData) (bytes : Nat),
      (popWhile full frames bytes).frames <:+ frames
  | [], _ => List.suffix_rfl
  | first :: rest, bytes => by
      unfold popWhile
      split
      · exact (popWhile_suffix full rest _).trans (List.suffix_cons _ _)
      · exact List.suffix_rfl

theorem mem_getAllData {buffer : DataBuffer} {frame : SensorData} :
    frame ∈ buffer.getAllData ↔ ∃ type, frame ∈ (buffer.queue type).frames := by
  rw [getAllData, List.mem_append]
  constructor
  · rintro (h | h)
    · exact ⟨.camera, h⟩
    · exact ⟨.lidar, h⟩
  · rintro ⟨_ | _, h⟩
    · exact .inl h
    · exact .inr h

theorem mem_evictExpired {buffer : DataBuffer} {frame : SensorData}
    (h : frame ∈ buffer.evictExpired.getAllData) : frame ∈ buffer.getAllData := by
  unfold evictExpired at h
  split at h
  · exact h
  · split at h
    · exact h
    · rcases List.mem_append.mp h with h | h
      · exact List.mem_append_left _ ((popWhile_suffix _ _ _).subset h)
      · exact List.mem_append_right _ ((popWhile_suffix _ _ _).subset h)

theorem latestTimestamp_evictExpired (buffer : DataBuffer) :
    buffer.evictExpired.latestTimestamp = buffer.latestTimestamp := by
  unfold evictExpired
  split
  · rfl
  · split <;> rfl

theorem queue_setQueue (buffer : DataBuffer) (type other : SensorType)
    (queue : SensorQueue) :
    (buffer.setQueue type queue).queue other =
      if type = other then queue else buffer.queue other := by
  cases type <;> cases other <;> rfl

theorem mem_setQueue {buffer : DataBuffer} {type : SensorType}
    {queue : SensorQueue} {frame : SensorData}
    (h : frame ∈ (buffer.setQueue type queue).getAllData) :
    frame ∈ queue.frames ∨ frame ∈ buffer.getAllData := by
  cases type <;> simp only [setQueue, getAllData, List.mem_append] at h ⊢ <;>
    tauto

/-- A frame in the buffer afterwards is the new one or was there before. -/
theorem mem_addData {buffer : DataBuffer} {data frame : SensorData}
    (h : frame ∈ (buffer.addData data).getAllData) :
    frame = data ∨ frame ∈ buffer.getAllData := by
  unfold addData at h
  split at h
  · exact .inr h
  · simp only at h
    split at h
    · exact .inr h
    · rcases mem_setQueue (mem_evictExpired h) with h | h
      · rcases mem_insertFrame ((popWhile_suffix _ _ _).subset h) with h | h
        · exact .inl h
        · exact .inr (mem_getAllData.mpr ⟨data.type, h⟩)
      · exact .inr h

theorem latestTimestamp_addData {buffer : DataBuffer} (data : SensorData)
    (h : buffer.maxSize ≠ 0) :
    (buffer.addData data).latestTimestamp =
      some (newest buffer.latestTimestamp (timestampOf data)) := by
  unfold addData
  rw [if_neg h]
  simp only
  split
  · rfl
  · rw [latestTimestamp_evictExpired]
    cases data <;> rfl

theorem le_newest (latest : Option Int) (timestamp : Int) :
    timestamp ≤ newest latest timestamp ∧
      ∀ old, latest = some old → old ≤ newest latest timestamp := by
  unfold newest
  cases latest with
  | none => simp
  | some latest =>
      simp only [Option.some.injEq]
      split
      · exact ⟨le_refl _, fun old h => by omega⟩
      · exact ⟨by omega, fun old h => by omega⟩

theorem Bounded.addData {buffer : DataBuffer} (h : buffer.Bounded)
    (data : SensorData) : (buffer.addData data).Bounded := by
  by_cases hsize : buffer.maxSize = 0
  · rw [DataBuffer.addData, if_pos hsize]
    exact h
  · intro frame hframe
    refine ⟨_, latestTimestamp_addData data hsize, ?_⟩
    obtain ⟨hdata, hold⟩ := le_newest buffer.latestTimestamp (timestampOf data)
    rcases mem_addData hframe with rfl | hmem
    · exact hdata
    · obtain ⟨latest, hlatest, hle⟩ := h frame hmem
      exact hle.trans (hold latest hlatest)

theorem bounded_empty (maxSize : Nat) (maxAge : Int) (maxBytes : Nat) :
    (empty maxSize maxAge maxBytes).Bounded := fun frame h => by
  simp [empty, getAllData] at h

end DataBuffer

/-! ## The pair ledger -/

structure PairIndex where
  records : List PairRecord
  nextId : Nat
  deriving DecidableEq

namespace PairIndex

def maxRecords : Nat := 100000

def empty : PairIndex := ⟨[], 1⟩

def trim (index : PairIndex) : PairIndex :=
  { index with records := index.records.drop (index.records.length - maxRecords) }

def addMatched (index : PairIndex) (camera lidar : Int) (difference : Int) :
    PairIndex :=
  trim
    { records := index.records ++
        [⟨index.nextId, true, true, camera, lidar, difference, .matched, []⟩]
      nextId := index.nextId + 1 }

def addSingle (index : PairIndex) (sensor : SensorType) (timestamp : Int)
    (reason : Text) : PairIndex :=
  trim
    { records := index.records ++
        [match sensor with
        | .camera => ⟨index.nextId, true, false, timestamp, 0, 0, .cameraOnly, reason⟩
        | .lidar => ⟨index.nextId, false, true, 0, timestamp, 0, .lidarOnly, reason⟩]
      nextId := index.nextId + 1 }

def getDataWithinTimeRange (index : PairIndex) (first last : Int) :
    List PairRecord :=
  index.records.filter fun record =>
    decide (first ≤ record.timestamp) && decide (record.timestamp ≤ last)

end PairIndex

end DataCache.Capture
