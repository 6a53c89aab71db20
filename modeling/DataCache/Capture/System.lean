import DataCache.Capture.EventMonitor

/-!
# Runs of the event monitor

What each operation of a callback does to the node's state while the storage
worker pops jobs at any moment, and the states a run of arrivals, triggers,
scheduler ticks and pops can reach.  The history fields record what was handed
over; no operation reads them.
-/

namespace DataCache.Capture

open DataCache.Foundation

/-- An accepted job, with what was buffered when it was enqueued. -/
structure HandedOver where
  job : Job
  buffered : List SensorData
  deriving DecidableEq

/-- A trigger that was answered with `accepted`. -/
structure AcceptedTrigger where
  directory : Text
  eventTime : Int
  preSeconds : Int
  postSeconds : Int
  deriving DecidableEq

structure System where
  buffer : DataBuffer
  pairIndex : PairIndex
  activeCaptures : Dict Text CaptureTask
  nextCaptureId : Nat
  storage : StorageQueue
  accepted : List HandedOver
  refused : List Job
  consumed : List Job
  captures : List AcceptedTrigger
  arrivals : List SensorData
  deriving DecidableEq

namespace System

/-- The storage worker takes the first `count` jobs off the queue. -/
def pop (s : System) (count : Nat) : System :=
  { s with
    storage := { s.storage with jobs := s.storage.jobs.drop count }
    consumed := s.consumed ++ s.storage.jobs.take count }

def expiredKey (s : System) (sensorNow : Option Int) (steadyNow : Int)
    (key : Text) : Bool :=
  (s.activeCaptures.get? key).any fun task => task.expired sensorNow steadyNow

def expiredTasks (s : System) (sensorNow : Option Int) (steadyNow : Int) :
    List CaptureTask :=
  (s.activeCaptures.filterKeys (s.expiredKey sensorNow steadyNow)).values

def enqueue (s : System) (job : Job) (reserved : Bool) : Bool × System :=
  match s.storage.enqueue job reserved with
  | (true, storage) =>
      (true, { s with
        storage := storage
        accepted := s.accepted ++ [⟨job, s.buffer.getAllData⟩] })
  | (false, storage) =>
      (false, { s with storage := storage, refused := s.refused ++ [job] })

def emplaceCapture (s : System) (task : CaptureTask) : System :=
  if s.activeCaptures.contains task.taskId then s
  else { s with activeCaptures := s.activeCaptures.set task.taskId task }

end System

/--
The operations themselves.  The pair synchronizer behind the flush may add any
records to the ledger, and a marker operation may succeed or fail.
-/
def Performs (s : System) : (op : CaptureOp) → op.Res → System → Prop
  | .flushPendingPairs, _, s' => ∃ pairIndex, s' = { s with pairIndex }
  | .latestSensorTimestamp, r, s' => r = s.buffer.latestSensorTimestamp ∧ s' = s
  | .takeCaptureId, r, s' =>
      r = s.nextCaptureId ∧ s' = { s with nextCaptureId := s.nextCaptureId + 1 }
  | .framesWithin first last, r, s' =>
      r = s.buffer.getDataWithinTimeRange first last ∧ s' = s
  | .pairsWithin first last, r, s' =>
      r = s.pairIndex.getDataWithinTimeRange first last ∧ s' = s
  | .reserve, r, s' =>
      r = s.storage.reserve.1 ∧ s' = { s with storage := s.storage.reserve.2 }
  | .releaseReservation, _, s' =>
      s' = { s with storage := s.storage.releaseReservation }
  | .enqueue job reserved, r, s' =>
      r = (s.enqueue job reserved).1 ∧ s' = (s.enqueue job reserved).2
  | .activeCaptures, r, s' => r = s.activeCaptures.size ∧ s' = s
  | .emplaceCapture task, _, s' => s' = s.emplaceCapture task
  | .eraseCapture taskId, _, s' =>
      s' = { s with activeCaptures := s.activeCaptures.erase taskId }
  | .harvestExpired sensorNow steadyNow, r, s' =>
      r.Perm (s.expiredTasks sensorNow steadyNow) ∧
        s' = { s with
          activeCaptures := s.activeCaptures.filterKeys fun key =>
            !s.expiredKey sensorNow steadyNow key }
  | .beginEvent _ _ _, _, s' => s' = s
  | .failEvent _ _, _, s' => s' = s

theorem mem_expiredTasks {s : System} {sensorNow : Option Int} {steadyNow : Int}
    {task : CaptureTask} (h : task ∈ s.expiredTasks sensorNow steadyNow) :
    ∃ key, s.activeCaptures.get? key = some task := by
  obtain ⟨⟨key, found⟩, hmem, rfl⟩ := List.mem_map.mp h
  have hget := (Dict.mem_entries_iff _).mp hmem
  rw [Dict.get?_filterKeys] at hget
  split at hget
  · exact ⟨key, hget⟩
  · cases hget

/-- An operation with pops of the storage worker before and after it. -/
def Interleaved : Prog.Effect CaptureOp.Res System := fun s op r s' =>
  ∃ before after between, Performs (s.pop before) op r between ∧
    s' = between.pop after

/-! ## Runs -/

def initial (settings : Settings) (maxSize : Nat) (maxAge : Int)
    (maxBytes : Nat) : System where
  buffer := .empty maxSize maxAge maxBytes
  pairIndex := .empty
  activeCaptures := .empty
  nextCaptureId := 0
  storage := ⟨[], 0, settings.maxPendingJobs, false⟩
  accepted := []
  refused := []
  consumed := []
  captures := []
  arrivals := []

def eventTimeOf (s : System) (clock : Clock) : Int :=
  s.buffer.latestSensorTimestamp.getD clock.wallNow

/-- Record an accepted trigger that started in state `before`. -/
def logCapture (settings : Settings) (clock : Clock) (eventName : Text)
    (before after : System) (result : CaptureResult) : System :=
  if result.accepted then
    { after with
      captures := after.captures ++
        [⟨result.directory, eventTimeOf before clock,
          settings.preSeconds eventName, settings.postSeconds eventName⟩] }
  else after

/-- The states between callbacks. -/
inductive Reachable (settings : Settings) : System → Prop
  | start (maxSize : Nat) (maxAge : Int) (maxBytes : Nat) :
      Reachable settings (initial settings maxSize maxAge maxBytes)
  | frame {s : System} (data : SensorData) (h : Reachable settings s) :
      Reachable settings { s with
        buffer := s.buffer.addData data
        arrivals := s.arrivals ++ [data] }
  | ledger {s : System} (pairIndex : PairIndex) (h : Reachable settings s) :
      Reachable settings { s with pairIndex }
  | consume {s : System} (count : Nat) (h : Reachable settings s) :
      Reachable settings (s.pop count)
  | trigger {s s' : System} {result : CaptureResult} (clock : Clock)
      (eventName : Text) (h : Reachable settings s)
      (hexec : Prog.Exec Interleaved s
        (recordDataAroundEventDetailed settings clock eventName) s' (.ret result)) :
      Reachable settings (logCapture settings clock eventName s s' result)
  | scheduler {s s' : System} (clock : Clock) (h : Reachable settings s)
      (hexec : Prog.Exec Interleaved s (processExpiredCaptures settings clock) s'
        (.ret ())) :
      Reachable settings s'

/-! ## A run that never fails -/

/-- Every marker is written, the flush adds nothing and no job is popped. -/
def System.respond (s : System) : (op : CaptureOp) → op.Res × System
  | .flushPendingPairs => ((), s)
  | .latestSensorTimestamp => (s.buffer.latestSensorTimestamp, s)
  | .takeCaptureId =>
      (s.nextCaptureId, { s with nextCaptureId := s.nextCaptureId + 1 })
  | .framesWithin first last => (s.buffer.getDataWithinTimeRange first last, s)
  | .pairsWithin first last => (s.pairIndex.getDataWithinTimeRange first last, s)
  | .reserve => (s.storage.reserve.1, { s with storage := s.storage.reserve.2 })
  | .releaseReservation => ((), { s with storage := s.storage.releaseReservation })
  | .enqueue job reserved => s.enqueue job reserved
  | .activeCaptures => (s.activeCaptures.size, s)
  | .emplaceCapture task => ((), s.emplaceCapture task)
  | .eraseCapture taskId =>
      ((), { s with activeCaptures := s.activeCaptures.erase taskId })
  | .harvestExpired sensorNow steadyNow =>
      (s.expiredTasks sensorNow steadyNow,
        { s with activeCaptures := s.activeCaptures.filterKeys fun key =>
            !s.expiredKey sensorNow steadyNow key })
  | .beginEvent _ _ _ => (true, s)
  | .failEvent _ _ => (true, s)

theorem System.pop_zero (s : System) : s.pop 0 = s := by
  simp [System.pop]

theorem performs_respond (s : System) (op : CaptureOp) :
    Performs s op (s.respond op).1 (s.respond op).2 := by
  cases op <;>
    first
    | exact ⟨rfl, rfl⟩
    | exact rfl
    | exact ⟨s.pairIndex, rfl⟩
    | exact ⟨List.Perm.refl _, rfl⟩

theorem interleaved_respond (s : System) (op : CaptureOp) :
    Interleaved s op (s.respond op).1 (s.respond op).2 := by
  refine ⟨0, 0, (s.respond op).2, ?_, (System.pop_zero _).symm⟩
  rw [System.pop_zero]
  exact performs_respond s op

def System.trigger (settings : Settings) (clock : Clock) (eventName : Text)
    (s : System) : System :=
  match Prog.runWith System.respond
      (recordDataAroundEventDetailed settings clock eventName) s with
  | (.ok result, s') => logCapture settings clock eventName s s' result
  | (.error error, _) => error.elim

def System.schedule (settings : Settings) (clock : Clock) (s : System) : System :=
  (Prog.runWith System.respond (processExpiredCaptures settings clock) s).2

theorem Reachable.respondTrigger {settings : Settings} {s : System}
    (h : Reachable settings s) (clock : Clock) (eventName : Text) :
    Reachable settings (s.trigger settings clock eventName) := by
  have hexec := Prog.exec_runWith interleaved_respond
    (recordDataAroundEventDetailed settings clock eventName) s
  unfold System.trigger
  cases hrun : Prog.runWith System.respond
      (recordDataAroundEventDetailed settings clock eventName) s with
  | mk outcome s' =>
      rw [hrun] at hexec
      cases outcome with
      | ok result => exact .trigger clock eventName h hexec
      | error error => exact error.elim

theorem Reachable.respondSchedule {settings : Settings} {s : System}
    (h : Reachable settings s) (clock : Clock) :
    Reachable settings (s.schedule settings clock) := by
  have hexec := Prog.exec_runWith interleaved_respond
    (processExpiredCaptures settings clock) s
  unfold System.schedule
  cases hrun : Prog.runWith System.respond
      (processExpiredCaptures settings clock) s with
  | mk outcome s' =>
      rw [hrun] at hexec
      cases outcome with
      | ok value => exact .scheduler clock h hexec
      | error error => exact error.elim

/-- The states between and inside callbacks. -/
inductive Midway (settings : Settings) : System → Prop
  | between {s : System} (h : Reachable settings s) : Midway settings s
  | trigger {s s' : System} {rest : Callback CaptureResult} (clock : Clock)
      (eventName : Text) (h : Reachable settings s)
      (hexec : Prog.Exec Interleaved s
        (recordDataAroundEventDetailed settings clock eventName) s' rest) :
      Midway settings s'
  | scheduler {s s' : System} {rest : Callback Unit} (clock : Clock)
      (h : Reachable settings s)
      (hexec : Prog.Exec Interleaved s (processExpiredCaptures settings clock) s'
        rest) :
      Midway settings s'

end DataCache.Capture
