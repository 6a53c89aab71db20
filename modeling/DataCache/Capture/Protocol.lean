import DataCache.Capture.Callbacks

/-!
# The storage hand-off over whole runs

Between callbacks every reservation belongs to an active capture, and at every
moment of a run the queue has room, final batches are never refused, no job is
consumed twice and a first batch is consumed before its final one.
-/

namespace DataCache.Capture

open DataCache.Foundation

/-! ## Reachable states are settled -/

theorem settled_initial (settings : Settings) (maxSize : Nat) (maxAge : Int)
    (maxBytes : Nat) :
    QueueOk settings (initial settings maxSize maxAge maxBytes) ∧
      Settled settings (initial settings maxSize maxAge maxBytes).core :=
  ⟨⟨rfl, Nat.zero_le _, rfl, rfl⟩,
    ⟨Nat.zero_le _, fun _ h => absurd h List.not_mem_nil,
      fun _ h => absurd h List.not_mem_nil, fun _ h => absurd h List.not_mem_nil,
      fun _ h => absurd h List.not_mem_nil, List.nodup_nil,
      DataBuffer.bounded_empty _ _ _⟩,
    rfl, fun _ _ h => absurd h (by simp [System.core, initial])⟩

theorem Settled.addData {settings : Settings} {core : Core}
    (h : Settled settings core) (data : SensorData) :
    Settled settings { core with buffer := core.buffer.addData data } :=
  ⟨⟨h.ok.active, h.ok.refused, h.ok.delivered, h.ok.named, h.ok.capturesNamed,
      h.ok.unique, h.ok.bounded.addData data⟩,
    h.reserved, fun key task hget =>
      ⟨(h.tasks key task hget).1, (h.tasks key task hget).2.congr rfl rfl⟩⟩

theorem core_logCapture (settings : Settings) (clock : Clock) (eventName : Text)
    (before after : System) (result : CaptureResult) :
    (logCapture settings clock eventName before after result).core =
      after.core.logged settings eventName (eventTimeOf before clock) result := by
  unfold logCapture Core.logged
  split <;> rfl

theorem QueueOk.logCapture {settings : Settings} {after : System}
    (h : QueueOk settings after) (clock : Clock) (eventName : Text)
    (before : System) (result : CaptureResult) :
    QueueOk settings
      (Capture.logCapture settings clock eventName before after result) := by
  unfold Capture.logCapture
  split
  · exact ⟨h.queue, h.room, h.limit, h.running⟩
  · exact h

theorem Reachable.settled {settings : Settings} {s : System}
    (h : Reachable settings s) : QueueOk settings s ∧ Settled settings s.core := by
  induction h with
  | start maxSize maxAge maxBytes => exact settled_initial _ _ _ _
  | frame data _ ih =>
      exact ⟨⟨ih.1.queue, ih.1.room, ih.1.limit, ih.1.running⟩,
        ih.2.addData data⟩
  | ledger pairIndex _ ih =>
      exact ⟨⟨ih.1.queue, ih.1.room, ih.1.limit, ih.1.running⟩, ih.2⟩
  | consume count _ ih => exact ⟨ih.1.pop count, ih.2⟩
  | trigger clock eventName _ hexec ih =>
      obtain ⟨-, hqueue, hsettled⟩ := Prog.wp_exec hexec ⟨ih.1, ih.2.ok⟩
        (recordDataAroundEventDetailed_runs ih.2 clock eventName _ ih.1 rfl)
      refine ⟨hqueue.logCapture _ _ _ _, ?_⟩
      rw [core_logCapture]
      exact hsettled
  | scheduler clock _ hexec ih =>
      exact (Prog.wp_exec hexec ⟨ih.1, ih.2.ok⟩
        (processExpiredCaptures_runs ih.2 clock _ ih.1 rfl)).2

theorem Midway.inv {settings : Settings} {s : System} (h : Midway settings s) :
    Inv settings s := by
  cases h with
  | between h => exact ⟨h.settled.1, h.settled.2.ok⟩
  | trigger clock eventName h hexec =>
      obtain ⟨hqueue, hsettled⟩ := h.settled
      exact (Prog.wp_exec hexec ⟨hqueue, hsettled.ok⟩
        (recordDataAroundEventDetailed_runs hsettled clock eventName _ hqueue
          rfl)).1
  | scheduler clock h hexec =>
      obtain ⟨hqueue, hsettled⟩ := h.settled
      exact (Prog.wp_exec hexec ⟨hqueue, hsettled.ok⟩
        (processExpiredCaptures_runs hsettled clock _ hqueue rfl)).1

/-! ## First batches before final ones -/

def jobsOf (jobs : List Job) (directory : Text) : List Job :=
  jobs.filter fun job => decide (job.directory = directory)

theorem jobsOf_map (accepted : List HandedOver) (directory : Text) :
    jobsOf (accepted.map HandedOver.job) directory =
      (batchesOf accepted directory).map HandedOver.job := by
  rw [jobsOf, List.filter_map]
  rfl

/-- A consumed final batch comes after exactly one batch of its capture. -/
theorem Inv.consumed_final {settings : Settings} {s : System}
    (h : Inv settings s) {capture : AcceptedTrigger}
    (hcapture : capture ∈ s.captures) (hpost : 0 < capture.postSeconds)
    {front back : List Job} {job : Job}
    (hconsumed : s.consumed = front ++ job :: back)
    (hdirectory : job.directory = capture.directory)
    (hfinal : job.finalJob = true) :
    ∃ pre, pre.finalJob = false ∧ jobsOf front capture.directory = [pre] ∧
      jobsOf back capture.directory = [] := by
  have hall := congrArg (jobsOf · capture.directory) h.1.queue
  simp only [jobsOf_map, hconsumed] at hall
  have hsplit : jobsOf (front ++ job :: back ++ s.storage.jobs)
      capture.directory = jobsOf front capture.directory ++
        job :: (jobsOf back capture.directory ++
          jobsOf s.storage.jobs capture.directory) := by
    simp [jobsOf, hdirectory]
  rw [hsplit] at hall
  rcases h.2.delivered capture hcapture hpost with
    ⟨pre, hpre, hbatches⟩ | ⟨pre, post, hpre, -, hbatches⟩
  · -- Only the first batch was accepted, and it is not final.
    change batchesOf s.accepted _ = _ at hbatches
    rw [hbatches] at hall
    cases hfront : jobsOf front capture.directory with
    | nil =>
        simp only [hfront, List.nil_append, List.map_singleton,
          List.cons.injEq] at hall
        rw [hall.1, hpre.notFinal] at hfinal
        cases hfinal
    | cons first rest => simp [hfront] at hall
  · change batchesOf s.accepted _ = _ at hbatches
    rw [hbatches] at hall
    cases hfront : jobsOf front capture.directory with
    | nil =>
        simp only [hfront, List.nil_append, List.map_cons, List.cons.injEq] at hall
        rw [hall.1, hpre.notFinal] at hfinal
        cases hfinal
    | cons first rest =>
        simp only [hfront, List.cons_append, List.map_cons, List.map_nil,
          List.cons.injEq] at hall
        obtain ⟨rfl, hrest⟩ := hall
        cases rest with
        | nil =>
            simp only [List.nil_append, List.cons.injEq,
              List.append_eq_nil_iff] at hrest
            exact ⟨pre.job, hpre.notFinal, rfl, hrest.2.1⟩
        | cons second rest => simp at hrest

/--
The storage hand-off at every moment of a run: the queue and the captures stay
within their limits, no final batch is refused, consumption follows the order
of acceptance, and a consumed final batch follows its consumed first batch.
Between callbacks the reservations are those of the active captures.
-/
theorem handOff_protocol {settings : Settings} {s : System}
    (h : Midway settings s) :
    (Reachable settings s → s.storage.reservedJobs = s.activeCaptures.size) ∧
    s.storage.jobs.length + s.storage.reservedJobs ≤ s.storage.maxPendingJobs ∧
    s.activeCaptures.size ≤ settings.maxActiveCaptures ∧
    (∀ job ∈ s.refused, job.finalJob = false) ∧
    s.consumed ++ s.storage.jobs = s.accepted.map HandedOver.job ∧
    ∀ capture ∈ s.captures, 0 < capture.postSeconds → ∀ front job back,
      s.consumed = front ++ job :: back → job.directory = capture.directory →
      job.finalJob = true →
      ∃ pre, pre.finalJob = false ∧ jobsOf front capture.directory = [pre] ∧
        jobsOf back capture.directory = [] := by
  have hinv := h.inv
  exact ⟨fun hreach => hreach.settled.2.reserved,
    hinv.1.limit ▸ hinv.1.room, hinv.2.active, hinv.2.refused, hinv.1.queue,
    fun capture hcapture hpost front job back hconsumed hdirectory hfinal =>
      hinv.consumed_final hcapture hpost hconsumed hdirectory hfinal⟩

/-! ## A run -/

def sampleSettings : Settings where
  config := ⟨fun _ => [], fun _ value => value, fun _ value => value⟩
  requireSyncedData := false

def sampleClock : Clock := ⟨0, 1700000000000000000, 0⟩

def cameraFrame (seconds : Int) : SensorData :=
  .camera (seconds * nanosPerSecond)
    (some ⟨seconds * nanosPerSecond, 1, 1, "mono8", 1, [0]⟩)

def lidarFrame (seconds : Int) : SensorData :=
  .lidar (seconds * nanosPerSecond)
    (some ⟨seconds * nanosPerSecond, 1, 1, ["x"], 1, [0]⟩)

def System.arrive (s : System) (data : SensorData) : System :=
  { s with buffer := s.buffer.addData data, arrivals := s.arrivals ++ [data] }

/-- The camera is a second ahead of the lidar when the event is triggered. -/
def laggingRun : System :=
  let before := ((initial sampleSettings 100 0 0).arrive (lidarFrame 8)).arrive
    (cameraFrame 10)
  let triggered := before.trigger sampleSettings sampleClock "brake"
  let after := (triggered.arrive (lidarFrame 9)).arrive (cameraFrame 16)
  (after.schedule sampleSettings sampleClock).pop 2

theorem reachable_laggingRun : Reachable sampleSettings laggingRun := by
  refine .consume 2 (Reachable.respondSchedule (.frame _ (.frame _
    (Reachable.respondTrigger (.frame _ (.frame _ (.start 100 0 0))) _ _))) _)

def laggingCapture : AcceptedTrigger :=
  ⟨"brake_0_1700000000000000000", 10 * nanosPerSecond, 5, 5⟩

theorem handOff_protocol_sample :
    laggingRun.storage.reservedJobs = laggingRun.activeCaptures.size ∧
    ∃ pre, pre.finalJob = false ∧
      jobsOf (laggingRun.consumed.take 1) laggingCapture.directory = [pre] := by
  have h := handOff_protocol (.between reachable_laggingRun)
  refine ⟨h.1 reachable_laggingRun, ?_⟩
  obtain ⟨pre, hpre, hfront, -⟩ := h.2.2.2.2.2 laggingCapture
    (by decide +kernel) (by decide) (laggingRun.consumed.take 1)
    (laggingRun.consumed.getLast (by decide +kernel)) []
    (by decide +kernel) (by decide +kernel) (by decide +kernel)
  exact ⟨pre, hpre, hfront⟩

end DataCache.Capture
