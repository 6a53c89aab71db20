import DataCache.Capture.Batches

/-!
# The callbacks keep the hand-off in order

One rule for each kind of operation, and with them the trigger and the
scheduler run through from a settled state to a settled state.
-/

namespace DataCache.Capture

open DataCache.Foundation

/-! ## Rules for the operations -/

section Rules

variable {α : Type} {settings : Settings} {core : Core} {post : α → Core → Prop}

theorem CoreOk.setReserved (hok : CoreOk settings core) (count : Nat) :
    CoreOk settings { core with reservedJobs := count } :=
  ⟨hok.active, hok.refused, hok.delivered, hok.named, hok.capturesNamed,
    hok.unique, hok.bounded⟩

/-- An operation that leaves the callbacks' own state alone. -/
theorem Runs.same {op : CaptureOp} {next : op.Res → Callback α}
    (hok : CoreOk settings core) (hbacked : Backed core op)
    (hsame : ∀ r core', core.Next op r core' → core' = core)
    (h : ∀ r, core.Next op r core → Runs settings (next r) core post) :
    Runs settings (Capture.perform op >>= next) core post := by
  refine Runs.perform hbacked fun r core' hnext => ?_
  obtain rfl := hsame r core' hnext
  exact ⟨hok, h r hnext⟩

theorem Runs.reserve {next : Bool → Callback α} (hok : CoreOk settings core)
    (hgranted : Runs settings (next true)
      { core with reservedJobs := core.reservedJobs + 1 } post)
    (hrefused : Runs settings (next false) core post) :
    Runs settings (Capture.perform .reserve >>= next) core post := by
  refine Runs.perform trivial ?_
  rintro (_ | _) _ rfl
  · exact ⟨hok, hrefused⟩
  · exact ⟨hok.setReserved _, hgranted⟩

theorem Runs.release {next : Unit → Callback α} (hok : CoreOk settings core)
    (h : Runs settings (next ())
      { core with reservedJobs := core.reservedJobs - 1 } post) :
    Runs settings (Capture.perform .releaseReservation >>= next) core post := by
  refine Runs.perform trivial ?_
  rintro _ _ rfl
  exact ⟨hok.setReserved _, h⟩

/-- The job is accepted, or refused without being a reserved one. -/
theorem Runs.enqueue {next : Bool → Callback α} {job : Job} {reserved : Bool}
    (hbacked : Backed core (.enqueue job reserved))
    (haccepted : let core' := { core with
        reservedJobs :=
          if reserved then core.reservedJobs - 1 else core.reservedJobs
        accepted := core.accepted ++ [⟨job, core.buffer.getAllData⟩] }
      CoreOk settings core' ∧ Runs settings (next true) core' post)
    (hrefused : reserved = false →
      CoreOk settings { core with refused := core.refused ++ [job] } ∧
      Runs settings (next false)
        { core with refused := core.refused ++ [job] } post) :
    Runs settings (Capture.perform (.enqueue job reserved) >>= next) core post := by
  refine Runs.perform hbacked ?_
  rintro r _ (⟨rfl, rfl⟩ | ⟨rfl, hplain, rfl⟩)
  · exact haccepted
  · exact hrefused hplain

end Rules

/-! ## The trigger -/

def Core.logged (core : Core) (settings : Settings) (eventName : Text)
    (eventTime : Int) (result : CaptureResult) : Core :=
  if result.accepted then
    { core with
      captures := core.captures ++
        [⟨result.directory, eventTime, settings.preSeconds eventName,
          settings.postSeconds eventName⟩] }
  else core

theorem Core.logged_of_refused {core : Core} {settings : Settings}
    {eventName : Text} {eventTime : Int} {result : CaptureResult}
    (h : result.accepted = false) :
    core.logged settings eventName eventTime result = core := by
  simp [Core.logged, h]

/-- A new job under an unused directory disturbs no capture. -/
theorem CoreOk.enqueueUnused {settings : Settings} {core : Core}
    (hok : CoreOk settings core) (job : Job)
    (hunused : ∀ capture ∈ core.captures, capture.directory ≠ job.directory)
    (hnamed : NamedBelow core.nextCaptureId job.directory) (count : Nat) :
    CoreOk settings { core with
      reservedJobs := count
      accepted := core.accepted ++ [⟨job, core.buffer.getAllData⟩] } := by
  refine ⟨hok.active, hok.refused, fun capture hcapture hpost => ?_,
    fun entry hentry => ?_, hok.capturesNamed, hok.unique, hok.bounded⟩
  · have hne : job.directory ≠ capture.directory :=
      (hunused capture hcapture).symm
    exact (hok.delivered capture hcapture hpost).imp (·.append hne)
      (·.append hne)
  · rcases List.mem_append.mp hentry with hentry | hentry
    · exact hok.named entry hentry
    · rw [List.mem_singleton.mp hentry]
      exact hnamed

theorem Awaits.enqueueUnused {core core' : Core} {task : CaptureTask}
    (h : Awaits core task) {entry : HandedOver}
    (hunused : ∀ capture ∈ core.captures,
      capture.directory ≠ entry.job.directory)
    (hcaptures : ∀ capture ∈ core.captures, capture ∈ core'.captures)
    (haccepted : core'.accepted = core.accepted ++ [entry]) :
    Awaits core' task := by
  obtain ⟨capture, hcapture, hpost, hdirectory, htime, hend, hstarted⟩ := h
  refine ⟨capture, hcaptures capture hcapture, hpost, hdirectory, htime, hend, ?_⟩
  rw [haccepted]
  exact hstarted.append (hunused capture hcapture).symm

theorem Awaits.congr {core core' : Core} {task : CaptureTask}
    (h : Awaits core task) (hcaptures : core'.captures = core.captures)
    (haccepted : core'.accepted = core.accepted) : Awaits core' task := by
  unfold Awaits
  rw [hcaptures, haccepted]
  exact h

theorem CoreOk.logUnused {settings : Settings} {core : Core}
    (hok : CoreOk settings core) (capture : AcceptedTrigger)
    (hunused : ∀ other ∈ core.captures, other.directory ≠ capture.directory)
    (hnamed : NamedBelow core.nextCaptureId capture.directory)
    (hdelivered : 0 < capture.postSeconds → Started core.accepted capture) :
    CoreOk settings { core with captures := core.captures ++ [capture] } := by
  refine ⟨hok.active, hok.refused, fun other hother hpost => ?_, hok.named,
    fun other hother => ?_, ?_, hok.bounded⟩
  · rcases List.mem_append.mp hother with hother | hother
    · exact hok.delivered other hother hpost
    · rw [List.mem_singleton.mp hother] at hpost ⊢
      exact .inl (hdelivered hpost)
  · rcases List.mem_append.mp hother with hother | hother
    · exact hok.capturesNamed other hother
    · rw [List.mem_singleton.mp hother]
      exact hnamed
  · rw [List.map_append, List.map_singleton]
    refine List.nodup_append.mpr ⟨hok.unique, List.nodup_singleton _, ?_⟩
    intro directory hdirectory other hother
    obtain ⟨known, hknown, rfl⟩ := List.mem_map.mp hdirectory
    rw [List.mem_singleton.mp hother]
    exact hunused known hknown

theorem captureImmediately_runs {settings : Settings} {core : Core}
    (hsettled : Settled settings core) {clock : Clock}
    {eventName directory : Text} {startTime eventTime : Int}
    {pairs : List PairRecord} (hunused : Unused core directory)
    (hpost : settings.postSeconds eventName ≤ 0) :
    Runs settings
      (captureImmediately settings clock eventName directory startTime eventTime
        pairs) core
      fun result core' =>
        Settled settings (core'.logged settings eventName eventTime result) := by
  have hok := hsettled.ok
  unfold captureImmediately
  refine Runs.reserve hok ?_ (Runs.pure ?_)
  swap
  · rw [Core.logged_of_refused rfl]
    exact hsettled
  simp only [Bool.not_true, Bool.false_eq_true, if_false]
  refine Runs.same (hok.setReserved _) trivial (fun _ _ => id) fun begun _ => ?_
  split
  · refine Runs.release (hok.setReserved _) (Runs.pure ?_)
    rw [Core.logged_of_refused rfl]
    exact hsettled
  refine Runs.same (hok.setReserved _) trivial (fun _ _ h => h.2)
    fun records hrecords => ?_
  have hok' := hok.enqueueUnused (makeJob settings.config directory
    eventName records pairs true) hunused.captures hunused.named
    core.reservedJobs
  refine Runs.enqueue ⟨fun _ => Nat.succ_pos _, fun _ => rfl⟩
    ⟨hok', Runs.pure ?_⟩ (fun h => absurd h (by decide))
  refine ⟨hok'.logUnused _ hunused.captures hunused.named
    (fun h => absurd h (by simpa using hpost)), hsettled.reserved,
    fun key task hget => ?_⟩
  obtain ⟨hkey, hawaits⟩ := hsettled.tasks key task hget
  exact ⟨hkey, hawaits.enqueueUnused hunused.captures
    (fun _ => List.mem_append_left _) rfl⟩

/-- The state after a capture has become active and its slot is reserved. -/
def Core.activated (core : Core) (task : CaptureTask) : Core :=
  { core with
    reservedJobs := core.reservedJobs + 1
    activeCaptures := core.activeCaptures.set task.taskId task }

theorem CoreOk.activated {settings : Settings} {core : Core}
    (hok : CoreOk settings core) {task : CaptureTask}
    (hroom : core.activeCaptures.size < settings.maxActiveCaptures) :
    CoreOk settings (core.activated task) := by
  refine ⟨?_, hok.refused, hok.delivered, hok.named, hok.capturesNamed,
    hok.unique, hok.bounded⟩
  rw [Core.activated, Dict.size_set]
  split <;> omega

theorem enqueuePreBatch_runs {settings : Settings} {core : Core}
    (hsettled : Settled settings core) {clock : Clock}
    {eventName directory : Text} {eventTime : Int} {pairs : List PairRecord}
    (hunused : Unused core directory)
    (hroom : core.activeCaptures.size < settings.maxActiveCaptures)
    (hnewest : ∀ frame ∈ core.buffer.getAllData, timestampOf frame ≤ eventTime)
    (hpost : 0 < settings.postSeconds eventName) :
    Runs settings
      (enqueuePreBatch settings eventName directory (filename directory)
        (eventTime - settings.preSeconds eventName * nanosPerSecond) eventTime
        pairs)
      (core.activated (makeTask settings clock eventName directory eventTime))
      fun result core' =>
        Settled settings (core'.logged settings eventName eventTime result) := by
  let task := makeTask settings clock eventName directory eventTime
  have hactivated : CoreOk settings (core.activated task) :=
    hsettled.ok.activated hroom
  have habsent : core.activeCaptures.contains (filename directory) = false := by
    simp [Dict.contains, hunused.tasks]
  unfold enqueuePreBatch
  refine Runs.same hactivated trivial (fun _ _ h => h.2) ?_
  rintro _ ⟨rfl, -⟩
  refine Runs.enqueue ⟨fun h => absurd h Bool.false_ne_true,
    fun h => absurd h Bool.false_ne_true⟩ ?_ fun _ => ?_
  · -- Accepted: the batch is the first of a directory nobody used before.
    let pre : HandedOver := ⟨makeJob settings.config directory eventName
      (core.buffer.getDataWithinTimeRange
        (eventTime - settings.preSeconds eventName * nanosPerSecond) eventTime)
      pairs false, core.buffer.getAllData⟩
    let capture : AcceptedTrigger := ⟨directory, eventTime,
      settings.preSeconds eventName, settings.postSeconds eventName⟩
    have hok : CoreOk settings { core.activated task with
        accepted := core.accepted ++ [pre] } :=
      hactivated.enqueueUnused pre.job hunused.captures hunused.named _
    have hstarted : Started (core.accepted ++ [pre]) capture := by
      have hbatches : batchesOf (core.accepted ++ [pre]) directory =
          batchesOf core.accepted directory ++ [pre] := batchesOf_append_self rfl
      rw [hunused.accepted] at hbatches
      exact ⟨pre, ⟨rfl, rfl, hnewest⟩, hbatches⟩
    refine ⟨hok, Runs.pure ⟨hok.logUnused capture hunused.captures
      hunused.named fun _ => hstarted, ?_, fun key found hget => ?_⟩⟩
    · have hsize := core.activeCaptures.size_set (filename directory) task
      rw [if_neg (Bool.eq_false_iff.mp habsent), ← hsettled.reserved] at hsize
      exact hsize.symm
    · change (core.activeCaptures.set (filename directory) task).get? key =
        some found at hget
      rw [Dict.get?_set] at hget
      split at hget
      next hkey =>
        cases hget
        exact ⟨hkey.symm, capture, List.mem_append_right _ List.mem_cons_self,
          hpost, rfl, rfl, rfl, hstarted⟩
      next hkey =>
        obtain ⟨hname, hawaits⟩ := hsettled.tasks key found hget
        exact ⟨hname, hawaits.enqueueUnused hunused.captures
          (fun _ => List.mem_append_left _) rfl⟩
  · -- Refused: the capture and its reservation are taken back.
    have hrefused : CoreOk settings { core.activated task with
        refused := core.refused ++ [makeJob settings.config directory eventName
          (core.buffer.getDataWithinTimeRange
            (eventTime - settings.preSeconds eventName * nanosPerSecond)
            eventTime) pairs false] } := by
      refine ⟨hactivated.active, fun job hjob => ?_, hactivated.delivered,
        hactivated.named, hactivated.capturesNamed, hactivated.unique,
        hactivated.bounded⟩
      rcases List.mem_append.mp hjob with hjob | hjob
      · exact hsettled.ok.refused job hjob
      · rw [List.mem_singleton.mp hjob]
        rfl
    have herased : ((core.activeCaptures.set (filename directory) task).erase
        (filename directory)).size = core.activeCaptures.size := by
      have hcontains : (core.activeCaptures.set (filename directory)
          task).contains (filename directory) = true := by simp [Dict.contains]
      have hsize := Dict.size_erase _ hcontains
      rw [Dict.size_set, if_neg (Bool.eq_false_iff.mp habsent)] at hsize
      omega
    refine ⟨hrefused, Runs.perform trivial ?_⟩
    rintro _ _ rfl
    have hok : CoreOk settings { core.activated task with
        activeCaptures := (core.activeCaptures.set (filename directory)
          task).erase (filename directory)
        refused := core.refused ++ [makeJob settings.config directory eventName
          (core.buffer.getDataWithinTimeRange
            (eventTime - settings.preSeconds eventName * nanosPerSecond)
            eventTime) pairs false] } :=
      ⟨herased.le.trans hsettled.ok.active, hrefused.refused,
        hrefused.delivered, hrefused.named, hrefused.capturesNamed,
        hrefused.unique, hrefused.bounded⟩
    refine ⟨hok, Runs.release hok (Runs.same (hok.setReserved _) trivial
      (fun _ _ => id) fun _ _ => Runs.pure ?_)⟩
    rw [Core.logged_of_refused rfl]
    refine ⟨hok.setReserved _, ?_, fun key found hget => ?_⟩
    · exact hsettled.reserved.trans herased.symm
    · change ((core.activeCaptures.set (filename directory) task).erase
        (filename directory)).get? key = some found at hget
      rw [Dict.get?_erase] at hget
      split at hget
      · cases hget
      next hkey =>
        rw [Dict.get?_set_ne _ _ hkey] at hget
        obtain ⟨hname, hawaits⟩ := hsettled.tasks key found hget
        exact ⟨hname, hawaits.congr rfl rfl⟩

theorem captureWithPost_runs {settings : Settings} {core : Core}
    (hsettled : Settled settings core) {clock : Clock}
    {eventName directory : Text} {eventTime : Int} {pairs : List PairRecord}
    (hunused : Unused core directory)
    (hnewest : ∀ frame ∈ core.buffer.getAllData, timestampOf frame ≤ eventTime)
    (hpost : 0 < settings.postSeconds eventName) :
    Runs settings
      (captureWithPost settings clock eventName
        (makeTask settings clock eventName directory eventTime)
        (eventTime - settings.preSeconds eventName * nanosPerSecond) pairs) core
      fun result core' =>
        Settled settings (core'.logged settings eventName eventTime result) := by
  have hok := hsettled.ok
  have hreleased : ∀ result : CaptureResult, result.accepted = false →
      Settled settings (({ core with
        reservedJobs := core.reservedJobs + 1 - 1 } : Core).logged settings
          eventName eventTime result) := by
    intro result hresult
    rw [Core.logged_of_refused hresult]
    exact hsettled
  unfold captureWithPost
  refine Runs.reserve hok ?_ (Runs.pure ?_)
  swap
  · rw [Core.logged_of_refused rfl]
    exact hsettled
  simp only [Bool.not_true, Bool.false_eq_true, if_false]
  refine Runs.same (hok.setReserved _) trivial (fun _ _ h => h.2) ?_
  rintro _ ⟨rfl, -⟩
  split
  · exact Runs.release (hok.setReserved _) (Runs.pure (hreleased _ rfl))
  next hfull =>
    have hroom : core.activeCaptures.size < settings.maxActiveCaptures := by
      simpa using hfull
    refine Runs.same (hok.setReserved _) trivial (fun _ _ => id) fun begun _ => ?_
    split
    · exact Runs.release (hok.setReserved _) (Runs.pure (hreleased _ rfl))
    refine Runs.perform trivial ?_
    rintro _ _ rfl
    have habsent : core.activeCaptures.contains (filename directory) = false := by
      simp [Dict.contains, hunused.tasks]
    have hemplaced : Core.emplaceCapture
        { core with reservedJobs := core.reservedJobs + 1 }
        (makeTask settings clock eventName directory eventTime) =
        core.activated (makeTask settings clock eventName directory eventTime) :=
      if_neg (Bool.eq_false_iff.mp habsent)
    rw [hemplaced]
    exact ⟨hok.activated hroom,
      enqueuePreBatch_runs hsettled hunused hroom hnewest hpost⟩

/-- A trigger keeps the state settled, with its capture logged if accepted. -/
theorem recordDataAroundEventDetailed_runs {settings : Settings} {core : Core}
    (hsettled : Settled settings core) (clock : Clock) (eventName : Text) :
    Runs settings (recordDataAroundEventDetailed settings clock eventName) core
      fun result core' => Settled settings (core'.logged settings eventName
        (core.buffer.latestSensorTimestamp.getD clock.wallNow) result) := by
  have hok := hsettled.ok
  unfold recordDataAroundEventDetailed
  refine Runs.same hok trivial (fun _ _ => id) fun _ _ => ?_
  refine Runs.same hok trivial (fun _ _ h => h.2) ?_
  rintro _ ⟨rfl, -⟩
  have hnewest : ∀ frame ∈ core.buffer.getAllData, timestampOf frame ≤
      core.buffer.latestSensorTimestamp.getD clock.wallNow := by
    intro frame hframe
    obtain ⟨latest, hlatest, hle⟩ := hok.bounded frame hframe
    rw [DataBuffer.latestSensorTimestamp, hlatest]
    exact hle
  refine Runs.perform trivial ?_
  rintro _ _ ⟨rfl, rfl⟩
  have hok' : CoreOk settings
      { core with nextCaptureId := core.nextCaptureId + 1 } :=
    ⟨hok.active, hok.refused, hok.delivered,
      fun entry hentry => (hok.named entry hentry).mono (Nat.le_succ _),
      fun capture hcapture =>
        (hok.capturesNamed capture hcapture).mono (Nat.le_succ _),
      hok.unique, hok.bounded⟩
  have hsettled' : Settled settings
      { core with nextCaptureId := core.nextCaptureId + 1 } :=
    ⟨hok', hsettled.reserved, fun key task hget =>
      ⟨(hsettled.tasks key task hget).1,
        (hsettled.tasks key task hget).2.congr rfl rfl⟩⟩
  have hunused := hsettled.unused eventName clock.systemNowNs
  refine ⟨hok', Runs.same hok' trivial (fun _ _ => id) fun pairs _ => ?_⟩
  split
  · refine Runs.pure ?_
    rw [Core.logged_of_refused rfl]
    exact hsettled'
  · split
    next hpost => exact captureImmediately_runs hsettled' hunused hpost
    next hpost =>
      exact captureWithPost_runs hsettled' hunused hnewest (not_le.mp hpost)

/-! ## The scheduler -/

/-- The tasks still to be stored, each waiting for its final batch. -/
structure Harvested (core : Core) (tasks : List CaptureTask) : Prop where
  awaits : ∀ task ∈ tasks, Awaits core task
  distinct : (tasks.map CaptureTask.directory).Nodup
  inactive : ∀ task ∈ tasks, ∀ key other,
    core.activeCaptures.get? key = some other →
    other.directory ≠ task.directory
  reserved : core.reservedJobs = core.activeCaptures.size + tasks.length

/-- The state once the final batch of a capture has been accepted. -/
def Core.stored (core : Core) (job : Job) : Core :=
  { core with
    reservedJobs := core.reservedJobs - 1
    accepted := core.accepted ++ [⟨job, core.buffer.getAllData⟩] }

/-- A final batch finishes its capture and leaves the other captures alone. -/
theorem CoreOk.stored {settings : Settings} {core : Core}
    (hok : CoreOk settings core) {task : CaptureTask} (hawaits : Awaits core task)
    {job : Job} (hdirectory : job.directory = task.directory)
    (hfinal : job.finalJob = true)
    (hrecords : job.records = withoutBoundary task.eventTime
      (core.buffer.getAllData.filter
        (DataBuffer.within task.eventTime task.endTime))) :
    CoreOk settings (core.stored job) := by
  obtain ⟨capture, hcapture, hpost, hname, htime, hend, pre, hpre, hbatches⟩ :=
    hawaits
  refine ⟨hok.active, hok.refused, fun other hother hother' => ?_,
    fun entry hentry => ?_, hok.capturesNamed, hok.unique, hok.bounded⟩
  · by_cases hsame : other.directory = job.directory
    · have hnodup := List.inj_on_of_nodup_map hok.unique
      obtain rfl : other = capture :=
        hnodup hother hcapture (hsame.trans (hdirectory.trans hname.symm))
      have hself : batchesOf (core.stored job).accepted other.directory =
          batchesOf core.accepted other.directory ++
            [⟨job, core.buffer.getAllData⟩] := batchesOf_append_self hsame.symm
      rw [hbatches] at hself
      refine .inr ⟨pre, _, hpre, ⟨hfinal, ?_⟩, hself⟩
      rw [htime, ← htime, ← hend, htime]
      exact hrecords
    · exact (hok.delivered other hother hother').imp
        (fun h => Started.append h (Ne.symm hsame))
        (fun h => Finished.append h (Ne.symm hsame))
  · rcases List.mem_append.mp hentry with hentry | hentry
    · exact hok.named entry hentry
    · rw [List.mem_singleton.mp hentry, hdirectory, ← hname]
      exact hok.capturesNamed capture hcapture

theorem Awaits.stored {core : Core} {task : CaptureTask} (h : Awaits core task)
    {job : Job} (hne : job.directory ≠ task.directory) :
    Awaits (core.stored job) task := by
  obtain ⟨capture, hcapture, hpost, hname, htime, hend, hstarted⟩ := h
  exact ⟨capture, hcapture, hpost, hname, htime, hend,
    hstarted.append (hname ▸ hne)⟩

theorem storePostBatch_runs {settings : Settings} {core : Core}
    (hok : CoreOk settings core) {task : CaptureTask}
    (hawaits : Awaits core task) (hreserved : 0 < core.reservedJobs)
    {post : Core → Prop}
    (h : ∀ job : Job, job.directory = task.directory →
      CoreOk settings (core.stored job) → post (core.stored job)) :
    Runs settings (storePostBatch settings task) core fun _ => post := by
  unfold storePostBatch
  refine Runs.same hok trivial (fun _ _ => id) fun _ _ => ?_
  refine Runs.same hok trivial (fun _ _ h => h.2) ?_
  rintro _ ⟨rfl, -⟩
  refine Runs.same hok trivial (fun _ _ => id) fun pairs _ => ?_
  have hstored := fun job hdirectory hfinal hrecords =>
    @CoreOk.stored settings core hok task hawaits job hdirectory hfinal hrecords
  refine Runs.enqueue ⟨fun _ => hreserved, fun _ => rfl⟩
    ⟨hstored _ rfl rfl rfl, Runs.pure (h _ rfl (hstored _ rfl rfl rfl))⟩
    fun hplain => absurd hplain (by decide)

theorem Harvested.stored {core : Core} {task : CaptureTask}
    {rest : List CaptureTask} (h : Harvested core (task :: rest)) {job : Job}
    (hdirectory : job.directory = task.directory) :
    Harvested (core.stored job) rest := by
  have hdistinct := List.nodup_cons.mp h.distinct
  refine ⟨fun other hother => ?_, hdistinct.2,
    fun other hother => h.inactive other (List.mem_cons_of_mem _ hother), ?_⟩
  · refine (h.awaits other (List.mem_cons_of_mem _ hother)).stored ?_
    rw [hdirectory]
    exact fun heq => hdistinct.1 (heq ▸ List.mem_map_of_mem hother)
  · have hreserved := h.reserved
    rw [List.length_cons] at hreserved
    change core.reservedJobs - 1 = core.activeCaptures.size + rest.length
    omega

theorem storePostBatches_runs {settings : Settings} :
    ∀ {tasks : List CaptureTask} {core : Core}, CoreOk settings core →
      Harvested core tasks →
      (∀ key task, core.activeCaptures.get? key = some task →
        key = filename task.directory ∧ Awaits core task) →
      Runs settings (storePostBatches settings tasks) core
        fun _ => Settled settings
  | [], core, hok, hharvested, htasks => by
      exact Runs.pure ⟨hok, hharvested.reserved, htasks⟩
  | task :: rest, core, hok, hharvested, htasks => by
      have hreserved := hharvested.reserved
      rw [List.length_cons] at hreserved
      refine Runs.bind (storePostBatch_runs hok
        (hharvested.awaits task List.mem_cons_self) (by omega)
        fun job hdirectory hstored => ?_)
      refine storePostBatches_runs hstored (hharvested.stored hdirectory)
        fun key other hget => ?_
      obtain ⟨hkey, hawaits⟩ := htasks key other hget
      refine ⟨hkey, hawaits.stored ?_⟩
      rw [hdirectory]
      exact (hharvested.inactive task List.mem_cons_self key other hget).symm

/-- The scheduler keeps the state settled. -/
theorem processExpiredCaptures_runs {settings : Settings} {core : Core}
    (hsettled : Settled settings core) (clock : Clock) :
    Runs settings (processExpiredCaptures settings clock) core
      fun _ => Settled settings := by
  have hok := hsettled.ok
  unfold processExpiredCaptures
  refine Runs.same hok trivial (fun _ _ h => h.2) ?_
  rintro sensorNow ⟨-, -⟩
  refine Runs.perform trivial ?_
  rintro (expired : List CaptureTask) _ ⟨hperm, rfl⟩
  let expiredKey := core.expiredKey sensorNow clock.steadyNow
  have hkept : ∀ key task, (core.activeCaptures.filterKeys
      fun key => !expiredKey key).get? key = some task →
      expiredKey key = false ∧ core.activeCaptures.get? key = some task := by
    intro key task hget
    rw [Dict.get?_filterKeys] at hget
    split at hget
    next hkey => exact ⟨by simpa using hkey, hget⟩
    · cases hget
  have hexpired : ∀ task ∈ expired, ∃ key, expiredKey key = true ∧
      core.activeCaptures.get? key = some task := by
    intro task htask
    obtain ⟨⟨key, found⟩, hmem, rfl⟩ := List.mem_map.mp (hperm.mem_iff.mp htask)
    have hget := (Dict.mem_entries_iff _).mp hmem
    rw [Dict.get?_filterKeys] at hget
    split at hget
    next hkey => exact ⟨key, hkey, hget⟩
    · cases hget
  have hok' : CoreOk settings { core with
      activeCaptures := core.activeCaptures.filterKeys
        fun key => !expiredKey key } :=
    ⟨(Dict.size_filterKeys_le _ _).trans hok.active, hok.refused, hok.delivered,
      hok.named, hok.capturesNamed, hok.unique, hok.bounded⟩
  refine ⟨hok', storePostBatches_runs hok' ⟨fun task htask => ?_, ?_,
    fun task htask key other hget heq => ?_, ?_⟩ fun key task hget => ?_⟩
  · obtain ⟨key, -, hget⟩ := hexpired task htask
    exact (hsettled.tasks key task hget).2.congr rfl rfl
  · -- Keys are the file names of the directories, and keys differ.
    have hkeys : ((core.activeCaptures.filterKeys expiredKey).values.map
        CaptureTask.directory).map filename =
        (core.activeCaptures.filterKeys expiredKey).keys := by
      rw [Dict.values, Dict.keys, List.map_map, List.map_map]
      refine List.map_congr_left fun entry hentry => ?_
      have hmem := (List.mem_filter.mp hentry).1
      exact (hsettled.tasks entry.1 entry.2
        ((Dict.mem_entries_iff _).mp hmem)).1.symm
    have hnodup := (core.activeCaptures.filterKeys expiredKey).keys_nodup
    rw [← hkeys] at hnodup
    exact ((hperm.map CaptureTask.directory).nodup_iff).mpr hnodup.of_map
  · obtain ⟨key', hkey', hget'⟩ := hexpired task htask
    obtain ⟨hkey, hother⟩ := hkept key other hget
    have hsame : key = key' := by
      rw [(hsettled.tasks key other hother).1,
        (hsettled.tasks key' task hget').1, heq]
    rw [hsame, hkey'] at hkey
    cases hkey
  · have hsize := core.activeCaptures.size_filterKeys_add expiredKey
    have hlength := hperm.length_eq
    change core.reservedJobs = _ + expired.length
    rw [hsettled.reserved, ← hsize, hlength, Dict.values, List.length_map]
    exact Nat.add_comm _ _
  · obtain ⟨hkey, hawaits⟩ := hsettled.tasks key task (hkept key task hget).2
    exact ⟨hkey, hawaits.congr rfl rfl⟩

end DataCache.Capture
