import DataCache.Capture.System

/-!
# Reservations and batches

The part of the state that pops do not change, what each operation does to it,
and the invariant of the hand-off: reservations are owed to active captures,
the queue never overflows, and each capture hands over its first batch before
its final one.
-/

namespace DataCache.Capture

open DataCache.Foundation

/-! ## Directory names -/

theorem underscore_not_mem_showNat (n : Nat) : '_' ∉ showNat n := fun h => by
  have hdigit := isDigit_of_mem_showNat h
  exact absurd hdigit (by decide)

theorem underscore_not_mem_showInt (n : Int) : '_' ∉ showInt n := by
  cases n with
  | ofNat n => exact underscore_not_mem_showNat n
  | negSucc n => simpa [showInt] using underscore_not_mem_showNat (n + 1)

theorem slash_not_mem_showNat (n : Nat) : '/' ∉ showNat n := fun h => by
  have hdigit := isDigit_of_mem_showNat h
  exact absurd hdigit (by decide)

theorem slash_not_mem_showInt (n : Int) : '/' ∉ showInt n := by
  cases n with
  | ofNat n => exact slash_not_mem_showNat n
  | negSucc n => simpa [showInt] using slash_not_mem_showNat (n + 1)

theorem filename_append {path tail : Text} (h : '/' ∉ tail) :
    filename (path ++ tail) = filename path ++ tail := by
  have hall : ∀ c ∈ tail.reverse, decide (c ≠ '/') = true := by
    intro c hc
    have hne : c ≠ '/' := fun heq => h (heq ▸ List.mem_reverse.mp hc)
    simpa using hne
  rw [filename, filename, List.reverse_append, List.takeWhile_append_of_pos hall,
    List.reverse_append, List.reverse_reverse]

/-- What follows the last underscore, and what comes before it. -/
theorem append_underscore_inj {first second first' second' : Text}
    (h₁ : '_' ∉ second) (h₂ : '_' ∉ second')
    (h : first ++ '_' :: second = first' ++ '_' :: second') :
    first = first' ∧ second = second' := by
  rw [List.append_eq_append_iff] at h
  rcases h with ⟨middle, hfirst, htail⟩ | ⟨middle, hfirst, htail⟩ <;>
    cases middle with
    | nil => simp_all
    | cons c middle =>
        simp only [List.cons_append, List.cons.injEq] at htail
        obtain ⟨rfl, rfl⟩ := htail
        simp at h₁ h₂

theorem filename_eventDirectoryName (eventName : Text) (captureId : Nat)
    (systemNowNs : Int) :
    filename (eventDirectoryName eventName captureId systemNowNs) =
      (filename eventName ++ '_' :: showNat captureId) ++
        '_' :: showInt systemNowNs := by
  have htail : '/' ∉ '_' :: showNat captureId ++ '_' :: showInt systemNowNs := by
    simp [slash_not_mem_showNat, slash_not_mem_showInt]
  rw [List.append_assoc, ← filename_append htail]
  simp [eventDirectoryName]

/-- Captures with different ids have different task ids and directories. -/
theorem captureId_of_filename {name name' : Text} {id id' : Nat} {ns ns' : Int}
    (h : filename (eventDirectoryName name id ns) =
      filename (eventDirectoryName name' id' ns')) : id = id' := by
  rw [filename_eventDirectoryName, filename_eventDirectoryName] at h
  obtain ⟨hleft, -⟩ := append_underscore_inj (underscore_not_mem_showInt _)
    (underscore_not_mem_showInt _) h
  obtain ⟨-, hid⟩ := append_underscore_inj (underscore_not_mem_showNat _)
    (underscore_not_mem_showNat _) hleft
  exact showNat_injective hid

/-! ## The callbacks' own state -/

structure Core where
  buffer : DataBuffer
  activeCaptures : Dict Text CaptureTask
  nextCaptureId : Nat
  reservedJobs : Nat
  accepted : List HandedOver
  refused : List Job
  captures : List AcceptedTrigger

def System.core (s : System) : Core :=
  ⟨s.buffer, s.activeCaptures, s.nextCaptureId, s.storage.reservedJobs,
    s.accepted, s.refused, s.captures⟩

@[simp] theorem core_pop (s : System) (count : Nat) :
    (s.pop count).core = s.core := rfl

namespace Core

def expiredKey (core : Core) (sensorNow : Option Int) (steadyNow : Int)
    (key : Text) : Bool :=
  (core.activeCaptures.get? key).any fun task => task.expired sensorNow steadyNow

def reserve (core : Core) (granted : Bool) : Core :=
  if granted then { core with reservedJobs := core.reservedJobs + 1 } else core

def emplaceCapture (core : Core) (task : CaptureTask) : Core :=
  if core.activeCaptures.contains task.taskId then core
  else { core with activeCaptures := core.activeCaptures.set task.taskId task }

/-- The effect of an operation on the callbacks' own state. -/
def Next (core : Core) : (op : CaptureOp) → op.Res → Core → Prop
  | .takeCaptureId, r, core' => r = core.nextCaptureId ∧
      core' = { core with nextCaptureId := core.nextCaptureId + 1 }
  | .latestSensorTimestamp, r, core' =>
      r = core.buffer.latestSensorTimestamp ∧ core' = core
  | .framesWithin first last, r, core' =>
      r = core.buffer.getDataWithinTimeRange first last ∧ core' = core
  | .reserve, r, core' => core' = core.reserve r
  | .releaseReservation, _, core' =>
      core' = { core with reservedJobs := core.reservedJobs - 1 }
  | .enqueue job reserved, r, core' =>
      (r = true ∧ core' = { core with
        reservedJobs :=
          if reserved then core.reservedJobs - 1 else core.reservedJobs
        accepted := core.accepted ++ [⟨job, core.buffer.getAllData⟩] }) ∨
      (r = false ∧ reserved = false ∧
        core' = { core with refused := core.refused ++ [job] })
  | .activeCaptures, r, core' => r = core.activeCaptures.size ∧ core' = core
  | .emplaceCapture task, _, core' => core' = core.emplaceCapture task
  | .eraseCapture taskId, _, core' =>
      core' = { core with activeCaptures := core.activeCaptures.erase taskId }
  | .harvestExpired sensorNow steadyNow, r, core' =>
      r.Perm (core.activeCaptures.filterKeys
        (core.expiredKey sensorNow steadyNow)).values ∧
      core' = { core with
        activeCaptures := core.activeCaptures.filterKeys fun key =>
          !core.expiredKey sensorNow steadyNow key }
  | _, _, core' => core' = core

end Core

/-- The queue conserves jobs and keeps room for every reservation. -/
structure QueueOk (settings : Settings) (s : System) : Prop where
  queue : s.consumed ++ s.storage.jobs = s.accepted.map HandedOver.job
  room : s.storage.jobs.length + s.storage.reservedJobs ≤ settings.maxPendingJobs
  limit : s.storage.maxPendingJobs = settings.maxPendingJobs
  running : s.storage.stopping = false

theorem QueueOk.pop {settings : Settings} {s : System}
    (h : QueueOk settings s) (count : Nat) : QueueOk settings (s.pop count) := by
  refine ⟨?_, ?_, h.limit, h.running⟩
  · rw [System.pop, List.append_assoc, List.take_append_drop, h.queue]
  · have hroom := h.room
    simp only [System.pop, List.length_drop]
    omega

/-- A reserved batch needs a reservation, and a final batch is a reserved one. -/
def Backed (core : Core) : CaptureOp → Prop
  | .enqueue job reserved =>
      (reserved = true → 0 < core.reservedJobs) ∧
        (job.finalJob = true → reserved = true)
  | _ => True

theorem QueueOk.performs {settings : Settings} {s s' : System} {op : CaptureOp}
    {r : op.Res} (hok : QueueOk settings s) (hbacked : Backed s.core op)
    (h : Performs s op r s') :
    QueueOk settings s' ∧ s.core.Next op r s'.core := by
  cases op with
  | flushPendingPairs =>
      obtain ⟨pairIndex, rfl⟩ := h
      exact ⟨⟨hok.queue, hok.room, hok.limit, hok.running⟩, rfl⟩
  | latestSensorTimestamp =>
      obtain ⟨rfl, rfl⟩ := h
      exact ⟨hok, rfl, rfl⟩
  | takeCaptureId =>
      obtain ⟨rfl, rfl⟩ := h
      exact ⟨⟨hok.queue, hok.room, hok.limit, hok.running⟩, rfl, rfl⟩
  | framesWithin =>
      obtain ⟨rfl, rfl⟩ := h
      exact ⟨hok, rfl, rfl⟩
  | pairsWithin =>
      obtain ⟨rfl, rfl⟩ := h
      exact ⟨hok, rfl⟩
  | reserve =>
      obtain ⟨rfl, rfl⟩ := h
      have hroom := hok.room
      have hlimit := hok.limit
      unfold StorageQueue.reserve
      by_cases hfull : (s.storage.stopping || s.storage.full) = true
      · rw [if_pos hfull]
        exact ⟨hok, rfl⟩
      · rw [if_neg hfull]
        have hspace : ¬s.storage.jobs.length + s.storage.reservedJobs ≥
            s.storage.maxPendingJobs := by
          simp only [hok.running, StorageQueue.full, Bool.false_or,
            decide_eq_true_eq] at hfull
          exact hfull
        exact ⟨⟨hok.queue, by simp only; omega, hok.limit, hok.running⟩, rfl⟩
  | releaseReservation =>
      cases h
      have hroom := hok.room
      exact ⟨⟨hok.queue, by simp only [StorageQueue.releaseReservation]; omega,
        hok.limit, hok.running⟩, rfl⟩
  | enqueue job reserved =>
      obtain ⟨rfl, rfl⟩ := h
      have hroom := hok.room
      have hlimit := hok.limit
      have hreserved : reserved = true → 0 < s.storage.reservedJobs := hbacked.1
      unfold System.enqueue StorageQueue.enqueue
      by_cases hfull : (s.storage.stopping || (!reserved && s.storage.full)) = true
      · rw [if_pos hfull]
        have hplain : reserved = false := by
          simp only [hok.running, Bool.false_or, Bool.and_eq_true,
            Bool.not_eq_true'] at hfull
          exact hfull.1
        subst hplain
        exact ⟨⟨hok.queue, hok.room, hok.limit, hok.running⟩,
          .inr ⟨rfl, rfl, rfl⟩⟩
      · rw [if_neg hfull]
        refine ⟨⟨?_, ?_, hok.limit, hok.running⟩, .inl ⟨rfl, rfl⟩⟩
        · simp [← List.append_assoc, hok.queue]
        · cases reserved with
          | true =>
              have hpos := hreserved rfl
              simp only [List.length_append, List.length_singleton, if_true]
              omega
          | false =>
              simp only [hok.running, StorageQueue.full, Bool.false_or,
                Bool.not_false, Bool.true_and, decide_eq_true_eq] at hfull
              simp only [List.length_append, List.length_singleton,
                Bool.false_eq_true, if_false]
              omega
  | activeCaptures =>
      obtain ⟨rfl, rfl⟩ := h
      exact ⟨hok, rfl, rfl⟩
  | emplaceCapture task =>
      cases h
      by_cases hpresent : s.activeCaptures.contains task.taskId = true
      · have hsame : s.emplaceCapture task = s := if_pos hpresent
        rw [hsame]
        exact ⟨hok, (if_pos hpresent).symm⟩
      · have hset : s.emplaceCapture task = { s with
            activeCaptures := s.activeCaptures.set task.taskId task } :=
          if_neg hpresent
        rw [hset]
        exact ⟨⟨hok.queue, hok.room, hok.limit, hok.running⟩,
          (if_neg hpresent).symm⟩
  | eraseCapture taskId =>
      cases h
      exact ⟨⟨hok.queue, hok.room, hok.limit, hok.running⟩, rfl⟩
  | harvestExpired sensorNow steadyNow =>
      obtain ⟨hperm, rfl⟩ := h
      exact ⟨⟨hok.queue, hok.room, hok.limit, hok.running⟩, hperm, rfl⟩
  | beginEvent =>
      cases h
      exact ⟨hok, rfl⟩
  | failEvent =>
      cases h
      exact ⟨hok, rfl⟩

end DataCache.Capture
