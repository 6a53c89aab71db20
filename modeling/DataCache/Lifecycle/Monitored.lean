import DataCache.Capture.HandOff
import DataCache.Lifecycle.Truthful

/-!
# The monitor over the store of its event directories

The callbacks of the monitor with the marker files they write, file operation by
file operation, while the storage worker takes jobs, settles the directories of
the jobs it has taken, or is told to stop.  Markers come into a directory only
after the monitor has drawn its capture id.
-/

namespace DataCache.Lifecycle

open DataCache.Foundation DataCache.Storage DataCache.EventState
open DataCache.Capture (Callback CaptureOp CaptureResult CaptureTask Clock Job
  PairIndex PairRecord SensorData Settings System captureId_of_filename
  captureImmediately captureWithPost enqueuePreBatch eventDirectoryName filename
  processExpiredCaptures recordDataAroundEventDetailed storePostBatches)

/-! ## The state and the other threads -/

structure Monitored where
  system : System
  store : Store

namespace Monitored

def present (directory : Text) (s : Monitored) (marker : Marker) : Bool :=
  (s.store.disk.node? (marker.path directory)).isSome

/-- The directory has no marker of a capture that is pending or recorded. -/
def Clear (directory : Text) (s : Monitored) : Prop :=
  ∀ marker ∈ [Marker.pending, Marker.complete], s.present directory marker = false

end Monitored

/-- The storage worker takes jobs, and its destructor may tell it to stop. -/
def worked (s : System) (count : Nat) (stop : Bool) : System :=
  { s.pop count with
    storage := { (s.pop count).storage with
      stopping := s.storage.stopping || stop } }

/-- The storage worker has taken a job of the directory. -/
def JobTaken (directory : Text) (s : System) : Prop :=
  ∃ job ∈ s.consumed, job.directory = directory

/--
What happens beside the monitor: nobody writes `.pending` or `.complete` into
the directory unless the storage worker has taken one of its jobs.
-/
structure Meanwhile (directory : Text) (s s' : Monitored) : Prop where
  worker : ∃ count stop, s'.system = worked s.system count stop
  vanishing : ¬JobTaken directory s'.system →
    ∀ marker ∈ [Marker.pending, Marker.complete],
      s'.present directory marker = true → s.present directory marker = true

/-- A file operation answered so, with other threads before and after it. -/
def Files (codec : Codec) (directory : Text)
    (answers : (op : FsOp) → op.Res → Prop) : Prog.Effect FsOp.Res Monitored :=
  fun s op r s' => ∃ before store, Meanwhile directory s before ∧ answers op r ∧
    Effect codec before.store op r store ∧
    Meanwhile directory { before with store } s'

/--
An operation of the monitor.  A failed capture is marked by file operations that
are answered so; those of `begin` may always fail.
-/
def Monitors (codec : Codec) (directory : Text)
    (answers : (op : FsOp) → op.Res → Prop) :
    Prog.Effect CaptureOp.Res Monitored
  | s, .beginEvent target eventName acceptedAtNs, begun, s' =>
      Prog.Exec (Files codec directory fun _ _ => True) s
        (begin target eventName acceptedAtNs) s' (.ret begun)
  | s, .failEvent target reason, written, s' =>
      Prog.Exec (Files codec directory answers) s (fail target reason) s'
        (.ret written)
  | s, op, r, s' => ∃ before system, Meanwhile directory s before ∧
      Capture.Performs before.system op r system ∧
      Meanwhile directory { before with system } s'

/--
The states between callbacks, with any marker operation failing at any time.
Event directories are named after the system clock: the process finds no marker
where it will capture.
-/
inductive Monitored.Reachable (settings : Settings) (codec : Codec)
    (directory : Text) : Monitored → Prop
  | start (maxSize : Nat) (maxAge : Int) (maxBytes : Nat) (store : Store)
      (hnew : Monitored.Clear directory
        ⟨Capture.initial settings maxSize maxAge maxBytes, store⟩) :
      Reachable settings codec directory
        ⟨Capture.initial settings maxSize maxAge maxBytes, store⟩
  | frame {s : Monitored} (data : SensorData)
      (h : Reachable settings codec directory s) :
      Reachable settings codec directory
        { s with
          system := { s.system with
            buffer := s.system.buffer.addData data
            arrivals := s.system.arrivals ++ [data] } }
  | ledger {s : Monitored} (pairIndex : PairIndex)
      (h : Reachable settings codec directory s) :
      Reachable settings codec directory
        { s with system := { s.system with pairIndex } }
  | threads {s s' : Monitored} (h : Reachable settings codec directory s)
      (hmeanwhile : Meanwhile directory s s') :
      Reachable settings codec directory s'
  | trigger {s s' : Monitored} {result : CaptureResult} (clock : Clock)
      (eventName : Text) (h : Reachable settings codec directory s)
      (hexec : Prog.Exec (Monitors codec directory fun _ _ => True) s
        (recordDataAroundEventDetailed settings clock eventName) s' (.ret result)) :
      Reachable settings codec directory
        { s' with
          system := Capture.logCapture settings clock eventName s.system s'.system
            result }
  | scheduler {s s' : Monitored} (clock : Clock)
      (h : Reachable settings codec directory s)
      (hexec : Prog.Exec (Monitors codec directory fun _ _ => True) s
        (processExpiredCaptures settings clock) s' (.ret ())) :
      Reachable settings codec directory s'

/-! ## Directories of the ids drawn so far -/

/-- The name of an event directory with one of the first `next` capture ids. -/
def Named (next : Nat) (directory : Text) : Prop :=
  ∃ eventName captureId systemNowNs, captureId < next ∧
    directory = eventDirectoryName eventName captureId systemNowNs

theorem Named.mono {next next' : Nat} {directory : Text}
    (h : Named next directory) (hle : next ≤ next') : Named next' directory := by
  obtain ⟨eventName, captureId, systemNowNs, hlt, heq⟩ := h
  exact ⟨eventName, captureId, systemNowNs, Nat.lt_of_lt_of_le hlt hle, heq⟩

theorem named_succ (eventName : Text) (captureId : Nat) (systemNowNs : Int) :
    Named (captureId + 1) (eventDirectoryName eventName captureId systemNowNs) :=
  ⟨eventName, captureId, systemNowNs, Nat.lt_succ_self captureId, rfl⟩

/-- A directory named with an earlier id is another one, also by its last part. -/
theorem Named.filename_ne {next : Nat} {directory : Text}
    (h : Named next directory) (eventName : Text) (systemNowNs : Int) :
    filename directory ≠ filename (eventDirectoryName eventName next systemNowNs) := by
  obtain ⟨eventName', captureId, systemNowNs', hlt, rfl⟩ := h
  exact fun heq => Nat.ne_of_lt hlt (captureId_of_filename heq)

/-- The reservation is used up even by a job that is refused. -/
def unreserved (s : System) (reserved : Bool) : Nat :=
  if reserved then s.storage.reservedJobs - 1 else s.storage.reservedJobs

theorem enqueue_cases (s : System) (job : Job) (reserved : Bool) :
    ((s.enqueue job reserved).1 = true ∧ (s.enqueue job reserved).2 = { s with
        storage := { s.storage with
          jobs := s.storage.jobs ++ [job]
          reservedJobs := unreserved s reserved }
        accepted := s.accepted ++ [⟨job, s.buffer.getAllData⟩] }) ∨
    ((s.enqueue job reserved).1 = false ∧ (s.enqueue job reserved).2 = { s with
        storage := { s.storage with reservedJobs := unreserved s reserved }
        refused := s.refused ++ [job] }) := by
  unfold System.enqueue Capture.StorageQueue.enqueue
  by_cases hfull : (s.storage.stopping || (!reserved && s.storage.full)) = true
  · rw [if_pos hfull]
    exact .inr ⟨rfl, rfl⟩
  · rw [if_neg hfull]
    exact .inl ⟨rfl, rfl⟩

/-- Captures and jobs are of directories named so far. -/
structure Numbered (s : System) : Prop where
  active : ∀ key task, s.activeCaptures.get? key = some task →
    key = filename task.directory ∧ Named s.nextCaptureId task.directory
  jobs : ∀ job ∈ s.consumed ++ s.storage.jobs,
    Named s.nextCaptureId job.directory

/-- The operation is about directories with one of the first `next` ids. -/
def About (next : Nat) : CaptureOp → Prop
  | .enqueue job _ => Named next job.directory
  | .emplaceCapture task => task.taskId = filename task.directory ∧
      Named next task.directory
  | .beginEvent target _ _ => Named next target
  | .failEvent target _ => Named next target
  | _ => True

theorem About.mono {next next' : Nat} {op : CaptureOp} (h : About next op)
    (hle : next ≤ next') : About next' op := by
  cases op with
  | enqueue job reserved => exact Named.mono h hle
  | emplaceCapture task => exact ⟨h.1, h.2.mono hle⟩
  | beginEvent target eventName acceptedAtNs => exact Named.mono h hle
  | failEvent target reason => exact Named.mono h hle
  | _ => trivial

theorem Numbered.worked {s : System} (h : Numbered s) (count : Nat) (stop : Bool) :
    Numbered (worked s count stop) := by
  refine ⟨h.active, fun job hjob => h.jobs job ?_⟩
  simpa only [Lifecycle.worked, System.pop, List.append_assoc,
    List.take_append_drop] using hjob

/-- The operation leaves the queue and the table of captures alone. -/
def Calm : CaptureOp → Prop
  | .reserve | .releaseReservation | .enqueue _ _ => False
  | .emplaceCapture _ | .eraseCapture _ | .harvestExpired _ _ => False
  | _ => True

theorem Calm.same {s s' : System} {op : CaptureOp} {r : op.Res} (hcalm : Calm op)
    (hop : Capture.Performs s op r s') :
    s'.storage = s.storage ∧ s'.activeCaptures = s.activeCaptures ∧
      s'.consumed = s.consumed ∧ s.nextCaptureId ≤ s'.nextCaptureId := by
  cases op with
  | flushPendingPairs =>
      obtain ⟨pairIndex, rfl⟩ := hop
      exact ⟨rfl, rfl, rfl, Nat.le_refl _⟩
  | latestSensorTimestamp =>
      obtain ⟨-, rfl⟩ := hop
      exact ⟨rfl, rfl, rfl, Nat.le_refl _⟩
  | takeCaptureId =>
      obtain ⟨-, rfl⟩ := hop
      exact ⟨rfl, rfl, rfl, Nat.le_succ _⟩
  | framesWithin first last =>
      obtain ⟨-, rfl⟩ := hop
      exact ⟨rfl, rfl, rfl, Nat.le_refl _⟩
  | pairsWithin first last =>
      obtain ⟨-, rfl⟩ := hop
      exact ⟨rfl, rfl, rfl, Nat.le_refl _⟩
  | activeCaptures =>
      obtain ⟨-, rfl⟩ := hop
      exact ⟨rfl, rfl, rfl, Nat.le_refl _⟩
  | beginEvent target eventName acceptedAtNs =>
      cases hop
      exact ⟨rfl, rfl, rfl, Nat.le_refl _⟩
  | failEvent target reason =>
      cases hop
      exact ⟨rfl, rfl, rfl, Nat.le_refl _⟩
  | _ => exact hcalm.elim

/-- Only the queue and the table of captures hold directories. -/
theorem Numbered.of_same {s s' : System} (h : Numbered s)
    (hactive : s'.activeCaptures = s.activeCaptures)
    (hjobs : s'.consumed ++ s'.storage.jobs = s.consumed ++ s.storage.jobs)
    (hnext : s.nextCaptureId ≤ s'.nextCaptureId) : Numbered s' := by
  constructor
  · rw [hactive]
    exact fun key task hget => (h.active key task hget).imp_right (·.mono hnext)
  · rw [hjobs]
    exact fun job hjob => (h.jobs job hjob).mono hnext

theorem Numbered.performs {s s' : System} {op : CaptureOp} {r : op.Res}
    (h : Numbered s) (habout : About s.nextCaptureId op)
    (hop : Capture.Performs s op r s') :
    Numbered s' ∧ s.nextCaptureId ≤ s'.nextCaptureId := by
  have hcalm : Calm op → Numbered s' ∧ s.nextCaptureId ≤ s'.nextCaptureId := by
    intro hcalm
    obtain ⟨hstorage, hactive, hconsumed, hnext⟩ := hcalm.same hop
    exact ⟨h.of_same hactive (by rw [hstorage, hconsumed]) hnext, hnext⟩
  cases op with
  | reserve =>
      obtain ⟨-, rfl⟩ := hop
      refine ⟨h.of_same rfl ?_ (Nat.le_refl _), Nat.le_refl _⟩
      unfold Capture.StorageQueue.reserve
      split <;> rfl
  | releaseReservation =>
      cases hop
      exact ⟨h.of_same rfl rfl (Nat.le_refl _), Nat.le_refl _⟩
  | enqueue job reserved =>
      obtain ⟨-, rfl⟩ := hop
      rcases enqueue_cases s job reserved with ⟨-, hafter⟩ | ⟨-, hafter⟩ <;>
        rw [hafter]
      · refine ⟨⟨h.active, fun job' hjob => ?_⟩, Nat.le_refl _⟩
        simp only [← List.append_assoc, List.mem_append,
          List.mem_singleton] at hjob
        rcases hjob with hjob | rfl
        · exact h.jobs job' (List.mem_append.mpr hjob)
        · exact habout
      · exact ⟨h.of_same rfl rfl (Nat.le_refl _), Nat.le_refl _⟩
  | emplaceCapture task =>
      cases hop
      unfold System.emplaceCapture
      split
      · exact ⟨h, Nat.le_refl _⟩
      · refine ⟨⟨fun key task' hget => ?_, h.jobs⟩, Nat.le_refl _⟩
        rw [Dict.get?_set] at hget
        split at hget
        next hkey =>
          cases hget
          exact ⟨hkey.symm.trans habout.1, habout.2⟩
        next => exact h.active key task' hget
  | eraseCapture taskId =>
      cases hop
      refine ⟨⟨fun key task hget => ?_, h.jobs⟩, Nat.le_refl _⟩
      rw [Dict.get?_erase] at hget
      split at hget
      · cases hget
      · exact h.active key task hget
  | harvestExpired sensorNow steadyNow =>
      obtain ⟨-, rfl⟩ := hop
      refine ⟨⟨fun key task hget => ?_, h.jobs⟩, Nat.le_refl _⟩
      rw [Dict.get?_filterKeys] at hget
      split at hget
      · exact h.active key task hget
      · cases hget
  | _ => exact hcalm trivial

/-! ## Markers come with the capture id -/

structure Monitored.Sound (directory : Text) (s : Monitored) : Prop where
  numbered : Numbered s.system
  marked : Named s.system.nextCaptureId directory ∨ s.Clear directory

/-- Sound, and the first `next` ids have been drawn. -/
structure Monitored.SoundFrom (directory : Text) (next : Nat) (s : Monitored) :
    Prop where
  sound : s.Sound directory
  drawn : next ≤ s.system.nextCaptureId

/-- The id has been drawn, or the operation brings no marker. -/
def Harmless (next : Nat) (directory : Text) (op : FsOp) : Prop :=
  Named next directory ∨ ∀ marker : Marker, Spares directory marker op

section Sound

variable {settings : Settings} {codec : Codec} {directory : Text}
  {answers : (op : FsOp) → op.Res → Prop} {next : Nat} {s s' : Monitored}

theorem Meanwhile.captureId (h : Meanwhile directory s s') :
    s'.system.nextCaptureId = s.system.nextCaptureId := by
  obtain ⟨count, stop, hsystem⟩ := h.worker
  rw [hsystem]
  rfl

theorem Meanwhile.clear (h : Meanwhile directory s s')
    (hclear : s.Clear directory) (huntaken : ¬JobTaken directory s'.system) :
    s'.Clear directory := by
  intro marker hmarker
  have habsent := hclear marker hmarker
  rw [← Bool.not_eq_true] at habsent ⊢
  exact fun hafter => habsent (h.vanishing huntaken marker hmarker hafter)

theorem Monitored.Sound.meanwhile (h : s.Sound directory)
    (hmeanwhile : Meanwhile directory s s') : s'.Sound directory := by
  have hnumbered : Numbered s'.system := by
    obtain ⟨count, stop, hsystem⟩ := hmeanwhile.worker
    rw [hsystem]
    exact h.numbered.worked count stop
  refine ⟨hnumbered, ?_⟩
  by_cases htaken : JobTaken directory s'.system
  · obtain ⟨job, hjob, rfl⟩ := htaken
    exact .inl (hnumbered.jobs job (List.mem_append_left _ hjob))
  · rw [hmeanwhile.captureId]
    exact h.marked.imp_right fun hclear => hmeanwhile.clear hclear htaken

/-- An operation that spares a marker leaves it absent. -/
theorem Spares.clear {op : FsOp} {r : op.Res} {store : Store}
    (hspares : ∀ marker : Marker, Spares directory marker op)
    (h : Effect codec s.store op r store) (hclear : s.Clear directory) :
    Monitored.Clear directory { s with store } := by
  intro marker hmarker
  have habsent := hclear marker hmarker
  rw [← Bool.not_eq_true] at habsent ⊢
  exact fun hafter => habsent ((hspares marker).present h hafter)

theorem Monitored.SoundFrom.meanwhile (h : s.SoundFrom directory next)
    (hmeanwhile : Meanwhile directory s s') : s'.SoundFrom directory next :=
  ⟨h.sound.meanwhile hmeanwhile, h.drawn.trans_eq hmeanwhile.captureId.symm⟩

theorem Monitored.SoundFrom.files {op : FsOp} {r : op.Res}
    (h : s.SoundFrom directory next) (hharmless : Harmless next directory op)
    (hop : Files codec directory answers s op r s') :
    s'.SoundFrom directory next := by
  obtain ⟨before, store, hbefore, -, heffect, hafter⟩ := hop
  obtain ⟨hsound, hdrawn⟩ := h.meanwhile hbefore
  have hwritten : Monitored.Sound directory { before with store } := by
    refine ⟨hsound.numbered, ?_⟩
    rcases hharmless with hnamed | hspares
    · exact .inl (hnamed.mono hdrawn)
    · exact hsound.marked.imp_right (Spares.clear hspares heffect)
  exact Monitored.SoundFrom.meanwhile ⟨hwritten, hdrawn⟩ hafter

theorem begin_harmless {target : Text} (hnamed : Named next target)
    (eventName : Text) (acceptedAtNs : Int) :
    (begin target eventName acceptedAtNs).uses (Harmless next directory) := by
  by_cases hown : target = directory
  · exact Prog.uses_mono (fun _ _ => .inl (hown ▸ hnamed)) (Prog.uses_true _)
  · refine Prog.uses_mono (fun _ => .inr) (Prog.uses_forall fun marker => ?_)
    exact begin_spares (fun heq => hown (Marker.path_inj heq).2.symm) _ _

theorem fail_harmless {target : Text} (hnamed : Named next target)
    (reason : Text) :
    (fail target reason).uses (Harmless next directory) := by
  by_cases hown : target = directory
  · exact Prog.uses_mono (fun _ _ => .inl (hown ▸ hnamed)) (Prog.uses_true _)
  · refine Prog.uses_mono (fun _ => .inr) (Prog.uses_forall fun marker => ?_)
    exact fail_spares (fun heq => hown (Marker.path_inj heq).2.symm) _

theorem Monitored.SoundFrom.exec {action rest : Action Bool}
    (h : s.SoundFrom directory next)
    (hharmless : action.uses (Harmless next directory))
    (hexec : Prog.Exec (Files codec directory answers) s action s' rest) :
    s'.SoundFrom directory next := by
  have hstep : ∀ (s : Monitored) (op : FsOp) (r : op.Res) (s' : Monitored),
      Harmless next directory op → s.SoundFrom directory next →
      Files codec directory answers s op r s' → s'.SoundFrom directory next :=
    fun _ _ _ _ hharmless hsound => hsound.files hharmless
  exact (Prog.wp_exec hexec h (Prog.wp_of_uses hstep hharmless h)).1

theorem Monitored.SoundFrom.performs {op : CaptureOp} {r : op.Res}
    (h : s.SoundFrom directory next) (habout : About next op)
    (hop : ∃ before system, Meanwhile directory s before ∧
      Capture.Performs before.system op r system ∧
      Meanwhile directory { before with system } s') :
    s'.SoundFrom directory next := by
  obtain ⟨before, system, hbefore, hperforms, hafter⟩ := hop
  obtain ⟨hsound, hdrawn⟩ := h.meanwhile hbefore
  obtain ⟨hnumbered, hle⟩ :=
    hsound.numbered.performs (habout.mono hdrawn) hperforms
  have hdone : Monitored.SoundFrom directory next { before with system } :=
    ⟨⟨hnumbered, hsound.marked.imp_left (·.mono hle)⟩, hdrawn.trans hle⟩
  exact hdone.meanwhile hafter

theorem Monitored.SoundFrom.monitors {op : CaptureOp} {r : op.Res}
    (h : s.SoundFrom directory next) (habout : About next op)
    (hop : Monitors codec directory answers s op r s') :
    s'.SoundFrom directory next := by
  cases op with
  | beginEvent target eventName acceptedAtNs =>
      exact h.exec (begin_harmless habout eventName acceptedAtNs) hop
  | failEvent target reason => exact h.exec (fail_harmless habout reason) hop
  | _ => exact h.performs habout hop

end Sound

/-! ## The callbacks -/

section Programs

variable {settings : Settings} {next : Nat}

theorem captureImmediately_about {directory : Text} (hnamed : Named next directory)
    (clock : Clock) (eventName : Text) (startTime eventTime : Int)
    (pairs : List PairRecord) :
    (captureImmediately settings clock eventName directory startTime eventTime
      pairs).uses (About next) := by
  refine ⟨trivial, ?_⟩
  rintro (_ | _)
  · trivial
  refine ⟨hnamed, ?_⟩
  rintro (_ | _)
  · exact ⟨trivial, fun _ => trivial⟩
  refine ⟨trivial, fun records => ⟨hnamed, ?_⟩⟩
  rintro (_ | _)
  · exact ⟨hnamed, fun _ => trivial⟩
  · trivial

theorem enqueuePreBatch_about {directory : Text} (hnamed : Named next directory)
    (eventName taskId : Text) (startTime eventTime : Int)
    (pairs : List PairRecord) :
    (enqueuePreBatch settings eventName directory taskId startTime eventTime
      pairs).uses (About next) := by
  refine ⟨trivial, fun records => ⟨hnamed, ?_⟩⟩
  rintro (_ | _)
  · exact ⟨trivial, fun _ => ⟨trivial, fun _ => ⟨hnamed, fun _ => trivial⟩⟩⟩
  · trivial

theorem captureWithPost_about {task : CaptureTask}
    (hkey : task.taskId = filename task.directory)
    (hnamed : Named next task.directory) (clock : Clock) (eventName : Text)
    (startTime : Int) (pairs : List PairRecord) :
    (captureWithPost settings clock eventName task startTime pairs).uses
      (About next) := by
  refine ⟨trivial, ?_⟩
  rintro (_ | _)
  · trivial
  refine ⟨trivial, fun active => ?_⟩
  change Prog.uses _ (@ite _ _ (Nat.decLe _ _) _ _)
  split
  · exact ⟨trivial, fun _ => trivial⟩
  refine ⟨hnamed, ?_⟩
  rintro (_ | _)
  · exact ⟨trivial, fun _ => trivial⟩
  · exact ⟨⟨hkey, hnamed⟩, fun _ =>
      enqueuePreBatch_about hnamed eventName _ _ _ pairs⟩

theorem storePostBatches_about : ∀ {tasks : List CaptureTask},
    (∀ task ∈ tasks, Named next task.directory) →
    (storePostBatches settings tasks).uses (About next)
  | [], _ => trivial
  | task :: rest, h => by
      have hnamed := h task List.mem_cons_self
      refine Prog.uses_bind ?_ fun _ =>
        storePostBatches_about fun other hother =>
          h other (List.mem_cons_of_mem _ hother)
      refine ⟨trivial, fun _ => ⟨trivial, fun records => ⟨trivial, fun pairs =>
        ⟨hnamed, ?_⟩⟩⟩⟩
      rintro (_ | _)
      · exact ⟨hnamed, fun _ => trivial⟩
      · trivial

end Programs

section Callbacks

variable {settings : Settings} {codec : Codec} {directory : Text}
  {answers : (op : FsOp) → op.Res → Prop} {next : Nat} {s s' : Monitored}

/-- All executions keep the state sound. -/
def StaysSound {α : Type} (codec : Codec) (directory : Text)
    (answers : (op : FsOp) → op.Res → Prop) (p : Callback α) (s : Monitored) :
    Prop :=
  Prog.wp (Monitors codec directory answers) (Monitored.Sound directory)
    (fun _ => Monitored.Sound directory) (fun _ => Monitored.Sound directory) p s

theorem StaysSound.of_uses {α : Type} {p : Callback α}
    (habout : p.uses (About next)) (h : s.SoundFrom directory next) :
    StaysSound codec directory answers p s := by
  have hstep : ∀ (s : Monitored) (op : CaptureOp) (r : op.Res) (s' : Monitored),
      About next op → s.SoundFrom directory next →
      Monitors codec directory answers s op r s' → s'.SoundFrom directory next :=
    fun _ _ _ _ habout hsound => hsound.monitors habout
  exact Prog.wp_mono (fun _ h => h.sound) (fun _ _ h => h.sound)
    (fun _ _ h => h.sound) (Prog.wp_of_uses hstep habout h)

/-- An operation that is about no directory. -/
theorem StaysSound.call {α : Type} {op : CaptureOp} {p : op.Res → Callback α}
    (habout : About 0 op) (h : s.Sound directory)
    (hnext : ∀ r s', Monitors codec directory answers s op r s' →
      s'.Sound directory → StaysSound codec directory answers (p r) s') :
    StaysSound codec directory answers (.call op p) s := fun r s' hop => by
  have hsound := (Monitored.SoundFrom.monitors ⟨h, Nat.zero_le _⟩ habout hop).sound
  exact ⟨hsound, hnext r s' hop hsound⟩

theorem drawn {captureId : Nat}
    (h : Monitors codec directory answers s .takeCaptureId captureId s') :
    captureId = s.system.nextCaptureId ∧
      s'.system.nextCaptureId = captureId + 1 := by
  obtain ⟨before, system, hbefore, ⟨rfl, rfl⟩, hafter⟩ := h
  exact ⟨hbefore.captureId, hafter.captureId⟩

theorem recordDataAroundEventDetailed_staysSound (h : s.Sound directory)
    (clock : Clock) (eventName : Text) :
    StaysSound codec directory answers
      (recordDataAroundEventDetailed settings clock eventName) s := by
  refine .call trivial h fun _ s₁ _ h₁ => ?_
  refine .call trivial h₁ fun sensorNow s₂ _ h₂ => ?_
  refine .call trivial h₂ fun (captureId : Nat) s₃ hdrawn h₃ => ?_
  have hnamed := named_succ eventName captureId clock.systemNowNs
  have hfrom : s₃.SoundFrom directory (captureId + 1) :=
    ⟨h₃, Nat.le_of_eq (drawn hdrawn).2.symm⟩
  refine StaysSound.of_uses ⟨trivial, fun pairs => ?_⟩ hfrom
  change Prog.uses _ (ite _ _ _)
  split
  · trivial
  · split
    · exact captureImmediately_about hnamed clock eventName _ _ pairs
    · exact captureWithPost_about rfl hnamed clock eventName _ pairs

theorem harvested {sensorNow : Option Int} {steadyNow : Int}
    {expired : List CaptureTask} (h : s.Sound directory)
    (hop : Monitors codec directory answers s (.harvestExpired sensorNow steadyNow)
      expired s') :
    ∀ task ∈ expired, Named s'.system.nextCaptureId task.directory := by
  obtain ⟨before, system, hbefore, ⟨hperm, rfl⟩, hafter⟩ := hop
  intro task htask
  obtain ⟨key, hget⟩ := Capture.mem_expiredTasks (hperm.mem_iff.mp htask)
  rw [hafter.captureId]
  exact ((h.meanwhile hbefore).numbered.active key task hget).2

theorem processExpiredCaptures_staysSound (h : s.Sound directory) (clock : Clock) :
    StaysSound codec directory answers (processExpiredCaptures settings clock) s := by
  refine .call trivial h fun sensorNow s₁ _ h₁ => ?_
  refine .call trivial h₁ fun (expired : List CaptureTask) s₂ hop h₂ => ?_
  exact .of_uses (storePostBatches_about (harvested h₁ hop)) ⟨h₂, Nat.le_refl _⟩

theorem Monitored.Reachable.sound
    (h : Monitored.Reachable settings codec directory s) : s.Sound directory := by
  induction h with
  | start maxSize maxAge maxBytes store hnew =>
      exact ⟨⟨nofun, nofun⟩, .inr hnew⟩
  | frame data _ ih =>
      exact ⟨ih.numbered.of_same rfl rfl (Nat.le_refl _), ih.marked⟩
  | ledger pairIndex _ ih =>
      exact ⟨ih.numbered.of_same rfl rfl (Nat.le_refl _), ih.marked⟩
  | threads _ hmeanwhile ih => exact ih.meanwhile hmeanwhile
  | @trigger s s' result clock eventName _ hexec ih =>
      have hsound := (Prog.wp_exec hexec ih
        (recordDataAroundEventDetailed_staysSound ih clock eventName)).1
      unfold Capture.logCapture
      split
      · exact ⟨hsound.numbered.of_same rfl rfl (Nat.le_refl _), hsound.marked⟩
      · exact hsound
  | scheduler clock _ hexec ih =>
      exact (Prog.wp_exec hexec ih
        (processExpiredCaptures_staysSound ih clock)).1

end Callbacks

end DataCache.Lifecycle
