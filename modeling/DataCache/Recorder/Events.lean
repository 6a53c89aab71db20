import DataCache.Capture.Protocol
import DataCache.Recorder.Invariant
import DataCache.Retention.Safety
import DataCache.Upload.Exclusion

/-!
# The events of a running node

However the threads interleave, `.complete` stands for everything that has been
written for its event.  From then on the event does not change, only such events are
uploaded, and a power cut that leaves `.complete` leaves the event.
-/

namespace DataCache.Recorder

open DataCache.Foundation DataCache.Storage
open DataCache.Capture (Job cameraFrame)
open DataCache.Retention (Setup callbackMove_step present sampleSetup)
open DataCache.Upload (Transfer UploadEffect effect_respondUpload
  findUploadCandidates respondUpload)
open EventState (plainCodec)

section Events

variable {setup : Setup} {worker : Worker} {directory : Text} {w : World}

/-! ## In one moment -/

/-- Nothing of the directory has been changed but what the others may change. -/
theorem apart_of_frame {s s' : Watched}
    (h : Frame directory (fun _ => False) s s') (hunswept : s'.swept = false) :
    Apart directory s s' :=
  ⟨fun path howned => h.same hunswept path howned id,
    hunswept.trans (h.swept hunswept).symm⟩

theorem Inv.orderly (h : Inv setup worker w) (hnamed : directory ∈ w.shared.named)
    (hunswept : directory ∉ w.swept) :
    Orderly setup.codec worker.sha256 directory w.watched := by
  cases h.seen directory hnamed hunswept with
  | fresh _ hfresh => exact orderly_of_absent hfresh.absent
  | served hdone _ _ htable hfresh hrounds hsince =>
      obtain ⟨horderly, hstage⟩ :=
        h.staged hdone htable hfresh hrounds (hsince.unswept rfl)
      cases hworker : w.worker with
      | waiting =>
          rw [hworker] at hsince
          exact horderly.elsewhere hsince.frame
      | processing job rest =>
          rw [hworker] at hsince hstage
          obtain ⟨between, hexec, hapart⟩ := hsince
          have hkeeps := processJob_stage worker (List.pairwise_singleton _ _)
            horderly hstage
          exact (Prog.wp_exec hexec horderly hkeeps).1.elsewhere hapart.frame

/-! ## Completed events -/

/-- A round of another event counts as a change elsewhere. -/
theorem WorkerThread.Since.elsewhere {codec : Codec} {table : EventTable}
    {s s' : Watched} {thread : WorkerThread}
    (h : thread.Since codec worker directory table s s')
    (hothers : ∀ job ∈ thread.jobs, job.directory ≠ directory)
    (hunswept : s'.swept = false) : Apart directory s s' := by
  cases thread with
  | waiting => exact h
  | processing job rest =>
      obtain ⟨between, hexec, hapart⟩ := h
      have hframe := (Prog.wp_exec hexec (Frame.refl s)
        (processJob_elsewhere worker (hothers job (List.mem_singleton_self _)))).1
      exact (apart_of_frame hframe (hapart.2 ▸ hunswept)).trans _ _ _ hapart

/-- The rounds of the event up to now, when none of them is going on. -/
theorem Seen.rounds (h : Seen setup.codec worker directory w)
    (hothers : ∀ job ∈ w.worker.jobs, job.directory ≠ directory)
    (hcomplete : w.disk.isFile (completePath directory) = true) :
    ∃ earlier rounds table s, w.done = earlier ++ rounds ∧
      (∀ round ∈ earlier, round.1.directory ≠ directory) ∧
      table.get? directory = none ∧ Fresh directory s.disk ∧
      Rounds (WorkerEffect setup.codec directory) worker table s rounds w.table
        w.watched := by
  cases h with
  | fresh _ hfresh =>
      rw [hfresh.absent.isFile] at hcomplete
      cases hcomplete
  | @served earlier rounds table s s' hdone hearlier _ htable hfresh hrounds hsince =>
      have hapart := hsince.elsewhere hothers rfl
      rcases hrounds.absorb absorbs_workerEffect hapart with ⟨rfl, hidle⟩ | hnow
      · exact ⟨earlier, rounds, table, w.watched, hdone, hearlier, htable,
          hfresh.aside hapart.1, hidle _⟩
      · exact ⟨earlier, rounds, table, s, hdone, hearlier, htable, hfresh, hnow⟩

/-- Among the rounds of an event the final one splits those before from those after. -/
theorem split_of_endsWithFinal {rounds : List (Job × Processed)}
    (h : EndsWithFinal directory (rounds.map Prod.fst))
    (hfinal : ∃ round ∈ rounds, round.1.directory = directory ∧
      round.1.finalJob = true) :
    ∃ before after job processed, rounds = before ++ (job, processed) :: after ∧
      job.directory = directory ∧ job.finalJob = true ∧
      (∀ round ∈ before, round.1.directory = directory →
        round.1.finalJob = false) ∧
      ∀ round ∈ after, round.1.directory ≠ directory := by
  obtain ⟨⟨job, processed⟩, hmem, hown, hlast⟩ := hfinal
  obtain ⟨before, after, rfl⟩ := List.append_of_mem hmem
  rw [List.map_append, List.map_cons] at h
  obtain ⟨-, hjob, hbefore⟩ := List.pairwise_append.mp h
  refine ⟨before, after, job, processed, rfl, hown, hlast, fun round hround hdir => ?_,
    fun round hround => ?_⟩
  · by_contra hyes
    rw [Bool.not_eq_false] at hyes
    exact hbefore _ (List.mem_map_of_mem hround) job List.mem_cons_self hdir hyes hown
  · exact (List.pairwise_cons.mp hjob).1 _ (List.mem_map_of_mem hround) hown hlast

/--
In any state of any interleaving: `.complete` is there and the worker is in no round
of the event.  Then the rounds so far end with those of a completed event, whose jobs
have all been written.
-/
theorem completed_event_served {start : World} (hstart : Starts setup start)
    (hreach : Reaches setup worker start w) (hnamed : directory ∈ w.shared.named)
    (hunswept : directory ∉ w.swept)
    (hothers : ∀ job ∈ w.worker.jobs, job.directory ≠ directory)
    (hcomplete : w.disk.isFile (completePath directory) = true) :
    ∃ earlier rounds, w.done = earlier ++ rounds ∧
      (∀ round ∈ earlier, round.1.directory ≠ directory) ∧
      CompletedEvent setup.codec worker directory rounds w.watched ∧
      (∀ outcome ∈ outcomesOf directory rounds, outcome.ok = true) ∧
      0 < persistedBy directory rounds := by
  have hinv := hreach.inv hstart
  obtain ⟨earlier, rounds, table, s, hdone, hearlier, htable, hfresh, hrounds⟩ :=
    (hinv.seen directory hnamed hunswept).rounds hothers hcomplete
  have hends : EndsWithFinal directory (rounds.map Prod.fst) :=
    (List.pairwise_append.mp (hinv.ends hdone)).1
  have hfinal : ∃ round ∈ rounds, round.1.directory = directory ∧
      round.1.finalJob = true := by
    by_contra hnone
    push Not at hnone
    obtain ⟨entries, hunderway⟩ := hrounds.underway
      (fun round hmem hdir => by simpa using hnone round hmem hdir) rfl
      ⟨[], by
        rw [htable]
        exact (hfresh.bare.unstarted hfresh.absent).underway⟩
    rw [hunderway.absent.isFile] at hcomplete
    cases hcomplete
  obtain ⟨before, after, job, processed, rfl, hjob, hlast, hbefore, hafter⟩ :=
    split_of_endsWithFinal hends hfinal
  have hcompleted : CompletedEvent setup.codec worker directory
      (before ++ (job, processed) :: after) w.watched :=
    .intro htable hfresh.bare hfresh.absent hrounds hjob hlast hbefore hafter hcomplete
      rfl
  exact ⟨earlier, _, hdone, hearlier, hcompleted, hcompleted.ready.2⟩

/-! ## Published events -/

theorem Step.frozen {w' : World} (hstep : Step setup worker w w')
    (h : Inv setup worker w) (hunswept : directory ∉ w'.swept)
    (hthere : present w.store directory ".complete" = true) :
    Frame directory (Loose directory) w.watched w'.watched := by
  cases hstep with
  | callback hstep _ =>
      exact Apart.frame ⟨(h.callbackMoves hstep).aside h hunswept hthere, rfl⟩
  | worker hstep =>
      cases hstep with
      | take => exact .refl _
      | work hprocessing heffect =>
          exact h.work_frame hprocessing heffect hunswept hthere
      | finish => exact .refl _
  | uploader hstep =>
      exact Apart.frame ⟨(h.uploaderMoves hstep).aside hunswept, rfl⟩

/-! ### Later states -/

theorem Step.swept {w' : World} (hstep : Step setup worker w w') :
    w.swept ⊆ w'.swept := by
  cases hstep with
  | callback => exact List.Subset.refl _
  | worker hstep =>
      cases hstep with
      | take => exact List.Subset.refl _
      | work => exact List.subset_append_left _ _
      | finish => exact List.Subset.refl _
  | uploader => exact List.Subset.refl _

theorem Reaches.swept {w' : World} (h : Reaches setup worker w w') :
    w.swept ⊆ w'.swept := by
  induction h with
  | refl => exact List.Subset.refl _
  | tail _ hstep ih => exact List.Subset.trans ih hstep.swept

theorem Reaches.frozen {w' : World} (hlater : Reaches setup worker w w')
    (h : Inv setup worker w) (hunswept : directory ∉ w'.swept)
    (hthere : present w.store directory ".complete" = true) :
    Frame directory (Loose directory) w.watched w'.watched := by
  induction hlater using Relation.ReflTransGen.head_induction_on with
  | refl => exact .refl _
  | @head w w₁ hstep hrest ih =>
      have hunswept₁ : directory ∉ w₁.swept := fun hmem =>
        hunswept (Reaches.swept hrest hmem)
      have hframe := hstep.frozen h hunswept₁ hthere
      have hsame := hframe.same rfl _ (owned_complete directory) fun h => h.2 rfl
      exact hframe.trans (ih (hstep.inv h) (present_of_sameAt hthere hsame))

theorem present_of_isFile {s : Store}
    (h : s.disk.isFile (completePath directory) = true) :
    present s directory ".complete" = true := by
  obtain ⟨content, hread⟩ := Option.isSome_iff_exists.mp h
  obtain ⟨inode, synced, hnode⟩ := Disk.node?_of_read? hread
  exact Option.isSome_of_eq_some hnode

/-- An event with `.complete` is ready. -/
theorem Inv.ready (h : Inv setup worker w) (hnamed : directory ∈ w.shared.named)
    (hunswept : directory ∉ w.swept)
    (hthere : present w.store directory ".complete" = true) :
    ∃ entries, Ready setup.codec worker.sha256 directory entries w.disk := by
  refine (h.orderly hnamed hunswept rfl).resolve_left fun habsent => ?_
  rw [not_present_of_absent habsent] at hthere
  cases hthere

/--
Once `.complete` is there, in whatever interleaving, everything of the event is
listed, checksummed and certain.  Until the event is swept nothing of it changes any
more but other hidden files.
-/
theorem published_event_frozen {start w' : World} (hstart : Starts setup start)
    (hreach : Reaches setup worker start w) (hlater : Reaches setup worker w w')
    (hnamed : directory ∈ w.shared.named) (hunswept : directory ∉ w'.swept)
    (hcomplete : w.disk.isFile (completePath directory) = true) :
    (∃ entries, Ready setup.codec worker.sha256 directory entries w.disk ∧
      Ready setup.codec worker.sha256 directory entries w'.disk) ∧
    ∀ path, Owned directory path →
      ¬MarkerPath directory path ∨ path = completePath directory →
      Disk.SameAt path w.disk w'.disk := by
  have hinv := hreach.inv hstart
  have hthere := present_of_isFile hcomplete
  have hframe := hlater.frozen hinv hunswept hthere
  have hbefore : directory ∉ w.swept := fun hmem => hunswept (hlater.swept hmem)
  obtain ⟨entries, hready⟩ := hinv.ready hnamed hbefore hthere
  refine ⟨⟨entries, hready, hready.of_frame (hframe.widen fun _ => And.left) rfl⟩,
    fun path howned hfixed => hframe.same rfl path howned ?_⟩
  rintro ⟨hmarker, hne⟩
  exact hfixed.elim (absurd hmarker) hne

/-! ## Uploads -/

/-- The directories that a search has yielded and that are not yet dealt with. -/
def chosen : Retention.Uploader → List Text
  | .waiting => []
  | .searching _ => []
  | .choosing candidates => candidates
  | .uploading directory _ candidates => directory :: candidates
  | .givingUp directory _ candidates => directory :: candidates

theorem Inv.chosen (h : Inv setup worker w)
    (hchosen : directory ∈ chosen w.shared.uploader) : w.Published directory := by
  have huploader := h.uploader
  generalize w.shared.uploader = thread at hchosen huploader
  cases thread with
  | waiting => cases hchosen
  | searching => cases hchosen
  | choosing candidates => exact (huploader directory hchosen).2
  | uploading other rest candidates =>
      rcases List.mem_cons.mp hchosen with rfl | hmem
      · exact huploader.1.2
      · exact (huploader.2.2 directory hmem).2
  | givingUp other rest candidates =>
      rcases List.mem_cons.mp hchosen with rfl | hmem
      · exact huploader.1.2
      · exact (huploader.2.2 directory hmem).2

/--
Whatever the others do while the uploader searches, chooses and uploads: a directory
it has chosen holds `.complete` until it is swept, and everything of its event is
listed, checksummed and certain.
-/
theorem chosen_event_published {start : World} (hstart : Starts setup start)
    (hreach : Reaches setup worker start w)
    (hchosen : directory ∈ chosen w.shared.uploader) (hunswept : directory ∉ w.swept) :
    present w.store directory ".complete" = true ∧
      (directory ∈ w.shared.named →
        ∃ entries, Ready setup.codec worker.sha256 directory entries w.disk) := by
  have hinv := hreach.inv hstart
  have hthere := hinv.chosen hchosen hunswept
  exact ⟨hthere, fun hnamed => hinv.ready hnamed hunswept hthere⟩

/-! ## Power cuts -/

/--
At any moment of any interleaving the power is cut.  If `.complete` is found
afterwards, and the event's removal had not begun, everything of the event is found.
-/
theorem published_event_survives {start : World} (hstart : Starts setup start)
    (hreach : Reaches setup worker start w) (hnamed : directory ∈ w.shared.named)
    (hunswept : directory ∉ w.swept) {remnant : Remnant}
    (hsurvives : w.disk.Survives remnant)
    (hfound : (remnant.read? (completePath directory)).isSome = true) :
    ∃ entries, Whole setup.codec worker.sha256 directory entries w.disk remnant := by
  rcases (hreach.inv hstart).orderly hnamed hunswept rfl with
    habsent | ⟨entries, hready⟩
  · exact absurd hfound (habsent.not_found hsurvives)
  · exact ⟨entries, hready.whole hsurvives (directory_found hfound)⟩

end Events

/-! ## A run -/

section Run

variable (setup : Setup) (worker : Worker) (now : Int)

def World.callbackMove (w : World) : Option World :=
  (w.shared.callbackMove setup).map fun shared => { w with shared }

/-- How a call of the worker ends on a store without faults at this time. -/
def workerRespond (s : Store) : (op : FsOp) → Option (op.Res × Store)
  | .systemNow => some (now, s)
  | op => s.respond setup.codec op

def World.workerMove (w : World) : Option World :=
  match w.worker with
  | .waiting =>
      match w.monitor.storage.jobs with
      | job :: _ => some { w with
          shared := { w.shared with monitor := w.monitor.pop 1 }
          worker := .processing job (processJob worker w.table job) }
      | [] => none
  | .processing job (.call op rest) =>
      match workerRespond setup now w.store op with
      | some (r, store) => some { w with
          shared := { w.shared with store := store }
          worker := .processing job (rest r)
          swept := w.swept ++ removed op }
      | none => none
  | .processing job (.ret (table, processed)) => some { w with
      worker := .waiting
      table := table
      done := w.done ++ [(job, processed)] }
  | .processing _ (.raise _) => none

/-- The callback goes first. -/
def World.advance : Nat → World → Option World
  | 0, w => some w
  | count + 1, w =>
      match (w.callbackMove setup).or (w.workerMove setup worker now) with
      | some w' => w'.advance count
      | none => none

variable {setup : Setup} {worker : Worker} {now : Int} {w w' : World}

theorem callbackMove_named {v v' : Retention.World}
    (h : v.callbackMove setup = some v') : v'.named = v.named := by
  unfold Retention.World.callbackMove at h
  split at h
  next => cases h; rfl
  next => cases h
  next => cases h; rfl
  next => cases h; rfl
  next =>
    split at h
    next => cases h; rfl
    next => cases h
  next => cases h; rfl
  next => cases h

theorem effect_workerRespond {s s' : Store} {op : FsOp} {r : op.Res}
    (h : workerRespond setup now s op = some (r, s')) :
    Effect setup.codec s op r s' := by
  unfold workerRespond at h
  split at h
  · cases h
    rfl
  · exact effect_respond h

theorem workerMove_step (h : w.workerMove setup worker now = some w') :
    WorkerStep setup.codec worker w w' := by
  unfold World.workerMove at h
  split at h
  next hwaiting =>
    split at h
    next hjobs => cases h; exact .take hwaiting hjobs
    next => cases h
  next hprocessing =>
    split at h
    next hrespond => cases h; exact .work hprocessing (effect_workerRespond hrespond)
    next => cases h
  next hprocessing => cases h; exact .finish hprocessing
  next => cases h

theorem reaches_advance : ∀ {count : Nat} {w : World},
    w.advance setup worker now count = some w' → Reaches setup worker w w'
  | 0, _, h => by
      cases h
      exact .refl
  | count + 1, w, h => by
      rw [World.advance] at h
      split at h
      next w₁ hmove =>
        have hstep : Step setup worker w w₁ := by
          rcases Option.or_eq_some_iff.mp hmove with hmove | ⟨-, hmove⟩
          · obtain ⟨shared, hshared, rfl⟩ := Option.map_eq_some_iff.mp hmove
            refine .callback (callbackMove_step hshared) fun directory hmem hnew => ?_
            rw [callbackMove_named hshared] at hmem
            exact absurd hmem hnew
          · exact .worker (workerMove_step hmove)
        exact .head hstep (reaches_advance h)
      next => cases h

/-- The same moment, with the uploader searching. -/
def World.searching (w : World) (store : Store) (rest : Transfer (List Text)) :
    World :=
  { w with shared := { w.shared with store := store, uploader := .searching rest } }

theorem reaches_searching {store store' : Store} {rest rest' : Transfer (List Text)}
    (h : Prog.Exec (UploadEffect setup.codec) store rest store' rest') :
    Reaches setup worker (w.searching store rest) (w.searching store' rest') := by
  induction h with
  | refl => exact .refl
  | step heffect _ ih => exact .head (.uploader (.searching rfl heffect)) ih

end Run

/-- Only the camera is recorded, and events have no post window. -/
def cameraSetup : Setup :=
  { sampleSetup with
    settings := { sampleSetup.settings with
      config := { sampleSetup.settings.config with
        getBoolConfig := fun key value => key == ("record_camera" : Text) ||
          value && key != ("conversion_enabled" : Text) } } }

def blankWorld : World where
  shared :=
    { Retention.sampleWorld with
      store := blankWatched.store
      monitor := Capture.initial cameraSetup.settings 100 0 0 }
  worker := .waiting
  table := .empty
  done := []
  swept := []

theorem starts_blankWorld : Starts cameraSetup blankWorld :=
  ⟨⟨⟨100, 0, 0, rfl⟩, rfl, rfl, rfl, rfl, rfl, rfl⟩, rfl, rfl, rfl, rfl⟩

/-- A frame has arrived. -/
def framedWorld : World :=
  let monitor := blankWorld.monitor.arrive (cameraFrame 10)
  { blankWorld with shared := { blankWorld.shared with
      monitor := { blankWorld.monitor with
        buffer := monitor.buffer, pairIndex := monitor.pairIndex } } }

def pressedWorld : World :=
  { framedWorld with
    shared := framedWorld.shared.triggered cameraSetup "brake" ⟨0, 7, 0⟩ }

def pressedDirectory : Text := "brake_0_7"

theorem fresh_blankWorld (directory : Text) : Fresh directory blankWorld.disk :=
  ⟨fun _ _ => rfl, rfl, nofun⟩

theorem reaches_pressedWorld : Reaches cameraSetup defaultWorker blankWorld
    pressedWorld := by
  have hframe : Step cameraSetup defaultWorker blankWorld framedWorld :=
    .callback (.sense _ _ rfl) fun directory hmem hnew => absurd hmem hnew
  have hpress : Step cameraSetup defaultWorker framedWorld pressedWorld :=
    .callback (.trigger "brake" ⟨0, 7, 0⟩ rfl nofun) fun directory _ _ =>
      fresh_blankWorld directory
  exact .head hframe (.single hpress)

/-- `.complete` has just appeared, and the round is going on. -/
def publishedRun : Option World :=
  pressedWorld.advance cameraSetup defaultWorker (daysLater 0) 46

theorem reaches_publishedRun {w : World} (h : publishedRun = some w) :
    Reaches cameraSetup defaultWorker blankWorld w :=
  reaches_pressedWorld.trans (reaches_advance h)

def World.publishes (w : World) (directory : Text) : Bool :=
  w.shared.named.contains directory && !w.swept.contains directory &&
    w.disk.isFile (completePath directory)

theorem World.publishes_iff {w : World} {directory : Text} :
    w.publishes directory = true ↔ directory ∈ w.shared.named ∧
      directory ∉ w.swept ∧ w.disk.isFile (completePath directory) = true := by
  simp only [World.publishes, Bool.and_eq_true, Bool.not_eq_true',
    List.contains_eq_mem, decide_eq_true_eq, decide_eq_false_iff_not, and_assoc]

def WorkerThread.isWaiting : WorkerThread → Bool
  | waiting => true
  | processing _ _ => false

theorem WorkerThread.jobs_of_isWaiting {thread : WorkerThread}
    (h : thread.isWaiting = true) : thread.jobs = [] := by
  cases thread with
  | waiting => rfl
  | processing => cases h

theorem published_event_frozen_pressed : ∃ (w w' : World) (path : Path),
    w.worker.isWaiting = false ∧ w'.worker.isWaiting = true ∧
      w.disk.isFile path = true ∧ Disk.SameAt path w.disk w'.disk := by
  have hrun : (publishedRun.any fun w => !w.worker.isWaiting &&
      w.publishes pressedDirectory &&
      (w.advance cameraSetup defaultWorker (daysLater 0) 15).any fun w' =>
        w'.worker.isWaiting && w'.publishes pressedDirectory) = true := by
    decide +kernel
  obtain ⟨w, hw, hcheck⟩ := (Option.any_eq_true _ _).mp hrun
  rw [Bool.and_eq_true, Bool.and_eq_true, Bool.not_eq_true',
    World.publishes_iff] at hcheck
  obtain ⟨⟨hbusy, hnamed, -, hcomplete⟩, hafter⟩ := hcheck
  obtain ⟨w', hw', hcheck'⟩ := (Option.any_eq_true _ _).mp hafter
  rw [Bool.and_eq_true, World.publishes_iff] at hcheck'
  obtain ⟨hidle, -, hunswept, -⟩ := hcheck'
  exact ⟨w, w', completePath pressedDirectory, hbusy, hidle, hcomplete,
    (published_event_frozen starts_blankWorld (reaches_publishedRun hw)
      (reaches_advance hw') hnamed hunswept hcomplete).2 _ (owned_complete _)
        (.inr rfl)⟩

def isWaiting : Retention.Uploader → Bool
  | .waiting => true
  | _ => false

theorem waiting_of_isWaiting {thread : Retention.Uploader}
    (h : isWaiting thread = true) : thread = .waiting := by
  cases thread with
  | waiting => rfl
  | _ => cases h

/-- The uploader chooses the event while the worker is still in its round. -/
theorem chosen_event_published_pressed : ∃ (w : World) (entries : List Storage.Entry),
    w.worker.isWaiting = false ∧ pressedDirectory ∈ chosen w.shared.uploader ∧
      Ready plainCodec defaultWorker.sha256 pressedDirectory entries w.disk := by
  have hrun : (publishedRun.any fun w => !w.worker.isWaiting &&
      w.publishes pressedDirectory && isWaiting w.shared.uploader &&
      Prog.passes (respondUpload plainCodec)
        (fun candidates _ => candidates.contains pressedDirectory)
        (findUploadCandidates cameraSetup.upload) w.store) = true := by
    decide +kernel
  obtain ⟨w, hw, hcheck⟩ := (Option.any_eq_true _ _).mp hrun
  rw [Bool.and_eq_true, Bool.and_eq_true, Bool.and_eq_true, Bool.not_eq_true',
    World.publishes_iff] at hcheck
  obtain ⟨⟨⟨hbusy, hnamed, hunswept, -⟩, hidle⟩, hpasses⟩ := hcheck
  obtain ⟨candidates, store, hexec, hfound⟩ := @Prog.exec_of_passes _ _ _ _ _
    (UploadEffect plainCodec) (respondUpload plainCodec)
    (fun _ _ _ _ => effect_respondUpload) _ _ _ hpasses
  have hsearch : Step cameraSetup defaultWorker w
      (w.searching w.store (findUploadCandidates cameraSetup.upload)) :=
    .uploader (.search (waiting_of_isWaiting hidle))
  have hsearched := ((reaches_publishedRun hw).tail hsearch).trans
    (reaches_searching hexec)
  have hchosen : pressedDirectory ∈ candidates := by
    rwa [List.contains_eq_mem, decide_eq_true_eq] at hfound
  obtain ⟨-, hready⟩ := chosen_event_published starts_blankWorld
    (hsearched.tail (.uploader (.found rfl))) hchosen hunswept
  obtain ⟨entries, hready⟩ := hready hnamed
  refine ⟨_, entries, ?_, ?_, hready⟩
  · exact hbusy
  · exact hchosen

theorem published_event_survives_pressed : ∃ (w : World)
    (entries : List Storage.Entry) (remnant : Remnant),
    w.worker.isWaiting = false ∧ Whole plainCodec defaultWorker.sha256
      pressedDirectory entries w.disk remnant := by
  have hrun : (publishedRun.any fun w => !w.worker.isWaiting &&
      w.publishes pressedDirectory && inodesDiffer w.disk &&
      ((intact w.disk).read? (completePath pressedDirectory)).isSome) = true := by
    decide +kernel
  obtain ⟨w, hw, hcheck⟩ := (Option.any_eq_true _ _).mp hrun
  rw [Bool.and_eq_true, Bool.and_eq_true, Bool.and_eq_true, Bool.not_eq_true',
    World.publishes_iff] at hcheck
  obtain ⟨⟨⟨hbusy, hnamed, hunswept, -⟩, hdiffer⟩, hfound⟩ := hcheck
  obtain ⟨entries, hwhole⟩ := published_event_survives starts_blankWorld
    (reaches_publishedRun hw) hnamed hunswept (survives_intact hdiffer) hfound
  exact ⟨w, entries, intact w.disk, hbusy, hwhole⟩

theorem completed_event_served_pressed : ∃ (w : World)
    (rounds : List (Job × Processed)),
    CompletedEvent plainCodec defaultWorker pressedDirectory rounds w.watched ∧
      0 < persistedBy pressedDirectory rounds := by
  have hrun : (publishedRun.any fun w =>
      (w.advance cameraSetup defaultWorker (daysLater 0) 15).any fun w' =>
        w'.worker.isWaiting && w'.publishes pressedDirectory) = true := by
    decide +kernel
  obtain ⟨w, hw, hafter⟩ := (Option.any_eq_true _ _).mp hrun
  obtain ⟨w', hw', hcheck⟩ := (Option.any_eq_true _ _).mp hafter
  rw [Bool.and_eq_true, World.publishes_iff] at hcheck
  obtain ⟨hidle, hnamed, hunswept, hcomplete⟩ := hcheck
  have hothers : ∀ job ∈ w'.worker.jobs, job.directory ≠ pressedDirectory := by
    rw [WorkerThread.jobs_of_isWaiting hidle]
    exact fun _ hmem => absurd hmem List.not_mem_nil
  obtain ⟨earlier, rounds, -, -, hcompleted, -, hpersisted⟩ := completed_event_served
    starts_blankWorld ((reaches_publishedRun hw).trans (reaches_advance hw'))
    hnamed hunswept hothers hcomplete
  exact ⟨w', rounds, hcompleted, hpersisted⟩

end DataCache.Recorder
