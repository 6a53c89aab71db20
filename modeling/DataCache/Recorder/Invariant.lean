import DataCache.Recorder.Threads
import DataCache.Recorder.Views

/-!
# What every interleaving keeps

Every thread finds what it relies on, and every directory that has been named and
not been swept keeps its view of the node.
-/

namespace DataCache.Recorder

open DataCache.Foundation DataCache.Storage DataCache.EventState
open DataCache.Capture (Job System)
open DataCache.Retention (CallbackStep Pops Setup UploaderStep pathExists_marker present)
open DataCache.Upload (UploadEffect UploadOp)

/-! ## The invariant -/

/-- The directory has been swept, or it is there. -/
def World.Standing (w : World) (directory : Text) : Prop :=
  directory ∉ w.swept → w.disk.isDir [directory] = true

/-- The directory has been swept, or it holds `.complete`. -/
def World.Published (w : World) (directory : Text) : Prop :=
  directory ∉ w.swept → present w.store directory ".complete" = true

/-- The round began with this job and this table. -/
def WorkerThread.Runs (worker : Worker) (table : EventTable) : WorkerThread → Prop
  | waiting => True
  | processing job rest => Prog.Exec (fun (_ : Unit) _ _ _ => True) ()
      (processJob worker table job) () rest

structure Inv (setup : Setup) (worker : Worker) (w : World) : Prop where
  order : InOrder w.shared.ledger
  callback : CallbackOk w.shared.ledger w.shared.callback
  uploader : UploaderOk setup.upload w.Standing w.Published w.shared.uploader
  taken : w.monitor.consumed = w.done.map Prod.fst ++ w.worker.jobs
  running : w.worker.Runs worker w.table
  table : ∀ directory, (∀ round ∈ w.done, round.1.directory ≠ directory) →
    w.table.get? directory = none
  seen : ∀ directory ∈ w.shared.named, directory ∉ w.swept →
    Seen setup.codec worker directory w

section Steps

variable {setup : Setup} {worker : Worker} {directory : Text} {w : World}

/-! ### The rounds of one event -/

theorem WorkerThread.Since.unswept {codec : Codec} {table : EventTable}
    {s s' : Watched} {thread : WorkerThread}
    (h : thread.Since codec worker directory table s s')
    (hunswept : s'.swept = false) : s.swept = false := by
  cases thread with
  | waiting => exact h.2 ▸ hunswept
  | processing job rest =>
      obtain ⟨between, hexec, hapart⟩ := h
      exact unswept_before hexec (hapart.2 ▸ hunswept)

theorem Inv.ends (h : Inv setup worker w) {earlier rounds : List (Job × Processed)}
    (hdone : w.done = earlier ++ rounds) :
    EndsWithFinal directory (rounds.map Prod.fst ++ w.worker.jobs) := by
  have hall := (List.pairwise_append.mp (h.order.ends directory)).1
  change EndsWithFinal directory w.monitor.consumed at hall
  rw [h.taken, hdone, List.map_append, List.append_assoc] at hall
  exact (List.pairwise_append.mp hall).2.1

/-- What the rounds of the event have come to. -/
theorem Inv.staged (h : Inv setup worker w) {earlier rounds : List (Job × Processed)}
    {table : EventTable} {s s' : Watched} (hdone : w.done = earlier ++ rounds)
    (htable : table.get? directory = none) (hfresh : Fresh directory s.disk)
    (hrounds : Rounds (WorkerEffect setup.codec directory) worker table s rounds
      w.table s') (hunswept : s'.swept = false) :
    Orderly setup.codec worker.sha256 directory s' ∧
      Stage setup.codec directory w.worker.jobs w.table s' := by
  refine Rounds.stage worker hrounds (h.ends hdone)
    (orderly_of_absent hfresh.absent) (.inl ⟨[], ?_⟩) hunswept
  rw [htable]
  exact (hfresh.bare.unstarted hfresh.absent).underway

theorem Inv.working (h : Inv setup worker w) {job : Job} {op : FsOp}
    {rest : op.Res → Action (EventTable × Processed)}
    (hprocessing : w.worker = .processing job (.call op rest)) :
    job ∈ w.monitor.consumed ∧ Working job.directory op := by
  have hrunning := h.running
  have htaken := h.taken
  rw [hprocessing] at hrunning htaken
  refine ⟨?_, (Prog.Exec.uses hrunning (processJob_uses worker w.table job)).1⟩
  rw [htaken]
  exact List.mem_append_right _ List.mem_cons_self

theorem not_present_of_absent {s : Store}
    (h : Absent (completePath directory) s.disk) :
    present s directory ".complete" = false := by
  have hnode : s.disk.node? [directory, ".complete"] = none := h.node
  rw [present, hnode]
  rfl

/-- An operation of a round, after `.complete` has appeared. -/
theorem Inv.late (h : Inv setup worker w) (hnamed : directory ∈ w.shared.named)
    (hunswept : directory ∉ w.swept)
    (hthere : present w.store directory ".complete" = true) {job : Job}
    {op : FsOp} {rest : op.Res → Action (EventTable × Processed)}
    (hprocessing : w.worker = .processing job (.call op rest))
    (hown : job.directory = directory) : Late directory op := by
  subst hown
  cases h.seen job.directory hnamed hunswept with
  | fresh hnone _ => exact absurd rfl (hnone job (h.working hprocessing).1)
  | served hdone _ _ htable hfresh hrounds hsince =>
      obtain ⟨-, hstage⟩ := h.staged hdone htable hfresh hrounds (hsince.unswept rfl)
      rw [hprocessing] at hstage hsince
      obtain ⟨entries, hunderway⟩ := hstage.resolve_right fun hnone =>
        hnone job (List.mem_singleton_self _) rfl
      obtain ⟨between, hexec, hapart⟩ := hsince
      have hsafe := (Prog.Safe.exec Apart.refl hexec
        (processJob_publishes worker fun _ => hunderway.absent)).disturb Apart.trans
          hapart
      refine (hsafe.issued Apart.refl).resolve_left fun hunpublished => ?_
      have habsent : Absent (completePath job.directory) w.disk := hunpublished rfl
      rw [not_present_of_absent habsent] at hthere
      cases hthere

/-! ### The callbacks and the uploader -/

theorem Inv.callbackMoves (h : Inv setup worker w) {shared : Retention.World}
    (hstep : CallbackStep setup false w.shared shared) :
    CallbackMove setup.codec w.shared shared :=
  callbackStep_moves hstep h.order h.callback

theorem Inv.uploaderMoves (h : Inv setup worker w) {shared : Retention.World}
    (hstep : UploaderStep setup w.shared shared) :
    UploaderMove setup.codec setup.upload w.Standing w.Published w.shared shared :=
  uploaderStep_moves hstep h.uploader fun _ hdir _ => hdir

/-- A callback writes no marker where `.complete` is. -/
theorem CallbackMove.aside {shared : Retention.World}
    (hmove : CallbackMove setup.codec w.shared shared) (h : Inv setup worker w)
    (hunswept : directory ∉ w.swept)
    (hthere : present w.store directory ".complete" = true) :
    Aside directory w.store shared.store := by
  cases hmove with
  | noted hstore => exact hstore ▸ .refl _ _
  | @marked other op _ _ store _ hmarking heffect _ =>
      refine (markerOp_serving hmarking.marks.1).aside ?_ heffect
      rintro rfl
      cases h.seen other hmarking.named hunswept with
      | fresh _ hfresh =>
          rw [not_present_of_absent hfresh.absent] at hthere
          cases hthere
      | served _ _ htaken =>
          obtain ⟨job, hjob, rfl⟩ := htaken
          exact hmarking.unused (handed_of_consumed hjob)

theorem UploaderMove.aside {published : Text → Prop} {shared : Retention.World}
    (hmove : UploaderMove setup.codec setup.upload w.Standing published w.shared
      shared) (hunswept : directory ∉ w.swept) :
    Aside directory w.store shared.store := by
  cases hmove with
  | moved => exact .refl _ _
  | tended hop heffect hmade _ =>
      exact (tends_effect hop heffect directory).1 fun hmem =>
        hmade directory hmem hunswept

theorem present_of_sameAt {s s' : Store}
    (h : present s directory ".complete" = true)
    (hsame : Disk.SameAt (completePath directory) s.disk s'.disk) :
    present s' directory ".complete" = true := by
  have hnode : s'.disk.node? [directory, ".complete"] =
      s.disk.node? [directory, ".complete"] := hsame.node
  rw [present, hnode]
  exact h

theorem present_of_shows {codec : Codec} {op : UploadOp} {r : op.Res} {s s' : Store}
    (h : Shows directory op r) (heffect : UploadEffect codec s op r s') :
    present s' directory ".complete" = true := by
  cases op with
  | fs op =>
      cases op with
      | «exists» path =>
          obtain ⟨rfl, rfl⟩ := h
          obtain ⟨rfl, hfound⟩ := heffect
          rcases hfound with hfound | hfound
          · have hthere := Option.some.inj hfound
            rwa [completePath, markerPath, pathExists_marker, eq_comm] at hthere
          · cases hfound
      | _ => exact h.elim
  | _ => exact h.elim

theorem CallbackMove.inv {shared : Retention.World}
    (hmove : CallbackMove setup.codec w.shared shared)
    (hfresh : ∀ directory ∈ shared.named, directory ∉ w.shared.named →
      Fresh directory w.disk) (h : Inv setup worker w) :
    Inv setup worker { w with shared } := by
  have hstays : Sees w.Published ({ w with shared } : World).Published :=
    fun directory hpublished hunswept => present_of_sameAt (hpublished hunswept)
      (hmove.aside h hunswept (hpublished hunswept) _ (owned_complete directory))
  cases hmove with
  | noted hstore huploader hconsumed horder hcallback =>
      refine ⟨horder, hcallback, ?_, hconsumed.trans h.taken, h.running, h.table,
        fun directory hmem hswept => ?_⟩
      · change UploaderOk _ _ _ shared.uploader
        rw [huploader]
        refine h.uploader.mono (fun directory hstanding hswept => ?_) hstays
        rw [World.disk, hstore]
        exact hstanding hswept
      by_cases hold : directory ∈ w.shared.named
      · refine (h.seen directory hold hswept).aside hconsumed ?_
        rw [hstore]
        exact .refl _ _
      · refine .fresh (fun job hjob heq => hold ?_) ?_
        · rw [← heq]
          exact h.order.named _ (handed_of_consumed (hconsumed ▸ hjob))
        · rw [World.disk, hstore]
          exact hfresh directory hmem hold
  | @marked directory op _ _ store _ hmarking heffect hcallback =>
      have hserving := markerOp_serving hmarking.marks.1
      refine ⟨h.order, hcallback,
        h.uploader.mono (fun other hstanding hswept => ?_) hstays,
        h.taken, h.running, h.table, fun other hmem hswept => ?_⟩
      · exact isDir_kept heffect (fun target heq =>
          absurd heq (hserving.removal target)) (hstanding hswept)
      by_cases hown : other = directory
      · subst hown
        cases h.seen other hmem hswept with
        | fresh hnone hfresh =>
            exact .fresh hnone
              (hfresh.marked hmarking.marks.1 hmarking.leaves.1 heffect)
        | served _ _ htaken _ _ _ _ =>
            obtain ⟨job, hjob, rfl⟩ := htaken
            exact absurd (handed_of_consumed hjob) hmarking.unused
      · exact (h.seen other hmem hswept).aside rfl
          (hserving.aside (Ne.symm hown) heffect)

theorem UploaderMove.inv {shared : Retention.World}
    (hmove : UploaderMove setup.codec setup.upload w.Standing w.Published w.shared
      shared) (h : Inv setup worker w) : Inv setup worker { w with shared } := by
  have haside : ∀ {directory}, directory ∉ w.swept →
      Aside directory w.store shared.store := hmove.aside
  cases hmove with
  | moved huploader =>
      exact ⟨h.order, h.callback, huploader, h.taken, h.running, h.table,
        fun directory hmem hswept =>
          (h.seen directory hmem hswept).aside rfl (.refl _ _)⟩
  | @tended made op r store uploader hop heffect hmade huploader =>
      have hsights : Sights w.Published op r ({ w with
          shared := { w.shared with store := store } } : World).Published := by
        rintro directory (hpublished | hshows) hunswept
        · exact present_of_sameAt (hpublished hunswept)
            (haside hunswept _ (owned_complete directory))
        · exact present_of_shows hshows heffect
      refine ⟨h.order, h.callback, (huploader _ hsights).mono
        (fun directory hstanding hswept => ?_) (.refl _), h.taken, h.running, h.table,
        fun directory hmem hswept => ?_⟩
      · exact (tends_effect hop heffect directory).2 (hstanding hswept)
      · exact (h.seen directory hmem hswept).aside rfl (haside hswept)

/-! ### The worker -/

theorem Inv.take (h : Inv setup worker w) {job : Job} {rest : List Job}
    (hwaiting : w.worker = .waiting) (hjobs : w.monitor.storage.jobs = job :: rest) :
    Inv setup worker { w with
      shared := { w.shared with monitor := w.monitor.pop 1 }
      worker := .processing job (processJob worker w.table job) } := by
  have hconsumed : (w.monitor.pop 1).consumed = w.monitor.consumed ++ [job] := by
    simp only [System.pop, hjobs, List.take_succ_cons, List.take_zero]
  have hpops : Pops w.shared.ledger
      ⟨w.monitor.pop 1, w.shared.named, w.shared.refused⟩ := ⟨1, rfl⟩
  have hdone : w.monitor.consumed = w.done.map Prod.fst := by
    rw [h.taken, hwaiting, WorkerThread.jobs, List.append_nil]
  refine ⟨h.order.congr ?_ (List.Subset.refl _) rfl, h.callback.popped hpops,
    h.uploader, ?_, .refl _ _, h.table, fun directory hmem hswept => ?_⟩
  · change (w.monitor.pop 1).consumed ++ w.monitor.storage.jobs.drop 1 =
      w.monitor.consumed ++ w.monitor.storage.jobs
    rw [hconsumed, hjobs, List.append_assoc]
    rfl
  · change (w.monitor.pop 1).consumed = _
    rw [hconsumed, hdone]
    rfl
  · have hmore : ∀ {P : Job → Prop}, (∀ other ∈ w.monitor.consumed, P other) → P job →
        ∀ other ∈ (w.monitor.pop 1).consumed, P other := by
      intro P hold hnew
      rw [hconsumed]
      exact List.forall_mem_append.mpr ⟨hold, List.forall_mem_singleton.mpr hnew⟩
    have hmem_job : job ∈ (w.monitor.pop 1).consumed := by
      rw [hconsumed]
      exact List.mem_append_right _ List.mem_cons_self
    cases h.seen directory hmem hswept with
    | fresh hnone hfresh =>
        by_cases hown : job.directory = directory
        · have hothers : ∀ round ∈ w.done, round.1.directory ≠ directory :=
            fun round hround => hnone _ (hdone ▸ List.mem_map_of_mem hround)
          exact .served (List.append_nil _).symm hothers ⟨job, hmem_job, hown⟩
            (h.table directory hothers) hfresh (.nil _ w.watched)
            (Prog.Beside.start _ (.refl _))
        · exact .fresh (hmore hnone hown) hfresh
    | served hdone hearlier htaken htable hfresh hrounds hsince =>
        rw [hwaiting] at hsince
        obtain ⟨other, hother, hown⟩ := htaken
        refine .served hdone hearlier ⟨other, ?_, hown⟩ htable hfresh hrounds
          (Prog.Beside.start _ hsince)
        rw [World.monitor, hconsumed]
        exact List.mem_append_left _ hother

/-- An operation of the worker changes only hidden files where `.complete` is. -/
theorem Inv.work_frame (h : Inv setup worker w) {job : Job} {op : FsOp}
    {rest : op.Res → Action (EventTable × Processed)} {r : op.Res} {store : Store}
    (hprocessing : w.worker = .processing job (.call op rest))
    (heffect : Effect setup.codec w.store op r store)
    (hunswept : directory ∉ w.swept ++ removed op)
    (hthere : present w.store directory ".complete" = true) :
    Frame directory (Loose directory) w.watched ⟨store, false⟩ := by
  obtain ⟨hjob, hworking⟩ := h.working hprocessing
  obtain ⟨hold, hremoved⟩ := not_or.mp fun hmem => hunswept (List.mem_append.mpr hmem)
  have hsweeps := sweeps_of_removed hremoved
  by_cases hown : job.directory = directory
  · have hnamed : directory ∈ w.shared.named :=
      hown ▸ h.order.named _ (handed_of_consumed hjob)
    have hwatched : WorkerEffect setup.codec directory w.watched op r
        ⟨store, false⟩ :=
      ⟨w.store, store, .refl _ _, heffect, .refl _ _, by rw [hsweeps]; rfl⟩
    exact hwatched.frame (h.late hnamed hold hthere hprocessing hown).confined
  · exact Apart.frame ⟨hworking.aside hown hsweeps heffect, rfl⟩

theorem Inv.work (h : Inv setup worker w) {job : Job} {op : FsOp}
    {rest : op.Res → Action (EventTable × Processed)} {r : op.Res} {store : Store}
    (hprocessing : w.worker = .processing job (.call op rest))
    (heffect : Effect setup.codec w.store op r store) :
    Inv setup worker { w with
      shared := { w.shared with store := store }
      worker := .processing job (rest r)
      swept := w.swept ++ removed op } := by
  obtain ⟨hjob, hworking⟩ := h.working hprocessing
  have hkept : ∀ {directory}, directory ∉ w.swept ++ removed op →
      directory ∉ w.swept ∧ sweeps directory op = false := fun hswept =>
    ⟨fun hmem => hswept (List.mem_append_left _ hmem),
      sweeps_of_removed fun hmem => hswept (List.mem_append_right _ hmem)⟩
  have hrunning := h.running
  have htaken := h.taken
  rw [hprocessing] at hrunning htaken
  refine ⟨h.order, h.callback, h.uploader.mono (fun directory hstanding hswept => ?_)
    fun directory hpublished hswept => ?_, htaken,
    Prog.Exec.trans hrunning (.step trivial (.refl _ _)), h.table,
    fun directory hmem hswept => ?_⟩
  · exact isDir_kept heffect (hworking.removal (hkept hswept).2)
      (hstanding (hkept hswept).1)
  · have hthere := hpublished (hkept hswept).1
    exact present_of_sameAt hthere
      ((h.work_frame hprocessing heffect hswept hthere).same rfl _
        (owned_complete directory) fun hloose => hloose.2 rfl)
  · obtain ⟨hold, hsweeps⟩ := hkept hswept
    cases h.seen directory hmem hold with
    | fresh hnone hfresh =>
        exact .fresh hnone (hfresh.aside
          (hworking.aside (hnone job hjob) hsweeps heffect))
    | served hdone hearlier htaken htable hfresh hrounds hsince =>
        rw [hprocessing] at hsince
        exact .served hdone hearlier htaken htable hfresh hrounds
          (Prog.Beside.step Apart.refl absorbs_workerEffect hsince
            ⟨w.store, store, .refl _ _, heffect, .refl _ _, by simp [hsweeps]⟩)

theorem Inv.finish (h : Inv setup worker w) {job : Job} {table : EventTable}
    {processed : Processed}
    (hprocessing : w.worker = .processing job (.ret (table, processed))) :
    Inv setup worker { w with
      worker := .waiting
      table := table
      done := w.done ++ [(job, processed)] } := by
  have hrunning := h.running
  have htaken := h.taken
  rw [hprocessing] at hrunning htaken
  refine ⟨h.order, h.callback, h.uploader, ?_, trivial, fun directory hnone => ?_,
    fun directory hmem hswept => ?_⟩
  · rw [htaken]
    simp [WorkerThread.jobs]
  · obtain ⟨hothers, hlast⟩ := List.forall_mem_append.mp hnone
    rw [(processJob_table hrunning).1 directory (hlast _ List.mem_cons_self).symm]
    exact h.table directory hothers
  · cases h.seen directory hmem hswept with
    | fresh hnone hfresh => exact .fresh hnone hfresh
    | served hdone hearlier htaken htable hfresh hrounds hsince =>
        rw [hprocessing] at hsince
        obtain ⟨between, hexec, hapart⟩ := hsince
        refine .served ?_ hearlier htaken htable hfresh
          (Rounds.append_iff.mpr ⟨_, _, hrounds, .cons hexec (.nil _ _)⟩) hapart
        rw [hdone, List.append_assoc]

theorem WorkerStep.inv {w' : World} (hstep : WorkerStep setup.codec worker w w')
    (h : Inv setup worker w) : Inv setup worker w' := by
  cases hstep with
  | take hwaiting hjobs => exact h.take hwaiting hjobs
  | work hprocessing heffect => exact h.work hprocessing heffect
  | finish hprocessing => exact h.finish hprocessing

/-! ### Runs -/

theorem Step.inv {w' : World} (hstep : Step setup worker w w')
    (h : Inv setup worker w) : Inv setup worker w' := by
  cases hstep with
  | callback hstep hfresh => exact (h.callbackMoves hstep).inv hfresh h
  | worker hstep => exact hstep.inv h
  | uploader hstep => exact (h.uploaderMoves hstep).inv h

theorem Starts.inv (h : Starts setup w) : Inv setup worker w := by
  obtain ⟨maxSize, maxAge, maxBytes, hmonitor⟩ := h.shared.monitor
  have hnamed : ∀ {directory}, directory ∉ w.shared.named := by
    rw [h.shared.named]
    exact List.not_mem_nil
  refine ⟨.of_none ?_ h.shared.refused, ?_, ?_, ?_, ?_, fun directory _ => ?_,
    fun directory hmem => absurd hmem hnamed⟩
  · change w.monitor.consumed ++ w.monitor.storage.jobs = []
    rw [World.monitor, hmonitor]
    rfl
  · rw [h.shared.callback]
    refine ⟨⟨fun key task hget => ?_, fun directory hmem => absurd hmem hnamed⟩, ?_,
      nofun, nofun⟩
    · rw [Retention.World.ledger, hmonitor] at hget
      cases hget
    · change w.monitor.storage.stopping = false
      rw [World.monitor, hmonitor]
      rfl
  · rw [h.shared.uploader]
    trivial
  · rw [World.monitor, hmonitor, h.done, h.worker]
    rfl
  · rw [h.worker]
    trivial
  · rw [h.table]
    exact Dict.get?_empty _

theorem Reaches.inv {start : World} (hstart : Starts setup start)
    (h : Reaches setup worker start w) : Inv setup worker w := by
  induction h with
  | refl => exact hstart.inv
  | tail _ hstep ih => exact hstep.inv ih

end Steps

end DataCache.Recorder
