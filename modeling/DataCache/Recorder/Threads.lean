import DataCache.Recorder.Footprints
import DataCache.Storage.PowerCut

/-!
# What the threads rely on

The callbacks keep the jobs in order and write markers where there is no job yet;
the uploader only works in directories that it has found.  Each of their steps is
one of a few moves.
-/

namespace DataCache.Recorder

open DataCache.Foundation DataCache.Storage DataCache.EventState
open DataCache.Capture (CaptureOp Callback Clock Settings captureId_of_filename
  eventDirectoryName filename recordDataAroundEventDetailed)
open DataCache.Retention (Books CallbackStep CallbackThread ForFiles ForOpen Ledger
  Pops Ready Recording Setup Starting Uploader UploaderStep finals logRefused
  recordDataAroundEventDetailed_settles processExpiredCaptures_settles)
open DataCache.Upload (UploadEffect UploadOp findUploadCandidates)

/-! ## The jobs of a node -/

/-- Every job is for a named directory, and a final one is its last. -/
structure InOrder (s : Ledger) : Prop where
  books : Books s
  named : ∀ directory ∈ handed s.monitor, directory ∈ s.named
  ends : ∀ directory,
    EndsWithFinal directory (s.monitor.consumed ++ s.monitor.storage.jobs)

section Ledgers

variable {s s' : Ledger}

theorem InOrder.of_none (hjobs : s.monitor.consumed ++ s.monitor.storage.jobs = [])
    (hrefused : s.refused = []) : InOrder s := by
  have hfinals : finals s.monitor = [] := by
    rw [finals, hjobs]
    rfl
  have hnone : ∀ {P : Text → Prop}, ∀ directory ∈ ([] : List Text), P directory :=
    fun _ hmem => absurd hmem List.not_mem_nil
  refine ⟨⟨?_, ?_, ?_, ?_⟩, ?_, fun directory => ?_⟩
  · rw [hfinals]
    exact hnone
  · rw [hrefused]
    exact hnone
  · rw [hfinals]
    exact List.nodup_nil
  · rw [hrefused]
    exact hnone
  · rw [handed, hjobs]
    exact hnone
  · rw [hjobs]
    exact .nil

/-- The jobs are the same, and the books are in order. -/
theorem InOrder.of_books (h : InOrder s) (hbooks : Books s')
    (hjobs : s'.monitor.consumed ++ s'.monitor.storage.jobs =
      s.monitor.consumed ++ s.monitor.storage.jobs)
    (hnamed : s.named ⊆ s'.named) : InOrder s' := by
  refine ⟨hbooks, ?_, hjobs ▸ h.ends⟩
  rw [handed, hjobs]
  exact fun directory hmem => hnamed (h.named directory hmem)

theorem InOrder.congr (h : InOrder s)
    (hjobs : s'.monitor.consumed ++ s'.monitor.storage.jobs =
      s.monitor.consumed ++ s.monitor.storage.jobs)
    (hnamed : s.named ⊆ s'.named) (hrefused : s'.refused = s.refused) :
    InOrder s' := by
  have hfinals : finals s'.monitor = finals s.monitor := by
    rw [finals, hjobs, finals]
  refine h.of_books ⟨?_, ?_, hfinals ▸ h.books.nodup, ?_⟩ hjobs hnamed
  · rw [hfinals]
    exact fun directory hmem => hnamed (h.books.finals directory hmem)
  · rw [hrefused]
    exact fun directory hmem => hnamed (h.books.refused directory hmem)
  · rw [hrefused, hfinals]
    exact h.books.apart

theorem InOrder.record {op : CaptureOp} {r : op.Res} (h : InOrder s)
    (hopen : ForOpen s op) (htimely : Timely s op) (heffect : Recording s op r s') :
    InOrder s' := by
  have hbooks := h.books.record hopen heffect
  obtain ⟨hperforms, hnamed, -⟩ := heffect
  by_cases hplain : Plain op
  · obtain ⟨hconsumed, hjobs, -⟩ := performs_plain hperforms hplain
    refine ⟨hbooks, ?_, ?_⟩
    · rw [handed, hconsumed, hjobs, hnamed]
      exact h.named
    · rw [hconsumed, hjobs]
      exact h.ends
  cases op with
  | enqueue job reserved =>
      obtain ⟨-, hmonitor⟩ := hperforms
      obtain ⟨hconsumed, -, ⟨-, hjobs⟩ | ⟨-, hjobs⟩⟩ :=
        enqueue_jobs s.monitor job reserved
      · rw [← hmonitor] at hconsumed hjobs
        have hjob : job.directory ∈ s.named := by
          cases hfinal : job.finalJob with
          | true => exact (hopen hfinal).named
          | false => exact (htimely hfinal).1
        refine ⟨hbooks, fun directory hmem => ?_, fun directory => ?_⟩
        · rw [handed, hconsumed, hjobs, ← List.append_assoc, List.map_append] at hmem
          rw [hnamed]
          rcases List.mem_append.mp hmem with hold | hnew
          · exact h.named directory hold
          · rw [List.mem_singleton.mp hnew]
            exact hjob
        · rw [hconsumed, hjobs, ← List.append_assoc]
          refine List.pairwise_append.mpr ⟨h.ends directory,
            List.pairwise_singleton _ _, fun first hfirst later hlater hown hfinal => ?_⟩
          obtain rfl := List.mem_singleton.mp hlater
          rintro rfl
          cases hlast : later.finalJob with
          | true =>
              exact (hopen hlast).unfinished (List.mem_map.mpr
                ⟨first, List.mem_filter.mpr ⟨hfirst, hfinal⟩, hown⟩)
          | false =>
              exact (htimely hlast).2 (List.mem_map.mpr ⟨first, hfirst, hown⟩)
      · rw [← hmonitor] at hconsumed hjobs
        refine h.of_books hbooks ?_ ?_
        · rw [hconsumed, hjobs]
        · rw [hnamed]
          exact List.Subset.refl _
  | _ => exact absurd trivial hplain

/-- The next capture's directory has not been named before. -/
theorem unnamed_of_ready (h : Ready s) (eventName : Text) (systemNowNs : Int) :
    eventDirectoryName eventName s.monitor.nextCaptureId systemNowNs ∉ s.named := by
  intro hmem
  obtain ⟨name, captureId, ns, hlt, heq⟩ := h.below _ hmem
  have hid := captureId_of_filename (congrArg filename heq)
  omega

/-- The rest of a callback. -/
abbrev Proceeds (rest : Callback Unit) (s : Ledger) : Prop :=
  Prog.Safe Recording Pops (fun s op => ForOpen s op ∧ Timely s op)
    (fun _ s => Ready s ∧ Holds [] s) rest s

/-- Before there is a job for the directory, its markers are written. -/
structure Marking (directory : Text) (s : Ledger) (rest : Action Bool) : Prop where
  named : directory ∈ s.named
  unused : directory ∉ handed s.monitor
  marks : rest.uses (MarkerOp directory)
  leaves : rest.uses (Leaves (completePath directory))

def CallbackOk (s : Ledger) : CallbackThread → Prop
  | .idle => Ready s ∧ Holds [] s
  | .running rest => Proceeds rest s
  | .beginning directory rest next => Marking directory s rest ∧
      ∀ written, Proceeds (next written) s
  | .failing directory rest next => Marking directory s rest ∧
      ∀ written, Proceeds (next written) s

/-- A trigger, from the moment its directory has been named. -/
theorem InOrder.triggered (h : InOrder s) (hready : Ready s) (hholds : Holds [] s)
    (settings : Settings) (clock : Clock) (eventName : Text) :
    Proceeds ((recordDataAroundEventDetailed settings clock eventName).bind
      fun _ => .ret ()) { s with
        named := s.named ++
          [eventDirectoryName eventName s.monitor.nextCaptureId clock.systemNowNs] } := by
  have hsettles := recordDataAroundEventDetailed_settles settings clock _
    (Starting.of_ready hready h.books eventName clock.systemNowNs)
  refine Prog.Safe.bind Pops.refl ((hsettles.and
    (recordDataAroundEventDetailed_punctual settings clock eventName _
      ⟨hholds.running, fun directory hmem => ?_, fun directory hmem hhanded => ?_⟩)).mono
        fun _ _ hpost _ hpops => ⟨hpost.1.alike hpops.alike, hpost.2.popped hpops⟩)
  · exact List.mem_append_right _ hmem
  · rw [List.mem_singleton.mp hmem] at hhanded
    exact unnamed_of_ready hready _ _ (h.named _ hhanded)

theorem Proceeds.record {op : CaptureOp} {next : op.Res → Callback Unit} {r : op.Res}
    (h : Proceeds (.call op next) s) (horder : InOrder s)
    (heffect : Recording s op r s') : InOrder s' ∧ Proceeds (next r) s' := by
  obtain ⟨hopen, htimely⟩ := Prog.Safe.issued Pops.refl h
  exact ⟨horder.record hopen htimely heffect, Prog.Safe.step Pops.refl h heffect⟩

theorem Marking.step {directory : Text} {op : FsOp} {rest : op.Res → Action Bool}
    (h : Marking directory s (.call op rest)) (r : op.Res) :
    Marking directory s (rest r) :=
  ⟨h.named, h.unused, h.marks.2 r, h.leaves.2 r⟩

theorem CallbackOk.popped {thread : CallbackThread} (h : CallbackOk s thread)
    (hpops : Pops s s') : CallbackOk s' thread := by
  have hmarking : ∀ {directory rest}, Marking directory s rest →
      Marking directory s' rest := by
    obtain ⟨count, rfl⟩ := hpops
    refine fun hmarking => ⟨hmarking.named, ?_, hmarking.marks, hmarking.leaves⟩
    rw [handed_pop]
    exact hmarking.unused
  have hproceeds : ∀ {rest}, Proceeds rest s → Proceeds rest s' := fun h =>
    h.disturb Pops.trans hpops
  cases thread with
  | idle => exact ⟨h.1.alike hpops.alike, h.2.popped hpops⟩
  | running rest => exact hproceeds h
  | beginning directory rest next => exact ⟨hmarking h.1, fun written =>
      hproceeds (h.2 written)⟩
  | failing directory rest next => exact ⟨hmarking h.1, fun written =>
      hproceeds (h.2 written)⟩

end Ledgers

/-! ### Steps of the callbacks -/

/-- The store is left alone, or a marker is written where there is no job yet. -/
inductive CallbackMove (codec : Codec) (w : Retention.World) :
    Retention.World → Prop
  | noted {w' : Retention.World} (hstore : w'.store = w.store)
      (huploader : w'.uploader = w.uploader)
      (hconsumed : w'.monitor.consumed = w.monitor.consumed)
      (horder : InOrder w'.ledger) (hcallback : CallbackOk w'.ledger w'.callback) :
      CallbackMove codec w w'
  | marked {directory : Text} {op : FsOp} {rest : op.Res → Action Bool} {r : op.Res}
      {store : Store} {callback : CallbackThread}
      (hmarking : Marking directory w.ledger (.call op rest))
      (heffect : Effect codec w.store op r store)
      (hcallback : CallbackOk w.ledger callback) :
      CallbackMove codec w { w with store := store, callback := callback }

/-- The callback goes on, and the ledger has not changed. -/
theorem CallbackMove.on {codec : Codec} {w : Retention.World}
    {callback : CallbackThread} (h : InOrder w.ledger)
    (hcallback : CallbackOk w.ledger callback) :
    CallbackMove codec w { w with callback } :=
  .noted rfl rfl rfl h hcallback

theorem callbackStep_moves {setup : Setup} {w w' : Retention.World}
    (hstep : CallbackStep setup false w w') (h : InOrder w.ledger)
    (hcallback : CallbackOk w.ledger w.callback) :
    CallbackMove setup.codec w w' := by
  cases hstep with
  | sense buffer pairIndex hidle =>
      rw [hidle] at hcallback
      refine .noted rfl rfl rfl (h.congr rfl (List.Subset.refl _) rfl) ?_
      change CallbackOk _ w.callback
      rw [hidle]
      exact ⟨hcallback.1.alike ⟨rfl, rfl, rfl, rfl, rfl⟩, hcallback.2.running,
        nofun, nofun⟩
  | trigger eventName clock hidle _ =>
      rw [hidle] at hcallback
      exact .noted rfl rfl rfl (h.congr rfl (List.subset_append_left _ _) rfl)
        (h.triggered hcallback.1 hcallback.2 setup.settings clock eventName)
  | schedule clock hidle =>
      rw [hidle] at hcallback
      refine .on h ?_
      exact (processExpiredCaptures_settles setup.settings clock _
        ⟨hcallback.1, List.nodup_nil, nofun, nofun⟩).and
          (processExpiredCaptures_punctual setup.settings clock _ hcallback.2)
  | @perform op next r monitor hrunning hbegin hfail hperforms =>
      rw [hrunning] at hcallback
      have hrefused : logRefused w.refused op = w.refused := by
        cases op with
        | failEvent directory reason => exact absurd rfl (hfail directory reason)
        | _ => rfl
      have hrecord : Recording w.ledger op r
          ⟨monitor, w.named, w.refused⟩ :=
        ⟨hperforms, rfl, hrefused.symm⟩
      obtain ⟨horder, hnext⟩ := Proceeds.record hcallback h hrecord
      exact .noted rfl rfl (performs_consumed hperforms) horder hnext
  | @«begin» directory eventName acceptedAtNs next hrunning =>
      rw [hrunning] at hcallback
      have hproceeds : Proceeds _ w.ledger := hcallback
      obtain ⟨hnamed, hunused⟩ := (hproceeds.issued Pops.refl).2
      exact .on h ⟨⟨hnamed, hunused, begin_marks _ _ _, begin_leaves _ _ _⟩,
        fun written => (hproceeds.record h ⟨rfl, rfl, rfl⟩).2⟩
  | beginning hbeginning heffect =>
      rw [hbeginning] at hcallback
      exact .marked hcallback.1 heffect ⟨hcallback.1.step _, hcallback.2⟩
  | begun hbeginning =>
      rw [hbeginning] at hcallback
      exact .on h (hcallback.2 _)
  | @fail directory reason next hrunning =>
      rw [hrunning] at hcallback
      have hproceeds : Proceeds _ w.ledger := hcallback
      have hrecord : ∀ written : Bool, Recording w.ledger
          (.failEvent directory reason) written
          ⟨w.monitor, w.named, w.refused ++ [directory]⟩ :=
        fun _ => ⟨rfl, rfl, rfl⟩
      obtain ⟨hnamed, hunused⟩ := (hproceeds.issued Pops.refl).2
      exact .noted rfl rfl rfl
        (hproceeds.record h (hrecord true)).1
        ⟨⟨hnamed, hunused, fail_uses _ _, fail_leaves _ _⟩,
          fun written => (hproceeds.record h (hrecord written)).2⟩
  | failing hfailing heffect =>
      rw [hfailing] at hcallback
      exact .marked hcallback.1 heffect ⟨hcallback.1.step _, hcallback.2⟩
  | failed hfailing =>
      rw [hfailing] at hcallback
      exact .on h (hcallback.2 _)
  | returned hrunning =>
      rw [hrunning] at hcallback
      have hreturned : Proceeds (.ret ()) w.ledger := hcallback
      exact .on h (hreturned.returned Pops.refl)

/-! ## The uploader -/

/-- The directories an uploader has chosen are there, and `.complete` was in them. -/
def UploaderOk (config : Upload.Config) (standing published : Text → Prop) :
    Uploader → Prop
  | .waiting => True
  | .searching rest => rest = findUploadCandidates config ∨
      ∃ directories, (∀ directory ∈ directories, standing directory) ∧
        Searches directories rest published
  | .choosing candidates => ∀ directory ∈ candidates,
      standing directory ∧ published directory
  | .uploading directory rest candidates =>
      (standing directory ∧ published directory) ∧ Tends [directory] rest ∧
        ∀ other ∈ candidates, standing other ∧ published other
  | .givingUp directory rest candidates =>
      (standing directory ∧ published directory) ∧ Tends [directory] rest ∧
        ∀ other ∈ candidates, standing other ∧ published other

section Uploaders

variable {config : Upload.Config}
  {standing standing' published published' : Text → Prop}

theorem UploaderOk.mono {thread : Uploader}
    (h : UploaderOk config standing published thread)
    (hstands : ∀ directory, standing directory → standing' directory)
    (hstays : Sees published published') :
    UploaderOk config standing' published' thread := by
  have hone : ∀ {directory}, standing directory ∧ published directory →
      standing' directory ∧ published' directory :=
    fun hboth => ⟨hstands _ hboth.1, hstays _ hboth.2⟩
  have hall : ∀ {directories : List Text},
      (∀ other ∈ directories, standing other ∧ published other) →
      ∀ other ∈ directories, standing' other ∧ published' other :=
    fun hfound other hother => hone (hfound other hother)
  cases thread with
  | waiting => trivial
  | searching rest =>
      refine h.imp_right fun ⟨directories, hstanding, hsearches⟩ => ?_
      exact ⟨directories, fun other hother => hstands other (hstanding other hother),
        Prog.Safe.disturb Sees.trans hsearches hstays⟩
  | choosing candidates => exact hall h
  | uploading directory rest candidates => exact ⟨hone h.1, h.2.1, hall h.2.2⟩
  | givingUp directory rest candidates => exact ⟨hone h.1, h.2.1, hall h.2.2⟩

end Uploaders

theorem tends_effect {made : List Text} {op : UploadOp} {r : op.Res} {s s' : Store}
    {codec : Codec} (hop : ForFiles (Tending made) op)
    (heffect : UploadEffect codec s op r s') (directory : Text) :
    ((directory ∈ made → s.disk.isDir [directory] = true) →
      Aside directory s s') ∧
    (s.disk.isDir [directory] = true → s'.disk.isDir [directory] = true) := by
  cases op with
  | fs op => exact ⟨hop.aside heffect, isDir_kept heffect fun target heq =>
      absurd heq (hop.spared target)⟩
  | _ =>
      obtain rfl : s' = s := heffect
      exact ⟨fun _ => .refl _ _, id⟩

/-- The store is left alone, or tended where the directories are. -/
inductive UploaderMove (codec : Codec) (config : Upload.Config)
    (standing published : Text → Prop) (w : Retention.World) :
    Retention.World → Prop
  | moved {uploader : Uploader}
      (huploader : UploaderOk config standing published uploader) :
      UploaderMove codec config standing published w { w with uploader }
  | tended {made : List Text} {op : UploadOp} {r : op.Res} {store : Store}
      {uploader : Uploader} (hop : ForFiles (Tending made) op)
      (heffect : UploadEffect codec w.store op r store)
      (hmade : ∀ directory ∈ made, standing directory)
      (huploader : ∀ published' : Text → Prop, Sights published op r published' →
        UploaderOk config standing published' uploader) :
      UploaderMove codec config standing published w
        { w with store := store, uploader := uploader }

theorem uploaderStep_moves {setup : Setup} {standing published : Text → Prop}
    {w w' : Retention.World} (hstep : UploaderStep setup w w')
    (huploader : UploaderOk setup.upload standing published w.uploader)
    (hlisted : ∀ name, w.store.disk.isDir [name] = true → standing name) :
    UploaderMove setup.codec setup.upload standing published w w' := by
  have hmore : ∀ {thread published' op r},
      UploaderOk setup.upload standing published thread →
      Sights published op r published' →
      UploaderOk setup.upload standing published' thread :=
    fun hok hsights => hok.mono (fun _ => id) fun directory hpublished =>
      hsights directory (.inl hpublished)
  cases hstep with
  | search hwaiting => exact .moved (.inl rfl)
  | @searching op rest r store hsearching heffect =>
      rw [hsearching] at huploader
      rcases huploader with hstart | ⟨directories, hstanding, hsearches⟩
      · cases hstart
        obtain ⟨rfl, -, hdirs, -⟩ := heffect
        exact .moved (.inr ⟨r.1, fun directory hmem =>
          hlisted _ (hdirs directory hmem), candidatesAmong_searches r.1 published⟩)
      · have hop := Prog.Safe.issued Sees.refl hsearches
        refine .tended hop heffect nofun fun published' hsights =>
          .inr ⟨directories, hstanding, ?_⟩
        exact Prog.Safe.step Sees.refl hsearches hsights
  | @found candidates hsearching =>
      rw [hsearching] at huploader
      rcases huploader with hstart | ⟨directories, hstanding, hsearches⟩
      · cases hstart
      · have hfound := Prog.Safe.returned Sees.refl hsearches
        exact .moved fun directory hmem =>
          ⟨hstanding directory (hfound directory hmem).1, (hfound directory hmem).2⟩
  | pass hchoosing =>
      rw [hchoosing] at huploader
      exact .moved fun other hmem => huploader other (List.mem_cons_of_mem _ hmem)
  | upload hchoosing =>
      rw [hchoosing] at huploader
      exact .moved ⟨huploader _ List.mem_cons_self, uploadDirectory_tends,
        fun other hmem => huploader other (List.mem_cons_of_mem _ hmem)⟩
  | @uploading directory candidates op rest r store huploading heffect =>
      rw [huploading] at huploader
      obtain ⟨hfound, ⟨hop, hrest⟩, hcandidates⟩ := huploader
      have hok : UploaderOk setup.upload standing published
          (.uploading directory (rest r) candidates) := ⟨hfound, hrest r, hcandidates⟩
      exact .tended hop heffect (List.forall_mem_singleton.mpr hfound.1)
        fun _ => hmore hok
  | uploaded huploading =>
      rw [huploading] at huploader
      exact .moved huploader.2.2
  | giveUp attempts huploading =>
      rw [huploading] at huploader
      exact .moved ⟨huploader.1, markFailed_tends attempts, huploader.2.2⟩
  | @givingUp directory candidates op rest r store hgivingUp heffect =>
      rw [hgivingUp] at huploader
      obtain ⟨hfound, ⟨hop, hrest⟩, hcandidates⟩ := huploader
      have hok : UploaderOk setup.upload standing published
          (.givingUp directory (rest r) candidates) := ⟨hfound, hrest r, hcandidates⟩
      exact .tended hop heffect (List.forall_mem_singleton.mpr hfound.1)
        fun _ => hmore hok
  | gaveUp hgivingUp =>
      rw [hgivingUp] at huploader
      exact .moved huploader.2.2
  | rest hchoosing => exact .moved trivial

end DataCache.Recorder
