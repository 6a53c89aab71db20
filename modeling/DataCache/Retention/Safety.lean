import DataCache.Retention.Sweeps
import DataCache.Retention.Uploads

/-!
# Retention never destroys data that is still needed

An invariant of the whole node: every thread finds what it relies on, and every
step of a thread keeps what the others rely on.
-/

namespace DataCache.Retention

open DataCache.Foundation DataCache.Storage DataCache.EventState
open DataCache.Capture (CaptureOp Callback Job System Performs
  recordDataAroundEventDetailed eventDirectoryName)
open DataCache.Upload (Transfer UploadOp UploadEffect findUploadCandidates
  uploadDirectory uploadFailedPath)

/-! ## The invariant -/

/-- The directories of the final jobs that the storage worker has taken. -/
def takenFinals (monitor : System) : List Text :=
  (monitor.consumed.filter Job.finalJob).map Job.directory

/-- The rest of a callback. -/
abbrev Continues (rest : Callback Unit) (s : Ledger) : Prop :=
  Prog.Safe Recording Pops ForOpen (fun _ => Ready) rest s

def CallbackOk (codec : Codec) (s : Store) (ledger : Ledger) :
    CallbackThread → Prop
  | .idle => Ready ledger
  | .running rest => Continues rest ledger
  | .beginning directory rest next => Open ledger directory ∧
      rest.uses (ReplaceOp (markerPath directory ".pending")) ∧
      ∀ written, Continues (next written) ledger
  | .failing directory rest next => directory ∈ ledger.refused ∧
      Prog.Safe (Effect codec) (KeepsBlank directory) (Failing directory)
        (fun _ _ => True) rest s ∧
      ∀ written, Continues (next written) ledger

/-- The final job of a directory comes before its verdict. -/
def JobOk (taken concluded : List Text) (job : Job) : Prop :=
  job.finalJob = true → job.directory ∈ taken ∧ job.directory ∉ concluded

def StorageOk (codec : Codec) (policy : Policy) (s : Store)
    (taken concluded : List Text) : StorageThread → Prop
  | .waiting => True
  | .writing job => JobOk taken concluded job
  | .judging directory rest => directory ∈ concluded ∧
      Prog.Safe (Effect codec) (KeepsBlank directory) (Judging directory)
        (fun _ _ => True) rest s
  | .sweeping rest resumed => Spares codec policy (fun _ _ => True) rest s ∧
      ∀ job ∈ resumed, JobOk taken concluded job

/-- Each directory is to be uploaded once. -/
structure Candidates (s : Store) (candidates : List Text) : Prop where
  nodup : candidates.Nodup
  candidate : ∀ directory ∈ candidates, Candidate s directory

def UploaderOk (codec : Codec) (s : Store) : Uploader → Prop
  | .waiting => True
  | .searching rest => Searches codec (fun candidates s =>
      candidates.Nodup ∧ ∀ directory ∈ candidates, Candidate s directory) rest s
  | .choosing candidates => Candidates s candidates
  | .uploading directory rest candidates => directory ∉ candidates ∧
      Candidates s candidates ∧
      SafelyUploads codec directory (fun _ _ => True) rest s
  | .givingUp directory rest candidates => Candidates s candidates ∧
      rest.uses (ForFiles (ReplaceOp (uploadFailedPath directory)))

structure Inv (setup : Setup) (w : World) : Prop where
  books : Books w.ledger
  callback : CallbackOk setup.codec w.store w.ledger w.callback
  storage : StorageOk setup.codec setup.policy w.store (takenFinals w.monitor)
    w.concluded w.storage
  uploader : UploaderOk setup.codec w.store w.uploader
  enabled : w.uploader ≠ .waiting → setup.policy.protectUnuploaded = true
  blank : ∀ directory ∈ w.named, directory ∉ w.refused →
    directory ∉ w.concluded → Blank w.store directory
  judged : ∀ directory ∈ w.concluded, directory ∈ takenFinals w.monitor

/-! ## Steps of the others -/

section Others

variable {codec : Codec} {policy : Policy} {s s' : Store}

/-- What each thread relies on while it is where it is. -/
def CallbackThread.Relies : CallbackThread → Store → Store → Prop
  | .failing directory _ _ => KeepsBlank directory
  | _ => fun _ _ => True

def StorageThread.Relies (policy : Policy) :
    StorageThread → Store → Store → Prop
  | .judging directory _ => KeepsBlank directory
  | .sweeping _ _ => KeepsDisposable policy
  | _ => fun _ _ => True

def Uploader.Relies : Uploader → Store → Store → Prop
  | .waiting => fun _ _ => True
  | _ => KeepsUploads

theorem CallbackOk.disturb {ledger : Ledger} {thread : CallbackThread}
    (h : CallbackOk codec s ledger thread) (hrelies : thread.Relies s s') :
    CallbackOk codec s' ledger thread := by
  cases thread with
  | failing directory rest next =>
      exact ⟨h.1, h.2.1.disturb (KeepsBlank.trans directory) hrelies, h.2.2⟩
  | _ => exact h

theorem StorageOk.disturb {taken concluded : List Text}
    {thread : StorageThread}
    (h : StorageOk codec policy s taken concluded thread)
    (hrelies : thread.Relies policy s s') :
    StorageOk codec policy s' taken concluded thread := by
  cases thread with
  | judging directory rest =>
      exact ⟨h.1, h.2.disturb (KeepsBlank.trans directory) hrelies⟩
  | sweeping rest resumed =>
      exact ⟨h.1.disturb keepsDisposable_trans hrelies, h.2⟩
  | _ => exact h

theorem Candidates.kept {candidates : List Text} (h : Candidates s candidates)
    (hkeeps : KeepsUploads s s') : Candidates s' candidates :=
  ⟨h.nodup, fun directory hmem =>
    hkeeps.candidate _ (h.candidate directory hmem)⟩

theorem UploaderOk.disturb {thread : Uploader} (h : UploaderOk codec s thread)
    (hrelies : thread.Relies s s') : UploaderOk codec s' thread := by
  cases thread with
  | waiting => trivial
  | searching rest =>
      exact Prog.Safe.disturb KeepsUploads.trans h hrelies
  | choosing candidates => exact h.kept hrelies
  | uploading directory rest candidates =>
      exact ⟨h.1, h.2.1.kept hrelies, h.2.2.disturb KeepsUploads.trans hrelies⟩
  | givingUp directory rest candidates => exact ⟨h.1.kept hrelies, h.2⟩

theorem Blank.kept {directory : Text} (h : Blank s directory)
    (hkeeps : KeepsBlank directory s s') : Blank s' directory :=
  ⟨hkeeps.complete h.complete, hkeeps.failed h.failed⟩

theorem StorageThread.relies_same {thread : StorageThread}
    (h : ∀ directory, SameMarkers directory s s') : thread.Relies policy s s' := by
  cases thread with
  | judging directory rest => exact (h directory).keepsBlank
  | sweeping rest resumed => exact fun directory => (h directory).disposable
  | _ => trivial

theorem CallbackThread.relies_blank {thread : CallbackThread}
    (h : ∀ directory, KeepsBlank directory s s') : thread.Relies s s' := by
  cases thread with
  | failing directory rest next => exact h directory
  | _ => trivial

theorem Uploader.relies_keeps {thread : Uploader}
    (h : thread ≠ .waiting → KeepsUploads s s') : thread.Relies s s' := by
  cases thread with
  | waiting => trivial
  | _ => exact h nofun

end Others

/-! ## Jobs and directories -/

section Ledgers

variable {setup : Setup} {w : World} {directory : Text}

theorem finals_split (monitor : System) : finals monitor =
    takenFinals monitor ++
      (monitor.storage.jobs.filter Job.finalJob).map Job.directory := by
  simp only [finals, takenFinals, List.filter_append, List.map_append]

/-- Callbacks only add to the queue. -/
theorem takenFinals_performs {monitor monitor' : System} {op : CaptureOp}
    {r : op.Res} (h : Performs monitor op r monitor') :
    takenFinals monitor' = takenFinals monitor := by
  have hconsumed : monitor'.consumed = monitor.consumed := by
    cases op with
    | flushPendingPairs =>
        obtain ⟨pairIndex, rfl⟩ := h
        rfl
    | enqueue job reserved =>
        obtain ⟨-, rfl⟩ := h
        unfold System.enqueue
        split <;> rfl
    | emplaceCapture task =>
        obtain rfl : monitor' = monitor.emplaceCapture task := h
        unfold System.emplaceCapture
        split <;> rfl
    | releaseReservation =>
        obtain rfl : monitor' = _ := h
        rfl
    | eraseCapture taskId =>
        obtain rfl : monitor' = _ := h
        rfl
    | beginEvent directory eventName acceptedAtNs =>
        obtain rfl : monitor' = monitor := h
        rfl
    | failEvent directory reason =>
        obtain rfl : monitor' = monitor := h
        rfl
    | _ =>
        obtain ⟨-, rfl⟩ := h
        rfl
  rw [takenFinals, hconsumed, takenFinals]

theorem Inv.finished (h : Inv setup w) (hmem : directory ∈ w.concluded) :
    directory ∈ finals w.monitor := by
  rw [finals_split]
  exact List.mem_append_left _ (h.judged directory hmem)

/-- No directory is judged and failed by a callback. -/
theorem Inv.apart (h : Inv setup w) {other : Text}
    (hconcluded : directory ∈ w.concluded) (hrefused : other ∈ w.refused) :
    other ≠ directory := by
  rintro rfl
  exact h.books.apart other hrefused (h.finished hconcluded)

theorem Inv.open_blank (h : Inv setup w) (hopen : Open w.ledger directory) :
    Blank w.store directory :=
  h.blank directory hopen.named hopen.unrefused
    fun hconcluded => hopen.unfinished (h.finished hconcluded)

/-- A directory with a final job has no verdict before it is judged. -/
theorem Inv.final_blank (h : Inv setup w)
    (htaken : directory ∈ takenFinals w.monitor)
    (hunjudged : directory ∉ w.concluded) : Blank w.store directory := by
  have hfinal : directory ∈ finals w.monitor := by
    rw [finals_split]
    exact List.mem_append_left _ htaken
  exact h.blank directory (h.books.finals directory hfinal)
    (fun hrefused => h.books.apart directory hrefused hfinal) hunjudged

end Ledgers

/-! ## What the steps of each thread keep -/

section Steps

variable {setup : Setup} {careful : Bool} {w w' : World}

/-- A step that changes the store, and keeps what is not decided yet blank. -/
theorem Inv.withStore (h : Inv setup w) {store : Store}
    {callback : CallbackThread} {storage : StorageThread} {uploader : Uploader}
    (hcallback : CallbackOk setup.codec store w.ledger callback)
    (hstorage : StorageOk setup.codec setup.policy store
      (takenFinals w.monitor) w.concluded storage)
    (huploader : UploaderOk setup.codec store uploader)
    (henabled : uploader ≠ .waiting → setup.policy.protectUnuploaded = true)
    (hblank : ∀ directory ∈ w.named, directory ∉ w.refused →
      directory ∉ w.concluded → KeepsBlank directory w.store store) :
    Inv setup { w with store, callback, storage, uploader } where
  books := h.books
  callback := hcallback
  storage := hstorage
  uploader := huploader
  enabled := henabled
  blank directory hnamed hrefused hconcluded :=
    (h.blank directory hnamed hrefused hconcluded).kept
      (hblank directory hnamed hrefused hconcluded)
  judged := h.judged

/-- A callback's operation on the monitor. -/
theorem Inv.record (h : Inv setup w) {op : CaptureOp}
    {next : op.Res → Callback Unit} {r : op.Res} {monitor : System}
    (hrunning : Continues (.call op next) w.ledger)
    (hperforms : Performs w.monitor op r monitor) (callback : CallbackThread)
    (hcallback : CallbackOk setup.codec w.store
      ⟨monitor, w.named, logRefused w.refused op⟩ callback) :
    Inv setup { w with
      monitor := monitor
      callback := callback
      refused := logRefused w.refused op } where
  books := h.books.record (hrunning.issued Pops.refl) ⟨hperforms, rfl, rfl⟩
  callback := hcallback
  storage := by
    rw [takenFinals_performs hperforms]
    exact h.storage
  uploader := h.uploader
  enabled := h.enabled
  blank directory hnamed hrefused hconcluded := by
    refine h.blank directory hnamed (fun hmem => hrefused ?_) hconcluded
    cases op with
    | failEvent other reason => exact List.mem_append_left _ hmem
    | _ => exact hmem
  judged directory hmem := by
    rw [takenFinals_performs hperforms]
    exact h.judged directory hmem

theorem Continues.performs {s : Ledger} {op : CaptureOp}
    {next : op.Res → Callback Unit} {r : op.Res} {monitor : System}
    (h : Continues (.call op next) s) (hperforms : Performs s.monitor op r monitor) :
    Continues (next r) ⟨monitor, s.named, logRefused s.refused op⟩ :=
  Prog.Safe.step Pops.refl h ⟨hperforms, rfl, rfl⟩

theorem Inv.begun (h : Inv setup w) {directory : Text} {op : FsOp}
    {rest : op.Res → Action Bool} {next : Bool → Callback Unit} {r : op.Res}
    {store : Store} (hbeginning : w.callback =
      .beginning directory (.call op rest) next)
    (heffect : Effect setup.codec w.store op r store) :
    Inv setup { w with
      store := store
      callback := .beginning directory (rest r) next } := by
  have hcallback := h.callback
  rw [hbeginning] at hcallback
  obtain ⟨hopen, ⟨hop, huses⟩, hnext⟩ := hcallback
  have hblank := beginning_keepsBlank hop heffect
  refine h.withStore ⟨hopen, huses r, hnext⟩ (h.storage.disturb ?_)
    (h.uploader.disturb ?_) h.enabled fun directory _ _ _ => hblank directory
  · cases w.storage with
    | judging other rest => exact hblank other
    | sweeping rest resumed =>
        exact beginning_keepsDisposable hop heffect (h.open_blank hopen)
    | _ => trivial
  · exact Uploader.relies_keeps fun _ => beginning_keepsUploads hop heffect

theorem Inv.failed (h : Inv setup w) {directory : Text} {op : FsOp}
    {rest : op.Res → Action Bool} {next : Bool → Callback Unit} {r : op.Res}
    {store : Store} (hfailing : w.callback =
      .failing directory (.call op rest) next)
    (heffect : Effect setup.codec w.store op r store) :
    Inv setup { w with
      store := store
      callback := .failing directory (rest r) next } := by
  have hcallback := h.callback
  rw [hfailing] at hcallback
  obtain ⟨hrefused, hsafe, hnext⟩ := hcallback
  have hop := hsafe.issued (KeepsBlank.refl directory)
  have hjudging : Judging directory w.store op := .failing hop
  refine h.withStore
    ⟨hrefused, hsafe.step (KeepsBlank.refl directory) heffect, hnext⟩
    (h.storage.disturb ?_) (h.uploader.disturb ?_) h.enabled
    fun other _ hunrefused _ => hjudging.keepsBlank heffect ?_
  · have hstorage := h.storage
    cases hthread : w.storage with
    | judging other rest =>
        rw [hthread] at hstorage
        exact hjudging.keepsBlank heffect
          (Ne.symm (h.apart hstorage.1 hrefused))
    | sweeping rest resumed => exact hop.keepsDisposable heffect
    | _ => trivial
  · exact Uploader.relies_keeps fun _ => hjudging.keepsUploads heffect
  · rintro rfl
    exact hunrefused hrefused

theorem CallbackStep.inv (hstep : CallbackStep setup true w w')
    (h : Inv setup w) : Inv setup w' := by
  have hcallback := h.callback
  cases hstep with
  | sense buffer pairIndex hidle =>
      rw [hidle] at hcallback
      refine ⟨h.books.congr rfl rfl rfl, ?_, h.storage, h.uploader, h.enabled,
        h.blank, h.judged⟩
      change CallbackOk _ _ _ w.callback
      rw [hidle]
      exact Ready.alike hcallback ⟨rfl, rfl, rfl, rfl, rfl⟩
  | trigger eventName clock hidle hfresh =>
      rw [hidle] at hcallback
      have hstart := Starting.of_ready hcallback h.books eventName
        clock.systemNowNs
      refine ⟨?_, ?_, h.storage, h.uploader, h.enabled, ?_, h.judged⟩
      · exact ⟨fun directory hmem =>
          List.mem_append_left _ (h.books.finals directory hmem),
          fun directory hmem =>
            List.mem_append_left _ (h.books.refused directory hmem),
          h.books.nodup, h.books.apart⟩
      · exact Prog.Safe.bind Pops.refl
          ((recordDataAroundEventDetailed_settles setup.settings clock _
            hstart).mono fun _ _ hready _ hpops => hready.alike hpops.alike)
      · intro directory hmem hrefused hconcluded
        rcases List.mem_append.mp hmem with hold | hnew
        · exact h.blank directory hold hrefused hconcluded
        · rw [List.mem_singleton.mp hnew]
          exact hfresh rfl
  | schedule clock hidle =>
      rw [hidle] at hcallback
      refine ⟨h.books, ?_, h.storage, h.uploader, h.enabled, h.blank, h.judged⟩
      exact processExpiredCaptures_settles setup.settings clock _
        ⟨hcallback, List.nodup_nil, nofun, nofun⟩
  | @perform op next r monitor hrunning hbegin hfail hperforms =>
      rw [hrunning] at hcallback
      have hnext := hcallback.performs hperforms
      have hrefused : logRefused w.refused op = w.refused := by
        cases op with
        | failEvent directory reason => exact absurd rfl (hfail directory reason)
        | _ => rfl
      have hinv := h.record hcallback hperforms (.running (next r)) hnext
      rw [hrefused] at hinv
      exact hinv
  | @«begin» directory eventName acceptedAtNs next hrunning =>
      rw [hrunning] at hcallback
      refine ⟨h.books, ⟨hcallback.issued Pops.refl,
        EventState.writeAtomically_uses _ _, fun written => ?_⟩, h.storage,
        h.uploader, h.enabled, h.blank, h.judged⟩
      exact hcallback.performs rfl
  | beginning hbeginning heffect => exact h.begun hbeginning heffect
  | begun hbeginning =>
      rw [hbeginning] at hcallback
      exact ⟨h.books, hcallback.2.2 _, h.storage, h.uploader, h.enabled,
        h.blank, h.judged⟩
  | @fail directory reason next hrunning =>
      rw [hrunning] at hcallback
      have hopen : Open w.ledger directory := hcallback.issued Pops.refl
      refine @Inv.record setup w h (.failEvent directory reason) next true
        w.monitor hcallback rfl _ ?_
      exact ⟨List.mem_append_right _ List.mem_cons_self,
        fail_safe reason (h.open_blank hopen), fun written =>
          hcallback.performs rfl⟩
  | failing hfailing heffect => exact h.failed hfailing heffect
  | failed hfailing =>
      rw [hfailing] at hcallback
      exact ⟨h.books, hcallback.2.2 _, h.storage, h.uploader, h.enabled,
        h.blank, h.judged⟩
  | returned hrunning =>
      rw [hrunning] at hcallback
      have hreturned : Continues (.ret ()) w.ledger := hcallback
      exact ⟨h.books, hreturned.returned Pops.refl, h.storage, h.uploader,
        h.enabled, h.blank, h.judged⟩

/-- The next job; a final one is the first of its directory. -/
theorem Inv.take (h : Inv setup w) {job : Job} {rest : List Job}
    (hjobs : w.monitor.storage.jobs = job :: rest) :
    Inv setup { w with monitor := w.monitor.pop 1, storage := .writing job } := by
  have hpops : Pops w.ledger ⟨w.monitor.pop 1, w.named, w.refused⟩ := ⟨1, rfl⟩
  have htaken : takenFinals (w.monitor.pop 1) = takenFinals w.monitor ++
      ([job].filter Job.finalJob).map Job.directory := by
    simp only [takenFinals, System.pop, hjobs, List.filter_append,
      List.map_append, List.take_succ_cons, List.take_zero]
  refine ⟨h.books.congr (finals_pop _ _) rfl rfl, ?_, fun hfinal => ?_,
    h.uploader, h.enabled, h.blank, fun directory hmem => ?_⟩
  · have hcallback := h.callback
    change CallbackOk _ _ _ w.callback
    cases hthread : w.callback with
    | idle =>
        rw [hthread] at hcallback
        exact Ready.alike hcallback hpops.alike
    | running rest =>
        rw [hthread] at hcallback
        exact Prog.Safe.disturb Pops.trans hcallback hpops
    | beginning directory rest next =>
        rw [hthread] at hcallback
        exact ⟨hcallback.1.alike hpops.alike, hcallback.2.1, fun written =>
          (hcallback.2.2 written).disturb Pops.trans hpops⟩
    | failing directory rest next =>
        rw [hthread] at hcallback
        exact ⟨hcallback.1, hcallback.2.1, fun written =>
          (hcallback.2.2 written).disturb Pops.trans hpops⟩
  · rw [htaken, List.filter_singleton, hfinal]
    refine ⟨List.mem_append_right _ List.mem_cons_self, fun hconcluded => ?_⟩
    have hnodup := h.books.nodup
    change (finals w.monitor).Nodup at hnodup
    rw [finals_split, hjobs, List.filter_cons_of_pos hfinal, List.map_cons,
      List.nodup_middle, List.nodup_cons] at hnodup
    exact hnodup.1 (List.mem_append_left _ (h.judged _ hconcluded))
  · rw [htaken]
    exact List.mem_append_left _ (h.judged directory hmem)

/-- Deleting keeps what is waiting for its upload, and brings nothing about. -/
theorem deletion_keeps {codec : Codec} {policy : Policy} {s s' : Store}
    {name : Text} {r : Bool} (heffect : Effect codec s (.removeAll [name]) r s')
    (hdisposable : Disposable policy s name) :
    (∀ directory, KeepsBlank directory s s') ∧
      (policy.protectUnuploaded = true → KeepsUploads s s') := by
  refine ⟨fun directory =>
    ⟨present_of_deleted heffect, present_of_deleted heffect⟩, fun hprotect =>
    ⟨fun directory hcandidate => ?_, fun directory => present_of_deleted heffect,
      fun directory hlease => ?_⟩⟩
  · refine (removeAll_same heffect ?_).candidate hcandidate
    rintro rfl
    have huploaded := hdisposable.uploaded hprotect hcandidate.complete
    rw [hcandidate.notUploaded] at huploaded
    cases huploaded
  · refine (removeAll_same heffect ?_ _ (by decide)).trans hlease
    rintro rfl
    rw [hdisposable.idle] at hlease
    cases hlease

theorem sweep_keeps {codec : Codec} {policy : Policy} {s s' : Store}
    {op : SweepOp} {r : op.Res} (heffect : SweepEffect codec policy s op r s')
    (hop : Deletes policy s op) :
    (∀ directory, KeepsBlank directory s s') ∧
      (policy.protectUnuploaded = true → KeepsUploads s s') := by
  by_cases hdelete : ∃ dir reason, op = .deleteDir dir reason
  · obtain ⟨dir, reason, rfl⟩ := hdelete
    exact deletion_keeps heffect.deleted hop.1
  · have hsame := heffect.same fun dir reason heq => hdelete ⟨dir, reason, heq⟩
    exact ⟨fun directory => (hsame directory).keepsBlank,
      fun _ => .of_same hsame⟩

theorem Inv.swept (h : Inv setup w) {op : SweepOp}
    {rest : op.Res → Sweep Unit} {resumed : Option Job} {r : op.Res}
    {store : Store} (hsweeping : w.storage = .sweeping (.call op rest) resumed)
    (heffect : CarefulEffect setup.codec setup.policy w.store op r store) :
    Inv setup { w with store := store, storage := .sweeping (rest r) resumed } := by
  have hstorage := h.storage
  rw [hsweeping] at hstorage
  obtain ⟨hsafe, hresumed⟩ := hstorage
  have hkeeps := sweep_keeps heffect.1 (hsafe.issued keepsDisposable_refl)
  exact h.withStore (h.callback.disturb (CallbackThread.relies_blank hkeeps.1))
    ⟨hsafe.step keepsDisposable_refl heffect, hresumed⟩
    (h.uploader.disturb (Uploader.relies_keeps fun hne =>
      hkeeps.2 (h.enabled hne)))
    h.enabled fun directory _ _ _ => hkeeps.1 directory

theorem Inv.judged_step (h : Inv setup w) {directory : Text} {op : FsOp}
    {rest : op.Res → Action Bool} {r : op.Res} {store : Store}
    (hjudging : w.storage = .judging directory (.call op rest))
    (heffect : Effect setup.codec w.store op r store) :
    Inv setup { w with store := store, storage := .judging directory (rest r) } := by
  have hstorage := h.storage
  rw [hjudging] at hstorage
  obtain ⟨hconcluded, hsafe⟩ := hstorage
  have hop := hsafe.issued (KeepsBlank.refl directory)
  refine h.withStore (h.callback.disturb ?_)
    ⟨hconcluded, hsafe.step (KeepsBlank.refl directory) heffect⟩
    (h.uploader.disturb (Uploader.relies_keeps fun _ =>
      hop.keepsUploads heffect)) h.enabled
    fun other _ _ hunjudged => hop.keepsBlank heffect ?_
  · have hcallback := h.callback
    cases hthread : w.callback with
    | failing other rest next =>
        rw [hthread] at hcallback
        exact hop.keepsBlank heffect (h.apart hconcluded hcallback.1)
    | _ => trivial
  · rintro rfl
    exact hunjudged hconcluded

theorem StorageStep.inv (hstep : StorageStep setup true w w')
    (h : Inv setup w) : Inv setup w' := by
  have hstorage := h.storage
  cases hstep with
  | take hwaiting hjobs => exact h.take hjobs
  | prepare hwriting hlimit =>
      rw [hwriting] at hstorage
      refine ⟨h.books, h.callback, ⟨enforceRetention_spares true w.store, ?_⟩,
        h.uploader, h.enabled, h.blank, h.judged⟩
      rintro job ⟨⟩
      exact hstorage
  | write hwriting hstore =>
      exact h.withStore (h.callback.disturb (CallbackThread.relies_blank
          fun directory => (hstore.same directory).keepsBlank))
        (h.storage.disturb (StorageThread.relies_same hstore.same))
        (h.uploader.disturb (Uploader.relies_keeps fun _ =>
          .of_same hstore.same)) h.enabled
        fun directory _ _ _ => (hstore.same directory).keepsBlank
  | written hwriting hfinal =>
      exact ⟨h.books, h.callback, trivial, h.uploader, h.enabled, h.blank,
        h.judged⟩
  | @judge job judgement hwriting hfinal hjudgement =>
      rw [hwriting] at hstorage
      obtain ⟨htaken, hunjudged⟩ := hstorage hfinal
      refine ⟨h.books, h.callback, ⟨List.mem_append_right _ List.mem_cons_self,
        judgement_safe hjudgement (h.final_blank htaken hunjudged)⟩,
        h.uploader, h.enabled, fun directory hnamed hrefused hconcluded =>
          h.blank directory hnamed hrefused fun hmem =>
            hconcluded (List.mem_append_left _ hmem), fun directory hmem => ?_⟩
      rcases List.mem_append.mp hmem with hold | hnew
      · exact h.judged directory hold
      · rw [List.mem_singleton.mp hnew]
        exact htaken
  | judging hjudging heffect => exact h.judged_step hjudging heffect
  | judged hjudging =>
      exact ⟨h.books, h.callback, ⟨enforceRetention_spares false w.store, nofun⟩,
        h.uploader, h.enabled, h.blank, h.judged⟩
  | sweep hsweeping heffect hcareful =>
      exact h.swept hsweeping ⟨heffect, hcareful rfl⟩
  | @swept resumed hsweeping =>
      rw [hsweeping] at hstorage
      refine ⟨h.books, h.callback, ?_, h.uploader, h.enabled, h.blank, h.judged⟩
      cases resumed with
      | none => trivial
      | some job => exact hstorage.2 job rfl

/-- The uploader's own move, where the store stays as it is. -/
theorem Inv.uploaderMoves (h : Inv setup w)
    (henabled : setup.policy.protectUnuploaded = true) {uploader : Uploader}
    (huploader : UploaderOk setup.codec w.store uploader) :
    Inv setup { w with uploader } :=
  ⟨h.books, h.callback, h.storage, huploader, fun _ => henabled, h.blank,
    h.judged⟩

/-- The uploader's own move, where the store changes. -/
theorem Inv.uploaderActs (h : Inv setup w)
    (henabled : setup.policy.protectUnuploaded = true) {store : Store}
    {uploader : Uploader} (huploader : UploaderOk setup.codec store uploader)
    (hblank : ∀ directory, KeepsBlank directory w.store store)
    (hdisposable : KeepsDisposable setup.policy w.store store) :
    Inv setup { w with store, uploader } := by
  refine h.withStore (h.callback.disturb (CallbackThread.relies_blank hblank))
    (h.storage.disturb ?_) huploader (fun _ => henabled)
    fun directory _ _ _ => hblank directory
  cases w.storage with
  | judging directory rest => exact hblank directory
  | sweeping rest resumed => exact hdisposable
  | _ => trivial

theorem UploaderStep.inv (hstep : UploaderStep setup w w')
    (henabled : setup.policy.protectUnuploaded = true) (h : Inv setup w) :
    Inv setup w' := by
  have huploader := h.uploader
  cases hstep with
  | search hwaiting =>
      exact h.uploaderMoves henabled (findUploadCandidates_searches w.store)
  | @searching op rest r store hsearching heffect =>
      rw [hsearching] at huploader
      have hsafe : Searches _ _ (.call op rest) w.store := huploader
      have hop := hsafe.issued KeepsUploads.refl
      refine h.uploaderActs henabled (hsafe.step KeepsUploads.refl heffect)
        (fun directory => ?_) ?_
      · exact hop.keeps heffect (KeepsBlank.refl directory _)
          fun _ _ hop heffect => hop.keepsBlank heffect
      · exact hop.keeps heffect (keepsDisposable_refl _)
          fun _ _ hop heffect => hop.keepsDisposable heffect
  | @found candidates hsearching =>
      rw [hsearching] at huploader
      have hsafe : Searches setup.codec (fun candidates s =>
          candidates.Nodup ∧ ∀ directory ∈ candidates, Candidate s directory)
        (.ret candidates) w.store := huploader
      have hfound := hsafe.returned KeepsUploads.refl
      exact h.uploaderMoves henabled ⟨hfound.1, hfound.2⟩
  | pass hchoosing =>
      rw [hchoosing] at huploader
      exact h.uploaderMoves henabled ⟨huploader.nodup.of_cons, fun other hmem =>
        huploader.candidate other (List.mem_cons_of_mem _ hmem)⟩
  | upload hchoosing =>
      rw [hchoosing] at huploader
      exact h.uploaderMoves henabled
        ⟨(List.nodup_cons.mp huploader.nodup).1,
          ⟨huploader.nodup.of_cons, fun other hmem =>
            huploader.candidate other (List.mem_cons_of_mem _ hmem)⟩,
          uploadDirectory_uploads
            (huploader.candidate _ List.mem_cons_self)⟩
  | @uploading directory candidates op rest r store huploading heffect =>
      rw [huploading] at huploader
      obtain ⟨hnotMem, hcandidates, hsafe⟩ := huploader
      have hop := hsafe.issued KeepsUploads.refl
      refine h.uploaderActs henabled
        ⟨hnotMem, ⟨hcandidates.nodup, fun other hmem => ?_⟩,
          hsafe.step KeepsUploads.refl heffect⟩ (fun other => ?_) ?_
      · have hcandidate := hcandidates.candidate other hmem
        have hne : other ≠ directory := fun heq => hnotMem (heq ▸ hmem)
        exact @ForFiles.keeps _ _ _ _ (fun _ store => Candidate store other) _ _
          hop.within heffect hcandidate fun _ _ hop heffect =>
            (upload_same hop heffect hne).candidate hcandidate
      · exact hop.within.keeps heffect (KeepsBlank.refl other _)
          fun _ _ hop heffect => upload_keepsBlank hop heffect other
      · exact hop.within.keeps heffect (keepsDisposable_refl _)
          fun _ _ hwithin heffect =>
            hop.held.keepsDisposable henabled hwithin heffect
  | uploaded huploading =>
      rw [huploading] at huploader
      exact h.uploaderMoves henabled huploader.2.1
  | giveUp attempts huploading =>
      rw [huploading] at huploader
      exact h.uploaderMoves henabled ⟨huploader.2.1, markFailed_uses attempts⟩
  | @givingUp directory candidates op rest r store hgivingUp heffect =>
      rw [hgivingUp] at huploader
      obtain ⟨hcandidates, hop, huses⟩ := huploader
      have hsame : ∀ other, SameMarkers other w.store store := fun other =>
        hop.keeps heffect (fun _ _ => rfl)
          fun _ _ hop heffect => givingUp_same hop heffect other
      exact h.uploaderActs henabled ⟨hcandidates.kept (.of_same hsame), huses r⟩
        (fun other => (hsame other).keepsBlank)
        fun other => (hsame other).disposable
  | gaveUp hgivingUp =>
      rw [hgivingUp] at huploader
      exact h.uploaderMoves henabled huploader.1
  | rest hchoosing => exact h.uploaderMoves henabled trivial

theorem Step.inv (hstep : Step setup true w w') (h : Inv setup w) :
    Inv setup w' := by
  cases hstep with
  | callback hstep => exact hstep.inv h
  | storage hstep => exact hstep.inv h
  | uploader henabled hstep => exact hstep.inv henabled h

theorem Starts.inv (h : Starts setup w) : Inv setup w := by
  obtain ⟨maxSize, maxAge, maxBytes, hmonitor⟩ := h.monitor
  have hfinals : finals w.monitor = [] := by
    rw [hmonitor]
    rfl
  refine ⟨⟨?_, ?_, ?_, ?_⟩, ?_, ?_, ?_, ?_, ?_, ?_⟩
  · exact fun directory hmem => by rw [World.ledger, hfinals] at hmem; cases hmem
  · exact fun directory hmem => by rw [World.ledger, h.refused] at hmem; cases hmem
  · rw [World.ledger, hfinals]
    exact List.nodup_nil
  · exact fun directory hmem => by rw [World.ledger, h.refused] at hmem; cases hmem
  · rw [h.callback]
    refine ⟨fun key task hget => ?_, fun directory hmem => ?_⟩
    · rw [World.ledger, hmonitor] at hget
      cases hget
    · rw [World.ledger, h.named] at hmem
      cases hmem
  · rw [h.storage]
    trivial
  · rw [h.uploader]
    trivial
  · exact fun hne => absurd h.uploader hne
  · intro directory hmem
    rw [h.named] at hmem
    cases hmem
  · intro directory hmem
    rw [h.concluded] at hmem
    cases hmem

theorem Reaches.inv {start : World} (hstart : Starts setup start)
    (h : Reaches setup true start w) : Inv setup w := by
  induction h with
  | refl => exact hstart.inv
  | tail _ hstep ih => exact hstep.inv ih

end Steps

/-! ## Deletions -/

section Deletions

variable {setup : Setup} {start w : World} {directory : Text}

theorem Inv.deletable (h : Inv setup w) (hdeleting : w.Deleting directory) :
    Deletable setup.policy w directory := by
  obtain ⟨dir, reason, rest, resumed, rfl, hsweeping⟩ := hdeleting
  have hstorage := h.storage
  rw [hsweeping] at hstorage
  obtain ⟨hdisposable, hnamed⟩ := hstorage.1.issued keepsDisposable_refl
  refine ⟨hnamed, hdisposable.finished, hdisposable.settled, ?_,
    hdisposable.uploaded⟩
  rintro ⟨op, next, candidates, huploading⟩
  have huploader := h.uploader
  rw [huploading] at huploader
  have hprotect := h.enabled (by rw [huploading]; exact nofun)
  have hheld := (huploader.2.2.issued KeepsUploads.refl).held
  exact hheld.not_disposable hprotect hdisposable

/--
Every directory a sweep deletes is over, is not being written or uploaded, and
has been uploaded where that is asked for.
-/
theorem sweep_deletes_deletable (hstart : Starts setup start)
    (h : Reaches setup true start w) (hdeleting : w.Deleting directory) :
    Deletable setup.policy w directory :=
  (Reaches.inv hstart h).deletable hdeleting

end Deletions

/-! ## A run -/

section Run

variable (setup : Setup) (now : Int)

/-- How a sweep's operation ends on a store without faults at this time. -/
def sweepRespond (s : Store) : (op : SweepOp) → Option (op.Res × Store)
  | .systemNow => some (now, s)
  | op =>
      match Prog.tryRun (Store.respond setup.codec)
          (op.implement setup.policy) s with
      | some (.ok r, s') => some (r, s')
      | _ => none

def World.callbackMove (w : World) : Option World :=
  match w.callback with
  | .running (.call (.beginEvent directory eventName acceptedAtNs) next) =>
      some { w with
        callback := .beginning directory
          (EventState.begin directory eventName acceptedAtNs) next }
  | .running (.call (.failEvent _ _) _) => none
  | .running (.call op next) =>
      some { w with
        monitor := (w.monitor.respond op).2
        callback := .running (next (w.monitor.respond op).1) }
  | .running (.ret ()) => some { w with callback := .idle }
  | .beginning directory (.call op rest) next =>
      match w.store.respond setup.codec op with
      | some (r, store) =>
          some { w with
            store := store
            callback := .beginning directory (rest r) next }
      | none => none
  | .beginning _ (.ret written) next =>
      some { w with callback := .running (next written) }
  | _ => none

def World.storageMove (w : World) : Option World :=
  match w.storage with
  | .waiting =>
      match w.monitor.storage.jobs with
      | job :: _ =>
          some { w with monitor := w.monitor.pop 1, storage := .writing job }
      | [] => none
  | .writing job =>
      if 0 < setup.policy.minFreeBytes then
        some { w with
          storage := .sweeping (Sweep.enforceRetention setup.policy true)
            (some job) }
      else none
  | .sweeping (.call op rest) resumed =>
      match sweepRespond setup now w.store op with
      | some (r, store) =>
          some { w with store := store, storage := .sweeping (rest r) resumed }
      | none => none
  | _ => none

/-- The callback goes first. -/
def World.advance : Nat → World → Option World
  | 0, w => some w
  | count + 1, w =>
      match (w.callbackMove setup).or (w.storageMove setup now) with
      | some w' => w'.advance count
      | none => none

variable {setup : Setup} {now : Int} {careful : Bool} {w w' : World}

theorem accurate_respond {codec : Codec} {s s' : Store} {op : FsOp}
    {r : op.Res} (h : s.respond codec op = some (r, s')) :
    Accurate codec s op r s' := by
  cases op with
  | «exists» path =>
      refine ⟨effect_respond h, fun hnone => ?_⟩
      cases h
      cases hnone
  | _ => exact effect_respond h

theorem sweepRespond_careful {s s' : Store} {op : SweepOp} {r : op.Res}
    (h : sweepRespond setup now s op = some (r, s')) :
    CarefulEffect setup.codec setup.policy s op r s' := by
  have hrun : ∀ {op : SweepOp} {r : op.Res},
      (match Prog.tryRun (Store.respond setup.codec)
          (op.implement setup.policy) s with
        | some (.ok r, s') => some (r, s')
        | _ => none) = some (r, s') →
      Prog.tryRun (Store.respond setup.codec)
        (op.implement setup.policy) s = some (.ok r, s') := by
    intro op r h
    split at h
    next heq =>
      cases h
      exact heq
    · cases h
  have hexec : ∀ {op : SweepOp} {r : op.Res},
      Prog.tryRun (Store.respond setup.codec)
        (op.implement setup.policy) s = some (.ok r, s') →
      SweepEffect setup.codec setup.policy s op r s' := fun hrun =>
    @Prog.exec_tryRun _ _ _ _ _ (Effect setup.codec)
      (Store.respond setup.codec) (fun _ _ _ _ => effect_respond) _ _ _ _ hrun
  cases op with
  | systemNow =>
      cases h
      exact ⟨.step rfl (.refl _ _), trivial⟩
  | collectEventDirs =>
      exact ⟨hexec (hrun h), @Prog.exec_tryRun _ _ _ _ _
        (Accurate setup.codec) (Store.respond setup.codec)
        (fun _ _ _ _ => accurate_respond) _ _ _ _ (hrun h)⟩
  | deleteDir dir reason =>
      refine ⟨hexec (hrun h), fun _ _ hfailed => ?_⟩
      have hdone := @hrun (.deleteDir dir reason) r h
      cases hdone
      cases hfailed
  | _ => exact ⟨hexec (hrun h), trivial⟩

theorem callbackMove_step (h : w.callbackMove setup = some w') :
    CallbackStep setup careful w w' := by
  unfold World.callbackMove at h
  split at h
  next hrunning => cases h; exact .begin hrunning
  · cases h
  next op next hbegin hfail hrunning =>
    cases h
    refine .perform hrunning (fun directory eventName acceptedAtNs heq => ?_)
      (fun directory reason heq => ?_) (Capture.performs_respond _ _)
    · subst heq
      exact hbegin _ _ _ _ rfl HEq.rfl
    · subst heq
      exact hfail _ _ _ rfl HEq.rfl
  next hrunning => cases h; exact .returned hrunning
  next hbeginning =>
    split at h
    next hrespond =>
      cases h
      exact .beginning hbeginning (effect_respond hrespond)
    · cases h
  next hbeginning => cases h; exact .begun hbeginning
  · cases h

theorem storageMove_step (h : w.storageMove setup now = some w') :
    StorageStep setup careful w w' := by
  unfold World.storageMove at h
  split at h
  next hwaiting =>
    split at h
    next hjobs => cases h; exact .take hwaiting hjobs
    · cases h
  next hwriting =>
    split at h
    next hlimit => cases h; exact .prepare hwriting hlimit
    · cases h
  next hsweeping =>
    split at h
    next hrespond =>
      cases h
      have heffect := sweepRespond_careful hrespond
      exact .sweep hsweeping heffect.1 fun _ => heffect.2
    · cases h
  · cases h

theorem reaches_advance : ∀ {count : Nat} {w : World},
    w.advance setup now count = some w' → Reaches setup careful w w'
  | 0, _, h => by
      cases h
      exact .refl
  | count + 1, w, h => by
      rw [World.advance] at h
      split at h
      next w₁ hmove =>
        have hstep : Step setup careful w w₁ := by
          rcases Option.or_eq_some_iff.mp hmove with hmove | ⟨-, hmove⟩
          · exact .callback (callbackMove_step hmove)
          · exact .storage (storageMove_step hmove)
        exact .head hstep (reaches_advance h)
      · cases h

end Run

/-- Events have no post window here. -/
def sampleSetup : Setup where
  settings :=
    { config :=
        { getConfig := fun _ => []
          getIntConfig := fun key value =>
            if key = ("event_post_time" : Text) then 0 else value
          getBoolConfig := fun _ value => value }
      requireSyncedData := false }
  policy :=
    { minFreeBytes := 1
      maxCapacityBytes := 1
      retentionDays := 1
      cleanupSeconds := 300
      protectUnuploaded := true }
  upload :=
    { serviceName := "/upload_store"
      maxRetries := 5
      retryBackoffMs := 15000
      chunkBytes := 512 * 1024
      leaseTimeoutSeconds := 300
      failedRescanPeriodMs := 1800000 }
  codec := plainCodec

def uploadedDirectory : Text := "brake_0_100000000"

/-- A record root with one event that was completed and uploaded long ago. -/
def sampleDisk : FileSystem :=
  ([".complete", ".uploaded", "manifest.csv"] : List Text).foldl
    (fun disk name => (disk.create [uploadedDirectory, name]).append
      [uploadedDirectory, name] [1])
    ((Disk.blank.mkdirs [uploadedDirectory]).getD .blank)

def sampleWorld : World where
  store := ⟨sampleDisk, 0⟩
  monitor := Capture.initial sampleSetup.settings 100 0 0
  callback := .idle
  storage := .waiting
  uploader := .waiting
  named := []
  refused := []
  concluded := []

theorem starts_sampleWorld : Starts sampleSetup sampleWorld :=
  ⟨⟨100, 0, 0, rfl⟩, rfl, rfl, rfl, rfl, rfl, rfl⟩

def sampleNow : Int := 10 ^ 18

/-- A job arrives, and the sweep before it is written finds the old event. -/
def sampleRun : Option World :=
  (sampleWorld.triggered sampleSetup "crash" ⟨0, 7, 0⟩).advance sampleSetup
    sampleNow 23

def World.deletes (w : World) (directory reason : Text) : Bool :=
  match w.storage with
  | .sweeping (.call (.deleteDir dir why) _) _ =>
      decide (dir.name = directory ∧ why = reason)
  | _ => false

theorem deleting_of_deletes {w : World} {directory reason : Text}
    (h : w.deletes directory reason = true) : w.Deleting directory := by
  unfold World.deletes at h
  split at h
  next hsweeping =>
    exact ⟨_, _, _, _, (of_decide_eq_true h).1, hsweeping⟩
  · cases h

theorem reaches_sampleRun {careful : Bool} {w : World}
    (h : sampleRun = some w) :
    Reaches sampleSetup careful sampleWorld w := by
  have htrigger : Step sampleSetup careful sampleWorld
      (sampleWorld.triggered sampleSetup "crash" ⟨0, 7, 0⟩) :=
    .callback (.trigger "crash" ⟨0, 7, 0⟩ rfl fun _ =>
      ⟨by decide +kernel, by decide +kernel⟩)
  exact .head htrigger (reaches_advance h)

theorem sweep_deletes_deletable_by_age :
    ∃ w, Reaches sampleSetup true sampleWorld w ∧
      w.Deleting uploadedDirectory ∧
      Deletable sampleSetup.policy w uploadedDirectory := by
  have hrun : (sampleRun.any fun w =>
      w.deletes uploadedDirectory Sweep.ageReason) = true := by
    decide +kernel
  obtain ⟨w, hw, hdeletes⟩ := (Option.any_eq_true _ _).mp hrun
  have hreaches := @reaches_sampleRun true w hw
  have hdeleting := deleting_of_deletes hdeletes
  exact ⟨w, hreaches, hdeleting,
    sweep_deletes_deletable starts_sampleWorld hreaches hdeleting⟩

/-- A deletion that fails after these files of the directory are gone. -/
def World.deleteHalfway (names : List Text) (w : World) : Option World :=
  match w.storage with
  | .sweeping (.call (.deleteDir dir _) rest) resumed =>
      some { w with
        store := w.store.setDisk (w.store.disk.unlinkAll
          (names.map fun name => [dir.name, name]))
        storage := .sweeping (rest false) resumed }
  | _ => none

theorem deleteHalfway_step {setup : Setup} {names : List Text} {w w' : World}
    (h : w.deleteHalfway names = some w') : StorageStep setup false w w' := by
  unfold World.deleteHalfway at h
  split at h
  next dir reason rest resumed hsweeping =>
    cases h
    refine .sweep hsweeping (.step (.inr ⟨rfl, _, ?_, rfl⟩) (.refl _ _)) nofun
    intro victim hvictim
    obtain ⟨name, -, rfl⟩ := List.mem_map.mp hvictim
    exact ⟨[name], rfl⟩
  · cases h

/-- The age limit's deletion removes `.uploaded` and fails; on with the sweep. -/
def failedRun : Option World :=
  (sampleRun.bind (World.deleteHalfway [".uploaded"])).bind
    (World.advance sampleSetup sampleNow 1)

/-- The capacity limit deletes the directory although it is to be uploaded. -/
theorem not_deletable_of_failed_deletion :
    ¬∀ (setup : Setup) (start w : World) (directory : Text),
      Starts setup start → Reaches setup false start w →
      w.Deleting directory → Deletable setup.policy w directory := by
  intro h
  have hrun : (failedRun.any fun w =>
      w.deletes uploadedDirectory Sweep.capacityReason &&
        present w.store uploadedDirectory ".complete" &&
        !present w.store uploadedDirectory ".uploaded") = true := by
    decide +kernel
  obtain ⟨w, hw, hchecked⟩ := (Option.any_eq_true _ _).mp hrun
  simp only [Bool.and_eq_true, Bool.not_eq_true'] at hchecked
  obtain ⟨⟨hdeletes, hcomplete⟩, hmissing⟩ := hchecked
  obtain ⟨w₂, hw₂, hadvance⟩ := Option.bind_eq_some_iff.mp hw
  obtain ⟨w₁, hw₁, hhalfway⟩ := Option.bind_eq_some_iff.mp hw₂
  have hreaches : Reaches sampleSetup false sampleWorld w :=
    ((reaches_sampleRun hw₁).tail (.storage (deleteHalfway_step
      hhalfway))).trans (reaches_advance hadvance)
  have huploaded := (h sampleSetup sampleWorld w uploadedDirectory
    starts_sampleWorld hreaches (deleting_of_deletes hdeletes)).uploaded rfl
    hcomplete
  rw [hmissing] at huploaded
  cases huploaded

end DataCache.Retention
