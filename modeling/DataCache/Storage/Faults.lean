import DataCache.Foundation.Outcomes
import DataCache.EventState.Verdict
import DataCache.Storage.Worker

/-!
# Faults under the storage thread

What the storage thread does when its file-system calls fail.  Exceptions of
`writeJob` are caught; after that only the removal behind a failed rename of
the checksum manifest can throw, and nothing catches it.
-/

namespace DataCache.Storage

open DataCache.Foundation DataCache.Capture
open EventState (plainCodec)

/-- `run`, until these jobs are processed. -/
def serve (worker : Worker) : EventTable → List Job → Action EventTable
  | table, [] => return table
  | table, job :: rest => do
      let processed ← processJob worker table job
      serve worker processed.1 rest

/-! ## Calls that report failures -/

section Sweeps

open Prog (neverRaises neverRaises_bind neverRaises_call_bind)

theorem pathExists_neverRaises (path : Path) : neverRaises (pathExists path) :=
  fun _ => trivial

theorem alsoExists_neverRaises (found : Bool) (path : Path) :
    neverRaises (alsoExists found path) := by
  unfold alsoExists
  split
  · trivial
  · exact pathExists_neverRaises path

theorem isRemovable_neverRaises (policy : Policy) (name : Text) :
    neverRaises (isRemovable policy name) := by
  have hbusy : neverRaises (isBusy name) :=
    neverRaises_bind (pathExists_neverRaises _) fun _ =>
      neverRaises_bind (alsoExists_neverRaises _ _) fun _ =>
        alsoExists_neverRaises _ _
  refine neverRaises_bind hbusy fun busy => ?_
  split
  · trivial
  refine neverRaises_bind (pathExists_neverRaises _) fun complete => ?_
  refine neverRaises_bind (pathExists_neverRaises _) fun failed => ?_
  split
  · trivial
  split
  · exact pathExists_neverRaises _
  · trivial

theorem collectFrom_neverRaises (policy : Policy) :
    ∀ names, neverRaises (collectFrom policy names)
  | [] => trivial
  | name :: rest => by
      refine neverRaises_bind (isRemovable_neverRaises policy name) fun _ => ?_
      refine neverRaises_bind (collectFrom_neverRaises policy rest) fun _ => ?_
      dsimp only
      split <;> trivial

theorem sweepByAge_neverRaises (cutoffNs : Int) :
    ∀ dirs, neverRaises (sweepByAge cutoffNs dirs)
  | [] => trivial
  | dir :: rest => by
      unfold sweepByAge
      split
      · exact neverRaises_call_bind fun _ =>
          neverRaises_bind (sweepByAge_neverRaises cutoffNs rest) fun _ => trivial
      · trivial

theorem sumSizes_neverRaises (directory : Path) :
    ∀ paths, neverRaises (sumSizes directory paths)
  | [] => trivial
  | _ :: rest => neverRaises_call_bind fun _ =>
      neverRaises_bind (sumSizes_neverRaises directory rest) fun _ => trivial

theorem measure_neverRaises : ∀ dirs, neverRaises (measure dirs)
  | [] => trivial
  | dir :: rest => by
      have hsize : neverRaises (directorySize dir.name) :=
        neverRaises_call_bind fun _ => sumSizes_neverRaises _ _
      exact neverRaises_bind hsize fun _ =>
        neverRaises_bind (measure_neverRaises rest) fun _ => trivial

theorem sweepByCapacity_neverRaises (maxCapacityBytes : Nat) :
    ∀ dirs total, neverRaises (sweepByCapacity maxCapacityBytes total dirs)
  | [], _ => trivial
  | dir :: rest, total => by
      unfold sweepByCapacity
      split
      · trivial
      · exact neverRaises_call_bind fun _ =>
          sweepByCapacity_neverRaises maxCapacityBytes rest _

theorem sweep_neverRaises (policy : Policy) : neverRaises (sweep policy) := by
  have hcollect : neverRaises (collectEventDirs policy) :=
    neverRaises_call_bind fun _ =>
      neverRaises_bind (collectFrom_neverRaises policy _) fun _ => trivial
  refine neverRaises_bind hcollect fun dirs => neverRaises_bind ?_ fun dirs => ?_
  · unfold applyAgeLimit
    split
    · exact neverRaises_call_bind fun _ => sweepByAge_neverRaises _ _
    · trivial
  · unfold applyCapacityLimit
    split
    · exact neverRaises_bind (measure_neverRaises _) fun _ =>
        sweepByCapacity_neverRaises _ _ _
    · trivial

theorem sweepAfterEvent_neverRaises (worker : Worker) :
    neverRaises (sweepAfterEvent worker) := by
  unfold sweepAfterEvent
  split
  · trivial
  unfold enforceRetention
  split
  · trivial
  refine neverRaises_call_bind fun now => neverRaises_call_bind fun last => ?_
  split
  · trivial
  · exact neverRaises_call_bind fun _ => sweep_neverRaises _

end Sweeps

section Verdicts

open Prog (neverRaises neverRaises_bind neverRaises_call_bind)

theorem replaceTarget_neverRaises (target : Path) :
    neverRaises (EventState.replaceTarget target) := by
  rintro (_ | _)
  · rintro _ (_ | _) <;> exact fun _ => trivial
  · exact fun _ => trivial

theorem writeMarker_neverRaises (target : Path) (content : Bytes) :
    neverRaises (EventState.writeAtomically target content) := by
  rintro (_ | _)
  · trivial
  rintro (_ | _)
  · trivial
  rintro (_ | _)
  · exact fun _ => trivial
  · exact fun _ => replaceTarget_neverRaises target

theorem fail_neverRaises (directory reason : Text) :
    neverRaises (EventState.fail directory reason) := by
  refine neverRaises_call_bind fun now =>
    neverRaises_bind (writeMarker_neverRaises _ _) ?_
  rintro (_ | _)
  · trivial
  · exact fun _ _ => trivial

theorem complete_neverRaises (directory : Text) (recordCount : Nat) :
    neverRaises (EventState.complete directory recordCount) := by
  refine neverRaises_bind (writeMarker_neverRaises _ _) ?_
  rintro (_ | _)
  · trivial
  · exact fun _ _ _ => trivial

theorem concludeChecked_neverRaises (directory : Text)
    (progress : EventProgress) (checksums : Bool) :
    neverRaises (concludeChecked directory progress checksums) := by
  unfold concludeChecked
  split
  · exact neverRaises_bind (fail_neverRaises _ _) fun _ => trivial
  · refine neverRaises_bind (neverRaises_bind (complete_neverRaises _ _) ?_)
      fun _ => trivial
    rintro (_ | _)
    · exact neverRaises_bind (fail_neverRaises _ _) fun _ => trivial
    · trivial

theorem checksumLines_neverRaises (sha256 : Bytes → Digest)
    (directory : Text) :
    ∀ paths, neverRaises (checksumLines sha256 directory paths)
  | [] => trivial
  | path :: rest => by
      refine neverRaises_call_bind ?_
      rintro (_ | content)
      · trivial
      · exact neverRaises_bind
          (checksumLines_neverRaises sha256 directory rest) fun _ => trivial

end Verdicts

/-! ## The removal that throws -/

/-- A store, and the answers its calls have had. -/
abbrev LoggedStore := Store × List (Prog.Answer FsOp.Res)

abbrev LoggedEffect (codec : Codec) : Prog.Effect FsOp.Res LoggedStore :=
  Prog.Logged (Effect codec)

/-- The rename of the temporary file failed, and then its removal did too. -/
def leftBehind (target : Path) : List (Prog.Answer FsOp.Res) :=
  [⟨.rename (tempPath target) target, false⟩,
    ⟨.remove (tempPath target), false⟩]

section Rounds

variable {worker : Worker} {codec : Codec} {s s' : LoggedStore}
  {error : StorageError}

theorem writeAtomically_raises {target : Path} {data : Bytes}
    (h : Prog.Exec (LoggedEffect codec) s (writeAtomically target data) s'
      (.raise error)) : leftBehind target <:+ s'.2 := by
  have hwp : Prog.wp (LoggedEffect codec) (fun _ => True) (fun _ _ => True)
      (fun _ s' => leftBehind target <:+ s'.2) (writeAtomically target data)
      s := by
    refine fun (opened : Bool) s₁ _ => ⟨trivial, ?_⟩
    cases opened with
    | false => trivial
    | true =>
        refine fun (written : Bool) s₂ _ => ⟨trivial, ?_⟩
        cases written with
        | false => exact fun _ _ _ => ⟨trivial, trivial⟩
        | true =>
            refine fun _ s₃ _ => ⟨trivial, ?_⟩
            refine fun (renamed : Bool) s₄ hrename => ⟨trivial, ?_⟩
            cases renamed with
            | true => exact fun _ _ _ => ⟨trivial, trivial⟩
            | false =>
                refine fun (removed : Bool) s₅ hremove => ⟨trivial, ?_⟩
                cases removed with
                | true => trivial
                | false =>
                    refine ⟨s₃.2, ?_⟩
                    rw [hremove.2, hrename.2, List.append_assoc]
                    rfl
  exact (Prog.wp_exec h trivial hwp).2

def checksumsTarget (directory : Text) : Path := [directory, "manifest.sha256"]

theorem writeChecksumManifest_raises {directory : Text}
    (h : Prog.Exec (LoggedEffect codec) s
      (writeChecksumManifest worker.sha256 directory) s' (.raise error)) :
    leftBehind (checksumsTarget directory) <:+ s'.2 := by
  have hlisted : Prog.neverRaises (perform (.listFiles [directory])) :=
    fun _ => trivial
  rcases h.of_bind_raise with hlist | ⟨listing, s₁, -, h⟩
  · exact absurd (hlisted.exec hlist) id
  dsimp only at h
  split at h
  · cases h
  rcases h.of_bind_raise with hlines | ⟨lines, s₂, -, h⟩
  · exact absurd ((checksumLines_neverRaises _ _ _).exec hlines) id
  cases lines with
  | none => cases h
  | some lines =>
      dsimp only at h
      split at h
      · cases h
      · exact writeAtomically_raises h

theorem conclude_raises {directory : Text} {progress : EventProgress}
    (h : Prog.Exec (LoggedEffect codec) s (conclude worker directory progress)
      s' (.raise error)) : leftBehind (checksumsTarget directory) <:+ s'.2 := by
  have hchecked : ∀ {s progress checksums}, ¬Prog.Exec (LoggedEffect codec) s
      (concludeChecked directory progress checksums) s' (.raise error) :=
    fun h => (concludeChecked_neverRaises _ _ _).exec h
  unfold conclude at h
  split at h
  · exact absurd h hchecked
  · rcases h.of_bind_raise with hmanifest | ⟨checksums, s₁, -, h⟩
    · exact writeChecksumManifest_raises hmanifest
    · exact absurd h hchecked

theorem processJob_raises {table : EventTable} {job : Job}
    (h : Prog.Exec (LoggedEffect codec) s (processJob worker table job) s'
      (.raise error)) :
    leftBehind (checksumsTarget job.directory) <:+ s'.2 := by
  have hguarded : Prog.neverRaises (writeGuarded worker job) :=
    Prog.neverRaises_catchError (by intro; trivial) _
  rcases h.of_bind_raise with hwrite | ⟨outcome, s₁, -, h⟩
  · exact absurd (hguarded.exec hwrite) id
  dsimp only [finishJob] at h
  split at h
  · cases h
  rcases h.of_bind_raise with hconclude | ⟨conclusion, s₂, -, h⟩
  · exact conclude_raises hconclude
  · refine absurd (Prog.neverRaises.exec ?_ h) id
    exact Prog.neverRaises_bind (sweepAfterEvent_neverRaises worker)
      (by intro; trivial)

/-! ## Verdicts -/

/--
The execution went through `event_state::complete` successfully, or through
`event_state::fail`.
-/
def Judged {α : Type} (codec : Codec) (directory : Text) (s : LoggedStore)
    (p : Action α) (s' : LoggedStore) (value : α) : Prop :=
  (∃ recordCount, Prog.Calls (LoggedEffect codec)
    (EventState.complete directory recordCount) true s p s' (.ret value)) ∨
  ∃ reason written, Prog.Calls (LoggedEffect codec)
    (EventState.fail directory reason) written s p s' (.ret value)

theorem Judged.later {α β : Type} {directory : Text} {p : Action α}
    {f : α → Action β} {value : α} {result : β} {s'' : LoggedStore}
    (h : Prog.Exec (LoggedEffect codec) s p s'' (.ret value))
    (hjudged : Judged codec directory s'' (f value) s' result) :
    Judged codec directory s (p.bind f) s' result := by
  rcases hjudged with ⟨recordCount, hcalls⟩ | ⟨reason, written, hcalls⟩
  · exact .inl ⟨recordCount, hcalls.later h⟩
  · exact .inr ⟨reason, written, hcalls.later h⟩

theorem Judged.within {α β : Type} {directory : Text} {p : Action α}
    {f : α → Action β} {value : α} {result : β} {s'' : LoggedStore}
    (hjudged : Judged codec directory s p s'' value)
    (h : Prog.Exec (LoggedEffect codec) s'' (f value) s' (.ret result)) :
    Judged codec directory s (p.bind f) s' result := by
  rcases hjudged with ⟨recordCount, hcalls⟩ | ⟨reason, written, hcalls⟩
  · exact .inl ⟨recordCount, hcalls.within h⟩
  · exact .inr ⟨reason, written, hcalls.within h⟩

theorem completeOrFail_judges {directory reason : Text} {recordCount : Nat}
    {completed : Bool}
    (h : Prog.Exec (LoggedEffect codec) s
      (EventState.completeOrFail directory recordCount reason) s'
      (.ret completed)) :
    Judged codec directory s
      (EventState.completeOrFail directory recordCount reason) s' completed := by
  obtain ⟨written, s₁, hcomplete, hrest⟩ := h.of_bind_ret
  cases written with
  | true => exact .inl ⟨recordCount, .first hcomplete hrest⟩
  | false =>
      refine .later hcomplete ?_
      obtain ⟨failed, s₂, hfail, hlast⟩ := hrest.of_bind_ret
      exact .inr ⟨reason, failed, .first hfail hlast⟩

theorem concludeChecked_judges {directory : Text} {progress : EventProgress}
    {checksums : Bool} {conclusion : Conclusion}
    (h : Prog.Exec (LoggedEffect codec) s
      (concludeChecked directory progress checksums) s' (.ret conclusion)) :
    Judged codec directory s (concludeChecked directory progress checksums) s'
      conclusion := by
  unfold concludeChecked at h ⊢
  split at h
  next hfailed =>
    rw [if_pos hfailed]
    obtain ⟨written, s₁, hfail, hrest⟩ := h.of_bind_ret
    exact .inr ⟨_, written, .first hfail hrest⟩
  next hfailed =>
    rw [if_neg hfailed]
    obtain ⟨completed, s₁, hcomplete, hrest⟩ := h.of_bind_ret
    exact .within (completeOrFail_judges hcomplete) hrest

theorem conclude_judges {directory : Text} {progress : EventProgress}
    {conclusion : Conclusion}
    (h : Prog.Exec (LoggedEffect codec) s (conclude worker directory progress)
      s' (.ret conclusion)) :
    Judged codec directory s (conclude worker directory progress) s'
      conclusion := by
  unfold conclude at h ⊢
  split at h
  next hfailed =>
    rw [if_pos hfailed]
    exact concludeChecked_judges h
  next hfailed =>
    rw [if_neg hfailed]
    obtain ⟨checksums, s₁, hmanifest, hrest⟩ := h.of_bind_ret
    exact .later hmanifest (concludeChecked_judges hrest)

theorem processJob_judges {table : EventTable} {job : Job}
    {result : EventTable × Processed} (hfinal : job.finalJob = true)
    (h : Prog.Exec (LoggedEffect codec) s (processJob worker table job) s'
      (.ret result)) :
    Judged codec job.directory s (processJob worker table job) s' result := by
  obtain ⟨outcome, s₁, hwrite, hfinish⟩ := h.of_bind_ret
  refine .later hwrite ?_
  have hnot : (!job.finalJob) ≠ true := by simp [hfinal]
  dsimp only [finishJob] at hfinish ⊢
  rw [if_neg hnot] at hfinish ⊢
  obtain ⟨conclusion, s₂, hconclude, hrest⟩ := hfinish.of_bind_ret
  exact .within (conclude_judges hconclude) hrest

end Rounds

/-! ## Every run -/

/-- The final job after `before` had a verdict when it was processed. -/
def RoundJudged (worker : Worker) (codec : Codec) (start : LoggedStore)
    (before : List Job) (job : Job) (after : List Job) (s' : LoggedStore)
    (last : EventTable) : Prop :=
  ∃ table s₁ result s₂,
    Prog.Exec (LoggedEffect codec) start (serve worker .empty before) s₁
      (.ret table) ∧
    Prog.Exec (LoggedEffect codec) s₁ (processJob worker table job) s₂
      (.ret result) ∧
    Judged codec job.directory s₁ (processJob worker table job) s₂ result ∧
    Prog.Exec (LoggedEffect codec) s₂ (serve worker result.1 after) s'
      (.ret last)

/-- The thread is not ended by an exception, and each event gets a verdict. -/
structure Survives (worker : Worker) (codec : Codec) (start : LoggedStore)
    (jobs : List Job) (s' : LoggedStore) (p : Action EventTable) : Prop where
  unraised : ∀ error, p ≠ .raise error
  judged : ∀ last, p = .ret last → ∀ before job after,
    jobs = before ++ job :: after → job.finalJob = true →
      RoundJudged worker codec start before job after s' last

section Runs

variable {worker : Worker} {codec : Codec}

theorem serve_raises {error : StorageError} {s' : LoggedStore} :
    ∀ {jobs : List Job} {table : EventTable} {s : LoggedStore},
      Prog.Exec (LoggedEffect codec) s (serve worker table jobs) s'
        (.raise error) →
      ∃ directory, leftBehind (checksumsTarget directory) <:+ s'.2
  | [], _, _, h => by cases h
  | job :: rest, table, s, h => by
      rcases h.of_bind_raise with hjob | ⟨result, s₁, -, hrest⟩
      · exact ⟨job.directory, processJob_raises hjob⟩
      · exact serve_raises hrest

theorem serve_append (after : List Job) :
    ∀ (before : List Job) (table : EventTable),
      serve worker table (before ++ after) =
        (serve worker table before).bind fun table =>
          serve worker table after
  | [], _ => rfl
  | job :: rest, table => by
      simp only [List.cons_append, serve, Prog.bind_eq_bind,
        Prog.bind_assoc, serve_append after rest]

/-- Without a manifest left behind nothing ends the thread. -/
theorem serve_survives {store : Store} {jobs : List Job} {s' : LoggedStore}
    {p : Action EventTable}
    (hexec : Prog.Exec (LoggedEffect codec) (store, [])
      (serve worker .empty jobs) s' p)
    (hremoved : ∀ directory,
      ¬leftBehind (checksumsTarget directory) <:+: s'.2) :
    Survives worker codec (store, []) jobs s' p := by
  constructor
  case unraised =>
    rintro error rfl
    obtain ⟨directory, hleft⟩ := serve_raises hexec
    exact hremoved directory hleft.isInfix
  case judged =>
    rintro last rfl before job after rfl hfinal
    rw [serve_append] at hexec
    obtain ⟨table, s₁, hbefore, hrest⟩ := hexec.of_bind_ret
    obtain ⟨result, s₂, hjob, hafter⟩ := hrest.of_bind_ret
    exact ⟨table, s₁, result, s₂, hbefore, hjob, processJob_judges hfinal hjob,
      hafter⟩

end Runs

/-! ### One image -/

def plainWorker : Worker := ⟨none, false, fun _ => Vector.replicate 32 0⟩

def imageJob : Job :=
  ⟨"brake_7", [.camera 5 (some ⟨5, 1, 1, "mono8", 1, [0]⟩)], true, false, false,
    3, true, false, "jpg", 90, "pcd", [], true⟩

def blankStore : LoggedStore := (⟨Disk.blank, 0⟩, [])

def isFailedRename : Prog.Answer FsOp.Res → Bool
  | ⟨.rename _ _, (renamed : Bool)⟩ => !renamed
  | _ => false

theorem not_leftBehind {target : Path} {log : List (Prog.Answer FsOp.Res)}
    (h : log.all fun answer => !isFailedRename answer) :
    ¬leftBehind target <:+: log := by
  intro hleft
  have hmem : ⟨.rename (tempPath target) target, false⟩ ∈ log :=
    hleft.subset List.mem_cons_self
  have hrenamed := List.all_eq_true.mp h _ hmem
  simp [isFailedRename] at hrenamed

theorem serve_survives_image :
    ∃ s' last, s'.1.disk.isFile ["brake_7", ".complete"] = true ∧
      Survives plainWorker plainCodec blankStore [imageJob] s' (.ret last) := by
  have hrun : Prog.passes (Prog.logging (Store.respond plainCodec))
      (fun _ s' => s'.2.all (fun answer => !isFailedRename answer) &&
        s'.1.disk.isFile ["brake_7", ".complete"])
      (serve plainWorker .empty [imageJob]) blankStore = true := by
    decide +kernel
  obtain ⟨last, s', hexec, hcheck⟩ := Prog.exec_of_passes
    (Prog.logged_logging fun s op r s' => @effect_respond plainCodec s s' op r)
    hrun
  rw [Bool.and_eq_true] at hcheck
  exact ⟨s', last, hcheck.2,
    serve_survives hexec fun _ => not_leftBehind hcheck.1⟩

/-- Neither the manifest nor its temporary file can be touched any more. -/
def respondStuck (s : Store) : (op : FsOp) → Option (op.Res × Store)
  | .rename source target =>
      if target = checksumsTarget "brake_7" then some (false, s)
      else s.respond plainCodec (.rename source target)
  | .remove path =>
      if path = tempPath (checksumsTarget "brake_7") then some (false, s)
      else s.respond plainCodec (.remove path)
  | op => s.respond plainCodec op

theorem effect_respondStuck : ∀ s op r s', respondStuck s op = some (r, s') →
    Effect plainCodec s op r s' := by
  intro s op r s' h
  unfold respondStuck at h
  split at h
  · split at h
    · cases h
      exact .inr ⟨rfl, rfl⟩
    · exact effect_respond h
  · split at h
    · cases h
      exact .inr ⟨rfl, rfl⟩
    · exact effect_respond h
  · exact effect_respond h

theorem thread_ended_by_manifest :
    ¬∀ (worker : Worker) (codec : Codec) (store : Store) (jobs : List Job)
      (s' : LoggedStore) (p : Action EventTable),
      Prog.Exec (LoggedEffect codec) (store, []) (serve worker .empty jobs) s'
        p →
      Survives worker codec (store, []) jobs s' p := by
  intro h
  have hrun : Prog.breaks (Prog.logging respondStuck)
      (serve plainWorker .empty [imageJob]) blankStore = true := by
    decide +kernel
  obtain ⟨error, s', hexec⟩ :=
    Prog.exec_of_breaks (Prog.logged_logging effect_respondStuck) hrun
  exact (h _ _ _ _ _ _ hexec).unraised error rfl

end DataCache.Storage
