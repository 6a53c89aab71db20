import DataCache.Storage.Rounds

/-!
# Conversions that fail

Between the data of a record and its row stands an optional conversion.  One
that returns without a copy costs nothing; one that throws takes the rest of
the job with it, although the data of the record is already stored.
-/

namespace DataCache.Storage

open DataCache.Foundation DataCache.Capture
open EventState (plainCodec)

/-! ## The record loop -/

abbrev LoggedWatched := Watched × List (Prog.Answer FsOp.Res)

abbrev JobEffect (codec : Codec) (job : Job) :
    Prog.Effect FsOp.Res LoggedWatched :=
  Prog.Logged (WorkerEffect codec job.directory)

/-- What follows the record loop, and the `catch` around the whole job. -/
def finish (job : Job) (loop : Action (Stream × JobOutcome)) :
    Action JobOutcome :=
  (loop.bind fun written =>
    (closeManifest job.directory written.1 written.2).bind fun outcome =>
      syncLists job outcome).catchError fun error =>
        .ret ⟨false, 0, exceptionReason error⟩

def startOutcome (paired : Bool) : JobOutcome :=
  if paired then ⟨true, 0, []⟩ else ⟨false, 0, "pairs_write_failed"⟩

section Loop

variable (effect : Prog.Effect FsOp.Res LoggedWatched) (worker : Worker)
  (job : Job)

/-- A run of the job has come to these records with this manifest and outcome. -/
inductive Reaches (start : LoggedWatched) :
    LoggedWatched → List SensorData → Stream → JobOutcome → Prop
  | opened {s₁ s₂ s₃ s₄ s : LoggedWatched} {position : Nat} {manifest : Stream}
      {paired : Bool}
      (hspace : Prog.Exec effect start (hasSpace worker) s₁ (.ret true))
      (hcreate : Prog.Exec effect s₁
        (perform (.createDirectories [job.directory])) s₂ (.ret true))
      (hopen : Prog.Exec effect s₂
        (perform (.openAppend (manifestPath job.directory))) s₃
        (.ret (some position)))
      (hstart : Prog.Exec effect s₃
        (Stream.start (manifestPath job.directory) position manifestHeader) s₄
        (.ret manifest))
      (hpairs : Prog.Exec effect s₄ (writePairs job.directory job.pairs) s
        (.ret paired)) :
      Reaches start s job.records manifest (startOutcome paired)
  | skipped {s : LoggedWatched} {record : SensorData} {rest : List SensorData}
      {manifest : Stream} {outcome : JobOutcome}
      (hreached : Reaches start s (record :: rest) manifest outcome)
      (hdisabled : enabled job record = false) :
      Reaches start s rest manifest outcome
  | failed {s s' : LoggedWatched} {record : SensorData} {rest : List SensorData}
      {manifest : Stream} {outcome : JobOutcome}
      (hreached : Reaches start s (record :: rest) manifest outcome)
      (henabled : enabled job record = true)
      (hwritten : Prog.Exec effect s (writeRecord worker job record) s'
        (.ret none)) :
      Reaches start s' rest manifest (outcome.fail "record_write_failed")
  | stored {s s' s'' : LoggedWatched} {record : SensorData}
      {rest : List SensorData} {manifest manifest' : Stream}
      {outcome : JobOutcome} {row : ManifestRow}
      (hreached : Reaches start s (record :: rest) manifest outcome)
      (henabled : enabled job record = true)
      (hwritten : Prog.Exec effect s (writeRecord worker job record) s'
        (.ret (some row)))
      (hput : Prog.Exec effect s' (manifest.put (manifestPath job.directory)
        (encodeUtf8 (renderRow row))) s'' (.ret manifest'))
      (hgood : manifest'.good = true) :
      Reaches start s'' rest manifest'
        { outcome with persistedRecords := outcome.persistedRecords + 1 }

end Loop

/-! ## A record between its data and its row -/

/-- The base name and whether the file is compressed, if it was written. -/
def storeRecord (worker : Worker) (job : Job) (record : SensorData) :
    Action (Option (Text × Bool)) := do
  let bytes ← serializeRecord record
  let baseName ← freshBaseName job.directory (basePrefix record) (2 ^ 64) 0
    (basePrefix record)
  let compressed ← storeCompressed worker job (baseName ++ ".bin") bytes
  let stored ← storeRaw (!compressed || job.keepRaw)
    [job.directory, baseName ++ ".bin"] bytes
  return if stored then some (baseName, compressed) else none

/-- A record whose data is stored, and what the loop holds at this point. -/
structure Halfway where
  record : SensorData
  after : List SensorData
  manifest : Stream
  outcome : JobOutcome
  base : Text
  compressed : Bool

namespace Halfway

variable (worker : Worker) (job : Job) (point : Halfway)

def row (copy : Text) : ManifestRow :=
  ⟨point.record.type, timestampOf point.record,
    if point.compressed then point.base ++ ".bin" ++ ".zst"
      else point.base ++ ".bin", point.compressed, copy⟩

/-- The row is put and the other records are written. -/
def writeRest (copy : Text) : Action (Stream × JobOutcome) :=
  (point.manifest.put (manifestPath job.directory)
    (encodeUtf8 (renderRow (point.row copy)))).bind fun manifest =>
      if !manifest.good then
        .ret (manifest, point.outcome.fail "manifest_write_failed")
      else writeRecords worker job point.after manifest
        { point.outcome with
          persistedRecords := point.outcome.persistedRecords + 1 }

/-- The manifest is closed and nothing else is written. -/
def abandon (error : StorageError) : Action JobOutcome :=
  (point.manifest.close (manifestPath job.directory)).bind fun _ =>
    .ret ⟨false, 0, exceptionReason error⟩

end Halfway

/-- A conversion in a run of the job ended like this without leaving a copy. -/
structure FailedConversion (codec : Codec) (worker : Worker) (job : Job)
    (start : LoggedWatched) (point : Halfway)
    (failure : Except StorageError Bool) (s : LoggedWatched) : Prop where
  enabled : enabled job point.record = true
  wanted : job.conversionEnabled = true
  run : ∃ s₁ s₂ s₃,
    Reaches (JobEffect codec job) worker job start s₁
      (point.record :: point.after) point.manifest point.outcome ∧
    Prog.Exec (JobEffect codec job) s₁ (storeRecord worker job point.record) s₂
      (.ret (some (point.base, point.compressed))) ∧
    Prog.Exec (JobEffect codec job) s₂ (perform (.createDirectories
      [job.directory, convertedDirectory point.record.type])) s₃ (.ret true) ∧
    Prog.Exec (JobEffect codec job) s₃ (convertMessage point.record
      [job.directory, convertedDirectory point.record.type] point.base job) s
      (.ofExcept failure)
  failed : failure ≠ .ok true

/--
The data of the record is kept, and the run goes on with a row that names no
copy and with the other records of the job.
-/
structure Harmless (codec : Codec) (worker : Worker) (job : Job)
    (point : Halfway) (s s' : LoggedWatched) (final : JobOutcome) : Prop where
  kept : Stored codec job.directory point.record point.base (point.row [])
    s'.1.disk
  goesOn : Prog.Exec (JobEffect codec job) s
    (finish job (point.writeRest worker job [])) s' (.ret final)

/-! ## Where a failed conversion leads -/

section Programs

variable {worker : Worker} {job : Job} {effect : Prog.Effect FsOp.Res LoggedWatched}

theorem writeRecord_eq (record : SensorData) :
    writeRecord worker job record = (storeRecord worker job record).bind
      fun
        | none => .ret none
        | some (base, compressed) =>
            (convertRecord job record base).bind fun copy =>
              .ret (some ⟨record.type, timestampOf record,
                if compressed then base ++ ".bin" ++ ".zst" else base ++ ".bin",
                compressed, copy⟩) := by
  simp only [writeRecord, storeRecord, Prog.bind_eq_bind, Prog.pure_eq_ret,
    Prog.bind_assoc, Prog.ret_bind]
  congr
  funext bytes
  congr
  funext base
  congr
  funext compressed
  congr
  funext stored
  cases stored <;> rfl

theorem exec_finish {s s' : LoggedWatched} {loop loop' : Action (Stream × JobOutcome)}
    (h : Prog.Exec effect s loop s' loop') :
    Prog.Exec effect s (finish job loop) s' (finish job loop') :=
  (h.bind _).catchError _

theorem Reaches.exec {start s : LoggedWatched} {records : List SensorData}
    {manifest : Stream} {outcome : JobOutcome}
    (h : Reaches effect worker job start s records manifest outcome) :
    Prog.Exec effect start (writeGuarded worker job) s
      (finish job (writeRecords worker job records manifest outcome)) := by
  induction h with
  | opened hspace hcreate hopen hstart hpairs =>
      refine ((hspace.bind _).catchError _).trans ?_
      refine ((hcreate.bind _).catchError _).trans ?_
      refine ((hopen.bind _).catchError _).trans ?_
      refine ((hstart.bind _).catchError _).trans ?_
      exact (hpairs.bind _).catchError _
  | skipped hreached hdisabled ih =>
      unfold writeRecords at ih
      rw [hdisabled] at ih
      exact ih
  | failed hreached henabled hwritten ih =>
      refine ih.trans ?_
      conv => arg 3; unfold writeRecords
      rw [henabled]
      exact exec_finish ((hwritten.catchError _).bind _)
  | stored hreached henabled hwritten hput hgood ih =>
      refine ih.trans ?_
      conv => arg 3; unfold writeRecords
      rw [henabled]
      refine (exec_finish ((hwritten.catchError _).bind _)).trans ?_
      refine (exec_finish (hput.bind _)).trans ?_
      rw [Prog.ret_bind, hgood]
      exact .refl _ _

end Programs

section Resuming

variable {codec : Codec} {worker : Worker} {job : Job} {start s : LoggedWatched}
  {point : Halfway} {failure : Except StorageError Bool}

theorem finish_close_raise (error : StorageError)
    (next : Option ManifestRow → Action (Stream × JobOutcome)) :
    finish job (Prog.bind (Prog.bind (point.manifest.close
        (manifestPath job.directory)) fun _ => .raise error) next) =
      point.abandon job error := by
  unfold Halfway.abandon Stream.close
  split <;> rfl

/-- What is left of the job: the row without a copy, or nothing. -/
def Halfway.resume (worker : Worker) (job : Job) (point : Halfway) :
    Except StorageError Bool → Action JobOutcome
  | .ok _ => finish job (point.writeRest worker job [])
  | .error error => point.abandon job error

theorem FailedConversion.exec_conversion
    (h : FailedConversion codec worker job start point failure s) : ∃ s₁ s₂,
    Prog.Exec (JobEffect codec job) start (writeGuarded worker job) s₁
      (finish job (writeRecords worker job (point.record :: point.after)
        point.manifest point.outcome)) ∧
    Prog.Exec (JobEffect codec job) s₁ (storeRecord worker job point.record) s₂
      (.ret (some (point.base, point.compressed))) ∧
    Prog.Exec (JobEffect codec job) s₂
      (convertRecord job point.record point.base) s
      (Prog.bind (.ofExcept failure) fun converted : Bool =>
        if converted then .ret (joinPath [convertedDirectory point.record.type,
          point.base ++ convertedExtension job point.record.type])
        else .ret []) := by
  obtain ⟨s₁, s₂, s₃, hreached, hstored, hmade, hconverted⟩ := h.run
  refine ⟨s₁, s₂, hreached.exec, hstored, ?_⟩
  unfold convertRecord
  rw [h.wanted]
  exact (hmade.bind _).trans (hconverted.bind _)

theorem FailedConversion.exec
    (h : FailedConversion codec worker job start point failure s) :
    Prog.Exec (JobEffect codec job) start (writeGuarded worker job) s
      (point.resume worker job failure) := by
  obtain ⟨s₁, s₂, hbefore, hstored, hconverted⟩ := h.exec_conversion
  refine hbefore.trans ?_
  conv => arg 3; unfold writeRecords
  rw [h.enabled, writeRecord_eq]
  refine (exec_finish (((hstored.bind _).catchError _).bind _)).trans ?_
  refine (exec_finish (((hconverted.bind _).catchError _).bind _)).trans ?_
  have hfailed := h.failed
  cases failure with
  | ok converted =>
      cases converted with
      | false => exact .refl _ _
      | true => exact absurd rfl hfailed
  | error error =>
      simp only [Prog.ofExcept, Prog.raise_bind, Halfway.resume]
      rw [← finish_close_raise]
      exact .refl _ _

end Resuming

/-! ## A conversion that throws -/

section Throwing

variable {codec : Codec} {worker : Worker} {job : Job} {start s s' : LoggedWatched}
  {point : Halfway} {final : JobOutcome}

theorem fail_reason_ne {outcome : JobOutcome} {reason other : Text}
    (houtcome : outcome.reason ≠ other) (hreason : reason ≠ other) :
    (outcome.fail reason).reason ≠ other := by
  unfold JobOutcome.fail orElse
  dsimp only
  split
  · exact hreason
  · exact houtcome

/-- Reasons of the record loop are none of the reasons for an exception. -/
theorem Reaches.reason_ne {effect : Prog.Effect FsOp.Res LoggedWatched}
    {records : List SensorData} {manifest : Stream} {outcome : JobOutcome}
    (h : Reaches effect worker job start s records manifest outcome)
    (error : StorageError) : outcome.reason ≠ exceptionReason error := by
  induction h with
  | @opened _ _ _ _ _ _ _ paired =>
      cases paired <;> cases error <;> decide
  | skipped _ _ ih => exact ih
  | failed _ _ _ ih =>
      refine fail_reason_ne ih ?_
      cases error <;> decide
  | stored _ _ _ _ _ ih => exact ih

theorem put_broken {path : Path} {manifest : Stream} (data : Bytes)
    (hbroken : manifest.good = false) :
    manifest.put path data = .ret manifest := by
  rw [Stream.put, hbroken]
  rfl

theorem flush_broken {path : Path} {manifest : Stream}
    (hbroken : manifest.good = false) : manifest.flush path = .ret manifest := by
  rw [Stream.flush, hbroken]
  rfl

theorem closeManifest_broken {directory : Text} {manifest : Stream}
    {outcome : JobOutcome} (hbroken : manifest.good = false) :
    closeManifest directory manifest outcome =
      (manifest.close (manifestPath directory)).bind fun _ =>
        .ret (outcome.fail "manifest_flush_failed") := by
  rw [closeManifest, flush_broken hbroken, Prog.bind_eq_bind, Prog.ret_bind,
    hbroken]
  rfl

theorem writeRest_broken {copy : Text}
    (hbroken : point.manifest.good = false) :
    point.writeRest worker job copy =
      .ret (point.manifest, point.outcome.fail "manifest_write_failed") := by
  rw [Halfway.writeRest, put_broken _ hbroken, Prog.ret_bind, hbroken]
  rfl

theorem syncLists_fail (outcome : JobOutcome) (reason : Text) :
    syncLists job (outcome.fail reason) = .ret (outcome.fail reason) := by
  have hok : (outcome.fail reason).ok = false := rfl
  rw [syncLists, hok, Bool.and_false]
  rfl

/-- On a broken stream the loop ends at once, for a reason of its own. -/
theorem finish_writeRest_broken {copy : Text}
    (hbroken : point.manifest.good = false) :
    finish job (point.writeRest worker job copy) =
      (point.manifest.close (manifestPath job.directory)).bind fun _ =>
        .ret ((point.outcome.fail "manifest_write_failed").fail
          "manifest_flush_failed") := by
  rw [finish, writeRest_broken hbroken, Prog.ret_bind,
    closeManifest_broken hbroken, Prog.bind_assoc]
  simp only [Prog.ret_bind, syncLists_fail]
  unfold Stream.close
  split <;> rfl

theorem finish_writeRest_good {copy : Text}
    (hgood : point.manifest.good = true) : ∃ next,
    finish job (point.writeRest worker job copy) =
      .call (.spill (manifestPath job.directory) (point.manifest.buffered ++
        encodeUtf8 (renderRow (point.row copy))) false) next := by
  rw [Halfway.writeRest, Stream.put, hgood]
  exact ⟨_, rfl⟩

theorem abandon_returns {error : StorageError}
    {effect : Prog.Effect FsOp.Res LoggedWatched}
    (h : Prog.Exec effect s (point.abandon job error) s' (.ret final)) :
    final = ⟨false, 0, exceptionReason error⟩ := by
  obtain ⟨-, s₁, -, hret⟩ := h.of_bind_ret
  cases hret
  rfl

/-- A job that was given up has not gone on with its records. -/
theorem not_goesOn_of_abandon {error : StorageError}
    (hreason : point.outcome.reason ≠ exceptionReason error)
    (habandon : Prog.Exec (JobEffect codec job) s (point.abandon job error) s'
      (.ret final)) :
    ¬Prog.Exec (JobEffect codec job) s
      (finish job (point.writeRest worker job [])) s' (.ret final) := by
  intro hgoes
  cases hgood : point.manifest.good with
  | false =>
      rw [finish_writeRest_broken hgood] at hgoes
      obtain ⟨-, s₁, -, hret⟩ := hgoes.of_bind_ret
      have hfinal := abandon_returns habandon
      cases hret
      refine absurd (congrArg JobOutcome.reason hfinal)
        (fail_reason_ne (fail_reason_ne hreason ?_) ?_) <;>
        cases error <;> decide
  | true =>
      obtain ⟨next, hnext⟩ := @finish_writeRest_good worker job point [] hgood
      rw [hnext] at hgoes
      unfold Halfway.abandon Stream.close at habandon
      cases hgoes with
      | step heffect hrest =>
          split at habandon
          · cases habandon
            exact Prog.log_ne_of_step heffect hrest rfl
          · cases habandon with
            | step heffect' hrest' =>
                have hanswer := Prog.answer_unique heffect hrest heffect' hrest'
                  rfl rfl
                have hop := FsOp.spill.inj (congrArg Prog.Answer.op hanswer)
                exact absurd hop.2.2 Bool.false_ne_true

end Throwing

/-! ## The stored file stays -/

/-- `inv` holds throughout, however the program ends. -/
abbrev Throughout {α : Type} (codec : Codec) (directory : Text)
    (inv : Watched → Prop) (p : Action α) (s : Watched) : Prop :=
  Prog.wp (WorkerEffect codec directory) inv (fun _ => inv) (fun _ => inv) p s

section Throughout

variable {α β : Type} {codec : Codec} {directory : Text}
  {touched : Path → Prop} {inv : Watched → Prop} {s : Watched} {p : Action α}
  {next : α → Action β} {post : α → Watched → Prop}

theorem Does.throughout (h : Does codec directory touched p s post)
    (hinv : ∀ s', Frame directory touched s s' → inv s') :
    Throughout codec directory inv p s :=
  Prog.wp_mono hinv (fun _ _ h => hinv _ h.1) (fun _ => hinv) h

theorem Does.throughout_bind (h : Does codec directory touched p s post)
    (hinv : ∀ s', Frame directory touched s s' → inv s')
    (hnext : ∀ value s', (s'.swept = false → post value s') →
      Frame directory touched s s' →
      Throughout codec directory inv (next value) s') :
    Throughout codec directory inv (p.bind next) s :=
  Prog.wp_bind (Prog.wp_mono hinv (fun value s' h => hnext value s' h.2 h.1)
    (fun _ => hinv) h)

theorem Throughout.bind (h : Throughout codec directory inv p s)
    (hnext : ∀ value s', inv s' →
      Throughout codec directory inv (next value) s') :
    Throughout codec directory inv (p.bind next) s :=
  Prog.wp_bind (Prog.wp_mono (fun _ => id) hnext (fun _ _ => id) h)

theorem Throughout.catchError {handler : StorageError → Action α}
    (h : Throughout codec directory inv p s)
    (hhandler : ∀ error s', inv s' →
      Throughout codec directory inv (handler error) s') :
    Throughout codec directory inv (p.catchError handler) s :=
  Prog.wp_catchError (Prog.wp_mono (fun _ => id) (fun _ _ => id) hhandler h)

end Throughout

/-- The file a row names is there, unless the directory was swept. -/
def Remains (codec : Codec) (directory : Text) (record : SensorData)
    (base : Text) (row : ManifestRow) (s : Watched) : Prop :=
  s.swept = false → Stored codec directory record base row s.disk

section Remains

variable {codec : Codec} {directory base : Text} {record : SensorData}
  {row : ManifestRow} {touched : Path → Prop} {s s' : Watched}

theorem Remains.of_frame (h : Remains codec directory record base row s)
    (hbase : IsBaseName record base) (hframe : Frame directory touched s s')
    (hfree : ∀ ending ∈ storedEndings, ¬touched [directory, base ++ ending]) :
    Remains codec directory record base row s' := fun hswept =>
  (h (hframe.swept hswept)).of_frame hbase.plain hframe hswept hfree

theorem Remains.of_unrelated (h : Remains codec directory record base row s)
    (hbase : IsBaseName record base) (hframe : Frame directory touched s s')
    (hunrelated : Unrelated touched) :
    Remains codec directory record base row s' := by
  refine h.of_frame hbase hframe fun ending hending htouched =>
    hunrelated _ htouched (Nat.le_refl 2) ?_
  show '_' ∈ stem (base ++ ending)
  rw [hbase.stem_ending (List.mem_append_left _ hending)]
  exact hbase.underscore_mem

theorem Remains.throughout_swept {α : Type} (p : Action α)
    (hswept : s.swept = true) :
    Throughout codec directory (Remains codec directory record base row) p s :=
  have hremains : ∀ s' : Watched, s'.swept = true →
      Remains codec directory record base row s' := fun s' h hno => by
    rw [h] at hno
    cases hno
  Prog.wp_mono hremains (fun _ => hremains) (fun _ => hremains)
    (wp_swept p hswept)

variable (worker : Worker) (job : Job)

theorem writeRecord_spares (other : SensorData)
    (h : Remains codec job.directory record base row s)
    (hbase : IsBaseName record base) :
    Throughout codec job.directory (Remains codec job.directory record base row)
      (writeRecord worker job other) s := by
  have hquiet : ∀ {s s' : Watched},
      Remains codec job.directory record base row s →
      Frame job.directory (fun _ => False) s s' →
      Remains codec job.directory record base row s' := fun h hframe =>
    h.of_frame hbase hframe fun _ _ => id
  refine (serializeRecord_does other).throughout_bind (fun _ => hquiet h)
    fun bytes s₁ hbytes hframe₁ => ?_
  have h₁ := hquiet h hframe₁
  refine (freshBaseName_does (plain_basePrefix other) _ 0
    (plain_basePrefix other)).throughout_bind (fun _ => hquiet h₁)
    fun base' s₂ hfresh hframe₂ => ?_
  have h₂ := hquiet h₁ hframe₂
  cases hswept : s₂.swept with
  | true => exact Remains.throughout_swept _ hswept
  | false =>
      obtain ⟨hfresh, hbase'⟩ := hfresh hswept
      obtain rfl := hbytes (hframe₂.swept hswept)
      have hnamed : IsBaseName other base' := hbase'.imp_right fun ⟨n, hn, heq⟩ =>
        ⟨n, by omega, heq⟩
      have hne : base ≠ base' := fun heq =>
        (h₂ hswept).not_fresh (heq ▸ hfresh)
      exact (writeNamed_does worker job hnamed).throughout fun s₃ hframe₃ =>
        h₂.of_frame hbase hframe₃ fun ending hending =>
          not_recordPath_of_stem hnamed hbase.underscore_mem hne
            (hbase.stem_ending (List.mem_append_left _ hending)) (Nat.le_refl 2)

theorem unrelated_listPath (directory : Text) :
    Unrelated (ListPath directory) := by
  rintro path (hpath | hpath) hlength
  · exact unrelated_eq (by decide) path hpath hlength
  · exact unrelated_eq (by decide) path hpath hlength

theorem lists_spare {α : Type} {p : Action α} {post : α → Watched → Prop}
    (hp : Does codec directory (ListPath directory) p s post)
    (h : Remains codec directory record base row s)
    (hbase : IsBaseName record base) :
    Throughout codec directory (Remains codec directory record base row) p s :=
  hp.throughout fun _ hframe =>
    h.of_unrelated hbase hframe (unrelated_listPath directory)

theorem spill_listPath {directory : Text} (data : Bytes) (all : Bool) :
    Confined directory (ListPath directory)
      (.spill (manifestPath directory) data all) :=
  confined_of nofun fun _ h => .inl h

theorem writeRecords_spares (hbase : IsBaseName record base) :
    ∀ (records : List SensorData) {manifest : Stream} {outcome : JobOutcome}
      {s : Watched}, Remains codec job.directory record base row s →
      Throughout codec job.directory
        (Remains codec job.directory record base row)
        (writeRecords worker job records manifest outcome) s
  | [], _, _, _, h => h
  | other :: rest, manifest, outcome, s, h => by
      unfold writeRecords
      split
      · exact writeRecords_spares hbase rest h
      refine Throughout.bind ((writeRecord_spares worker job other h
        hbase).catchError fun error s₁ h₁ => ?_) fun written s₁ h₁ => ?_
      · exact (lists_spare (Does.of_uses (Stream.close_uses spill_listPath
          manifest)) h₁ hbase).bind fun _ _ h₂ => h₂
      cases written with
      | none => exact writeRecords_spares hbase rest h₁
      | some written =>
          refine Throughout.bind (lists_spare (Does.of_uses (Stream.put_uses
            spill_listPath manifest _)) h₁ hbase) fun manifest₂ s₂ h₂ => ?_
          split
          · exact h₂
          · exact writeRecords_spares hbase rest h₂

theorem finish_spares (hbase : IsBaseName record base)
    {loop : Action (Stream × JobOutcome)}
    (hloop : Throughout codec job.directory
      (Remains codec job.directory record base row) loop s) :
    Throughout codec job.directory (Remains codec job.directory record base row)
      (finish job loop) s := by
  refine (hloop.bind fun written s₁ h₁ => ?_).catchError fun error s₁ h₁ => h₁
  exact Throughout.bind (lists_spare (closeManifest_touches job) h₁ hbase)
    fun outcome s₂ h₂ => lists_spare (syncLists_touches job) h₂ hbase

theorem writeRest_spares {point : Halfway} {copy : Text}
    (h : Remains codec job.directory record base row s)
    (hbase : IsBaseName record base) :
    Throughout codec job.directory (Remains codec job.directory record base row)
      (point.writeRest worker job copy) s := by
  refine Throughout.bind (lists_spare (Does.of_uses (Stream.put_uses
    spill_listPath _ _)) h hbase) fun manifest s₁ h₁ => ?_
  split
  · exact h₁
  · exact writeRecords_spares worker job hbase _ h₁

end Remains

/-! ## Failed conversions -/

section Failed

variable {codec : Codec} {worker : Worker} {job : Job}
  {start s s' : LoggedWatched} {point : Halfway}
  {failure : Except StorageError Bool}

/-- The same store, with nothing known of earlier sweeps. -/
def unswept (s : LoggedWatched) : Watched := ⟨s.1.store, false⟩

theorem Serving.not_sweeps {directory other : Text} {op : FsOp}
    (h : Serving directory op) : sweeps other op = false := by
  cases op with
  | removeAll path => exact absurd rfl (h.removal path)
  | _ => rfl

theorem exec_unswept {α : Type} {p p' : Action α}
    (h : Prog.Exec (JobEffect codec job) s p s' p')
    (huses : p.uses (Serving job.directory)) :
    Prog.Exec (WorkerEffect codec job.directory) (unswept s) p (unswept s') p' := by
  refine h.map (fun s op r s' hserving heffect => ?_) huses
  obtain ⟨before, during, hbefore, hop, hafter, -⟩ := heffect.1
  exact ⟨before, during, hbefore, hop, hafter, by simp [unswept, hserving.not_sweeps]⟩

theorem storeRecord_uses (record : SensorData) :
    (storeRecord worker job record).uses (Serving job.directory) :=
  Prog.uses_bind (serializeRecord_uses _ record) fun bytes =>
    Prog.uses_bind (freshBaseName_uses _ _ _ _ _) fun _ =>
      Prog.uses_bind (storeCompressed_uses worker job _ bytes) fun _ =>
        Prog.uses_bind (storeRaw_uses _ _ _ bytes) fun _ => trivial

theorem writeRest_uses (copy : Text) :
    (point.writeRest worker job copy).uses (Serving job.directory) := by
  have hspill := spill_serving job.directory "manifest.csv"
  refine Prog.uses_bind (Stream.put_uses hspill _ _) fun manifest => ?_
  split
  · trivial
  · exact writeRecords_uses worker job _ _ _

theorem finish_uses {loop : Action (Stream × JobOutcome)}
    (h : loop.uses (Serving job.directory)) :
    (finish job loop).uses (Serving job.directory) :=
  Prog.uses_catchError (Prog.uses_bind h fun _ =>
    Prog.uses_bind (closeManifest_uses _ _ _) fun outcome =>
      syncLists_uses job outcome) fun _ => trivial

/-- Storing is what writing does when no conversion is wanted. -/
theorem storeRecord_stored {s s' : Watched} {record : SensorData} {base : Text}
    {compressed : Bool} (h : Prog.Exec (WorkerEffect codec job.directory) s
      (storeRecord worker job record) s' (.ret (some (base, compressed))))
    (hswept : s'.swept = false) :
    IsBaseName record base ∧ Stored codec job.directory record base
      ⟨record.type, timestampOf record,
        if compressed then base ++ ".bin" ++ ".zst" else base ++ ".bin",
        compressed, []⟩ s'.disk := by
  have hwrite : Prog.Exec (WorkerEffect codec job.directory) s
      (writeRecord worker { job with conversionEnabled := false } record) s'
      (.ret (some ⟨record.type, timestampOf record,
        if compressed then base ++ ".bin" ++ ".zst" else base ++ ".bin",
        compressed, []⟩)) := by
    rw [writeRecord_eq]
    exact h.bind _
  have hdone := (Prog.wp_exec hwrite (Frame.refl s)
    (writeRecord_does worker { job with conversionEnabled := false } record)).2
  obtain ⟨base', hnamed, -, -, hrow⟩ := hdone.2 hswept
  have hstored := (hrow _ rfl).stored
  obtain rfl : base = base' := by
    cases hstored with
    | raw hcompressed hfile _ =>
        obtain rfl : compressed = false := hcompressed
        exact List.append_cancel_right hfile
    | zstd _ hcompressed hfile _ =>
        obtain rfl : compressed = true := hcompressed
        rw [if_pos rfl, append_zst] at hfile
        exact List.append_cancel_right hfile
  exact ⟨hnamed, hstored⟩

theorem FailedConversion.stored
    (h : FailedConversion codec worker job start point failure s) :
    IsBaseName point.record point.base ∧ Stored codec job.directory point.record
      point.base (point.row []) s.1.disk := by
  obtain ⟨s₁, s₂, -, hstored, hconverted⟩ := h.exec_conversion
  obtain ⟨hbase, hkept⟩ := storeRecord_stored
    (exec_unswept hstored (storeRecord_uses _)) rfl
  have hframe : Frame job.directory (fun path =>
      path <+: [job.directory, convertedDirectory point.record.type] ∨
        CopyPath job.directory point.record.type point.base path)
      (unswept s₂) (unswept s) :=
    (Prog.wp_exec (exec_unswept hconverted (convertRecord_uses job _ _))
      (Frame.refl _) (convertRecord_does job hbase.plain)).1
  have hstays := hkept.of_frame hbase.plain hframe rfl fun ending _ =>
    not_convertedPath_of_stored hbase.underscore_mem
  exact ⟨hbase, hstays⟩

/--
Whatever the disk, the libraries and the other threads do: a conversion that
fails is harmless exactly when it returns instead of throwing.
-/
theorem failed_conversion_harmless_iff {p : Action JobOutcome}
    {final : JobOutcome}
    (h : FailedConversion codec worker job start point failure s)
    (hthrough : Prog.Exec (JobEffect codec job) start (writeGuarded worker job)
      s p)
    (hrest : Prog.Exec (JobEffect codec job) s p s' (.ret final)) :
    Harmless codec worker job point s s' final ↔ failure = .ok false := by
  obtain rfl := Prog.Exec.rest_unique hthrough h.exec rfl rfl
  match failure, h with
  | .ok false, h =>
      refine iff_of_true ⟨?_, hrest⟩ rfl
      obtain ⟨hbase, hstored⟩ := h.stored
      have hspared := finish_spares job hbase
        (@writeRest_spares _ _ _ _ (unswept s) worker job point []
          (fun _ => hstored) hbase)
      exact (Prog.wp_exec (exec_unswept hrest (finish_uses (writeRest_uses [])))
        (fun _ => hstored) hspared).1 rfl
  | .ok true, h => exact absurd rfl h.failed
  | .error error, h =>
      refine iff_of_false (fun hharmless => ?_) nofun
      obtain ⟨s₁, s₂, s₃, hreached, -⟩ := h.run
      exact not_goesOn_of_abandon (hreached.reason_ne error) hrest
        hharmless.goesOn

end Failed

/-! ### Two images -/

def convertingJob : Job :=
  { imageJob with
    records := [.camera 5 (some ⟨5, 1, 1, "mono8", 1, [0]⟩),
      .camera 6 (some ⟨6, 1, 1, "mono8", 1, [0]⟩)]
    conversionEnabled := true }

section Encoding

variable (job : Job) (encoded : Except StorageError (Option Bytes))

/-- A disk without faults, and an encoder that answers the same every time. -/
def respondEncoding (s : Watched) : (op : FsOp) → Option (op.Res × Watched)
  | .encodeImage _ _ _ => some (encoded, s)
  | op => s.respond plainCodec 0 job.directory op

def respondLogged (s : LoggedWatched) (op : FsOp) :
    Option (op.Res × LoggedWatched) :=
  Prog.logging (respondEncoding job encoded) s op

theorem jobEffect_respond : ∀ s op r s',
    respondLogged job encoded s op = some (r, s') →
      JobEffect plainCodec job s op r s' := by
  refine Prog.logged_logging fun s op r s' h => ?_
  unfold respondEncoding at h
  split at h
  · cases h
    exact ⟨s.store, s.store, .refl _ _, rfl, .refl _ _, by simp [sweeps]⟩
  · exact workerEffect_respond h

variable (failure : Except StorageError Bool) (record : SensorData)
  (after : List SensorData)

/-- The conversion of the first record ends like this, and then the job does. -/
def endsAt (manifest : Stream) (named : Text × Bool) (s : LoggedWatched) : Bool :=
  match Prog.tryRun (respondLogged job encoded) (convertMessage record
      [job.directory, convertedDirectory record.type] named.1 job) s with
  | some (ending, s') => decide (ending = failure) &&
      Prog.passes (respondLogged job encoded) (fun _ _ => true)
        (Halfway.resume plainWorker job ⟨record, after, manifest,
          startOutcome true, named.1, named.2⟩ failure) s'
  | none => false

def comesTo (manifest : Stream) (s : LoggedWatched) : Bool :=
  Prog.passes (respondLogged job encoded)
    (fun stored s => stored.any fun named =>
      Prog.passes (respondLogged job encoded)
        (fun (made : Bool) s => made &&
          endsAt job encoded failure record after manifest named s)
        (perform (.createDirectories
          [job.directory, convertedDirectory record.type])) s)
    (storeRecord plainWorker job record) s

def opensFor (s : LoggedWatched) : Bool :=
  Prog.passes (respondLogged job encoded)
    (fun (created : Bool) s => created &&
      Prog.passes (respondLogged job encoded)
        (fun (opened : Option Nat) s => opened.any fun position =>
          Prog.passes (respondLogged job encoded)
            (comesTo job encoded failure record after)
            (Stream.start (manifestPath job.directory) position manifestHeader) s)
        (perform (.openAppend (manifestPath job.directory))) s)
    (perform (.createDirectories [job.directory])) s

variable {job encoded failure record after}

theorem sample_conversion (hrecords : job.records = record :: after)
    (hpairs : job.pairs = []) (henabled : enabled job record = true)
    (hwanted : job.conversionEnabled = true) (hfailed : failure ≠ .ok true)
    (hrun : opensFor job encoded failure record after (blankWatched, []) = true) :
    ∃ point s s' final,
      FailedConversion plainCodec plainWorker job (blankWatched, []) point
        failure s ∧
      Prog.Exec (JobEffect plainCodec job) s
        (point.resume plainWorker job failure) s' (.ret final) := by
  have hanswers := jobEffect_respond job encoded
  obtain ⟨created, s₁, hcreate, hcheck⟩ := Prog.exec_of_passes hanswers hrun
  rw [Bool.and_eq_true] at hcheck
  obtain ⟨rfl, hcheck⟩ := hcheck
  obtain ⟨opened, s₂, hopen, hcheck⟩ := Prog.exec_of_passes hanswers hcheck
  obtain ⟨position, rfl, hcheck⟩ := (Option.any_eq_true _ _).mp hcheck
  obtain ⟨manifest, s₃, hstart, hcheck⟩ := Prog.exec_of_passes hanswers hcheck
  obtain ⟨stored, s₄, hstored, hcheck⟩ := Prog.exec_of_passes hanswers hcheck
  obtain ⟨named, rfl, hcheck⟩ := (Option.any_eq_true _ _).mp hcheck
  obtain ⟨made, s₅, hmake, hcheck⟩ := Prog.exec_of_passes hanswers hcheck
  rw [Bool.and_eq_true] at hcheck
  obtain ⟨rfl, hcheck⟩ := hcheck
  unfold endsAt at hcheck
  split at hcheck
  case h_2 => cases hcheck
  case h_1 ending s₆ hconvert =>
    rw [Bool.and_eq_true, decide_eq_true_eq] at hcheck
    obtain ⟨rfl, hcheck⟩ := hcheck
    obtain ⟨final, s₇, hrest, -⟩ := Prog.exec_of_passes hanswers hcheck
    have hunpaired : Prog.Exec (JobEffect plainCodec job) s₃
        (writePairs job.directory job.pairs) s₃ (.ret true) := by
      rw [hpairs]
      exact .refl _ _
    have hreached : Reaches (JobEffect plainCodec job) plainWorker job
        (blankWatched, []) s₃ (record :: after) manifest (startOutcome true) :=
      hrecords ▸ .opened (.refl _ _) hcreate hopen hstart hunpaired
    exact ⟨⟨record, after, manifest, startOutcome true, named.1, named.2⟩, s₆, s₇,
      final, ⟨henabled, hwanted, ⟨s₃, s₄, s₅, hreached, hstored, hmake,
        Prog.exec_tryRun hanswers hconvert⟩, hfailed⟩, hrest⟩

end Encoding

theorem failed_conversion_harmless_refused : ∃ point s s' final,
    Harmless plainCodec plainWorker convertingJob point s s' final := by
  obtain ⟨point, s, s', final, hfailed, hrest⟩ :=
    @sample_conversion convertingJob (.ok none) (.ok false) _ _ rfl rfl rfl rfl
      nofun (by decide +kernel)
  exact ⟨point, s, s', final,
    (failed_conversion_harmless_iff hfailed hfailed.exec hrest).mpr rfl⟩

/-- The encoder throws, and the second image is not even looked at. -/
theorem throwing_conversion_ends_job :
    ¬∀ (codec : Codec) (worker : Worker) (job : Job)
      (start s s' : LoggedWatched) (point : Halfway)
      (failure : Except StorageError Bool) (p : Action JobOutcome)
      (final : JobOutcome),
      FailedConversion codec worker job start point failure s →
      Prog.Exec (JobEffect codec job) start (writeGuarded worker job) s p →
      Prog.Exec (JobEffect codec job) s p s' (.ret final) →
      Harmless codec worker job point s s' final := by
  intro hclaim
  obtain ⟨point, s, s', final, hfailed, hrest⟩ :=
    @sample_conversion convertingJob (.error .standard) (.error .standard) _ _
      rfl rfl rfl rfl nofun (by decide +kernel)
  obtain ⟨s₁, s₂, s₃, hreached, -⟩ := hfailed.run
  exact not_goesOn_of_abandon (hreached.reason_ne .standard) hrest
    (hclaim _ _ _ _ _ _ _ _ _ _ hfailed hfailed.exec hrest).goesOn

end DataCache.Storage
