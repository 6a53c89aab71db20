import DataCache.Storage.Conclusion
import DataCache.Storage.Faults

/-!
# Rounds of the worker

The rounds of the worker, seen from one event directory.  Until the last job of
the event there is no `.complete`; once there is one, everything the event
consists of is certain to be on the disk.
-/

namespace DataCache.Storage

open DataCache.Foundation DataCache.Capture
open EventState (plainCodec)

/-! ## Keeping the order -/

/-- There is no `.complete`, or all it stands for is certain. -/
def Orderly (codec : Codec) (sha256 : Bytes → Digest) (directory : Text)
    (s : Watched) : Prop :=
  s.swept = false → Absent (completePath directory) s.disk ∨
    ∃ entries, Ready codec sha256 directory entries s.disk

/-- Every execution from `s` is orderly after each operation and at its end. -/
def Keeps {α : Type} (codec : Codec) (sha256 : Bytes → Digest)
    (directory : Text) (p : Action α) (s : Watched)
    (post : α → Watched → Prop) : Prop :=
  Prog.wp (WorkerEffect codec directory) (Orderly codec sha256 directory)
    (fun value s' => Orderly codec sha256 directory s' ∧
      (s'.swept = false → post value s'))
    (fun _ => Orderly codec sha256 directory) p s

section Rules

variable {α β : Type} {codec : Codec} {sha256 : Bytes → Digest}
  {directory : Text} {s : Watched} {post : α → Watched → Prop}

theorem Orderly.of_swept (h : s.swept = true) :
    Orderly codec sha256 directory s := fun hno => by
  rw [h] at hno
  cases hno

theorem Keeps.of_swept (p : Action α) (hswept : s.swept = true) :
    Keeps codec sha256 directory p s post :=
  Prog.wp_mono (fun _ => .of_swept)
    (fun _ _ h => ⟨.of_swept h, fun hno => by rw [h] at hno; cases hno⟩)
    (fun _ _ => .of_swept) (wp_swept p hswept)

theorem Keeps.pure {value : α} (horderly : Orderly codec sha256 directory s)
    (h : s.swept = false → post value s) :
    Keeps codec sha256 directory (Pure.pure value) s post :=
  ⟨horderly, h⟩

theorem Keeps.bind {p : Action β} {next : β → Action α}
    {mid : β → Watched → Prop} (hfirst : Keeps codec sha256 directory p s mid)
    (h : ∀ value s', s'.swept = false → Orderly codec sha256 directory s' →
      mid value s' → Keeps codec sha256 directory (next value) s' post) :
    Keeps codec sha256 directory (p >>= next) s post := by
  refine Prog.wp_bind (Prog.wp_mono (fun _ => id) ?_ (fun _ _ => id) hfirst)
  intro value s' hmid
  cases hswept : s'.swept with
  | true => exact Keeps.of_swept _ hswept
  | false => exact h value s' hswept hmid.1 (hmid.2 hswept)

theorem Keeps.mono {p : Action α} {post' : α → Watched → Prop}
    (h : Keeps codec sha256 directory p s post)
    (hpost : ∀ value s', s'.swept = false → post value s' → post' value s') :
    Keeps codec sha256 directory p s post' :=
  Prog.wp_mono (fun _ => id)
    (fun value s' h => ⟨h.1, fun hswept => hpost value s' hswept (h.2 hswept)⟩)
    (fun _ _ => id) h

/-- A program that changes touched paths only, where these leave the order. -/
theorem Keeps.of_does {touched : Path → Prop} {p : Action α}
    (h : Does codec directory touched p s post)
    (horderly : ∀ s', Frame directory touched s s' →
      Orderly codec sha256 directory s') :
    Keeps codec sha256 directory p s fun value s' =>
      Frame directory touched s s' ∧ post value s' :=
  Prog.wp_mono horderly
    (fun _ _ h => ⟨horderly _ h.1, fun hswept => ⟨h.1, h.2 hswept⟩⟩)
    (fun _ => horderly) h

end Rules

/-! ## Events that are not concluded -/

/-- Nothing is left out of the lists while no job of the event has failed. -/
structure Underway (codec : Codec) (directory : Text) (entries : List Entry)
    (progress : EventProgress) (s : Watched) : Prop where
  absent : Absent (completePath directory) s.disk
  prior : progress.failed = false → Prior codec directory entries s.disk ∧
    progress.persistedRecords = entries.length

section Underway

variable {codec : Codec} {sha256 : Bytes → Digest} {directory : Text}
  {entries : List Entry} {progress : EventProgress} {s s' : Watched}

theorem not_jobPath_complete (directory : Text) (records : List SensorData) :
    ¬JobPath directory records (completePath directory) := by
  rintro (hstart | heq | heq | hrecords)
  · exact absurd hstart.length_le (by simp [completePath, EventState.markerPath])
  · simp [completePath, EventState.markerPath, manifestPath] at heq
  · simp [completePath, EventState.markerPath, pairsPath] at heq
  · exact not_recordsPath_child (by decide) (by rintro (_ | _) <;> decide)
      hrecords

theorem absent_of_frame {touched : Path → Prop} {path : Path}
    (h : Absent path s.disk) (howned : Owned directory path)
    (hpath : ¬touched path) (hframe : Frame directory touched s s')
    (hswept : s'.swept = false) : Absent path s'.disk :=
  h.of_sameAt (hframe.same hswept path howned hpath)

theorem orderly_of_absent (h : Absent (completePath directory) s.disk) :
    Orderly codec sha256 directory s :=
  fun _ => .inl h

theorem Underway.elsewhere (h : Underway codec directory entries progress s)
    (hframe : Frame directory (fun _ => False) s s') (hswept : s'.swept = false) :
    Underway codec directory entries progress s' where
  absent := absent_of_frame h.absent (owned_complete directory) id hframe hswept
  prior hok := ⟨(h.prior hok).1.of_frame hframe hswept id fun _ => False.elim,
    (h.prior hok).2⟩

/-! ### Writing a job -/

/-- After a job that has not failed the event can be concluded. -/
structure WroteJob (codec : Codec) (job : Job) (entries : List Entry)
    (progress : EventProgress) (outcome : JobOutcome) (s : Watched) : Prop where
  underway : Underway codec job.directory entries (progress.account outcome) s
  concludable : (progress.account outcome).failed = false → job.finalJob = true →
    Concludable codec job.directory entries s.disk

theorem account_failed {outcome : JobOutcome} :
    (progress.account outcome).failed = false ↔
      progress.failed = false ∧ outcome.ok = true := by
  simp [EventProgress.account]

theorem WroteJob.of_wrote {job : Job} {outcome : JobOutcome}
    (habsent : Absent (completePath job.directory) s.disk)
    (hcount : progress.failed = false →
      progress.persistedRecords = entries.length)
    (hwrote : progress.failed = false → Wrote codec job entries outcome s) :
    ∃ entries', WroteJob codec job entries' progress outcome s := by
  cases hfailed : (progress.account outcome).failed with
  | true =>
      refine ⟨entries, ⟨habsent, fun hok => ?_⟩, fun hok => ?_⟩ <;>
        rw [hfailed] at hok <;> cases hok
  | false =>
      obtain ⟨hprogress, hok⟩ := account_failed.mp hfailed
      obtain ⟨hdir, added, hlisted, hadded, -, -, hsynced⟩ := hwrote hprogress hok
      refine ⟨entries ++ added, ⟨habsent, fun _ => ⟨.inr hlisted, ?_⟩⟩,
        fun _ hfinal => ⟨hdir, hlisted, hsynced hfinal⟩⟩
      rw [List.length_append, ← hcount hprogress, ← hadded]
      rfl

theorem writeGuarded_keeps (worker : Worker) {job : Job}
    (h : Underway codec job.directory entries progress s) :
    Keeps codec sha256 job.directory (writeGuarded worker job) s
      fun outcome s' => ∃ entries', WroteJob codec job entries' progress outcome s' := by
  have howned := owned_complete job.directory
  have habsent : ∀ s', Frame job.directory (JobPath job.directory job.records) s s' →
      s'.swept = false → Absent (completePath job.directory) s'.disk :=
    fun s' hframe => absent_of_frame h.absent howned
      (not_jobPath_complete job.directory job.records) hframe
  have hkeeps : ∀ {post : JobOutcome → Watched → Prop},
      Does codec job.directory (JobPath job.directory job.records)
        (writeGuarded worker job) s post →
      Keeps codec sha256 job.directory (writeGuarded worker job) s fun outcome s' =>
        Frame job.directory (JobPath job.directory job.records) s s' ∧
          post outcome s' := fun hdoes =>
    Keeps.of_does hdoes fun s' hframe hswept => .inl (habsent s' hframe hswept)
  cases hfailed : progress.failed with
  | true =>
      refine (hkeeps (writeGuarded_touches worker job)).mono
        fun outcome s' hswept hpost => ?_
      refine @WroteJob.of_wrote _ [] _ _ _ _ (habsent s' hpost.1 hswept) ?_ ?_ <;>
        · rw [hfailed]
          nofun
  | false =>
      obtain ⟨hprior, hcount⟩ := h.prior hfailed
      exact (hkeeps (writeGuarded_does worker job hprior)).mono
        fun outcome s' hswept hpost => WroteJob.of_wrote
          (habsent s' hpost.1 hswept) (fun _ => hcount) fun _ => hpost.2

/-! ### The verdict -/

/-- A completed event is ready and names its records, else there is no marker. -/
structure Verdict (codec : Codec) (sha256 : Bytes → Digest) (directory : Text)
    (entries : List Entry) (progress : EventProgress) (conclusion : Conclusion)
    (s : Watched) : Prop where
  completed : conclusion.completed = true → progress.failed = false ∧
    progress.persistedRecords = entries.length ∧ entries ≠ [] ∧
    conclusion.checksums = true ∧
    Ready codec sha256 directory entries s.disk ∧
    s.disk.read? (completePath directory) =
      some (EventState.completeContent progress.persistedRecords)
  absent : conclusion.completed = false → Absent (completePath directory) s.disk

theorem Verdict.of_absent {checksums : Bool}
    (h : Absent (completePath directory) s.disk) :
    Verdict codec sha256 directory entries progress ⟨checksums, false⟩ s :=
  ⟨nofun, fun _ => h⟩

theorem Verdict.elsewhere {conclusion : Conclusion}
    (h : Verdict codec sha256 directory entries progress conclusion s)
    (hframe : Frame directory (fun _ => False) s s') (hswept : s'.swept = false) :
    Verdict codec sha256 directory entries progress conclusion s' := by
  refine ⟨fun hcompleted => ?_, fun hno =>
    absent_of_frame (h.absent hno) (owned_complete directory) id hframe hswept⟩
  obtain ⟨hok, hcount, hne, hchecksums, hready, hread⟩ := h.completed hcompleted
  refine ⟨hok, hcount, hne, hchecksums,
    hready.of_frame (hframe.widen fun _ => False.elim) hswept, ?_⟩
  rw [(hframe.same hswept _ (owned_complete directory) id).read?, hread]

theorem fail_keeps {reason : Text}
    (habsent : Absent (completePath directory) s.disk) :
    Keeps codec sha256 directory (EventState.fail directory reason) s
      fun _ s' => Absent (completePath directory) s'.disk := by
  have hinv : ∀ (s : Watched) op r s', Leaves (completePath directory) op →
      Absent (completePath directory) s.disk →
      WorkerEffect codec directory s op r s' →
      Absent (completePath directory) s'.disk :=
    fun _ _ _ _ hleaves habsent heffect =>
      heffect.absent (owned_complete directory) hleaves habsent
  exact Prog.wp_mono (fun _ => orderly_of_absent)
    (fun _ _ h => ⟨orderly_of_absent h, fun _ => h⟩) (fun _ _ => orderly_of_absent)
    (Prog.wp_of_uses hinv (fail_leaves directory reason) habsent)

theorem completeOrFail_keeps {recordCount : Nat} {reason : Text}
    (habsent : Absent (completePath directory) s.disk)
    (hready : Ready codec sha256 directory entries s.disk) :
    Keeps codec sha256 directory
      (EventState.completeOrFail directory recordCount reason) s fun completed s' =>
        Ready codec sha256 directory entries s'.disk ∧
        Marked (completePath directory)
          (EventState.completeContent recordCount) completed s' :=
  (Keeps.of_does (completeOrFail_does habsent) fun _ hframe hswept =>
    .inr ⟨entries, hready.of_frame hframe hswept⟩).mono fun _ _ hswept h =>
      ⟨hready.of_frame h.1 hswept, h.2⟩

theorem concludeChecked_failed {checksums : Bool}
    (habsent : Absent (completePath directory) s.disk)
    (hfailed : progress.failed = true) {progress' : EventProgress} :
    Keeps codec sha256 directory (concludeChecked directory progress checksums) s
      (Verdict codec sha256 directory entries progress') := by
  unfold concludeChecked
  rw [if_pos hfailed]
  exact Keeps.bind (fail_keeps habsent) fun _ _ _ horderly habsent =>
    Keeps.pure horderly fun _ => Verdict.of_absent habsent

theorem conclude_keeps (worker : Worker)
    (habsent : Absent (completePath directory) s.disk)
    (h : progress.failed = false → progress.persistedRecords = entries.length ∧
      Concludable codec directory entries s.disk) :
    Keeps codec worker.sha256 directory (conclude worker directory progress) s
      (Verdict codec worker.sha256 directory entries progress) := by
  unfold conclude
  split
  next hfailed => exact concludeChecked_failed habsent hfailed
  next hok =>
    have hsame : progress.requireRecords = progress := by
      unfold EventProgress.requireRecords at hok ⊢
      split at hok
      · exact absurd rfl hok
      next hif => exact if_neg hif
    rw [hsame] at hok ⊢
    have hrecords : progress.persistedRecords ≠ 0 := by
      intro hzero
      have : progress.requireRecords.failed = true := by
        simp [EventProgress.requireRecords, hok, hzero, EventProgress.fail]
      rw [hsame] at this
      exact hok this
    obtain ⟨hcount, hconcludable⟩ := h (by simpa using hok)
    refine Keeps.bind (Keeps.of_does (writeChecksumManifest_does worker.sha256)
      fun s' hframe hswept => .inl (absent_of_frame habsent (owned_complete _)
        (not_checksums_child (by decide) (by decide)) hframe hswept)) ?_
    rintro checksums s₁ hswept₁ horderly₁ ⟨hframe₁, hchecksums⟩
    have habsent₁ := absent_of_frame habsent (owned_complete directory)
      (not_checksums_child (by decide) (by decide)) hframe₁ hswept₁
    cases checksums with
    | false => exact concludeChecked_failed habsent₁ rfl
    | true =>
        obtain ⟨⟨files, -, hfiles⟩, hsettled⟩ := hchecksums rfl
        have hready := hconcludable.ready hframe₁ hswept₁ hfiles hsettled
        unfold concludeChecked
        rw [if_pos rfl, if_neg hok]
        refine Keeps.bind (completeOrFail_keeps habsent₁ hready)
          fun completed s₂ _ horderly₂ hmarked => Keeps.pure horderly₂ fun _ => ?_
        refine ⟨fun hcompleted => ⟨by simpa using hok, hcount, ?_, rfl, hmarked.1,
          hmarked.2.1 hcompleted⟩, hmarked.2.2⟩
        rintro rfl
        exact hrecords hcount

/-! ### A round -/

theorem Orderly.elsewhere (h : Orderly codec sha256 directory s)
    (hframe : Frame directory (fun _ => False) s s') :
    Orderly codec sha256 directory s' := fun hswept =>
  (h (hframe.swept hswept)).imp
    (fun h => absent_of_frame h (owned_complete directory) id hframe hswept)
    fun ⟨entries, h⟩ => ⟨entries,
      h.of_frame (hframe.widen fun _ => False.elim) hswept⟩

/-- What a round has made of its own event. -/
structure Advanced (codec : Codec) (worker : Worker) (job : Job)
    (progress : EventProgress) (result : EventTable × Processed) (s : Watched) :
    Prop where
  underway : job.finalJob = false → ∃ entries, Underway codec job.directory
    entries (progress.account result.2.outcome) s
  verdict : ∀ conclusion, result.2.conclusion = some conclusion → ∃ entries,
    Verdict codec worker.sha256 job.directory entries
      (progress.account result.2.outcome) conclusion s

variable (worker : Worker)

theorem processJob_keeps {table : EventTable} {job : Job}
    (h : Underway codec job.directory entries
      ((table.get? job.directory).getD .initial) s) :
    Keeps codec worker.sha256 job.directory (processJob worker table job) s
      (Advanced codec worker job ((table.get? job.directory).getD .initial)) := by
  refine Keeps.bind (writeGuarded_keeps worker h) ?_
  rintro outcome s₁ - horderly₁ ⟨entries', hwrote⟩
  have hunderway := hwrote.underway
  dsimp only [finishJob]
  split
  · exact Keeps.pure horderly₁ fun _ => ⟨fun _ => ⟨entries', hunderway⟩, nofun⟩
  next hfinal =>
    have hfinal : job.finalJob = true := by simpa using hfinal
    have hsweep : ∀ {s : Watched}, Does codec job.directory (fun _ => False)
        (sweepAfterEvent worker) s fun _ _ => True :=
      Does.of_uses (Prog.uses_mono (fun _ h => h.confined job.directory)
        (sweepAfterEvent_uses worker))
    refine Keeps.bind (conclude_keeps worker hunderway.absent fun hok =>
      ⟨(hunderway.prior hok).2, hwrote.concludable hok hfinal⟩)
        fun conclusion s₂ _ horderly₂ hverdict => ?_
    refine Keeps.bind (Keeps.of_does hsweep fun _ => horderly₂.elsewhere)
      fun _ s₃ hswept₃ horderly₃ hframe => Keeps.pure horderly₃ fun _ => ?_
    refine ⟨fun hno => ?_, ?_⟩
    · rw [hfinal] at hno
      cases hno
    · rintro _ ⟨⟩
      exact ⟨entries', hverdict.elsewhere hframe.1 hswept₃⟩

theorem finishJob_touches {table : EventTable} {job : Job}
    {outcome : JobOutcome} :
    Does codec job.directory (ConcludePath job.directory)
      (finishJob worker table job outcome) s fun _ _ => True := by
  dsimp only [finishJob]
  split
  · exact Does.pure fun _ => trivial
  · refine Does.bind (conclude_touches worker) fun conclusion s₁ _ _ _ => ?_
    refine Does.bind ((Does.of_uses (Prog.uses_mono
      (fun _ h => h.confined job.directory) (sweepAfterEvent_uses worker))).widen
        fun _ => False.elim) fun _ _ _ _ _ => Does.pure fun _ => trivial

/-- The rounds of other events change nothing. -/
theorem processJob_elsewhere {table : EventTable} {job : Job}
    (hother : job.directory ≠ directory) :
    Does codec directory (fun _ => False) (processJob worker table job) s
      fun _ _ => True :=
  Does.of_uses (Prog.uses_mono (fun _ h => h.confined hother)
    (processJob_uses worker table job))

end Underway

/-! ## Runs -/

/-- The rounds of `run`, each with its job and what processing it led to. -/
inductive Rounds {σ : Type} (effect : Prog.Effect FsOp.Res σ) (worker : Worker) :
    EventTable → σ → List (Job × Processed) → EventTable → σ → Prop
  | nil (table : EventTable) (s : σ) : Rounds effect worker table s [] table s
  | cons {table table₁ table' : EventTable} {s s₁ s' : σ} {job : Job}
      {processed : Processed} {rounds : List (Job × Processed)}
      (hround : Prog.Exec effect s (processJob worker table job) s₁
        (.ret (table₁, processed)))
      (hrest : Rounds effect worker table₁ s₁ rounds table' s') :
      Rounds effect worker table s ((job, processed) :: rounds) table' s'

/-- How the jobs of one event came out. -/
def outcomesOf (directory : Text) (rounds : List (Job × Processed)) :
    List JobOutcome :=
  (rounds.filter fun round => decide (round.1.directory = directory)).map
    fun round => round.2.outcome

def persistedBy (directory : Text) (rounds : List (Job × Processed)) : Nat :=
  ((outcomesOf directory rounds).map JobOutcome.persistedRecords).sum

/-! ### The table -/

section Table

variable {σ : Type} {effect : Prog.Effect FsOp.Res σ} {worker : Worker}
  {table table' : EventTable} {s s' : σ} {directory : Text}
  {rounds rounds' : List (Job × Processed)}

/-- The entry of an event is kept until its final job, and then removed. -/
theorem processJob_table {job : Job} {processed : Processed}
    (h : Prog.Exec effect s (processJob worker table job) s'
      (.ret (table', processed))) :
    (∀ directory, directory ≠ job.directory →
      table'.get? directory = table.get? directory) ∧
    (job.finalJob = false → processed.conclusion = none ∧
      table'.get? job.directory =
        some (((table.get? job.directory).getD .initial).account
          processed.outcome)) ∧
    (job.finalJob = true → (∃ conclusion, processed.conclusion = some conclusion) ∧
      table'.get? job.directory = none) := by
  obtain ⟨outcome, s₁, -, hfinish⟩ := h.of_bind_ret
  dsimp only [finishJob] at hfinish
  split at hfinish
  next hno =>
    have hfinal : job.finalJob = false := by simpa using hno
    cases hfinish
    refine ⟨fun directory hne => table.get?_set_ne _ hne.symm, fun _ =>
      ⟨rfl, table.get?_set_self _ _⟩, fun hyes => ?_⟩
    rw [hfinal] at hyes
    cases hyes
  next hyes =>
    have hfinal : job.finalJob = true := by simpa using hyes
    obtain ⟨conclusion, s₂, -, hrest⟩ := hfinish.of_bind_ret
    obtain ⟨_, s₃, -, hlast⟩ := hrest.of_bind_ret
    cases hlast
    refine ⟨fun directory hne => ?_, fun hno => ?_, fun _ =>
      ⟨⟨conclusion, rfl⟩, ?_⟩⟩
    · rw [Dict.get?_erase_ne _ hne.symm, table.get?_set_ne _ hne.symm]
    · rw [hfinal] at hno
      cases hno
    · exact Dict.get?_erase_self _ _

theorem Rounds.append_iff {after : List (Job × Processed)} :
    Rounds effect worker table s (rounds ++ after) table' s' ↔
      ∃ table₁ s₁, Rounds effect worker table s rounds table₁ s₁ ∧
        Rounds effect worker table₁ s₁ after table' s' := by
  induction rounds generalizing table s with
  | nil =>
      refine ⟨fun h => ⟨table, s, .nil _ _, h⟩, ?_⟩
      rintro ⟨_, _, hnil, h⟩
      cases hnil
      exact h
  | cons round rounds ih =>
      constructor
      · intro h
        cases h with
        | cons hround hrest =>
            obtain ⟨table₁, s₁, hrest, hafter⟩ := ih.mp hrest
            exact ⟨table₁, s₁, .cons hround hrest, hafter⟩
      · rintro ⟨table₁, s₁, hrounds, hafter⟩
        cases hrounds with
        | cons hround hrest =>
            exact .cons hround (ih.mpr ⟨table₁, s₁, hrest, hafter⟩)

/-- The last operation of all, if there was one, takes in what came after it. -/
theorem Rounds.absorb {rely : σ → σ → Prop} {s'' : σ}
    (habsorbs : Prog.Absorbs effect rely)
    (h : Rounds effect worker table s rounds table' s') (hrely : rely s' s'') :
    (s = s' ∧ ∀ s, Rounds effect worker table s rounds table' s) ∨
      Rounds effect worker table s rounds table' s'' := by
  induction h with
  | nil table s => exact .inl ⟨rfl, .nil table⟩
  | cons hround hrest ih =>
      rcases ih hrely with ⟨rfl, hidle⟩ | hrest'
      · rcases hround.absorb habsorbs hrely with ⟨rfl, hdone⟩ | hround'
        · refine .inl ⟨rfl, fun s => .cons ?_ (hidle s)⟩
          rw [hdone]
          exact .refl _ _
        · exact .inr (.cons hround' (hidle _))
      · exact .inr (.cons hround hrest')

theorem outcomesOf_cons_self {job : Job} {processed : Processed} :
    outcomesOf job.directory ((job, processed) :: rounds) =
      processed.outcome :: outcomesOf job.directory rounds := by
  simp [outcomesOf]

theorem outcomesOf_cons_ne {job : Job} {processed : Processed}
    (hne : job.directory ≠ directory) :
    outcomesOf directory ((job, processed) :: rounds) =
      outcomesOf directory rounds := by
  simp [outcomesOf, hne]

theorem outcomesOf_append :
    outcomesOf directory (rounds ++ rounds') =
      outcomesOf directory rounds ++ outcomesOf directory rounds' := by
  simp [outcomesOf]

/-- Until its final job the entry of an event accounts for all its jobs. -/
theorem Rounds.table_underway
    (h : Rounds effect worker table s rounds table' s')
    (hfinal : ∀ round ∈ rounds, round.1.directory = directory →
      round.1.finalJob = false) :
    (table'.get? directory).getD .initial =
      (outcomesOf directory rounds).foldl EventProgress.account
        ((table.get? directory).getD .initial) := by
  induction h with
  | nil => rfl
  | @cons table table₁ table' s s₁ s' job processed rounds hround hrest ih =>
      rw [ih fun round hmem => hfinal round (List.mem_cons_of_mem _ hmem)]
      obtain ⟨hothers, hkept, -⟩ := processJob_table hround
      by_cases hown : job.directory = directory
      · subst hown
        rw [outcomesOf_cons_self, List.foldl_cons,
          (hkept (hfinal _ List.mem_cons_self rfl)).2, Option.getD_some]
      · rw [outcomesOf_cons_ne hown, hothers directory (Ne.symm hown)]

theorem Rounds.table_elsewhere
    (h : Rounds effect worker table s rounds table' s')
    (hother : ∀ round ∈ rounds, round.1.directory ≠ directory) :
    table'.get? directory = table.get? directory := by
  induction h with
  | nil => rfl
  | cons hround _ ih =>
      rw [ih fun round hmem => hother round (List.mem_cons_of_mem _ hmem)]
      exact (processJob_table hround).1 directory
        (hother _ List.mem_cons_self).symm

theorem foldl_account_failed :
    ∀ {outcomes : List JobOutcome} {progress : EventProgress},
      (outcomes.foldl EventProgress.account progress).failed = false ↔
        progress.failed = false ∧ ∀ outcome ∈ outcomes, outcome.ok = true
  | [], _ => by simp
  | outcome :: outcomes, progress => by
      rw [List.foldl_cons, foldl_account_failed, account_failed,
        List.forall_mem_cons, and_assoc]

theorem foldl_account_persisted :
    ∀ {outcomes : List JobOutcome} {progress : EventProgress},
      (outcomes.foldl EventProgress.account progress).persistedRecords =
        progress.persistedRecords +
          (outcomes.map JobOutcome.persistedRecords).sum
  | [], _ => rfl
  | outcome :: outcomes, progress => by
      rw [List.foldl_cons, foldl_account_persisted, List.map_cons, List.sum_cons]
      exact Nat.add_assoc _ _ _

end Table

/-! ### The event directory -/

/-- A directory the worker has not been given a job for. -/
structure Unstarted (directory : Text) (disk : FileSystem) : Prop where
  absent : Absent (completePath directory) disk
  manifest : disk.read? (manifestPath directory) = none

section Directory

variable {codec : Codec} {worker : Worker} {table table' : EventTable}
  {directory : Text} {rounds : List (Job × Processed)} {s s' : Watched}

theorem Unstarted.underway (h : Unstarted directory s.disk) :
    Underway codec directory [] .initial s :=
  ⟨h.absent, fun _ => ⟨.inl ⟨rfl, h.manifest⟩, rfl⟩⟩

theorem Does.returned {α : Type} {touched : Path → Prop} {p : Action α}
    {post : α → Watched → Prop} {value : α}
    (h : Does codec directory touched p s post)
    (hexec : Prog.Exec (WorkerEffect codec directory) s p s' (.ret value)) :
    Frame directory touched s s' ∧ (s'.swept = false → post value s') :=
  (Prog.wp_exec hexec (Frame.refl s) h).2

theorem Keeps.returned {α : Type} {sha256 : Bytes → Digest} {p : Action α}
    {post : α → Watched → Prop} {value : α}
    (h : Keeps codec sha256 directory p s post)
    (horderly : Orderly codec sha256 directory s)
    (hexec : Prog.Exec (WorkerEffect codec directory) s p s' (.ret value)) :
    Orderly codec sha256 directory s' ∧ (s'.swept = false → post value s') :=
  (Prog.wp_exec hexec horderly h).2

theorem unswept_before {α : Type} {p p' : Action α}
    (hexec : Prog.Exec (WorkerEffect codec directory) s p s' p')
    (hswept : s'.swept = false) : s.swept = false := by
  cases hbefore : s.swept with
  | false => rfl
  | true =>
      have hafter : s'.swept = true :=
        (Prog.wp_exec hexec hbefore (wp_swept p hbefore)).1
      rw [hafter] at hswept
      cases hswept

theorem Rounds.unswept
    (h : Rounds (WorkerEffect codec directory) worker table s rounds table' s')
    (hswept : s'.swept = false) : s.swept = false := by
  induction h with
  | nil => exact hswept
  | cons hround _ ih => exact unswept_before hround (ih hswept)

theorem Rounds.elsewhere
    (h : Rounds (WorkerEffect codec directory) worker table s rounds table' s')
    (hother : ∀ round ∈ rounds, round.1.directory ≠ directory) :
    Frame directory (fun _ => False) s s' := by
  induction h with
  | nil => exact .refl _
  | cons hround _ ih =>
      have hfirst := ((processJob_elsewhere worker
        (hother _ List.mem_cons_self)).returned hround).1
      exact hfirst.trans (ih fun round hmem =>
        hother round (List.mem_cons_of_mem _ hmem))

theorem Rounds.underway
    (h : Rounds (WorkerEffect codec directory) worker table s rounds table' s')
    (hfinal : ∀ round ∈ rounds, round.1.directory = directory →
      round.1.finalJob = false) (hswept : s'.swept = false)
    (hunderway : ∃ entries, Underway codec directory entries
      ((table.get? directory).getD .initial) s) :
    ∃ entries, Underway codec directory entries
      ((table'.get? directory).getD .initial) s' := by
  induction h with
  | nil => exact hunderway
  | @cons table table₁ table' s s₁ s' job processed rounds hround hrest ih =>
      refine ih (fun round hmem => hfinal round (List.mem_cons_of_mem _ hmem))
        hswept ?_
      have hswept₁ := hrest.unswept hswept
      obtain ⟨entries, hunderway⟩ := hunderway
      obtain ⟨hothers, hkept, -⟩ := processJob_table hround
      by_cases hown : job.directory = directory
      · subst hown
        have hno : job.finalJob = false := hfinal _ List.mem_cons_self rfl
        rw [(hkept hno).2, Option.getD_some]
        exact (((processJob_keeps worker hunderway).returned
          (orderly_of_absent hunderway.absent) hround).2 hswept₁).underway hno
      · rw [hothers directory (Ne.symm hown)]
        exact ⟨entries, hunderway.elsewhere
          ((processJob_elsewhere worker hown).returned hround).1 hswept₁⟩

end Directory

/-! ## Concluded events -/

/--
`.complete` is there when every job succeeded, a record was stored and both
writes of the verdict worked; it counts the rows of the manifest then.
-/
structure ConcludedAs (directory : Text) (rounds : List (Job × Processed))
    (conclusion : Conclusion) (disk : FileSystem) : Prop where
  complete_iff : disk.isFile (completePath directory) = true ↔
    (∀ outcome ∈ outcomesOf directory rounds, outcome.ok = true) ∧
    0 < persistedBy directory rounds ∧ conclusion.checksums = true ∧
    conclusion.completed = true
  counted : disk.isFile (completePath directory) = true →
    ∃ entries : List Entry,
      disk.read? (completePath directory) =
        some (EventState.completeContent entries.length) ∧
      disk.read? (manifestPath directory) = some (manifestBytes entries)
  absent : disk.isFile (completePath directory) = false →
    disk.node? (completePath directory) = none

/--
`run` has processed the rounds up to the final job of an event, and others
after it.  Before the first job of the event anything may have happened.
-/
inductive EventRun (codec : Codec) (worker : Worker) (directory : Text) :
    List (Job × Processed) → Processed → EventTable → Watched → Prop
  | intro {effect : Prog.Effect FsOp.Res Watched} {table table' : EventTable}
      {s₀ s s' : Watched} {earlier before after : List (Job × Processed)}
      {job : Job} {processed : Processed}
      (hearlier : Rounds effect worker .empty s₀ earlier table s)
      (hothers : ∀ round ∈ earlier, round.1.directory ≠ directory)
      (hstart : Unstarted directory s.disk)
      (hrounds : Rounds (WorkerEffect codec directory) worker table s
        (before ++ (job, processed) :: after) table' s')
      (hjob : job.directory = directory) (hfinal : job.finalJob = true)
      (hbefore : ∀ round ∈ before, round.1.directory = directory →
        round.1.finalJob = false)
      (hafter : ∀ round ∈ after, round.1.directory ≠ directory) :
      EventRun codec worker directory (before ++ [(job, processed)]) processed
        table' s'

section Concluded

variable {codec : Codec} {worker : Worker} {directory : Text}
  {rounds : List (Job × Processed)} {processed : Processed}
  {table : EventTable} {s : Watched}

theorem ConcludedAs.of_verdict {sha256 : Bytes → Digest} {entries : List Entry}
    {conclusion : Conclusion}
    (h : Verdict codec sha256 directory entries
      ((outcomesOf directory rounds).foldl EventProgress.account .initial)
      conclusion s) :
    ConcludedAs directory rounds conclusion s.disk := by
  have hpersisted : ((outcomesOf directory rounds).foldl EventProgress.account
      .initial).persistedRecords = persistedBy directory rounds := by
    rw [foldl_account_persisted, persistedBy]
    exact Nat.zero_add _
  cases hcompleted : conclusion.completed with
  | false =>
      have habsent := (h.absent hcompleted).node
      have hfile : s.disk.isFile (completePath directory) = false := by
        rw [Disk.isFile, Disk.read?, habsent]
        rfl
      exact ⟨by simp [hfile, hcompleted], fun hyes => by simp [hfile] at hyes,
        fun _ => habsent⟩
  | true =>
      obtain ⟨hok, hcount, hne, hchecksums, hready, hread⟩ :=
        h.completed hcompleted
      have hfile : s.disk.isFile (completePath directory) = true := by
        rw [Disk.isFile, hread]
        rfl
      have hpositive : 0 < persistedBy directory rounds := by
        rw [← hpersisted, hcount]
        exact List.length_pos_iff.mpr hne
      refine ⟨iff_of_true hfile ⟨(foldl_account_failed.mp hok).2, hpositive,
        hchecksums, hcompleted⟩, fun _ => ⟨entries, ?_, hready.listed.manifest⟩,
        fun hno => by simp [hfile] at hno⟩
      rw [hread, hcount]

/-- From the first job of an event to its final job, and rounds of others after it. -/
theorem Rounds.verdict {table table' : EventTable} {s s' : Watched}
    {before after : List (Job × Processed)} {job : Job}
    (hrounds : Rounds (WorkerEffect codec directory) worker table s
      (before ++ (job, processed) :: after) table' s')
    (htable : table.get? directory = none) (hstart : Unstarted directory s.disk)
    (hjob : job.directory = directory) (hfinal : job.finalJob = true)
    (hbefore : ∀ round ∈ before, round.1.directory = directory →
      round.1.finalJob = false)
    (hafter : ∀ round ∈ after, round.1.directory ≠ directory) :
    table'.get? directory = none ∧ ∃ conclusion,
      processed.conclusion = some conclusion ∧
      (s'.swept = false → ∃ entries, Verdict codec worker.sha256 directory entries
        ((outcomesOf directory (before ++ [(job, processed)])).foldl
          EventProgress.account .initial) conclusion s') := by
  subst hjob
  obtain ⟨table₁, s₂, hfirst, hlast⟩ := Rounds.append_iff.mp hrounds
  have htable₁ := hfirst.table_underway hbefore
  rw [htable, Option.getD_none] at htable₁
  have haccount : (outcomesOf job.directory
      (before ++ [(job, processed)])).foldl EventProgress.account .initial =
      ((table₁.get? job.directory).getD .initial).account
        processed.outcome := by
    rw [htable₁, outcomesOf_append, List.foldl_append, outcomesOf_cons_self]
    rfl
  cases hlast with
  | cons hround hrest =>
      obtain ⟨-, -, hdone⟩ := processJob_table hround
      obtain ⟨⟨conclusion, hconclusion⟩, hnone⟩ := hdone hfinal
      refine ⟨(hrest.table_elsewhere hafter).trans hnone, conclusion,
        hconclusion, fun hswept => ?_⟩
      have hswept₃ := hrest.unswept hswept
      have hstarted : Underway codec job.directory []
          ((table.get? job.directory).getD .initial) s := by
        rw [htable]
        exact hstart.underway
      obtain ⟨entries, hunderway⟩ := hfirst.underway hbefore
        (unswept_before hround hswept₃) ⟨[], hstarted⟩
      obtain ⟨entries', hverdict⟩ := (((processJob_keeps worker
        hunderway).returned (orderly_of_absent hunderway.absent)
          hround).2 hswept₃).verdict conclusion hconclusion
      rw [← haccount] at hverdict
      exact ⟨entries', hverdict.elsewhere (hrest.elsewhere hafter) hswept⟩

theorem event_concluded
    (h : EventRun codec worker directory rounds processed table s) :
    table.get? directory = none ∧ ∃ conclusion,
      processed.conclusion = some conclusion ∧
      (s.swept = false → ConcludedAs directory rounds conclusion s.disk) := by
  cases h with
  | @intro effect table₀ _ s₀ s₁ _ earlier before after job _ hearlier hothers
      hstart hrounds hjob hfinal hbefore hafter =>
    have htable₀ : table₀.get? directory = none :=
      (hearlier.table_elsewhere hothers).trans (Dict.get?_empty _)
    obtain ⟨hnone, conclusion, hconclusion, hverdict⟩ :=
      hrounds.verdict htable₀ hstart hjob hfinal hbefore hafter
    refine ⟨hnone, conclusion, hconclusion, fun hswept => ?_⟩
    obtain ⟨entries, hverdict⟩ := hverdict hswept
    exact .of_verdict hverdict

end Concluded

/-! ### One image -/

/-- A disk without faults and a clock, watched from one directory. -/
def Watched.respond (codec : Codec) (systemNow : Int) (directory : Text)
    (s : Watched) : (op : FsOp) → Option (op.Res × Watched)
  | .systemNow => some (systemNow, s)
  | op => (s.store.respond codec op).map fun answer =>
      (answer.1, ⟨answer.2, s.swept || sweeps directory op⟩)

theorem workerEffect_respond {codec : Codec} {systemNow : Int}
    {directory : Text} {s s' : Watched} {op : FsOp} {r : op.Res}
    (h : s.respond codec systemNow directory op = some (r, s')) :
    WorkerEffect codec directory s op r s' := by
  unfold Watched.respond at h
  split at h
  · cases h
    exact ⟨s.store, s.store, .refl _ _, rfl, .refl _ _, by simp [sweeps]⟩
  · obtain ⟨answer, hanswer, heq⟩ := Option.map_eq_some_iff.mp h
    cases heq
    exact ⟨s.store, answer.2, .refl _ _, effect_respond hanswer, .refl _ _, rfl⟩

theorem watched_exec {α : Type} {codec : Codec} {systemNow : Int}
    {directory : Text} {check : α → Watched → Bool} {p : Action α} {s : Watched}
    (h : p.passes (Watched.respond codec systemNow directory) check s = true) :
    ∃ value s', Prog.Exec (WorkerEffect codec directory) s p s' (.ret value) ∧
      check value s' = true :=
  @Prog.exec_of_passes _ _ _ _ _ (WorkerEffect codec directory)
    (Watched.respond codec systemNow directory)
    (fun _ _ _ _ => workerEffect_respond) _ _ _ h

def brakeDirectory : Text := "brake_7_1700000000000000000"

/-- The only job of its event. -/
def brakeJob : Job := { imageJob with directory := brakeDirectory }

/-- The disk space manager of a configuration that sets nothing. -/
def defaultWorker : Worker where
  manager := some (loadDiskPolicy
    ⟨fun _ => [], fun _ value => value, fun _ value => value⟩)
  compressionContext := false
  sha256 := fun _ => Vector.replicate 32 0

def blankWatched : Watched := ⟨⟨.blank, -60 * nanosPerSecond⟩, false⟩

def daysLater (days : Int) : Int := 1700000000 * 10 ^ 9 + days * nanosPerDay

theorem unstarted_blank (directory : Text) :
    Unstarted directory blankWatched.disk :=
  ⟨⟨rfl, nofun⟩, rfl⟩

theorem eventRun_brakeJob {table : EventTable} {processed : Processed}
    {s' : Watched}
    (h : Prog.Exec (WorkerEffect plainCodec brakeDirectory) blankWatched
      (processJob defaultWorker .empty brakeJob) s' (.ret (table, processed))) :
    EventRun plainCodec defaultWorker brakeDirectory [(brakeJob, processed)]
      processed table s' :=
  @EventRun.intro _ _ _ (WorkerEffect plainCodec brakeDirectory) .empty table
    blankWatched blankWatched s' [] [] [] brakeJob processed (.nil _ _) (by simp)
    (unstarted_blank _) (.cons h (.nil _ _)) rfl rfl (by simp) (by simp)

theorem event_concluded_image : ∃ conclusion processed, ∃ s' : Watched,
    processed.conclusion = some conclusion ∧
    ConcludedAs brakeDirectory [(brakeJob, processed)] conclusion s'.disk := by
  have hrun : Prog.passes (Watched.respond plainCodec (daysLater 0) brakeDirectory)
      (fun _ s' => !s'.swept) (processJob defaultWorker .empty brakeJob)
      blankWatched = true := by
    decide +kernel
  obtain ⟨⟨table, processed⟩, s', hexec, hunswept⟩ :=
    watched_exec hrun
  obtain ⟨-, conclusion, hconclusion, hconcluded⟩ :=
    event_concluded (eventRun_brakeJob hexec)
  exact ⟨conclusion, processed, s', hconclusion,
    hconcluded (by simpa using hunswept)⟩

/-- The clock was set a month ahead while the event was written. -/
theorem complete_swept_at_once :
    ¬∀ (codec : Codec) (worker : Worker) (directory : Text)
      (rounds : List (Job × Processed)) (processed : Processed)
      (table : EventTable) (s : Watched),
      EventRun codec worker directory rounds processed table s →
      ∃ conclusion, processed.conclusion = some conclusion ∧
        ConcludedAs directory rounds conclusion s.disk := by
  intro h
  have hrun : Prog.passes (Watched.respond plainCodec (daysLater 31) brakeDirectory)
      (fun result s' => !s'.disk.isFile (completePath brakeDirectory) &&
        result.2.outcome.ok && decide (result.2.outcome.persistedRecords = 1) &&
        decide (result.2.conclusion = some ⟨true, true⟩))
      (processJob defaultWorker .empty brakeJob) blankWatched = true := by
    decide +kernel
  obtain ⟨⟨table, processed⟩, s', hexec, hcheck⟩ :=
    watched_exec hrun
  simp only [Bool.and_eq_true, decide_eq_true_eq, Bool.not_eq_true'] at hcheck
  obtain ⟨⟨⟨habsent, hok⟩, hcount⟩, hboth⟩ := hcheck
  obtain ⟨conclusion, hconclusion, hconcluded⟩ :=
    h _ _ _ _ _ _ _ (eventRun_brakeJob hexec)
  obtain rfl := Option.some.inj (hboth.symm.trans hconclusion)
  have houtcomes : outcomesOf brakeDirectory [(brakeJob, processed)] =
      [processed.outcome] := @outcomesOf_cons_self [] brakeJob processed
  have hpresent := hconcluded.complete_iff.mpr
    ⟨by simp [houtcomes, hok], by simp [persistedBy, houtcomes, hcount], rfl, rfl⟩
  rw [habsent] at hpresent
  cases hpresent

end DataCache.Storage
