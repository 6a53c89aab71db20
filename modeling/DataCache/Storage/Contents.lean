import DataCache.Storage.Rounds

/-!
# What an event directory holds

However the rounds of the worker come out, every file of an event that is
neither hidden nor temporary has one of the names that jobs give their files.
-/

namespace DataCache.Storage

open DataCache.Foundation DataCache.Capture

/-! ## Names -/

/-- Neither hidden nor temporary. -/
def Shown (path : Path) : Prop :=
  (path.getLastD []).head? ≠ some '.' ∧ extension (path.getLastD []) ≠ ".tmp"

/-- The files of an event below its directory. -/
inductive EventFile (records : List SensorData) : Path → Prop
  | manifest : EventFile records ["manifest.csv"]
  | pairs : EventFile records ["pairs.csv"]
  | checksums : EventFile records ["manifest.sha256"]
  | stored {record : SensorData} {base ending : Text} (hrecord : record ∈ records)
      (hbase : IsBaseName record base) (hending : ending ∈ storedEndings) :
      EventFile records [base ++ ending]
  | copied {record : SensorData} {base ending : Text} (hrecord : record ∈ records)
      (hbase : IsBaseName record base) (hending : ending ∈ copyEndings) :
      EventFile records [convertedDirectory record.type, base ++ ending]
  | directory (type : SensorType) : EventFile records [convertedDirectory type]

theorem shown_of_covered {path : Path} (h : isCovered path = true) : Shown path :=
  (isCovered_iff.mp h).2

theorem extension_temp {name : Text} (hne : name ≠ []) :
    extension (name ++ (".tmp" : Text)) = ".tmp" := by
  have htail : ((name ++ (".tmp" : Text)).reverse.takeWhile fun c =>
      decide (c ≠ '.')).reverse = "tmp" := by
    rw [List.reverse_append]
    rfl
  have hpos := List.length_pos_iff.mpr hne
  have hlong : ¬("tmp" : Text).length = (name ++ (".tmp" : Text)).length ∧
      ¬("tmp" : Text).length + 1 = (name ++ (".tmp" : Text)).length := by
    rw [List.length_append]
    change ¬3 = name.length + 4 ∧ ¬3 + 1 = name.length + 4
    omega
  have hdots : ¬name ++ (".tmp" : Text) = ".." := fun heq =>
    absurd (congrArg List.getLast? heq)
      (by rw [List.getLast?_append_of_ne_nil _ (by decide)]; decide)
  unfold extension
  simp only [htail, hlong.1, hlong.2, hdots, decide_false, Bool.or_false,
    Bool.false_eq_true, if_false]
  rfl

theorem not_shown_temp {front : Path} {name : Text} (hne : name ≠ []) :
    ¬Shown (front ++ [name ++ ".tmp"]) := by
  rintro ⟨-, htemp⟩
  rw [List.getLastD_concat] at htemp
  exact htemp (extension_temp hne)

/-- A shown path is not a temporary one. -/
theorem eq_of_atOrTemp {directory name : Text} {front path : Path}
    (hshown : Shown path) (hne : name ≠ [])
    (h : AtOrTemp (directory :: (front ++ [name])) (directory :: path)) :
    path = front ++ [name] := by
  rcases h with heq | heq
  · exact (List.cons.inj heq).2
  · rw [tempPath_cons directory (by simp)] at heq
    have htemp : path = front ++ [name ++ (".tmp" : Text)] := by
      simpa [tempPath] using (List.cons.inj heq).2
    exact absurd (htemp ▸ hshown) (not_shown_temp hne)

/-! ## Rounds -/

/-- What the rounds of an event may change. -/
def WorkPath (directory : Text) (records : List SensorData) (path : Path) : Prop :=
  JobPath directory records path ∨ ConcludePath directory path

/-- All the records handed to the worker, enabled or not. -/
def handedRecords (rounds : List (Job × Processed)) : List SensorData :=
  rounds.flatMap fun round => round.1.records

theorem JobPath.mono {directory : Text} {records records' : List SensorData}
    (hsub : records ⊆ records') {path : Path} (h : JobPath directory records path) :
    JobPath directory records' path :=
  h.imp_right (Or.imp_right (Or.imp_right fun ⟨record, hrecord, hpath⟩ =>
    ⟨record, hsub hrecord, hpath⟩))

section Rounds

variable {codec : Codec} {worker : Worker} {directory : Text}
  {table table' : EventTable} {rounds : List (Job × Processed)} {s s' : Watched}

theorem processJob_touches {job : Job} :
    Does codec job.directory (WorkPath job.directory job.records)
      (processJob worker table job) s fun _ _ => True :=
  Does.bind ((writeGuarded_touches worker job).widen fun _ => .inl)
    fun _ _ _ _ _ => (finishJob_touches worker).widen fun _ => .inr

theorem Rounds.frame
    (h : Rounds (WorkerEffect codec directory) worker table s rounds table' s') :
    Frame directory (WorkPath directory (handedRecords rounds)) s s' := by
  induction h with
  | nil => exact .refl _
  | @cons table table₁ table' s s₁ s' job processed rounds hround hrest ih =>
      have hrest' := ih.widen fun path (hpath : WorkPath _ _ path) =>
        hpath.imp_left (JobPath.mono (List.subset_append_right job.records _))
      refine Frame.trans ?_ hrest'
      by_cases hown : job.directory = directory
      · subst hown
        exact (processJob_touches.returned hround).1.widen fun path hpath =>
          hpath.imp_left (JobPath.mono (List.subset_append_left _ _))
      · exact ((processJob_elsewhere worker hown).returned hround).1.widen
          fun _ => False.elim

/-- Nothing but hidden and temporary files, as before the first job. -/
def Bare (directory : Text) (disk : FileSystem) : Prop :=
  ∀ path, Shown path → disk.isFile (directory :: path) = false

theorem owned_of_shown {path : Path} (h : Shown path) :
    Owned directory (directory :: path) := by
  refine ⟨path, rfl, ?_⟩
  rintro ⟨rest, heq⟩
  exact h.1 (heq ▸ rfl)

theorem eventFile_of_workPath {records : List SensorData} {path : Path}
    (h : WorkPath directory records (directory :: path)) (hshown : Shown path)
    (hne : path ≠ []) : EventFile records path := by
  have hplain : ∀ {record base} (ending : Text), IsBaseName record base →
      base ++ ending ≠ [] := fun ending hbase heq => by
    have hmem := List.mem_append_left ending hbase.underscore_mem
    rw [heq] at hmem
    cases hmem
  rcases h with (hstart | heq | heq | ⟨record, hrecord, base, hbase, hpath⟩) |
    hchecksums | hstart | ⟨rest, heq⟩
  · exact absurd (List.prefix_nil.mp (List.cons_prefix_cons.mp hstart).2) hne
  · cases heq
    exact .manifest
  · cases heq
    exact .pairs
  · rcases hpath with hstart | ⟨ending, hending, hpath⟩ | ⟨ending, hending, hpath⟩
    · have hstart' := (List.cons_prefix_cons.mp hstart).2
      have hlength := hstart'.length_le
      have hpos := List.length_pos_iff.mpr hne
      rw [hstart'.eq_of_length_le hpos]
      exact .directory _
    · rw [@eq_of_atOrTemp directory (base ++ ending) [] _ hshown
        (hplain ending hbase) hpath]
      exact .stored hrecord hbase hending
    · rw [@eq_of_atOrTemp directory (base ++ ending)
        [convertedDirectory record.type] _ hshown (hplain ending hbase) hpath]
      exact .copied hrecord hbase hending
  · rw [@eq_of_atOrTemp directory "manifest.sha256" [] _ hshown (by decide)
      hchecksums]
    exact .checksums
  · exact absurd (List.prefix_nil.mp (List.cons_prefix_cons.mp hstart).2) hne
  · cases heq
    exact absurd rfl hshown.1

/-- Whatever the rounds have left in a directory that was bare. -/
theorem Rounds.eventFile
    (h : Rounds (WorkerEffect codec directory) worker table s rounds table' s')
    (hbare : Bare directory s.disk) (hswept : s'.swept = false)
    (hdir : s'.disk.isDir [directory] = true) {path : Path} (hshown : Shown path)
    (hfile : s'.disk.isFile (directory :: path) = true) :
    EventFile (handedRecords rounds) path := by
  have hne : path ≠ [] := by
    rintro rfl
    rw [Disk.isFile_eq_false_of_isDir (List.cons_ne_nil _ _) hdir] at hfile
    cases hfile
  refine @eventFile_of_workPath directory _ _ ?_ hshown hne
  by_contra hpath
  have hsame := h.frame.same hswept _ (owned_of_shown hshown) hpath
  rw [hsame.isFile, hbare path hshown] at hfile
  cases hfile

end Rounds

/-! ## Completed events -/

theorem Bare.unstarted {directory : Text} {disk : FileSystem}
    (h : Bare directory disk) (habsent : Absent (completePath directory) disk) :
    Unstarted directory disk where
  absent := habsent
  manifest := by
    have hnone := h ["manifest.csv"] ⟨by decide, by decide⟩
    rwa [Disk.isFile, Option.isSome_eq_false_iff, Option.isNone_iff_eq_none] at hnone

/--
The rounds of an event from its first job to its final one, others after it, and
the event's `.complete` in place.
-/
inductive CompletedEvent (codec : Codec) (worker : Worker) (directory : Text) :
    List (Job × Processed) → Watched → Prop
  | intro {table table' : EventTable} {s s' : Watched}
      {before after : List (Job × Processed)} {job : Job} {processed : Processed}
      (htable : table.get? directory = none) (hbare : Bare directory s.disk)
      (habsent : Absent (completePath directory) s.disk)
      (hrounds : Rounds (WorkerEffect codec directory) worker table s
        (before ++ (job, processed) :: after) table' s')
      (hjob : job.directory = directory) (hfinal : job.finalJob = true)
      (hbefore : ∀ round ∈ before, round.1.directory = directory →
        round.1.finalJob = false)
      (hafter : ∀ round ∈ after, round.1.directory ≠ directory)
      (hcomplete : s'.disk.isFile (completePath directory) = true)
      (hswept : s'.swept = false) :
      CompletedEvent codec worker directory
        (before ++ (job, processed) :: after) s'

section Completed

variable {codec : Codec} {worker : Worker} {directory : Text}
  {rounds : List (Job × Processed)} {s : Watched}

theorem outcomesOf_elsewhere {rounds : List (Job × Processed)}
    (hother : ∀ round ∈ rounds, round.1.directory ≠ directory) :
    outcomesOf directory rounds = [] := by
  rw [outcomesOf, List.map_eq_nil_iff, List.filter_eq_nil_iff]
  intro round hround
  simpa using hother round hround

/-- A completed event is whole, and none of its jobs has failed. -/
theorem CompletedEvent.ready (h : CompletedEvent codec worker directory rounds s) :
    (∃ entries, Ready codec worker.sha256 directory entries s.disk) ∧
      (∀ outcome ∈ outcomesOf directory rounds, outcome.ok = true) ∧
      0 < persistedBy directory rounds := by
  cases h with
  | @intro table table' s₀ _ before after job processed htable hbare habsent
      hrounds hjob hfinal hbefore hafter hcomplete hswept =>
    obtain ⟨-, conclusion, -, hverdict⟩ := hrounds.verdict htable
      (hbare.unstarted habsent) hjob hfinal hbefore hafter
    obtain ⟨entries, hverdict⟩ := hverdict hswept
    have hconcluded := ConcludedAs.of_verdict hverdict
    obtain ⟨hok, hpositive, -, hcompleted⟩ := hconcluded.complete_iff.mp hcomplete
    have houtcomes : outcomesOf directory (before ++ (job, processed) :: after) =
        outcomesOf directory (before ++ [(job, processed)]) := by
      rw [List.append_cons, outcomesOf_append, outcomesOf_elsewhere hafter,
        List.append_nil]
    rw [persistedBy, houtcomes]
    exact ⟨⟨entries, (hverdict.completed hcompleted).2.2.2.2.1⟩, hok, hpositive⟩

theorem CompletedEvent.eventFile
    (h : CompletedEvent codec worker directory rounds s) {path : Path}
    (hshown : Shown path) (hfile : s.disk.isFile (directory :: path) = true) :
    EventFile (handedRecords rounds) path := by
  obtain ⟨⟨entries, hready⟩, -, -⟩ := h.ready
  cases h with
  | intro htable hbare habsent hrounds hjob hfinal hbefore hafter hcomplete hswept =>
    exact hrounds.eventFile hbare hswept hready.isDir hshown hfile

end Completed

end DataCache.Storage
