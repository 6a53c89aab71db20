import DataCache.Storage.Rounds

/-!
# Power cuts

A power cut that leaves `.complete` behind leaves the whole event behind: its
lists, its checksums and every file that a row of the manifest names.
-/

namespace DataCache.Storage

open DataCache.Foundation DataCache.Capture
open EventState (plainCodec)

abbrev Remnant := Disk.Remnant Text UInt8

/-- A file is found with all its bytes. -/
structure Endures (disk : FileSystem) (remnant : Remnant) (path : Path) :
    Prop where
  isFile : disk.isFile path = true
  read : remnant.read? path = disk.read? path

/-- The event is complete on the disk, and all of it is found. -/
structure Whole (codec : Codec) (sha256 : Bytes → Digest) (directory : Text)
    (entries : List Entry) (disk : FileSystem) (remnant : Remnant) : Prop where
  listed : Listed codec directory entries disk
  checksummed : ∃ files, Checksummed sha256 directory files disk
  manifest : Endures disk remnant (manifestPath directory)
  checksums : Endures disk remnant (checksumsPath directory)
  pairs : disk.isFile (pairsPath directory) = true →
    Endures disk remnant (pairsPath directory)
  stored : ∀ entry ∈ entries, Endures disk remnant [directory, entry.row.file]
  copied : ∀ entry ∈ entries, entry.row.convertedFile ≠ [] →
    Endures disk remnant (directory :: splitPath entry.row.convertedFile)

/-! ## Ready events -/

section Ready

variable {codec : Codec} {sha256 : Bytes → Digest} {directory : Text}
  {entries : List Entry} {disk : FileSystem} {remnant : Remnant}

theorem Kept.endures {path : Path} {data : Bytes} (h : Kept path data disk)
    (hsurvives : disk.Survives remnant)
    (hparents : ∀ dir, dir <+: path.dropLast → dir ≠ [] →
      remnant.names.get? dir = some .dir) : Endures disk remnant path := by
  obtain ⟨inode, hnode⟩ := h.file
  refine ⟨?_, ?_⟩
  · rw [Disk.isFile, h.read?]
    rfl
  · rw [hsurvives.read? h.certain hnode hparents, h.read?]

theorem parents_child {name : Text}
    (hdir : remnant.names.get? [directory] = some .dir) :
    ∀ dir, dir <+: ([directory, name] : Path).dropLast → dir ≠ [] →
      remnant.names.get? dir = some .dir := by
  intro dir hstarts hne
  obtain rfl : dir = [directory] :=
    (List.prefix_cons_iff.mp hstarts).elim (absurd · hne) fun ⟨rest, heq, hrest⟩ => by
      rw [heq, List.prefix_nil.mp hrest]
  exact hdir

theorem parents_grandchild {subdirectory name : Text}
    (hdir : remnant.names.get? [directory] = some .dir)
    (hsubdirectory : remnant.names.get? [directory, subdirectory] = some .dir) :
    ∀ dir, dir <+: ([directory, subdirectory, name] : Path).dropLast →
      dir ≠ [] → remnant.names.get? dir = some .dir := by
  intro dir hstarts hne
  rcases List.prefix_concat_iff.mp
    (show dir <+: [directory] ++ [subdirectory] from hstarts) with rfl | hshort
  · exact hsubdirectory
  · exact @parents_child directory remnant subdirectory hdir dir hshort hne

/-- Where a file below is found, the directory itself is. -/
theorem directory_found {name : Text}
    (h : (remnant.read? [directory, name]).isSome = true) :
    remnant.names.get? [directory] = some .dir := by
  obtain ⟨content, hread⟩ := Option.isSome_iff_exists.mp h
  exact (Disk.Remnant.read?_eq_some.mp hread).1 [directory] List.prefix_rfl
    (List.cons_ne_nil _ _)

theorem Absent.not_found {path : Path} (h : Absent path disk)
    (hsurvives : disk.Survives remnant) : ¬(remnant.read? path).isSome = true := by
  intro hfound
  obtain ⟨content, hread⟩ := Option.isSome_iff_exists.mp hfound
  obtain ⟨-, inode, hentry, -⟩ := Disk.Remnant.read?_eq_some.mp hread
  rw [hsurvives.get?_none h.entry h.node] at hentry
  cases hentry

variable (h : Ready codec sha256 directory entries disk)
include h

/-- Synced bytes under a plain name of a settled directory. -/
theorem Ready.kept {name : Text} {content : Bytes} (hname : Plain name)
    (hsynced : Synced [directory, name] disk)
    (hread : disk.read? [directory, name] = some content) :
    Kept [directory, name] content disk := by
  obtain ⟨inode, synced, hnode⟩ := Disk.node?_of_read? hread
  obtain rfl := hsynced inode content synced hnode
  exact ⟨⟨inode, hnode⟩, h.settled name hname⟩

theorem Ready.convertedDirectory_found (hsurvives : disk.Survives remnant)
    {type : SensorType}
    (hdir : disk.isDir [directory, convertedDirectory type] = true) :
    remnant.names.get? [directory, convertedDirectory type] = some .dir := by
  have hplain : Plain (convertedDirectory type) := by
    cases type
    · exact ⟨'i', _, rfl, by decide⟩
    · exact ⟨'p', _, rfl, by decide⟩
  have hnode : disk.node? [directory, convertedDirectory type] = some .dir := by
    simp only [Disk.isDir, List.isEmpty_cons, Bool.false_or] at hdir
    split at hdir
    next hnode => exact hnode
    · cases hdir
  have hcertain : disk.Certain [directory, convertedDirectory type] :=
    ⟨h.settled _ hplain, fun _ _ _ hfile => by rw [hnode] at hfile; cases hfile⟩
  rw [hcertain.get?_names hsurvives, hnode]
  rfl

theorem Ready.whole (hsurvives : disk.Survives remnant)
    (hdir : remnant.names.get? [directory] = some .dir) :
    Whole codec sha256 directory entries disk remnant := by
  have hchild : ∀ {name : Text} {data : Bytes}, Kept [directory, name] data disk →
      Endures disk remnant [directory, name] := fun hkept =>
    hkept.endures hsurvives (parents_child hdir)
  refine ⟨h.listed, h.checksummed, ?_, ?_, fun hfile => ?_,
    fun entry hentry => ?_, fun entry hentry hcopy => ?_⟩
  · exact hchild (h.kept ⟨'m', _, rfl, by decide⟩ h.synced.manifest
      h.listed.manifest)
  · obtain ⟨files, hfiles⟩ := h.checksummed
    exact hchild hfiles.kept
  · obtain ⟨content, hread⟩ := Option.isSome_iff_exists.mp hfile
    exact hchild (h.kept ⟨'p', _, rfl, by decide⟩ h.synced.pairs hread)
  · have hstored := (h.listed.kept entry hentry).stored
    cases hstored with
    | raw _ hname hkept =>
        rw [hname]
        exact hchild hkept
    | zstd _ _ hname hkept =>
        rw [hname]
        exact hchild hkept
  · have hrecorded := h.listed.kept entry hentry
    obtain ⟨ending, hending, heq, hsub, data, hkept⟩ :=
      hrecorded.copied.resolve_left hcopy
    have hslash : ∀ part ∈ [convertedDirectory entry.record.type,
        entry.base ++ ending], '/' ∉ part := by
      simp only [List.mem_cons, List.not_mem_nil, or_false, forall_eq_or_imp,
        forall_eq, List.mem_append, not_or]
      refine ⟨by cases entry.record.type <;> decide,
        hrecorded.named.slash_not_mem, ?_⟩
      simp only [copyEndings, List.mem_cons, List.not_mem_nil, or_false] at hending
      rcases hending with rfl | rfl | rfl <;> decide
    rw [heq, splitPath_joinPath (List.cons_ne_nil _ _) hslash]
    exact hkept.endures hsurvives (parents_grandchild hdir
      (h.convertedDirectory_found hsurvives hsub))

end Ready

/-! ## Every instant of a run -/

/-- Nothing follows the final job of the event. -/
def EndsWithFinal (directory : Text) (jobs : List Job) : Prop :=
  jobs.Pairwise fun job later => job.directory = directory →
    job.finalJob = true → later.directory ≠ directory

section Runs

variable {codec : Codec} (worker : Worker) {directory : Text} {s s' : Watched}

/-- The event is not concluded, or it has no job left. -/
def Stage (codec : Codec) (directory : Text) (jobs : List Job)
    (table : EventTable) (s : Watched) : Prop :=
  (∃ entries, Underway codec directory entries
    ((table.get? directory).getD .initial) s) ∨
  ∀ job ∈ jobs, job.directory ≠ directory

theorem processJob_stage {table : EventTable} {job : Job} {jobs : List Job}
    (hjobs : EndsWithFinal directory (job :: jobs))
    (horderly : Orderly codec worker.sha256 directory s)
    (hstage : Stage codec directory (job :: jobs) table s) :
    Keeps codec worker.sha256 directory (processJob worker table job) s
      fun result => Stage codec directory jobs result.1 := by
  have htraced : ∀ {post : EventTable × Processed → Watched → Prop},
      Keeps codec worker.sha256 directory (processJob worker table job) s post →
      (∀ result s', s'.swept = false → post result s' →
        Prog.Exec (WorkerEffect codec directory) s (processJob worker table job)
          s' (.ret result) → Stage codec directory jobs result.1 s') →
      Keeps codec worker.sha256 directory (processJob worker table job) s
        fun result => Stage codec directory jobs result.1 := fun hkeeps hpost =>
    Prog.wp_mono (fun _ => id) (fun result s' h => ⟨h.1.1, fun hswept =>
      hpost result s' hswept (h.1.2 hswept) h.2⟩) (fun _ _ => id)
      (Prog.wp_traced hkeeps)
  by_cases hown : job.directory = directory
  · subst hown
    obtain ⟨entries, hunderway⟩ := hstage.resolve_right fun hnone =>
      hnone job List.mem_cons_self rfl
    refine htraced (processJob_keeps worker hunderway)
      fun result s' _ hadvanced hexec => ?_
    cases hfinal : job.finalJob with
    | true =>
        exact .inr fun later hlater => (List.pairwise_cons.mp hjobs).1 later
          hlater rfl hfinal
    | false =>
        obtain ⟨entries', hunderway'⟩ := hadvanced.underway hfinal
        refine .inl ⟨entries', ?_⟩
        rw [((processJob_table hexec).2.1 hfinal).2, Option.getD_some]
        exact hunderway'
  · refine htraced (Keeps.of_does (processJob_elsewhere worker hown)
      fun _ => horderly.elsewhere) fun result s' hswept hframe hexec => ?_
    rcases hstage with ⟨entries, hunderway⟩ | hnone
    · refine .inl ⟨entries, ?_⟩
      rw [(processJob_table hexec).1 directory (Ne.symm hown)]
      exact hunderway.elsewhere hframe.1 hswept
    · exact .inr fun later hlater => hnone later (List.mem_cons_of_mem _ hlater)

theorem Rounds.stage {table table' : EventTable} {rounds : List (Job × Processed)}
    {jobs : List Job}
    (h : Rounds (WorkerEffect codec directory) worker table s rounds table' s')
    (hjobs : EndsWithFinal directory (rounds.map Prod.fst ++ jobs))
    (horderly : Orderly codec worker.sha256 directory s)
    (hstage : Stage codec directory (rounds.map Prod.fst ++ jobs) table s)
    (hswept : s'.swept = false) :
    Orderly codec worker.sha256 directory s' ∧ Stage codec directory jobs table' s' := by
  induction h with
  | nil => exact ⟨horderly, hstage⟩
  | cons hround hrest ih =>
      obtain ⟨horderly₁, hstage₁⟩ :=
        (processJob_stage worker hjobs horderly hstage).returned horderly hround
      exact ih (List.pairwise_cons.mp hjobs).2 horderly₁
        (hstage₁ (hrest.unswept hswept)) hswept

theorem serve_keeps :
    ∀ {jobs : List Job} {table : EventTable} {s : Watched},
      EndsWithFinal directory jobs → Orderly codec worker.sha256 directory s →
      Stage codec directory jobs table s →
      Keeps codec worker.sha256 directory (serve worker table jobs) s
        fun _ _ => True
  | [], _, _, _, horderly, _ => Keeps.pure horderly fun _ => trivial
  | _ :: _, _, _, hjobs, horderly, hstage =>
      Keeps.bind (processJob_stage worker hjobs horderly hstage)
        fun _ _ _ horderly' hstage' =>
          serve_keeps (List.pairwise_cons.mp hjobs).2 horderly' hstage'

end Runs

/--
Whenever the power is cut before the directory is swept, a `.complete` that is
found has everything with it.
-/
theorem complete_found_whole {codec : Codec} {worker : Worker} {directory : Text}
    {effect : Prog.Effect FsOp.Res Watched} {earlier : List (Job × Processed)}
    {table : EventTable} {s₀ s s' : Watched} {jobs : List Job}
    {p : Action EventTable} {remnant : Remnant}
    (hearlier : Rounds effect worker .empty s₀ earlier table s)
    (hothers : ∀ round ∈ earlier, round.1.directory ≠ directory)
    (hstart : Unstarted directory s.disk)
    (hjobs : EndsWithFinal directory jobs)
    (hexec : Prog.Exec (WorkerEffect codec directory) s
      (serve worker table jobs) s' p)
    (hunswept : s'.swept = false) (hsurvives : s'.disk.Survives remnant)
    (hfound : (remnant.read? (completePath directory)).isSome = true) :
    ∃ entries, Whole codec worker.sha256 directory entries s'.disk remnant := by
  have hnone : table.get? directory = none :=
    (hearlier.table_elsewhere hothers).trans (Dict.get?_empty _)
  have horderly : Orderly codec worker.sha256 directory s :=
    orderly_of_absent hstart.absent
  have hstage : Stage codec directory jobs table s := by
    refine .inl ⟨[], ?_⟩
    rw [hnone]
    exact hstart.underway
  have hkeeps := serve_keeps worker hjobs horderly hstage
  rcases (Prog.wp_exec hexec horderly hkeeps).1 hunswept with
    habsent | ⟨entries, hready⟩
  · obtain ⟨content, hread⟩ := Option.isSome_iff_exists.mp hfound
    obtain ⟨-, inode, hentry, -⟩ := Disk.Remnant.read?_eq_some.mp hread
    rw [hsurvives.get?_none habsent.entry habsent.node] at hentry
    cases hentry
  · exact ⟨entries, hready.whole hsurvives (directory_found hfound)⟩

/-! ### A cut that loses nothing -/

/-- The bytes of the first file with this inode. -/
def bytesOfInode (disk : FileSystem) (inode : Nat) : Bytes :=
  (disk.live.keys.findSome? fun path =>
    match disk.node? path with
    | some (.file other content _) => if other = inode then some content else none
    | _ => none).getD []

/-- Everything pending was done. -/
def intact (disk : FileSystem) : Remnant :=
  ⟨replay disk.pending disk.durable, bytesOfInode disk⟩

def inodesDiffer (disk : FileSystem) : Bool :=
  disk.live.keys.all fun path =>
    match disk.node? path with
    | some (.file inode content _) => decide (bytesOfInode disk inode = content)
    | _ => true

theorem survives_intact {disk : FileSystem} (h : inodesDiffer disk = true) :
    disk.Survives (intact disk) := by
  refine ⟨⟨disk.pending, List.Sublist.refl _, rfl⟩, fun path inode content hnode _ => ?_⟩
  have hpath := List.all_eq_true.mp h path (disk.live.mem_keys_iff.mpr ⟨_, hnode⟩)
  simp only [hnode, decide_eq_true_eq] at hpath
  exact hpath

theorem complete_found_whole_image : ∃ entries, ∃ s' : Watched, ∃ remnant,
    (remnant.read? (completePath brakeDirectory)).isSome = true ∧
    Whole plainCodec defaultWorker.sha256 brakeDirectory entries s'.disk
      remnant := by
  have hrun : Prog.passes (Watched.respond plainCodec (daysLater 0) brakeDirectory)
      (fun _ s' => !s'.swept && inodesDiffer s'.disk &&
        ((intact s'.disk).read? (completePath brakeDirectory)).isSome)
      (serve defaultWorker .empty [brakeJob]) blankWatched = true := by
    decide +kernel
  obtain ⟨table, s', hexec, hcheck⟩ :=
    watched_exec hrun
  simp only [Bool.and_eq_true, Bool.not_eq_true'] at hcheck
  obtain ⟨⟨hunswept, hdiffer⟩, hfound⟩ := hcheck
  obtain ⟨entries, hwhole⟩ := @complete_found_whole plainCodec defaultWorker
    brakeDirectory (WorkerEffect plainCodec brakeDirectory) [] .empty
    blankWatched blankWatched s' [brakeJob] _ _ (.nil _ _) (by simp)
    (unstarted_blank _) (List.pairwise_singleton _ _) hexec hunswept
    (survives_intact hdiffer) hfound
  exact ⟨entries, s', intact s'.disk, hfound, hwhole⟩

end DataCache.Storage
