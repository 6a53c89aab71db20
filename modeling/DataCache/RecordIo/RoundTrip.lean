import DataCache.RecordIo.Records
import DataCache.Storage.Rounds

/-!
# Records read back

Over any rounds of the worker the manifest of an event gets one row for each
enabled record, in order, and the file a row names still holds its record.
-/

namespace DataCache.RecordIo

open DataCache.Foundation DataCache.Capture DataCache.Storage DataCache.Receiver

/-! ## What the rounds have stored -/

/-- The records of a directory's jobs that the switches of their sensors admit. -/
def recordsOf (directory : Text) (rounds : List (Job × Processed)) :
    List SensorData :=
  (rounds.filter fun round => decide (round.1.directory = directory)).flatMap
    fun round => round.1.records.filter (enabled round.1)

theorem recordsOf_cons_self (job : Job) (processed : Processed)
    (rounds : List (Job × Processed)) :
    recordsOf job.directory ((job, processed) :: rounds) =
      job.records.filter (enabled job) ++ recordsOf job.directory rounds := by
  simp [recordsOf]

theorem recordsOf_cons_ne {directory : Text} {job : Job} {processed : Processed}
    (hne : job.directory ≠ directory) (rounds : List (Job × Processed)) :
    recordsOf directory ((job, processed) :: rounds) =
      recordsOf directory rounds := by
  simp [recordsOf, hne]

theorem finishJob_returns (worker : Worker) (table : EventTable) (job : Job)
    (outcome : JobOutcome) :
    (finishJob worker table job outcome).returns fun result =>
      result.2.outcome = outcome := by
  dsimp only [finishJob]
  split
  · rfl
  · exact Prog.returns_bind (Prog.returns_true _) fun _ _ =>
      Prog.returns_bind (Prog.returns_true _) fun _ _ => rfl

section Rounds

variable {codec : Codec} {worker : Worker} {directory : Text}
  {table table' : EventTable} {rounds : List (Job × Processed)} {s s' : Watched}

theorem unrelated_conclude (directory : Text) :
    Unrelated (ConcludePath directory) := by
  rintro path (hpath | hpath)
  · exact unrelated_checksums directory path hpath
  · exact unrelated_markerPath directory path hpath

theorem not_concludePath_manifest (directory : Text) :
    ¬ConcludePath directory (manifestPath directory) := by
  rintro (hpath | hpath)
  · exact not_checksums_child (by decide) (by decide) hpath
  · exact not_markerPath_child ⟨'m', _, rfl, by decide⟩ hpath

theorem processJob_adds {job : Job} {processed : Processed}
    {entries : List Storage.Entry}
    (h : Prog.Exec (WorkerEffect codec job.directory) s
      (processJob worker table job) s' (.ret (table', processed)))
    (hok : processed.outcome.ok = true) (hswept : s'.swept = false)
    (hprior : Prior codec job.directory entries s.disk) :
    ∃ added, Prior codec job.directory (entries ++ added) s'.disk ∧
      processed.outcome.persistedRecords = added.length ∧
      added.map Entry.record = job.records.filter (enabled job) ∧
      (ApartBases entries → ApartBases (entries ++ added)) := by
  obtain ⟨outcome, s₁, hwrite, hfinish⟩ := h.of_bind_ret
  have hsame : processed.outcome = outcome :=
    (finishJob_returns worker table job outcome).exec hfinish
  have hswept₁ := unswept_before hfinish hswept
  obtain ⟨-, hwrote⟩ := (writeGuarded_does worker job hprior).returned hwrite
  obtain ⟨-, added, hlisted, hcount, hrecords, hapart, -⟩ :=
    hwrote hswept₁ (hsame ▸ hok)
  have hframe := ((finishJob_touches worker).returned hfinish).1
  exact ⟨added, .inr (hlisted.of_frame hframe hswept
    (not_concludePath_manifest _) (unrelated_conclude _)), hsame ▸ hcount, hrecords,
    hapart⟩

theorem rounds_add
    (h : Rounds (WorkerEffect codec directory) worker table s rounds table' s')
    (hok : ∀ outcome ∈ outcomesOf directory rounds, outcome.ok = true)
    (hswept : s'.swept = false) {entries : List Storage.Entry}
    (hprior : Prior codec directory entries s.disk) (hapart : ApartBases entries) :
    ∃ added, Prior codec directory (entries ++ added) s'.disk ∧
      persistedBy directory rounds = added.length ∧
      added.map Entry.record = recordsOf directory rounds ∧
      ApartBases (entries ++ added) := by
  induction h generalizing entries with
  | nil => exact ⟨[], by simpa using hprior, rfl, rfl, by simpa using hapart⟩
  | @cons table table₁ table' s s₁ s' job processed rounds hround hrest ih =>
      have hswept₁ := hrest.unswept hswept
      by_cases hown : job.directory = directory
      · subst hown
        rw [outcomesOf_cons_self, List.forall_mem_cons] at hok
        obtain ⟨first, hprior₁, hcount, hfirst, hapart₁⟩ :=
          processJob_adds hround hok.1 hswept₁ hprior
        obtain ⟨added, hprior', hcounts, hadded, hapart'⟩ :=
          ih hok.2 hswept hprior₁ (hapart₁ hapart)
        rw [List.append_assoc] at hprior' hapart'
        refine ⟨first ++ added, hprior', ?_, ?_, hapart'⟩
        · rw [persistedBy, outcomesOf_cons_self, List.map_cons, List.sum_cons,
            hcount, ← persistedBy, hcounts, List.length_append]
        · rw [recordsOf_cons_self, List.map_append, hfirst, hadded]
      · rw [outcomesOf_cons_ne hown] at hok
        rw [recordsOf_cons_ne hown, persistedBy, outcomesOf_cons_ne hown]
        have hframe := ((processJob_elsewhere worker hown).returned hround).1
        exact ih hok hswept (hprior.of_frame hframe hswept₁ id
          fun _ => False.elim) hapart

end Rounds

/-! ## Loading a listed record -/

/-- Decoding takes back what the worker's encoder has written. -/
structure Inverts (zstd : Zstd) (codec : Codec) : Prop where
  frameContentSize : ∀ level bytes,
    zstd.frameContentSize (codec.compress level bytes) = .known bytes.length
  decompress : ∀ level bytes,
    zstd.decompress bytes.length (codec.compress level bytes) = .ok bytes

/-- The entry is the record's, and loading it gives the record again. -/
structure ReadsBack (zstd : Zstd) (codec : Codec) (disk : FileSystem)
    (directory : Text) (record : SensorData) (entry : ManifestEntry) : Prop where
  sensor : entry.sensor = encodeUtf8 (sensorPrefix record.type)
  timestampNs : entry.timestampNs = timestampOf record
  stored : (entry.encoding = ascii "raw" ∧
      fileAt disk directory entry.file = some (codec.serialize record)) ∨
    (entry.encoding = ascii "zstd" ∧ ∃ level, fileAt disk directory entry.file =
      some (codec.compress level (codec.serialize record)))
  loaded : (codec.serialize record).length ≤ kMaxRecordBytes →
    (∀ content, fileAt disk directory entry.file = some content →
      content.length ≤ kMaxRecordBytes) →
    loadRecordBytes zstd disk directory entry = .ok (codec.serialize record)

theorem decompressZstd_compress {zstd : Zstd} {codec : Codec}
    (h : Inverts zstd codec) (level : Int) {bytes : Bytes}
    (hsmall : bytes.length ≤ kMaxRecordBytes) :
    decompressZstd zstd (codec.compress level bytes) = .ok bytes := by
  rw [decompressZstd, h.frameContentSize]
  dsimp only
  rw [if_neg (by omega), h.decompress]

section Loading

variable {codec : Codec} {directory : Text} {disk : FileSystem}
  {record : SensorData} {base ending : Text} {row : ManifestRow}

theorem isUnsafePart_named (hbase : IsBaseName record base)
    (hending : ending ∈ storedEndings ++ copyEndings) :
    isUnsafePart (base ++ ending) = false ∧ '\\' ∉ base ++ ending ∧
      '/' ∉ base ++ ending ∧ base ++ ending ≠ [] := by
  have hnot : ∀ c ∈ [':', '\\', '/'], c ∉ base ++ ending := by
    intro c hc
    have hfree : c.isDigit = false ∧ c ≠ '-' ∧
        (∀ type, c ∉ sensorPrefix type ++ ("_" : Text)) ∧
        ∀ ending ∈ storedEndings ++ copyEndings, c ∉ ending := by
      simp only [List.mem_cons, List.not_mem_nil, or_false] at hc
      rcases hc with rfl | rfl | rfl <;>
        exact ⟨by decide, by decide, by rintro (_ | _) <;> decide, by decide⟩
    obtain ⟨hdigit, hminus, hstart, hendings⟩ := hfree
    rw [List.mem_append, not_or]
    exact ⟨hbase.not_mem hdigit hminus hstart, hendings ending hending⟩
  have hunderscore : '_' ∈ base ++ ending :=
    List.mem_append_left _ hbase.underscore_mem
  have hdots : ∀ part ∈ ([[], ".", ".."] : List Text), '_' ∉ part := by decide
  have hdevices : ∀ name ∈ windowsDeviceNames, '_' ∉ name := by decide
  have hlast : ∀ c ∈ ['.', ' '], (base ++ ending).getLast? ≠ some c := by
    have hends : ∀ ending ∈ storedEndings ++ copyEndings, ending ≠ [] ∧
        ending.getLast? ≠ some '.' ∧ ending.getLast? ≠ some ' ' := by decide
    obtain ⟨hne, hdot, hblank⟩ := hends ending hending
    intro c hc
    rw [List.getLast?_append_of_ne_nil _ hne]
    have hcases : c = '.' ∨ c = ' ' := by simpa using hc
    rcases hcases with rfl | rfl
    · exact hdot
    · exact hblank
  have hstem : (base ++ ending).takeWhile (· ≠ '.') = base := by
    obtain ⟨rest, rfl⟩ := ending_dot ending hending
    exact stem_append hbase.dot_not_mem rest
  have hupper : '_' ∈ upper base := List.mem_map.mpr ⟨'_', hbase.underscore_mem, rfl⟩
  have hcolon : ':' ∉ base ++ ending := hnot ':' (by simp)
  refine ⟨?_, hnot _ (by simp), hnot _ (by simp), List.ne_nil_of_mem hunderscore⟩
  simp only [isUnsafePart, hstem, Bool.or_eq_false_iff, beq_eq_false_iff_ne,
    List.contains_eq_mem, decide_eq_false_iff_not]
  exact ⟨⟨⟨⟨fun hmem => hdots _ hmem hunderscore, hcolon⟩, hlast _ (by simp)⟩,
    hlast _ (by simp)⟩, fun hmem => hdevices _ hmem hupper⟩

theorem fileAt_name {name : Text} (hslash : '/' ∉ name) (hne : name ≠ []) :
    fileAt disk directory (encodeUtf8 name) = disk.read? [directory, name] := by
  have hcomponents : components (encodeUtf8 name) = [encodeUtf8 name] := by
    refine (components_of_name ?_ (by simpa using hne)).2
    rwa [byteOf_mem_encodeUtf8 (by decide)]
  simp [fileAt, hcomponents]

theorem safeRelativePath_stored (hbase : IsBaseName record base)
    (hending : ending ∈ storedEndings) :
    safeRelativePath (encodeUtf8 (base ++ ending)) = true := by
  obtain ⟨hsafe, hbackslash, hslash, hne⟩ :=
    isUnsafePart_named hbase (List.mem_append_left _ hending)
  have hcomponents := components_of_name
    (show byteOf '/' ∉ encodeUtf8 (base ++ ending) by
      rwa [byteOf_mem_encodeUtf8 (by decide)])
    (show encodeUtf8 (base ++ ending) ≠ [] by rwa [ne_eq, encodeUtf8_eq_nil])
  unfold safeRelativePath
  rw [hcomponents.1, hcomponents.2, List.any_cons, List.any_nil,
    isUnsafeComponent_encodeUtf8 hbackslash, hsafe]
  simp [hne]

theorem loadRecordBytes_eq {zstd : Zstd} {entry : ManifestEntry} {content : Bytes}
    (hsafe : safeRelativePath entry.file = true)
    (hread : fileAt disk directory entry.file = some content)
    (hsmall : content.length ≤ kMaxRecordBytes) :
    loadRecordBytes zstd disk directory entry =
      if entry.encoding = ascii "zstd" then decompressZstd zstd content
      else .ok content := by
  have hfits : ¬ content.length > kMaxRecordBytes := by omega
  simp [loadRecordBytes, hsafe, hread, readFileBytes, hfits]

theorem loadRecordBytes_large {zstd : Zstd} {entry : ManifestEntry} {content : Bytes}
    (hread : fileAt disk directory entry.file = some content)
    (hlarge : kMaxRecordBytes < content.length) (bytes : Bytes) :
    loadRecordBytes zstd disk directory entry ≠ .ok bytes := by
  unfold loadRecordBytes
  split
  · nofun
  · simp [hread, readFileBytes, hlarge]

theorem readsBack_of_recorded {zstd : Zstd} (hinverts : Inverts zstd codec)
    (h : Recorded codec directory record base row disk) :
    ReadsBack zstd codec disk directory record (rowEntry row) := by
  have hread : ∀ {ending : Text} {content : Bytes}, ending ∈ storedEndings →
      row.file = base ++ ending →
      Kept [directory, base ++ ending] content disk →
      safeRelativePath (rowEntry row).file = true ∧
        fileAt disk directory (rowEntry row).file = some content := by
    intro ending content hending hfile hkept
    obtain ⟨-, -, hslash, hne⟩ :=
      isUnsafePart_named h.named (List.mem_append_left _ hending)
    rw [rowEntry, hfile]
    exact ⟨safeRelativePath_stored h.named hending,
      (fileAt_name hslash hne).trans hkept.read?⟩
  have hnames : (rowEntry row).sensor = encodeUtf8 (sensorPrefix record.type) ∧
      (rowEntry row).timestampNs = timestampOf record :=
    ⟨by rw [rowEntry, h.sensor], h.timestamp⟩
  cases h.stored with
  | raw hraw hfile hkept =>
      have hencoding : (rowEntry row).encoding = ascii "raw" := by
        rw [rowEntry, hraw]
        rfl
      obtain ⟨hsafe, hfileAt⟩ := hread (by simp [storedEndings]) hfile hkept
      refine ⟨hnames.1, hnames.2, .inl ⟨hencoding, hfileAt⟩, fun hsmall _ => ?_⟩
      rw [loadRecordBytes_eq hsafe hfileAt hsmall, hencoding]
      exact if_neg (by decide)
  | zstd level hcompressed hfile hkept =>
      have hencoding : (rowEntry row).encoding = ascii "zstd" := by
        rw [rowEntry, hcompressed]
        rfl
      obtain ⟨hsafe, hfileAt⟩ := hread (by simp [storedEndings]) hfile hkept
      refine ⟨hnames.1, hnames.2, .inr ⟨hencoding, level, hfileAt⟩,
        fun hsmall hfits => ?_⟩
      rw [loadRecordBytes_eq hsafe hfileAt (hfits _ hfileAt), hencoding, if_pos rfl]
      exact decompressZstd_compress hinverts level hsmall

theorem rowOf_of_recorded (h : Recorded codec directory record base row disk) :
    RowOf record row where
  sensor := h.sensor
  timestampNs := h.timestamp
  named := by
    refine ⟨base, h.named, ?_, ?_⟩
    · cases h.stored with
      | raw hraw hfile => simp [hraw, hfile]
      | zstd level hcompressed hfile => simp [hcompressed, hfile]
    · rcases h.copied with hnone | ⟨ending, hending, hcopy, -⟩
      · exact .inl hnone
      · exact .inr ⟨ending, hending, hcopy⟩

theorem stem_file (h : Recorded codec directory record base row disk) :
    stem row.file = base := by
  have hstem : ∀ ending ∈ storedEndings, stem (base ++ ending) = base := by
    intro ending hending
    obtain ⟨rest, rfl⟩ := ending_dot ending (List.mem_append_left _ hending)
    exact stem_append h.named.dot_not_mem rest
  cases h.stored with
  | raw _ hfile => rw [hfile, hstem _ (by simp [storedEndings])]
  | zstd _ _ hfile => rw [hfile, hstem _ (by simp [storedEndings])]

end Loading

/-! ## Everything reads back -/

open EventState (plainCodec)

section ReadBack

variable {codec : Codec} {worker : Worker} {directory : Text}
  {table table' : EventTable} {rounds : List (Job × Processed)} {s s' : Watched}
  {zstd : Zstd} {disk : FileSystem} {entries : List Storage.Entry}

theorem nodup_files (hkept : ∀ entry ∈ entries, entry.Kept codec directory disk)
    (hapart : ApartBases entries) :
    (entries.map fun entry => (rowEntry entry.row).file).Nodup := by
  have hstems : (entries.map fun entry => entry.row.file).map stem =
      entries.map Entry.base := by
    rw [List.map_map]
    exact List.map_congr_left fun entry hentry => stem_file (hkept entry hentry)
  have hfiles : (entries.map fun entry => entry.row.file).Nodup :=
    List.Nodup.of_map stem (hstems ▸ hapart)
  have hencoded := hfiles.map encodeUtf8_injective
  rwa [List.map_map] at hencoded

theorem reads_of_prior (h : Prior codec directory entries disk)
    (hstamps : ∀ entry ∈ entries, InInt64 (timestampOf entry.record)) :
    readManifest disk directory =
        (entries.map fun entry => rowEntry entry.row, []) ∧
      ∀ entry ∈ entries, entry.Kept codec directory disk := by
  rcases h with ⟨rfl, hnone⟩ | hlisted
  · exact ⟨by rw [readManifest, hnone]; rfl, nofun⟩
  · refine ⟨readManifest_of_manifestBytes hlisted.manifest fun entry hentry => ?_,
      hlisted.kept⟩
    have hrow := rowOf_of_recorded (hlisted.kept entry hentry)
    exact ⟨hrow.clean, hrow.timestampNs ▸ hstamps entry hentry⟩

theorem manifest_of_rounds
    (hrounds : Rounds (WorkerEffect codec directory) worker table s rounds table' s')
    (hstart : s.disk.read? (manifestPath directory) = none)
    (hswept : s'.swept = false)
    (hok : ∀ outcome ∈ outcomesOf directory rounds, outcome.ok = true)
    (hstamps : ∀ record ∈ recordsOf directory rounds, InInt64 (timestampOf record)) :
    ∃ entries : List Storage.Entry, readManifest s'.disk directory =
        (entries.map fun entry => rowEntry entry.row, []) ∧
      persistedBy directory rounds = entries.length ∧
      entries.map Entry.record = recordsOf directory rounds ∧
      (∀ entry ∈ entries, entry.Kept codec directory s'.disk) ∧
      ApartBases entries := by
  obtain ⟨added, hprior, hcount, hrecords, hapart⟩ :=
    rounds_add hrounds hok hswept (.inl ⟨rfl, hstart⟩) List.nodup_nil
  rw [List.nil_append] at hprior hapart
  rw [← hrecords] at hstamps
  obtain ⟨hread, hkept⟩ := reads_of_prior hprior fun entry hentry =>
    hstamps _ (List.mem_map_of_mem hentry)
  exact ⟨added, hread, hcount, hrecords, hkept, hapart⟩

/--
The worker has reported every job of the directory as written.  The manifest
then reads without problems as one entry for each enabled record, in order.
-/
theorem records_read_back
    (hrounds : Rounds (WorkerEffect codec directory) worker table s rounds table' s')
    (hstart : s.disk.read? (manifestPath directory) = none)
    (hswept : s'.swept = false)
    (hok : ∀ outcome ∈ outcomesOf directory rounds, outcome.ok = true)
    (hstamps : ∀ record ∈ recordsOf directory rounds, InInt64 (timestampOf record))
    (hinverts : Inverts zstd codec) :
    (readManifest s'.disk directory).2 = [] ∧
      List.Forall₂ (ReadsBack zstd codec s'.disk directory)
        (recordsOf directory rounds) (readManifest s'.disk directory).1 ∧
      ((readManifest s'.disk directory).1.map ManifestEntry.file).Nodup := by
  obtain ⟨entries, hread, -, hrecords, hkept, hapart⟩ :=
    manifest_of_rounds hrounds hstart hswept hok hstamps
  rw [hread, ← hrecords]
  refine ⟨rfl, ?_, ?_⟩
  · rw [List.forall₂_map_left_iff, List.forall₂_map_right_iff, List.forall₂_same]
    exact fun entry hentry => readsBack_of_recorded hinverts (hkept entry hentry)
  · rw [List.map_map]
    exact nodup_files hkept hapart

end ReadBack

/-! ### One record twice -/

def compressingWorker : Worker := ⟨none, true, fun _ => Vector.replicate 32 0⟩

def compressedJob : Job :=
  { brakeJob with compressionEnabled := true, finalJob := false }

/-- Decodes what is stored as it is. -/
def identityZstd : Zstd where
  frameContentSize bytes := .known bytes.length
  decompress _ bytes := .ok bytes
  createDStream := false
  stream _ := []

theorem records_read_back_twice : ∃ first second table s',
    Rounds (WorkerEffect plainCodec brakeDirectory) compressingWorker .empty
      blankWatched [(compressedJob, first), (compressedJob, second)] table s' ∧
    List.Forall₂ (ReadsBack identityZstd plainCodec s'.disk brakeDirectory)
      (compressedJob.records ++ compressedJob.records)
      (readManifest s'.disk brakeDirectory).1 ∧
    ((readManifest s'.disk brakeDirectory).1.map ManifestEntry.file).Nodup := by
  have hrun : Prog.passes (Watched.respond plainCodec 0 brakeDirectory)
      (fun result s => result.2.outcome.ok && Prog.passes
        (Watched.respond plainCodec 0 brakeDirectory)
        (fun result s' => result.2.outcome.ok && !s'.swept)
        (processJob compressingWorker result.1 compressedJob) s)
      (processJob compressingWorker .empty compressedJob) blankWatched = true := by
    decide +kernel
  obtain ⟨⟨table₁, first⟩, s₁, hfirst, hcheck⟩ := watched_exec hrun
  rw [Bool.and_eq_true] at hcheck
  obtain ⟨⟨table, second⟩, s', hsecond, hchecked⟩ := watched_exec hcheck.2
  simp only [Bool.and_eq_true, Bool.not_eq_true'] at hchecked
  have hrounds : Rounds (WorkerEffect plainCodec brakeDirectory) compressingWorker
      .empty blankWatched [(compressedJob, first), (compressedJob, second)] table s' :=
    .cons hfirst (.cons hsecond (.nil _ _))
  have hok : ∀ outcome ∈ outcomesOf brakeDirectory
      [(compressedJob, first), (compressedJob, second)], outcome.ok = true := by
    simpa [outcomesOf, compressedJob, brakeJob] using ⟨hcheck.1, hchecked.1⟩
  have hstamps : ∀ record ∈ recordsOf brakeDirectory
      [(compressedJob, first), (compressedJob, second)],
      InInt64 (timestampOf record) := by
    intro record hrecord
    have hstamp : ∀ record ∈ compressedJob.records ++ compressedJob.records,
        InInt64 (timestampOf record) := by decide
    exact hstamp record hrecord
  obtain ⟨-, hreads, hfiles⟩ := records_read_back hrounds rfl hchecked.2 hok
    hstamps (⟨fun _ _ => rfl, fun _ _ => rfl⟩ : Inverts identityZstd plainCodec)
  exact ⟨first, second, table, s', hrounds, hreads, hfiles⟩

/-! ### Large records -/

/-- Incompressible records of a gibibyte: the encoder adds a byte to each. -/
def largeCodec : Codec where
  serialize _ := List.replicate (2 ^ 30) 0
  compress _ bytes := 0 :: bytes

def largeZstd : Zstd where
  frameContentSize bytes := .known bytes.tail.length
  decompress _ bytes := .ok bytes.tail
  createDStream := false
  stream _ := []

theorem length_serialize_large (record : SensorData) :
    (largeCodec.serialize record).length = 2 ^ 30 :=
  List.length_replicate

theorem length_compress_large (level : Int) (bytes : Bytes) :
    (largeCodec.compress level bytes).length = bytes.length + 1 :=
  List.length_cons

theorem inverts_large : Inverts largeZstd largeCodec := ⟨fun _ _ => rfl, fun _ _ => rfl⟩

theorem large_written : ∃ processed table s',
    Rounds (WorkerEffect largeCodec brakeDirectory) compressingWorker .empty
      blankWatched [(compressedJob, processed)] table s' ∧
    s'.swept = false ∧ processed.outcome.ok = true ∧
    (readManifest s'.disk brakeDirectory).1.map ManifestEntry.encoding =
      [ascii "zstd"] := by
  have hrun : Prog.passes (Watched.respond largeCodec 0 brakeDirectory)
      (fun result s' => !s'.swept && result.2.outcome.ok &&
        decide ((readManifest s'.disk brakeDirectory).1.map
          ManifestEntry.encoding = [ascii "zstd"]))
      (processJob compressingWorker .empty compressedJob) blankWatched = true := by
    decide +kernel
  obtain ⟨⟨table, processed⟩, s', hexec, hcheck⟩ := watched_exec hrun
  simp only [Bool.and_eq_true, Bool.not_eq_true', decide_eq_true_eq] at hcheck
  exact ⟨processed, table, s', .cons hexec (.nil _ _), hcheck.1.1, hcheck.1.2,
    hcheck.2⟩

/-- A record of a gibibyte may not be loaded again when it was compressed. -/
theorem large_record_unread :
    ¬∀ (codec : Codec) (zstd : Zstd) (worker : Worker) (directory : Text)
      (table table' : EventTable) (rounds : List (Job × Processed)) (s s' : Watched),
      Rounds (WorkerEffect codec directory) worker table s rounds table' s' →
      s.disk.read? (manifestPath directory) = none → s'.swept = false →
      (∀ outcome ∈ outcomesOf directory rounds, outcome.ok = true) →
      (∀ record ∈ recordsOf directory rounds, InInt64 (timestampOf record)) →
      Inverts zstd codec →
      List.Forall₂ (fun record entry =>
          (codec.serialize record).length ≤ kMaxRecordBytes →
          loadRecordBytes zstd s'.disk directory entry =
            .ok (codec.serialize record))
        (recordsOf directory rounds) (readManifest s'.disk directory).1 := by
  intro h
  obtain ⟨processed, table, s', hrounds, hswept, hok, hencodings⟩ := large_written
  have hstart : blankWatched.disk.read? (manifestPath brakeDirectory) = none := rfl
  have hrecords : recordsOf brakeDirectory [(compressedJob, processed)] =
      compressedJob.records := rfl
  have hoks : ∀ outcome ∈ outcomesOf brakeDirectory [(compressedJob, processed)],
      outcome.ok = true := by
    simpa [outcomesOf, compressedJob, brakeJob] using hok
  have hstamps : ∀ record ∈ recordsOf brakeDirectory [(compressedJob, processed)],
      InInt64 (timestampOf record) := by
    rw [hrecords]
    decide
  obtain ⟨entries, hread, -, hentries, hkept, -⟩ :=
    manifest_of_rounds hrounds hstart hswept hoks hstamps
  have hloads := h _ _ _ _ _ _ _ _ _ hrounds hstart hswept hoks hstamps inverts_large
  rw [hrecords] at hentries hloads
  rw [hread] at hencodings hloads
  have hlength : entries.length = 1 :=
    (List.length_map Entry.record).symm.trans (congrArg List.length hentries)
  obtain ⟨entry, rfl⟩ := List.length_eq_one_iff.mp hlength
  simp only [List.map_cons, List.map_nil, List.cons.injEq, and_true] at hencodings
  have hback := readsBack_of_recorded inverts_large (hkept entry (by simp))
  rcases hback.stored with ⟨hraw, -⟩ | ⟨-, level, hfile⟩
  · exact absurd (hraw.symm.trans hencodings) (by decide)
  · obtain ⟨hload, -⟩ := List.forall₂_cons.mp hloads
    refine loadRecordBytes_large hfile ?_ _ (hload ?_)
    · rw [length_compress_large, length_serialize_large]
      exact Nat.lt_succ_self _
    · exact (length_serialize_large _).le

end DataCache.RecordIo
