import DataCache.RecordIo.EventFiles
import DataCache.RecordIo.Export

/-!
# Verifying an event directory

`verifyEventDirectory` reads both manifests of a directory, loads each record,
deserialises it and compares its fields with its row.  It was written apart
from the worker; what the worker has completed it accepts.
-/

namespace DataCache.RecordIo

open DataCache.Foundation DataCache.Capture DataCache.Storage

/-! ## The verifier -/

structure VerificationReport where
  totalEntries : Nat
  verifiedEntries : Nat
  failedEntries : Nat
  problems : List Bytes
  warnings : List Bytes

def VerificationReport.ok (report : VerificationReport) : Bool :=
  decide (report.failedEntries = 0) && decide (report.totalEntries > 0) &&
    report.problems.isEmpty

def VerificationReport.fail (report : VerificationReport) (problem : Bytes) :
    VerificationReport :=
  { report with
    failedEntries := report.failedEntries + 1
    problems := report.problems ++ [problem] }

/-- The digest, compression and message libraries. -/
structure VerifyRuntime where
  sha256 : Bytes → Digest
  zstd : Zstd
  deserializeImage : Bytes → Except Bytes Image
  deserializeCloud : Bytes → Except Bytes PointCloud2

def isConsistentImage (image : Image) : Bool :=
  !(image.width = 0 || image.height = 0 || image.step = 0 ||
    image.encoding.isEmpty ||
    image.step.toNat * image.height.toNat > image.data.length)

def isConsistentCloud (cloud : PointCloud2) : Bool :=
  !(cloud.fields.isEmpty || cloud.pointStep = 0 ||
    cloud.width.toNat * cloud.height.toNat >
      cloud.data.length / cloud.pointStep.toNat)

/-- `none` when `rclcpp::Time` throws: it does not take a negative stamp. -/
def isStampedAs (stamp timestampNs : Int) : Option Bool :=
  if stamp < 0 then none else some (decide (stamp = timestampNs))

/-- Fields before the stamp; the text of the problem if they do not fit. -/
def checkFields (consistent : Bool) (stamp timestampNs : Int) (problem : Bytes) :
    Option (Option Bytes) :=
  if !consistent then some (some problem)
  else (isStampedAs stamp timestampNs).map fun same =>
    if same then none else some problem

/-- The problem with a loaded record, if any; `none` for an exception. -/
def checkRecord (runtime : VerifyRuntime) (entry : ManifestEntry)
    (bytes : Bytes) : Option (Option Bytes) :=
  if entry.sensor = ascii "camera" then
    match runtime.deserializeImage bytes with
    | .error error => some (some (ascii "deserialize failed: " ++ error))
    | .ok image => checkFields (isConsistentImage image) image.stamp
        entry.timestampNs (ascii "inconsistent image fields")
  else if entry.sensor = ascii "lidar" then
    match runtime.deserializeCloud bytes with
    | .error error => some (some (ascii "deserialize failed: " ++ error))
    | .ok cloud => checkFields (isConsistentCloud cloud) cloud.stamp
        entry.timestampNs (ascii "inconsistent point cloud fields")
  else some (some (ascii "unknown sensor '" ++ entry.sensor ++ ascii "'"))

def entryLabel (entry : ManifestEntry) : Bytes :=
  entry.sensor ++ ascii "@" ++ encodeUtf8 (showInt entry.timestampNs)

section Verifier

variable (runtime : VerifyRuntime) (disk : FileSystem) (directory : Text)
  (options : VerifyOptions)

def copyExists (file : Bytes) : Bool :=
  ((components file).mapM decodeUtf8?).any fun names =>
    disk.pathExists (directory :: names)

def copyWarnings (entry : ManifestEntry) : List Bytes :=
  if !entry.convertedFile.isEmpty && (!safeRelativePath entry.convertedFile ||
      !copyExists disk directory entry.convertedFile) then
    [entryLabel entry ++ ascii ": converted copy missing: " ++ entry.convertedFile]
  else []

def verifyEntry (entry : ManifestEntry) (report : VerificationReport) :
    Option VerificationReport :=
  let report := { report with totalEntries := report.totalEntries + 1 }
  let label := entryLabel entry ++ ascii ": "
  match loadRecordBytes runtime.zstd disk directory entry with
  | .error error => some (report.fail (label ++ error))
  | .ok bytes =>
      if bytes.isEmpty then some (report.fail (label ++ ascii "record is empty"))
      else
        (checkRecord runtime entry bytes).map fun problem =>
          match problem with
          | some problem => report.fail (label ++ problem)
          | none =>
              { report with
                verifiedEntries := report.verifiedEntries + 1
                warnings := report.warnings ++ copyWarnings disk directory entry }

def verifyLoop : List ManifestEntry → VerificationReport →
    Option VerificationReport
  | [], report => some report
  | entry :: rest, report =>
      if !isSelected options entry then verifyLoop rest report
      else if options.limit ≠ 0 ∧ report.totalEntries ≥ options.limit then
        some report
      else (verifyEntry runtime disk directory entry report).bind (verifyLoop rest)

/-- `tree` and `disk` are the directory as its two readers find it. -/
def verifyEventDirectory (tree : Tree) : Option VerificationReport :=
  let checksums := verifyChecksumManifest runtime.sha256 tree []
  let manifest := readManifest disk directory
  let report : VerificationReport :=
    ⟨0, 0, manifest.2.length, checksums.2 ++ manifest.2, []⟩
  if manifest.1.isEmpty then
    some { report with
      problems := report.problems ++
        [ascii "manifest.csv missing or has no entries"] }
  else verifyLoop runtime disk directory options manifest.1 report

end Verifier

/-- The traversal finds the regular files of the disk, and reads what they hold. -/
structure Seen (tree : Tree) (disk : FileSystem) (directory : Text) : Prop where
  files : ∀ path, path ∈ tree.files ↔ ∃ names,
    path = names.map encodeUtf8 ∧ disk.isFile (directory :: names) = true
  content : ∀ names : Path,
    tree.content (names.map encodeUtf8) = disk.read? (directory :: names)
  traversed : tree.traversed = true

/-! ## Records that pass -/

/-- CDR: a message is read back from its bytes, which start with a header. -/
structure Deserializes (runtime : VerifyRuntime) (codec : Codec)
    (record : SensorData) : Prop where
  image : ∀ timestamp image, record = .camera timestamp (some image) →
    runtime.deserializeImage (codec.serialize record) = .ok image
  cloud : ∀ timestamp cloud, record = .lidar timestamp (some cloud) →
    runtime.deserializeCloud (codec.serialize record) = .ok cloud
  header : codec.serialize record ≠ []

/-- The message has the record's stamp and passes the field checks. -/
def Consistent : SensorData → Prop
  | .camera timestamp image => ∃ message, image = some message ∧
      isConsistentImage message = true ∧ message.stamp = timestamp ∧ 0 ≤ timestamp
  | .lidar timestamp cloud => ∃ message, cloud = some message ∧
      isConsistentCloud message = true ∧ message.stamp = timestamp ∧ 0 ≤ timestamp

section Records

variable {runtime : VerifyRuntime} {codec : Codec} {disk : FileSystem}
  {directory : Text} {record : SensorData} {entry : ManifestEntry}

theorem checkFields_eq_none {timestampNs : Int} (hstamp : 0 ≤ timestampNs)
    (problem : Bytes) :
    checkFields true timestampNs timestampNs problem = some none := by
  simp [checkFields, isStampedAs, Int.not_lt.mpr hstamp]

theorem checkRecord_eq_none (hruntime : Deserializes runtime codec record)
    (hrecord : Consistent record)
    (hsensor : entry.sensor = encodeUtf8 (sensorPrefix record.type))
    (htimestamp : entry.timestampNs = timestampOf record) :
    checkRecord runtime entry (codec.serialize record) = some none := by
  cases record with
  | camera timestamp image =>
      obtain ⟨message, rfl, hconsistent, rfl, hstamp⟩ := hrecord
      have hcamera : entry.sensor = ascii "camera" := hsensor
      rw [checkRecord, if_pos hcamera, hruntime.image _ _ rfl]
      dsimp only
      rw [hconsistent, htimestamp]
      exact checkFields_eq_none hstamp _
  | lidar timestamp cloud =>
      obtain ⟨message, rfl, hconsistent, rfl, hstamp⟩ := hrecord
      have hlidar : entry.sensor = ascii "lidar" := hsensor
      have hcamera : ¬entry.sensor = ascii "camera" := by
        rw [hlidar]
        decide
      rw [checkRecord, if_neg hcamera, if_pos hlidar, hruntime.cloud _ _ rfl]
      dsimp only
      rw [hconsistent, htimestamp]
      exact checkFields_eq_none hstamp _

/-- The row of a record that can be loaded and passes its checks. -/
structure Verifiable (runtime : VerifyRuntime) (codec : Codec) (disk : FileSystem)
    (directory : Text) (record : SensorData) (entry : ManifestEntry) : Prop where
  loaded : loadRecordBytes runtime.zstd disk directory entry =
    .ok (codec.serialize record)
  nonempty : codec.serialize record ≠ []
  checked : checkRecord runtime entry (codec.serialize record) = some none

theorem Verifiable.verifyEntry
    (h : Verifiable runtime codec disk directory record entry)
    (report : VerificationReport) :
    ∃ warnings, RecordIo.verifyEntry runtime disk directory entry report =
      some { report with
        totalEntries := report.totalEntries + 1
        verifiedEntries := report.verifiedEntries + 1
        warnings } := by
  have hnonempty : (codec.serialize record).isEmpty = false := by
    simpa using h.nonempty
  refine ⟨report.warnings ++ copyWarnings disk directory entry, ?_⟩
  unfold RecordIo.verifyEntry
  simp [h.loaded, hnonempty, h.checked]

/-- A step that counts one entry adds up to a run that counts them all. -/
theorem verifyLoop_verifies {records : List SensorData}
    {entries : List ManifestEntry}
    (h : List.Forall₂ (Verifiable runtime codec disk directory) records entries)
    (report : VerificationReport) :
    ∃ warnings, verifyLoop runtime disk directory ⟨[], 0⟩ entries report =
      some { report with
        totalEntries := report.totalEntries + entries.length
        verifiedEntries := report.verifiedEntries + entries.length
        warnings } := by
  induction h generalizing report with
  | nil => exact ⟨report.warnings, rfl⟩
  | @cons record entry records entries hentry _ ih =>
      obtain ⟨warnings, hfirst⟩ := hentry.verifyEntry report
      obtain ⟨warnings', hrest⟩ := ih { report with
        totalEntries := report.totalEntries + 1
        verifiedEntries := report.verifiedEntries + 1
        warnings }
      refine ⟨warnings', ?_⟩
      have hselected : isSelected ⟨[], 0⟩ entry = true := rfl
      rw [verifyLoop, hselected, hfirst]
      simp only [Bool.not_true, Bool.false_eq_true, if_false, ne_eq,
        not_true_eq_false, false_and, Option.bind_some]
      rw [hrest, List.length_cons]
      dsimp only
      rw [Nat.add_right_comm, Nat.add_right_comm report.verifiedEntries]
      rfl

end Records

/-! ## What the worker has completed -/

section Completed

variable {codec : Codec} {worker : Worker} {directory : Text}
  {rounds : List (Job × Processed)} {s : Watched} {runtime : VerifyRuntime}
  {tree : Tree}

theorem manifest_of_completed
    (h : CompletedEvent codec worker directory rounds s)
    (hstamps : ∀ record ∈ recordsOf directory rounds, InInt64 (timestampOf record)) :
    ∃ entries : List Storage.Entry, readManifest s.disk directory =
        (entries.map fun entry => rowEntry entry.row, []) ∧
      persistedBy directory rounds = entries.length ∧
      entries.map Entry.record = recordsOf directory rounds ∧
      ∀ entry ∈ entries, entry.Kept codec directory s.disk := by
  obtain ⟨-, hok, -⟩ := h.ready
  cases h with
  | intro htable hbare habsent hrounds hjob hfinal hbefore hafter hcomplete hswept =>
    obtain ⟨entries, hread, hcount, hrecords, hkept, -⟩ := manifest_of_rounds hrounds
      (hbare.unstarted habsent).manifest hswept hok hstamps
    exact ⟨entries, hread, hcount, hrecords, hkept⟩

/-- No problem is found with the files of a completed event. -/
theorem verifyChecksumManifest_completed
    (h : CompletedEvent codec worker directory rounds s)
    (hseen : Seen tree s.disk directory) :
    (verifyChecksumManifest worker.sha256 tree []).2 = [] := by
  obtain ⟨⟨entries, hready⟩, -, -⟩ := h.ready
  obtain ⟨files, hfiles⟩ := hready.checksummed
  have hlistable : ∀ path ∈ files, Listable path := by
    intro path hpath
    obtain ⟨hcovered, hfile⟩ := (hfiles.mem path).mp hpath
    exact (h.eventFile (shown_of_covered hcovered) hfile).listable
  have hmanifest : (["manifest.csv"] : Path) ∈ files := by
    refine (hfiles.mem _).mpr ⟨by decide, ?_⟩
    rw [Disk.isFile, show s.disk.read? (directory :: ["manifest.csv"]) = _ from
      hready.listed.manifest]
    rfl
  have hsame : SameFiles worker.sha256 isChecked directory s.disk tree :=
    ⟨fun path _ => hseen.files path, fun names _ _ => by rw [hseen.content]⟩
  have haccepted : (verifyChecksumManifest worker.sha256 tree []).1 = true := by
    refine (verify_written (List.ne_nil_of_mem hmanifest) hfiles.nodup hlistable
      ?_ hseen.traversed).mpr ((sameFiles_iff hfiles.mem).mp hsame)
    exact (hseen.content ["manifest.sha256"]).trans hfiles.kept.read?
  unfold verifyChecksumManifest at haccepted ⊢
  cases hcontent : tree.content [ascii "manifest.sha256"] with
  | none =>
      rw [hcontent] at haccepted
      cases haccepted
  | some content =>
      rw [hcontent] at haccepted
      simp only [Bool.and_eq_true, List.isEmpty_iff] at haccepted
      exact haccepted.2

/--
The worker has put `.complete` into the directory.  Then the verifier finds no
problem in it, and verifies as many records as were stored.
-/
theorem completed_event_verifies
    (h : CompletedEvent codec worker directory rounds s)
    (hseen : Seen tree s.disk directory)
    (hsha256 : runtime.sha256 = worker.sha256)
    (hinverts : Inverts runtime.zstd codec)
    (hdeserializes : ∀ record ∈ recordsOf directory rounds,
      Deserializes runtime codec record)
    (hconsistent : ∀ record ∈ recordsOf directory rounds, Consistent record)
    (hstamps : ∀ record ∈ recordsOf directory rounds, InInt64 (timestampOf record))
    (hserialized : ∀ record ∈ recordsOf directory rounds,
      (codec.serialize record).length ≤ kMaxRecordBytes)
    (hstored : ∀ entry ∈ (readManifest s.disk directory).1, ∀ content,
      fileAt s.disk directory entry.file = some content →
      content.length ≤ kMaxRecordBytes) :
    ∃ report, verifyEventDirectory runtime s.disk directory ⟨[], 0⟩ tree =
        some report ∧
      report.ok = true ∧ report.verifiedEntries = persistedBy directory rounds := by
  have hchecksums := verifyChecksumManifest_completed h hseen
  obtain ⟨-, -, hpositive⟩ := h.ready
  obtain ⟨entries, hread, hcount, hrecords, hkept⟩ :=
    manifest_of_completed h hstamps
  have hverifiable : List.Forall₂ (Verifiable runtime codec s.disk directory)
      (entries.map Entry.record) (entries.map fun entry => rowEntry entry.row) := by
    rw [List.forall₂_map_left_iff, List.forall₂_map_right_iff, List.forall₂_same]
    intro entry hentry
    have hrecord : entry.record ∈ recordsOf directory rounds :=
      hrecords ▸ List.mem_map_of_mem hentry
    have hback := readsBack_of_recorded hinverts (hkept entry hentry)
    refine ⟨hback.loaded (hserialized _ hrecord) (hstored _ ?_),
      (hdeserializes _ hrecord).header, checkRecord_eq_none
        (hdeserializes _ hrecord) (hconsistent _ hrecord) hback.sensor
        hback.timestampNs⟩
    rw [hread]
    exact List.mem_map_of_mem hentry
  obtain ⟨warnings, hloop⟩ := verifyLoop_verifies hverifiable ⟨0, 0, 0, [], []⟩
  rw [hcount] at hpositive
  have hne : (entries.map fun entry => rowEntry entry.row).isEmpty = false := by
    simpa using List.ne_nil_of_length_pos hpositive
  simp only [Nat.zero_add, List.length_map] at hloop
  refine ⟨⟨entries.length, entries.length, 0, [], warnings⟩, ?_, ?_, hcount.symm⟩
  · unfold verifyEventDirectory
    simp only [hread, hsha256, hchecksums, hne]
    exact hloop
  · simpa [VerificationReport.ok] using hpositive

end Completed

/-! ### One record twice, the second time uncompressed -/

/-- The traversal of a disk whose names have no slash. -/
def treeOf (disk : FileSystem) (directory : Text)
    (named : ∀ path ∈ filesBelow disk [directory], path ≠ [] ∧
      ∀ name ∈ path, name ≠ [] ∧ '/' ∉ name) : Tree where
  files := (filesBelow disk [directory]).map (List.map encodeUtf8)
  nodup := (nodup_filesBelow _ _).map
    (List.map_injective_iff.mpr encodeUtf8_injective)
  named := by
    rw [List.forall_mem_map]
    intro path hpath
    obtain ⟨hne, hnames⟩ := named path hpath
    refine ⟨by simpa using hne, List.forall_mem_map.mpr fun name hname => ?_⟩
    rw [ne_eq, encodeUtf8_eq_nil, byteOf_mem_encodeUtf8 (by decide)]
    exact hnames name hname
  content path := (path.mapM decodeUtf8?).bind fun names =>
    disk.read? (directory :: names)
  traversed := true

theorem seen_treeOf {disk : FileSystem} {directory : Text}
    (named : ∀ path ∈ filesBelow disk [directory], path ≠ [] ∧
      ∀ name ∈ path, name ≠ [] ∧ '/' ∉ name) :
    Seen (treeOf disk directory named) disk directory where
  files path := by
    simp only [treeOf, List.mem_map, isFile_of_mem_filesBelow,
      List.singleton_append]
    exact exists_congr fun names => by rw [and_comm, eq_comm]
  content names := by
    have hdecode : decodeUtf8? ∘ encodeUtf8 = pure :=
      funext decodeUtf8?_encodeUtf8
    rw [treeOf]
    dsimp only
    rw [List.mapM_map, hdecode, List.mapM_pure, List.map_id']
    rfl
  traversed := rfl

/-- A header of four bytes before the data. -/
def headerCodec : Codec where
  serialize
    | .camera _ image => [0, 1, 0, 0] ++ image.elim [] Image.data
    | .lidar _ cloud => [0, 1, 0, 0] ++ cloud.elim [] PointCloud2.data
  compress _ bytes := bytes

def headerVerify : VerifyRuntime where
  sha256 := compressingWorker.sha256
  zstd := identityZstd
  deserializeImage bytes := .ok ⟨5, 1, 1, "mono8", 1, bytes.drop 4⟩
  deserializeCloud _ := .error []

theorem brake_completed : ∃ first second s,
    CompletedEvent headerCodec compressingWorker brakeDirectory
      [(compressedJob, first), (brakeJob, second)] s ∧
    (∀ path ∈ filesBelow s.disk [brakeDirectory], path ≠ [] ∧
      ∀ name ∈ path, name ≠ [] ∧ '/' ∉ name) ∧
    ∀ entry ∈ (readManifest s.disk brakeDirectory).1,
      ∀ content ∈ fileAt s.disk brakeDirectory entry.file,
        content.length ≤ kMaxRecordBytes := by
  have hrun : Prog.passes (Watched.respond headerCodec 0 brakeDirectory)
      (fun result s => Prog.passes
        (Watched.respond headerCodec 0 brakeDirectory)
        (fun _ s' => !s'.swept && s'.disk.isFile (completePath brakeDirectory) &&
          decide (∀ path ∈ filesBelow s'.disk [brakeDirectory], path ≠ [] ∧
            ∀ name ∈ path, name ≠ [] ∧ '/' ∉ name) &&
          decide (∀ entry ∈ (readManifest s'.disk brakeDirectory).1,
            ∀ content ∈ fileAt s'.disk brakeDirectory entry.file,
              content.length ≤ kMaxRecordBytes))
        (processJob compressingWorker result.1 brakeJob) s)
      (processJob compressingWorker .empty compressedJob) blankWatched = true := by
    decide +kernel
  obtain ⟨⟨table₁, first⟩, s₁, hfirst, hcheck⟩ := watched_exec hrun
  obtain ⟨⟨table, second⟩, s, hsecond, hchecked⟩ := watched_exec hcheck
  simp only [Bool.and_eq_true, Bool.not_eq_true', decide_eq_true_eq] at hchecked
  obtain ⟨⟨⟨hunswept, hcomplete⟩, hnames⟩, hsmall⟩ := hchecked
  have hrounds : Rounds (WorkerEffect headerCodec brakeDirectory) compressingWorker
      .empty blankWatched [(compressedJob, first), (brakeJob, second)] table s :=
    .cons hfirst (.cons hsecond (.nil _ _))
  refine ⟨first, second, s, ?_, hnames, hsmall⟩
  exact @CompletedEvent.intro _ _ _ _ _ _ _ [(compressedJob, first)] [] brakeJob
    second (Dict.get?_empty _) (fun _ _ => rfl) (unstarted_blank _).absent hrounds
    rfl rfl (by simp [compressedJob]) (by simp) hcomplete hunswept

theorem completed_event_verifies_twice : ∃ first second s tree report,
    CompletedEvent headerCodec compressingWorker brakeDirectory
      [(compressedJob, first), (brakeJob, second)] s ∧
    verifyEventDirectory headerVerify s.disk brakeDirectory ⟨[], 0⟩ tree =
      some report ∧ report.ok = true ∧
    report.verifiedEntries = persistedBy brakeDirectory
      [(compressedJob, first), (brakeJob, second)] := by
  obtain ⟨first, second, s, hcompleted, hnames, hsmall⟩ := brake_completed
  have hrecords : ∀ {P : SensorData → Prop}, P brakeImage → ∀ record ∈ recordsOf
      brakeDirectory [(compressedJob, first), (brakeJob, second)], P record := by
    intro P hbrake record hrecord
    have hsame : ∀ record ∈ compressedJob.records ++ brakeJob.records,
        record = brakeImage := by
      decide
    exact hsame record hrecord ▸ hbrake
  have hbrake : Deserializes headerVerify headerCodec brakeImage :=
    ⟨by rintro _ _ ⟨⟩; rfl, nofun, nofun⟩
  obtain ⟨report, hreport, hok, hcount⟩ := completed_event_verifies hcompleted
    (seen_treeOf hnames)
    (show headerVerify.sha256 = compressingWorker.sha256 from rfl)
    ⟨fun _ _ => rfl, fun _ _ => rfl⟩ (hrecords hbrake)
    (hrecords ⟨_, rfl, by decide, rfl, by decide⟩) (hrecords (by decide))
    (hrecords (by decide)) hsmall
  exact ⟨first, second, s, _, report, hcompleted, hreport, hok, hcount⟩

end DataCache.RecordIo
