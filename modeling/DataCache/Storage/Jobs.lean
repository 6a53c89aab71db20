import DataCache.Storage.Records

/-!
# Writing a job

While no job of an event has failed, its `manifest.csv` holds the header and
one row for each record stored so far, and the files of every row are kept.
-/

namespace DataCache.Storage

open DataCache.Foundation DataCache.Capture

/-! ## The manifest and its entries -/

/-- A stored record, the base name of its files and its row. -/
structure Entry where
  record : SensorData
  base : Text
  row : ManifestRow

abbrev Entry.Kept (codec : Codec) (directory : Text) (disk : FileSystem)
    (entry : Entry) : Prop :=
  Recorded codec directory entry.record entry.base entry.row disk

def manifestBytes (entries : List Entry) : Bytes :=
  encodeUtf8 (manifestHeader ++ entries.flatMap fun entry => renderRow entry.row)

theorem manifestBytes_concat (entries : List Entry) (entry : Entry) :
    manifestBytes (entries ++ [entry]) =
      manifestBytes entries ++ encodeUtf8 (renderRow entry.row) := by
  simp only [manifestBytes, List.flatMap_append, List.flatMap_cons,
    List.flatMap_nil, List.append_nil, encodeUtf8_append, List.append_assoc]

theorem manifestBytes_ne_nil (entries : List Entry) :
    manifestBytes entries ≠ [] := by
  rw [manifestBytes, encodeUtf8_append]
  exact fun h => absurd (List.append_eq_nil_iff.mp h).1 (by decide +kernel)

/-! ## Paths a job may change -/

def RecordsPath (directory : Text) (records : List SensorData) (path : Path) :
    Prop :=
  ∃ record ∈ records, ∃ base, IsBaseName record base ∧
    RecordPath directory record.type base path

def JobPath (directory : Text) (records : List SensorData) (path : Path) :
    Prop :=
  path <+: [directory] ∨ path = manifestPath directory ∨
    path = pairsPath directory ∨ RecordsPath directory records path

/-- Nothing of a record lies under these paths. -/
def Unrelated (touched : Path → Prop) : Prop :=
  ∀ path, touched path → 2 ≤ path.length → '_' ∉ stem (path.getLastD [])

theorem underscore_not_mem_convertedDirectory (type : SensorType) :
    '_' ∉ stem (convertedDirectory type) := by
  cases type <;> decide

theorem not_recordPath_child {directory name base : Text} {record : SensorData}
    {type : SensorType} (hbase : IsBaseName record base)
    (hname : '_' ∉ stem name) (hdir : ∀ type, name ≠ convertedDirectory type) :
    ¬RecordPath directory type base [directory, name] := by
  intro h
  rcases h.stem hbase.dot_not_mem with hstarts | hstem
  · exact hdir type (List.cons_prefix_cons.mp (List.cons_prefix_cons.mp hstarts).2).1
  · exact hname (show '_' ∈ stem name from
      (show stem name = base from hstem) ▸ hbase.underscore_mem)

theorem not_recordsPath_child {directory name : Text}
    {records : List SensorData} (hname : '_' ∉ stem name)
    (hdir : ∀ type, name ≠ convertedDirectory type) :
    ¬RecordsPath directory records [directory, name] := by
  rintro ⟨record, -, base, hbase, hpath⟩
  exact not_recordPath_child hbase hname hdir hpath

theorem unrelated_eq {directory name : Text} (hname : '_' ∉ stem name) :
    Unrelated fun path => path = [directory, name] := by
  rintro _ rfl -
  exact hname

section Entries

variable {codec : Codec} {directory : Text} {touched : Path → Prop}
  {s s' : Watched} {entry : Entry}

theorem Entry.Kept.of_unrelated (h : entry.Kept codec directory s.disk)
    (hframe : Frame directory touched s s') (hswept : s'.swept = false)
    (hunrelated : Unrelated touched) : entry.Kept codec directory s'.disk :=
  h.of_frame hframe hswept fun path _ hstem hlength htouched =>
    hunrelated path htouched hlength (hstem ▸ h.named.underscore_mem)

theorem Stored.not_fresh {record : SensorData} {base : Text}
    {row : ManifestRow} (h : Stored codec directory record base row s.disk) :
    ¬Fresh directory base s := by
  intro hfresh
  have habsent : ∀ {ending : Text} {data : Bytes}, ending ∈ storedEndings →
      ¬Storage.Kept [directory, base ++ ending] data s.disk := by
    intro ending data hending hkept
    obtain ⟨inode, hnode⟩ := hkept.file
    rw [hfresh ending hending] at hnode
    cases hnode
  cases h with
  | raw _ _ hkept => exact habsent (by simp [storedEndings]) hkept
  | zstd _ _ _ hkept => exact habsent (by simp [storedEndings]) hkept

/-- Files of one base name are none of another record's paths. -/
theorem not_recordPath_of_stem {record : SensorData} {base other : Text}
    {type : SensorType} {path : Path} (hbase : IsBaseName record base)
    (hother : '_' ∈ other) (hne : other ≠ base)
    (hstem : stem (path.getLastD []) = other) (hlength : 2 ≤ path.length) :
    ¬RecordPath directory type base path := by
  intro htouched
  rcases htouched.stem hbase.dot_not_mem with hstarts | hstem'
  · have hpath : path = [directory, convertedDirectory type] :=
      hstarts.eq_of_length_le hlength
    refine underscore_not_mem_convertedDirectory type ?_
    have heq : stem (convertedDirectory type) = other := by
      rw [hpath] at hstem
      exact hstem
    rw [heq]
    exact hother
  · exact hne (hstem.symm.trans hstem')

/-- Another record takes a fresh base name and leaves earlier files alone. -/
theorem Entry.Kept.of_record (h : entry.Kept codec directory s.disk)
    {record : SensorData} {base : Text} (hbase : IsBaseName record base)
    (hfresh : Fresh directory base s)
    (hframe : Frame directory (RecordPath directory record.type base) s s')
    (hswept : s'.swept = false) : entry.Kept codec directory s'.disk := by
  have hne : entry.base ≠ base := fun heq => h.stored.not_fresh (heq ▸ hfresh)
  exact h.of_frame hframe hswept fun path _ hstem hlength =>
    not_recordPath_of_stem hbase h.named.underscore_mem hne hstem hlength

end Entries

/-! ## The records of a job -/

section Job

variable {codec : Codec} {s : Watched} (worker : Worker) (job : Job)

/-- What stays true of the open manifest while no record has failed. -/
structure Writing (codec : Codec) (directory : Text) (entries : List Entry)
    (manifest : Stream) (s : Watched) : Prop where
  holds : manifest.Holds (manifestPath directory) (manifestBytes entries) s
  kept : ∀ entry ∈ entries, entry.Kept codec directory s.disk

theorem Writing.of_record {directory : Text} {entries : List Entry}
    {manifest : Stream} {s' : Watched}
    (h : Writing codec directory entries manifest s) {record : SensorData}
    {base : Text} (hbase : IsBaseName record base)
    (hfresh : Fresh directory base s)
    (hframe : Frame directory (RecordPath directory record.type base) s s')
    (hswept : s'.swept = false) :
    Writing codec directory entries manifest s' where
  holds := h.holds.of_sameAt (hframe.same hswept _ (owned_manifest directory)
    (not_recordPath_child hbase (by decide) (by rintro (_ | _) <;> decide)))
  kept entry hentry := (h.kept entry hentry).of_record hbase hfresh hframe hswept

/-- No two entries share the base name of their files. -/
def ApartBases (entries : List Entry) : Prop := (entries.map Entry.base).Nodup

theorem ApartBases.concat {directory : Text} {entries : List Entry}
    (h : ApartBases entries)
    (hkept : ∀ entry ∈ entries, entry.Kept codec directory s.disk)
    {base : Text} (hfresh : Fresh directory base s) {record : SensorData}
    {row : ManifestRow} : ApartBases (entries ++ [⟨record, base, row⟩]) := by
  rw [ApartBases, List.map_append, List.nodup_append]
  refine ⟨h, List.nodup_singleton _, ?_⟩
  rintro _ hmem _ hlast rfl
  obtain ⟨entry, hentry, heq⟩ := List.mem_map.mp hmem
  refine (hkept entry hentry).stored.not_fresh ?_
  rw [heq, List.mem_singleton.mp hlast]
  exact hfresh

/-- What a loop over records has added when it ends without a failure. -/
def Added (codec : Codec) (job : Job) (records : List SensorData)
    (entries : List Entry) (outcome : JobOutcome)
    (result : Stream × JobOutcome) (s : Watched) : Prop :=
  result.2.ok = true → outcome.ok = true ∧ ∃ added,
    Writing codec job.directory (entries ++ added) result.1 s ∧
    result.2.persistedRecords = outcome.persistedRecords + added.length ∧
    added.map Entry.record = records.filter (enabled job) ∧
    (ApartBases entries → ApartBases (entries ++ added))

section Added

variable {job : Job} {record : SensorData} {records : List SensorData}
  {entries : List Entry} {outcome : JobOutcome} {result : Stream × JobOutcome}

theorem Added.of_failed {outcome' : JobOutcome}
    (h : Added codec job records entries outcome' result s)
    (hok : outcome'.ok = false) {records' : List SensorData}
    {entries' : List Entry} :
    Added codec job records' entries' outcome result s := by
  intro hresult
  have hcontra := (h hresult).1
  rw [hok] at hcontra
  cases hcontra

theorem Added.skip (h : Added codec job records entries outcome result s)
    (hdisabled : enabled job record = false) :
    Added codec job (record :: records) entries outcome result s := by
  intro hresult
  obtain ⟨hok, added, hwriting, hcount, hrecords, hapart⟩ := h hresult
  exact ⟨hok, added, hwriting, hcount, by simpa [hdisabled] using hrecords, hapart⟩

theorem Added.cons (entry : Entry) (henabled : enabled job entry.record = true)
    (hfresh : ApartBases entries → ApartBases (entries ++ [entry]))
    (h : Added codec job records (entries ++ [entry])
      { outcome with persistedRecords := outcome.persistedRecords + 1 } result s) :
    Added codec job (entry.record :: records) entries outcome result s := by
  intro hresult
  obtain ⟨hok, added, hwriting, hcount, hrecords, hapart⟩ := h hresult
  rw [List.append_assoc] at hwriting hapart
  refine ⟨hok, entry :: added, hwriting, ?_, by simp [henabled, hrecords],
    fun h => hapart (hfresh h)⟩
  rw [hcount, List.length_cons]
  dsimp only
  omega

end Added

def StreamPath (directory : Text) (records : List SensorData) (path : Path) :
    Prop :=
  path = manifestPath directory ∨ RecordsPath directory records path

theorem StreamPath.cons {directory : Text} {record : SensorData}
    {records : List SensorData} {path : Path}
    (h : StreamPath directory records path) :
    StreamPath directory (record :: records) path :=
  h.imp_right fun ⟨other, hother, hpath⟩ =>
    ⟨other, List.mem_cons_of_mem _ hother, hpath⟩

theorem writeRecords_does :
    ∀ (records : List SensorData) {entries : List Entry} {manifest : Stream}
      {outcome : JobOutcome} {s : Watched},
      Writing codec job.directory entries manifest s →
      Does codec job.directory (StreamPath job.directory records)
        (writeRecords worker job records manifest outcome) s
        (Added codec job records entries outcome)
  | [], entries, manifest, outcome, s, hwriting => by
      refine Does.pure fun _ hok => ⟨hok, [], ?_, rfl, rfl, ?_⟩ <;>
        rw [List.append_nil]
      · exact hwriting
      · exact id
  | record :: rest, entries, manifest, outcome, s, hwriting => by
      have howned := owned_manifest job.directory
      unfold writeRecords
      split
      next hdisabled =>
        exact ((writeRecords_does rest hwriting).mono fun _ _ _ _ h =>
          h.skip (by simpa using hdisabled)).widen fun _ => StreamPath.cons
      next henabled =>
      refine Does.bind (Does.catchError ((writeRecord_does worker job record).widen
        fun path hpath => .inr ⟨record, List.mem_cons_self, hpath⟩) ?_) ?_
      · intro error s₁ _ _
        refine Does.bind (Does.of_uses (Stream.close_uses (fun data all =>
          confined_of (fun _ => FsOp.noConfusion) fun _ h => .inl h) manifest))
            fun _ _ _ _ _ => Does.raise
      rintro written s₁ hswept₁ - ⟨base, hbase, hfresh, hframe, hrow⟩
      have hwriting₁ := hwriting.of_record hbase hfresh hframe hswept₁
      cases written with
      | none =>
          exact ((writeRecords_does rest hwriting₁).mono
            fun _ _ _ _ h => h.of_failed rfl).widen fun _ => StreamPath.cons
      | some row =>
          refine Does.bind ((Stream.put_does howned hwriting₁.holds
            (encodeUtf8 (renderRow row))).within fun _ h => .inl h)
            fun manifest₂ s₂ hswept₂ _ hput => ?_
          obtain ⟨hholds, hframe₂⟩ := hput
          have hwriting₂ : Writing codec job.directory
              (entries ++ [⟨record, base, row⟩]) manifest₂ s₂ := by
            refine ⟨manifestBytes_concat _ _ ▸ hholds, fun entry hentry => ?_⟩
            refine Entry.Kept.of_unrelated ?_ hframe₂ hswept₂
              (unrelated_eq (by decide))
            rcases List.mem_append.mp hentry with hentry | hentry
            · exact hwriting₁.kept entry hentry
            · rw [List.mem_singleton.mp hentry]
              exact hrow row rfl
          split
          · exact Does.pure fun _ hfalse => absurd hfalse Bool.false_ne_true
          · refine ((writeRecords_does rest hwriting₂).mono fun _ _ _ _ =>
              Added.cons ⟨record, base, row⟩ (by simpa using henabled) fun hapart =>
                hapart.concat hwriting.kept hfresh).widen fun _ => StreamPath.cons

/-! ## Flushing and syncing -/

/-- The lists and files of an event none of whose jobs has failed. -/
structure Listed (codec : Codec) (directory : Text) (entries : List Entry)
    (disk : FileSystem) : Prop where
  manifest : disk.read? (manifestPath directory) = some (manifestBytes entries)
  kept : ∀ entry ∈ entries, entry.Kept codec directory disk

theorem Listed.of_frame {directory : Text} {touched : Path → Prop}
    {entries : List Entry} {s' : Watched}
    (h : Listed codec directory entries s.disk)
    (hframe : Frame directory touched s s') (hswept : s'.swept = false)
    (hmanifest : ¬touched (manifestPath directory))
    (hunrelated : Unrelated touched) :
    Listed codec directory entries s'.disk where
  manifest := (hframe.same hswept _ (owned_manifest directory) hmanifest).read?.trans
    h.manifest
  kept entry hentry := (h.kept entry hentry).of_unrelated hframe hswept hunrelated

theorem closeManifest_does {entries : List Entry} {manifest : Stream}
    {outcome : JobOutcome}
    (h : Writing codec job.directory entries manifest s) :
    Does codec job.directory (fun path => path = manifestPath job.directory)
      (closeManifest job.directory manifest outcome) s fun outcome' s' =>
        outcome'.ok = true → outcome' = outcome ∧
          Listed codec job.directory entries s'.disk := by
  refine Does.bind ((Stream.flush_does (owned_manifest job.directory)
    h.holds).within fun _ h => h) fun flushed s₁ hswept₁ _ hflushed => ?_
  obtain ⟨hflushed, hframe₁⟩ := hflushed
  have hclose : Does codec job.directory
      (fun path => path = manifestPath job.directory)
      (flushed.close (manifestPath job.directory)) s₁
      fun _ s₂ => flushed.good = true → s₂.disk = s₁.disk :=
    Stream.close_does rfl fun hgood => (hflushed hgood).2
  refine Does.bind (hclose.within fun _ h => h) fun _ s₂ hswept₂ _ hclosed => ?_
  obtain ⟨hclosed, hframe₂⟩ := hclosed
  refine Does.pure fun _ hok => ?_
  cases hgood : flushed.good with
  | false =>
      rw [hgood] at hok
      cases hok
  | true =>
      refine ⟨rfl, ?_, fun entry hentry => ?_⟩
      · rw [hclosed hgood]
        exact (hflushed hgood).1
      · exact (h.kept entry hentry).of_unrelated (hframe₁.trans hframe₂) hswept₂
          (unrelated_eq (by decide))

/-- A failure before the manifest is closed stays one. -/
theorem closeManifest_failed {manifest : Stream} {outcome : JobOutcome}
    (h : outcome.ok = false) :
    Does codec job.directory (fun path => path = manifestPath job.directory)
      (closeManifest job.directory manifest outcome) s
      fun outcome' _ => outcome'.ok = false := by
  have hspill : ∀ data all, Confined job.directory
      (fun path => path = manifestPath job.directory)
      (.spill (manifestPath job.directory) data all) := fun _ _ =>
    confined_of nofun fun _ h => h
  refine Does.bind (Does.of_uses (Stream.flush_uses hspill manifest))
    fun flushed _ _ _ _ => ?_
  refine Does.bind (Does.of_uses (Stream.close_uses hspill flushed))
    fun _ _ _ _ _ => Does.pure fun _ => ?_
  split
  · exact h
  · rfl

/-- A file found under the path has synced bytes. -/
def Synced (path : Path) (disk : FileSystem) : Prop :=
  ∀ inode content synced,
    disk.node? path = some (.file inode content synced) → synced = true

theorem Synced.of_sameAt {path : Path} {disk disk' : FileSystem}
    (h : Synced path disk) (hsame : Disk.SameAt path disk disk') :
    Synced path disk' := fun inode content synced hnode =>
  h inode content synced (hsame.node ▸ hnode)

structure SyncedLists (directory : Text) (disk : FileSystem) : Prop where
  manifest : Synced (manifestPath directory) disk
  pairs : Synced (pairsPath directory) disk

theorem WorkerEffect.synced {directory : Text} {s' : Watched} {path : Path}
    {r : Unit} (howned : Owned directory path)
    (h : WorkerEffect codec directory s (.syncFile path) r s') :
    Synced path s'.disk := by
  intro inode content synced hnode
  cases hread : s.disk.read? path with
  | some content' =>
      obtain ⟨inode', hsynced⟩ := h.syncFile howned hread
      rw [hnode] at hsynced
      cases hsynced
      rfl
  | none =>
      obtain ⟨before, during, hbefore, heffect, hafter⟩ := h.at howned
      cases heffect
      have hread' := Disk.read?_of_node? hnode
      rw [hafter.read?, Store.setDisk, Disk.read?_syncFile, hbefore.read?,
        hread] at hread'
      cases hread'

def ListPath (directory : Text) (path : Path) : Prop :=
  path = manifestPath directory ∨ path = pairsPath directory

theorem Listed.syncManifest {directory : Text} {entries : List Entry}
    {s' : Watched} {r : Unit} (h : Listed codec directory entries s.disk)
    (hsync : WorkerEffect codec directory s
      (.syncFile (manifestPath directory)) r s') (hswept : s'.swept = false) :
    Listed codec directory entries s'.disk := by
  have hframe : Frame directory (fun path => path = manifestPath directory) s s' :=
    hsync.frame (confined_of nofun fun _ h => h)
  obtain ⟨inode, hnode⟩ := hsync.syncFile (owned_manifest directory) h.manifest
  exact ⟨Disk.read?_of_node? hnode, fun entry hentry =>
    (h.kept entry hentry).of_unrelated hframe hswept (unrelated_eq (by decide))⟩

theorem manifestPath_ne_pairsPath (directory : Text) :
    manifestPath directory ≠ pairsPath directory := by
  simp [manifestPath, pairsPath]

theorem syncLists_does {entries : List Entry} {outcome : JobOutcome}
    (h : outcome.ok = true → Listed codec job.directory entries s.disk) :
    Does codec job.directory (ListPath job.directory) (syncLists job outcome) s
      fun outcome' s' => outcome' = outcome ∧ (outcome.ok = true →
        Listed codec job.directory entries s'.disk ∧
        (job.finalJob = true → SyncedLists job.directory s'.disk)) := by
  unfold syncLists
  split
  next hskip =>
    refine Does.pure fun _ => ⟨rfl, fun hok => ⟨h hok, fun hfinal => ?_⟩⟩
    simp [hok, hfinal] at hskip
  next hsync =>
    have hok : outcome.ok = true := by
      cases hok : outcome.ok
      · simp [hok] at hsync
      · rfl
    have hmanifest := owned_manifest job.directory
    have hpairs := owned_pairs job.directory
    have hne := manifestPath_ne_pairsPath job.directory
    refine Does.perform (confined_of nofun fun _ h => .inl h)
      fun _ s₁ hsync₁ hswept₁ _ => ?_
    have hlisted₁ := (h hok).syncManifest hsync₁ hswept₁
    have hsynced₁ := hsync₁.synced hmanifest
    refine Does.bind ((existsOrThrow_does hpairs).within fun _ => False.elim)
      fun found s₂ hswept₂ _ hfound => ?_
    obtain ⟨hfound, hframe₂⟩ := hfound
    have hlisted₂ := hlisted₁.of_frame hframe₂ hswept₂ id fun _ => False.elim
    have hsynced₂ := hsynced₁.of_sameAt (hframe₂.same hswept₂ _ hmanifest id)
    cases found with
    | false =>
        refine Does.pure fun _ => ⟨rfl, fun _ => ⟨hlisted₂, fun _ => ⟨hsynced₂, ?_⟩⟩⟩
        intro inode content synced hnode
        rw [(hframe₂.same hswept₂ _ hpairs id).node] at hnode
        rw [hnode] at hfound
        cases hfound
    | true =>
        refine Does.perform (confined_of nofun fun _ h => .inr h)
          fun _ s₃ hsync₃ hswept₃ _ => Does.pure fun _ => ⟨rfl, fun _ => ?_⟩
        have hframe₃ : Frame job.directory
            (fun path => path = pairsPath job.directory) s₂ s₃ :=
          hsync₃.frame (confined_of nofun fun _ h => h)
        exact ⟨hlisted₂.of_frame hframe₃ hswept₃ hne (unrelated_eq (by decide)),
          fun _ => ⟨hsynced₂.of_sameAt (hframe₃.same hswept₃ _ hmanifest hne),
            hsync₃.synced hpairs⟩⟩

/-! ## Whole jobs -/

/-- Nothing is listed before the first job of an event. -/
def Prior (codec : Codec) (directory : Text) (entries : List Entry)
    (disk : FileSystem) : Prop :=
  (entries = [] ∧ disk.read? (manifestPath directory) = none) ∨
    Listed codec directory entries disk

/-- What a job that has not failed adds to the event. -/
def Appended (codec : Codec) (job : Job) (entries : List Entry)
    (persistedRecords : Nat) (disk : FileSystem) : Prop :=
  ∃ added, Listed codec job.directory (entries ++ added) disk ∧
    persistedRecords = added.length ∧
    added.map Entry.record = job.records.filter (enabled job) ∧
    (ApartBases entries → ApartBases (entries ++ added)) ∧
    (job.finalJob = true → SyncedLists job.directory disk)

def Wrote (codec : Codec) (job : Job) (entries : List Entry)
    (outcome : JobOutcome) (s : Watched) : Prop :=
  outcome.ok = true → s.disk.isDir [job.directory] = true ∧
    Appended codec job entries outcome.persistedRecords s.disk

theorem Prior.of_frame {directory : Text} {touched : Path → Prop}
    {entries : List Entry} {s' : Watched}
    (h : Prior codec directory entries s.disk)
    (hframe : Frame directory touched s s') (hswept : s'.swept = false)
    (hmanifest : ¬touched (manifestPath directory))
    (hunrelated : Unrelated touched) :
    Prior codec directory entries s'.disk := by
  rcases h with ⟨hentries, hnone⟩ | hlisted
  · exact .inl ⟨hentries, (hframe.same hswept _ (owned_manifest directory)
      hmanifest).read?.trans hnone⟩
  · exact .inr (hlisted.of_frame hframe hswept hmanifest hunrelated)

/-- The content a stream starts from, with the header it writes itself. -/
theorem Prior.opened {directory : Text} {entries : List Entry} {s' : Watched}
    {position : Nat} (h : Prior codec directory entries s.disk)
    (hopen : WorkerEffect codec directory s
      (.openAppend (manifestPath directory)) (some position) s')
    (hswept : s'.swept = false) : ∃ content,
      s'.disk.read? (manifestPath directory) = some content ∧
      position = content.length ∧
      (if content = [] then encodeUtf8 manifestHeader else content) =
        manifestBytes entries ∧
      ∀ entry ∈ entries, entry.Kept codec directory s'.disk := by
  obtain ⟨hposition, hread⟩ := hopen.openAppend (owned_manifest directory)
  refine ⟨_, hread, hposition, ?_⟩
  rcases h with ⟨rfl, hnone⟩ | hlisted
  · refine ⟨?_, nofun⟩
    rw [hnone, Option.getD_none, if_pos rfl, manifestBytes, List.flatMap_nil,
      List.append_nil]
  · refine ⟨?_, fun entry hentry => ?_⟩
    · rw [hlisted.manifest, Option.getD_some, if_neg (manifestBytes_ne_nil entries)]
    · have hframe : Frame directory (fun path => path = manifestPath directory)
          s s' := hopen.frame (confined_of nofun fun _ h => h)
      exact (hlisted.kept entry hentry).of_unrelated hframe hswept
        (unrelated_eq (by decide))

theorem writePairs_does {directory : Text} (pairs : List PairRecord) :
    Does codec directory (fun path => path = pairsPath directory)
      (writePairs directory pairs) s fun _ _ => True :=
  Does.of_uses (writePairs_uses (confined_of nofun fun _ h => h)
    (fun _ _ => confined_of nofun fun _ h => h) pairs)

theorem Writing.of_pairs {directory : Text} {entries : List Entry}
    {manifest : Stream} {s' : Watched}
    (h : Writing codec directory entries manifest s)
    (hframe : Frame directory (fun path => path = pairsPath directory) s s')
    (hswept : s'.swept = false) :
    Writing codec directory entries manifest s' where
  holds := h.holds.of_sameAt (hframe.same hswept _ (owned_manifest directory)
    (manifestPath_ne_pairsPath directory))
  kept entry hentry := (h.kept entry hentry).of_unrelated hframe hswept
    (unrelated_eq (by decide))

theorem writeOpened_does {entries : List Entry} {content : Bytes}
    {position : Nat}
    (hread : s.disk.read? (manifestPath job.directory) = some content)
    (hposition : position = content.length)
    (hcontent : (if content = [] then encodeUtf8 manifestHeader else content) =
      manifestBytes entries)
    (hkept : ∀ entry ∈ entries, entry.Kept codec job.directory s.disk) :
    Does codec job.directory (JobPath job.directory job.records)
      (writeOpened worker job position) s fun outcome s' => outcome.ok = true →
        Appended codec job entries outcome.persistedRecords s'.disk := by
  have howned := owned_manifest job.directory
  refine Does.bind ((Stream.start_does manifestHeader howned hread
    hposition).within fun _ h => .inr (.inl h)) fun manifest s₁ hswept₁ _ hstart => ?_
  obtain ⟨hholds, hframe₁⟩ := hstart
  have hwriting₁ : Writing codec job.directory entries manifest s₁ :=
    ⟨hcontent ▸ hholds, fun entry hentry => (hkept entry hentry).of_unrelated
      hframe₁ hswept₁ (unrelated_eq (by decide))⟩
  refine Does.bind ((writePairs_does job.pairs).within fun _ h =>
    .inr (.inr (.inl h))) fun paired s₂ hswept₂ _ hpaired => ?_
  have hwriting₂ := hwriting₁.of_pairs hpaired.2 hswept₂
  refine Does.bind ((writeRecords_does worker job job.records
    hwriting₂).widen fun _ h => h.elim (fun h => .inr (.inl h))
      fun h => .inr (.inr (.inr h))) ?_
  rintro ⟨written, outcome⟩ s₃ hswept₃ - hadded
  cases hok : outcome.ok with
  | false =>
      refine Does.bind ((closeManifest_failed job hok).widen fun _ h =>
        .inr (.inl h)) fun outcome' s₄ hswept₄ _ hclosed => ?_
      refine ((@syncLists_does codec s₄ job entries outcome' ?_).widen fun _ h =>
        h.elim (fun h => .inr (.inl h)) fun h => .inr (.inr (.inl h))).mono ?_
      · rw [hclosed]
        nofun
      · rintro _ s₅ - - ⟨rfl, -⟩ hok'
        rw [hclosed] at hok'
        cases hok'
  | true =>
      obtain ⟨hpaired, added, hwriting₃, hcount, hrecords, hapart⟩ := hadded hok
      refine Does.bind ((closeManifest_does job hwriting₃).widen fun _ h =>
        .inr (.inl h)) fun outcome' s₄ hswept₄ _ hclosed => ?_
      refine ((syncLists_does job fun hok' => (hclosed hok').2).widen fun _ h =>
        h.elim (fun h => .inr (.inl h)) fun h => .inr (.inr (.inl h))).mono ?_
      rintro _ s₅ hswept₅ - ⟨rfl, hsynced⟩ hok'
      obtain ⟨hlisted, hfinal⟩ := hsynced hok'
      refine ⟨added, hlisted, ?_, hrecords, hapart, hfinal⟩
      rw [(hclosed hok').1, hcount]
      split <;> exact Nat.zero_add _

theorem hasSpace_does (directory : Text) :
    Does codec directory (fun _ => False) (hasSpace worker) s
      fun _ _ => True :=
  Does.of_uses (Prog.uses_mono (fun _ h => h.confined directory)
    (hasSpace_uses worker))

theorem wrote_of_not_ok {entries : List Entry} {count : Nat} {reason : Text} :
    Wrote codec job entries ⟨false, count, reason⟩ s :=
  nofun

theorem unrelated_directory (directory : Text) :
    Unrelated fun path => path <+: [directory] := by
  intro path hstarts hlength
  have hshort : path.length ≤ 1 := hstarts.length_le
  omega

theorem writeJob_does {entries : List Entry}
    (h : Prior codec job.directory entries s.disk) :
    Does codec job.directory (JobPath job.directory job.records)
      (writeJob worker job) s (Wrote codec job entries) := by
  refine Does.bind ((hasSpace_does worker job.directory).within
    fun _ => False.elim) fun space s₁ hswept₁ _ hspace => ?_
  have hprior₁ := h.of_frame hspace.2 hswept₁ id fun _ => False.elim
  cases space with
  | false => exact Does.pure fun _ => wrote_of_not_ok job
  | true =>
      refine Does.perform (confined_of nofun fun _ h => .inl h)
        fun created s₂ hcreate hswept₂ _ => ?_
      have hframe₂ : Frame job.directory (fun path => path <+: [job.directory])
          s₁ s₂ := hcreate.frame (confined_of nofun fun _ h => h)
      have hprior₂ := hprior₁.of_frame hframe₂ hswept₂
        (fun hstarts => absurd hstarts.length_le (by simp [manifestPath]))
        (unrelated_directory job.directory)
      cases created with
      | false => exact Does.pure fun _ => wrote_of_not_ok job
      | true =>
          refine Does.perform (confined_of nofun fun _ h => .inr (.inl h))
            fun opened s₃ hopen hswept₃ _ => ?_
          cases opened with
          | none => exact Does.pure fun _ => wrote_of_not_ok job
          | some position =>
              obtain ⟨content, hread, hposition, hcontent, hkept⟩ :=
                hprior₂.opened hopen hswept₃
              have hframe₃ : Frame job.directory
                  (fun path => path = manifestPath job.directory) s₂ s₃ :=
                hopen.frame (confined_of nofun fun _ h => h)
              have howned := owned_directory job.directory
              have hdir₃ := hframe₃.isDir hswept₃ howned
                (hcreate.createDirectories howned)
              exact (writeOpened_does worker job hread hposition hcontent
                hkept).mono fun _ _ hswept hframe h hok =>
                  ⟨hframe.isDir hswept howned hdir₃, h hok⟩

theorem writeGuarded_does {entries : List Entry}
    (h : Prior codec job.directory entries s.disk) :
    Does codec job.directory (JobPath job.directory job.records)
      (writeGuarded worker job) s (Wrote codec job entries) :=
  (writeJob_does worker job h).catchError fun _ _ _ _ =>
    Does.pure fun _ => wrote_of_not_ok job

/-! ## What a job may change in any case -/

theorem writeRecords_touches :
    ∀ (records : List SensorData) {manifest : Stream} {outcome : JobOutcome}
      {s : Watched}, Does codec job.directory (StreamPath job.directory records)
        (writeRecords worker job records manifest outcome) s fun _ _ => True
  | [], _, _, _ => Does.pure fun _ => trivial
  | record :: rest, manifest, outcome, s => by
      have hrest : ∀ {manifest : Stream} {outcome : JobOutcome} {s : Watched},
          Does codec job.directory (StreamPath job.directory (record :: rest))
            (writeRecords worker job rest manifest outcome) s fun _ _ => True :=
        (writeRecords_touches rest).widen fun _ => StreamPath.cons
      have hspill : ∀ data all, Confined job.directory
          (StreamPath job.directory (record :: rest))
          (.spill (manifestPath job.directory) data all) := fun _ _ =>
        confined_of (fun _ => FsOp.noConfusion) fun _ h => .inl h
      unfold writeRecords
      split
      · exact hrest
      refine Does.bind (Does.catchError (((writeRecord_does worker job record).mono
        fun _ _ _ _ _ => trivial).widen fun path hpath =>
          .inr ⟨record, List.mem_cons_self, hpath⟩) fun error s₁ _ _ => ?_) ?_
      · exact Does.bind (Does.of_uses (Stream.close_uses hspill manifest))
          fun _ _ _ _ _ => Does.raise
      intro written s₁ _ _ _
      cases written with
      | none => exact hrest
      | some row =>
          refine Does.bind (Does.of_uses (Stream.put_uses hspill manifest _))
            fun manifest₂ s₂ _ _ _ => ?_
          split
          · exact Does.pure fun _ => trivial
          · exact hrest

theorem syncLists_touches {outcome : JobOutcome} :
    Does codec job.directory (ListPath job.directory) (syncLists job outcome) s
      fun _ _ => True := by
  unfold syncLists
  split
  · exact Does.pure fun _ => trivial
  refine Does.perform (confined_of nofun fun _ h => .inl h) fun _ s₁ _ _ _ => ?_
  refine Does.bind ((existsOrThrow_does (owned_pairs job.directory)).widen
    fun _ => False.elim) fun found s₂ _ _ _ => ?_
  cases found with
  | false => exact Does.pure fun _ => trivial
  | true =>
      exact Does.perform (confined_of nofun fun _ h => .inr h)
        fun _ _ _ _ _ => Does.pure fun _ => trivial

theorem closeManifest_touches {manifest : Stream} {outcome : JobOutcome} :
    Does codec job.directory (ListPath job.directory)
      (closeManifest job.directory manifest outcome) s fun _ _ => True := by
  have hspill : ∀ data all, Confined job.directory (ListPath job.directory)
      (.spill (manifestPath job.directory) data all) := fun _ _ =>
    confined_of nofun fun _ h => .inl h
  exact Does.bind (Does.of_uses (Stream.flush_uses hspill _))
    fun flushed s₁ _ _ _ => Does.bind (Does.of_uses (Stream.close_uses hspill
      flushed)) fun _ _ _ _ _ => Does.pure fun _ => trivial

theorem writeOpened_touches (position : Nat) :
    Does codec job.directory (JobPath job.directory job.records)
      (writeOpened worker job position) s fun _ _ => True := by
  have hspill : ∀ data all, Confined job.directory
      (JobPath job.directory job.records)
      (.spill (manifestPath job.directory) data all) := fun _ _ =>
    confined_of nofun fun _ h => .inr (.inl h)
  refine Does.bind (Does.of_uses (Stream.start_uses hspill position _))
    fun manifest s₁ _ _ _ => ?_
  refine Does.bind ((writePairs_does job.pairs).widen fun _ h =>
    .inr (.inr (.inl h))) fun paired s₂ _ _ _ => ?_
  refine Does.bind ((writeRecords_touches worker job job.records).widen
    fun _ h => h.elim (fun h => .inr (.inl h)) fun h => .inr (.inr (.inr h)))
      fun written s₃ _ _ _ => ?_
  have hlists : ∀ path, ListPath job.directory path →
      JobPath job.directory job.records path := fun _ h =>
    h.elim (fun h => .inr (.inl h)) fun h => .inr (.inr (.inl h))
  exact Does.bind ((closeManifest_touches job).widen hlists)
    fun outcome s₄ _ _ _ => (syncLists_touches job).widen hlists

/-- Also when a job of the event has failed before. -/
theorem writeGuarded_touches :
    Does codec job.directory (JobPath job.directory job.records)
      (writeGuarded worker job) s fun _ _ => True := by
  refine Does.catchError ?_ fun _ _ _ _ => Does.pure fun _ => trivial
  refine Does.bind ((hasSpace_does worker job.directory).widen
    fun _ => False.elim) fun space s₁ _ _ _ => ?_
  cases space with
  | false => exact Does.pure fun _ => trivial
  | true =>
      refine Does.perform (confined_of nofun fun _ h => .inl h)
        fun created s₂ _ _ _ => ?_
      cases created with
      | false => exact Does.pure fun _ => trivial
      | true =>
          refine Does.perform (confined_of nofun fun _ h => .inr (.inl h))
            fun opened s₃ _ _ _ => ?_
          cases opened with
          | none => exact Does.pure fun _ => trivial
          | some position => exact writeOpened_touches worker job position

end Job

end DataCache.Storage
