import DataCache.RecordIo.Verify
import DataCache.Upload.Unhindered

/-!
# Completed events arrive

The worker, the sender and the receiver were written apart, in two languages.
They agree on the files of a completed event, on their names and on the layout
of the checksum manifest: no event that is complete is refused for ever.
-/

namespace DataCache.Storage.EventFile

open DataCache.Foundation DataCache.Capture DataCache.RecordIo
open DataCache.Receiver (safeRelative normalizeSlashes isLineBreak isUnsafePart
  startsWithDrive normalizeSlashes_eq_self)
open DataCache.Upload (IsUInt64 length_showInt_int64 length_showNat_uint64)

variable {records : List SensorData} {path : Path}

theorem length_showNat_counter {n : Nat} (h : n ≤ 2 ^ 64) :
    (showNat n).length ≤ 20 :=
  length_showNat_le (by omega) (by omega)

theorem length_base_le {record : SensorData} {base : Text}
    (h : IsBaseName record base) (hstamp : InInt64 (timestampOf record)) :
    base.length ≤ 48 := by
  have hsensor : (sensorPrefix record.type).length ≤ 6 := by
    cases record.type <;> decide
  have htime := length_showInt_int64 hstamp
  have hfront : (basePrefix record).length ≤ 27 := by
    rw [basePrefix, List.length_append, List.length_append]
    change _ + 1 + _ ≤ 27
    omega
  rcases h with rfl | ⟨n, hn, rfl⟩
  · omega
  · have hcount := length_showNat_counter hn
    rw [List.length_append, List.length_append]
    change _ + 1 + _ ≤ 48
    omega

/-- The names of an event's files are short. -/
theorem length_joinPath_le (h : EventFile records path)
    (hstamps : ∀ record ∈ records, InInt64 (timestampOf record)) :
    (joinPath path).length ≤ 70 := by
  have hending : ∀ ending ∈ storedEndings ++ copyEndings, ending.length ≤ 8 := by
    decide
  have hdirectory : ∀ type, (convertedDirectory type).length ≤ 11 := by
    rintro (_ | _) <;> decide
  cases h with
  | manifest => decide
  | pairs => decide
  | checksums => decide
  | @stored record base ending hrecord hbase hstored =>
      have hlength := length_base_le hbase (hstamps record hrecord)
      have htail := hending ending (List.mem_append_left _ hstored)
      simp only [joinPath, List.intercalate_singleton, List.length_append]
      omega
  | @copied record base ending hrecord hbase hcopied =>
      have hlength := length_base_le hbase (hstamps record hrecord)
      have htail := hending ending (List.mem_append_right _ hcopied)
      have hfront := hdirectory record.type
      simp only [joinPath, List.intercalate_cons_cons, List.intercalate_singleton,
        List.length_append, List.length_singleton]
      omega
  | directory type =>
      have hfront := hdirectory type
      simp only [joinPath, List.intercalate_singleton]
      omega

theorem length_le (h : EventFile records path) : path.length ≤ 2 := by
  cases h <;> simp

theorem isNameChar_or_slash (h : EventFile records path) {c : Char}
    (hc : c ∈ joinPath path) : isNameChar c = true ∨ c = '/' := by
  rcases mem_joinPath hc with heq | ⟨name, hname, hmem⟩
  · exact .inr heq
  · exact .inl (h.chars name hname c hmem)

theorem startsWithDrive_eq_false {text : Text} (h : ':' ∉ text) :
    startsWithDrive text = false := by
  unfold startsWithDrive
  split
  next => exact absurd (List.mem_cons_of_mem _ List.mem_cons_self) h
  next => rfl

/-- The receiver takes the name of every file of an event. -/
theorem safeRelative_joinPath (h : EventFile records path)
    (hstamps : ∀ record ∈ records, InInt64 (timestampOf record)) :
    safeRelative (joinPath path) = some path := by
  have hnormal : normalizeSlashes (joinPath path) = joinPath path :=
    normalizeSlashes_eq_self (h.not_mem_joinPath (by decide) (by decide))
  have hsplit : splitPath (joinPath path) = path :=
    splitPath_joinPath h.ne_nil (h.not_mem (by decide))
  have hnames : [] ∉ splitPath (joinPath path) := by
    rw [hsplit]
    exact fun hmem => absurd (h.safe [] hmem) (by decide)
  obtain ⟨hjoined, hhead⟩ := head?_ne_slash hnames
  have hshort : ¬(joinPath path).length > Receiver.maxRelativePath := by
    have hlength := h.length_joinPath_le hstamps
    exact Nat.not_lt.mpr (hlength.trans (by decide))
  have hproper : ((joinPath path).isEmpty || (joinPath path).contains '\x00' ||
      (joinPath path).head? == some '/' || startsWithDrive (joinPath path)) =
        false := by
    have hnul : (joinPath path).contains '\x00' = false := by
      rw [← Bool.not_eq_true, List.contains_iff_mem]
      exact h.not_mem_joinPath (by decide) (by decide)
    rw [startsWithDrive_eq_false (h.not_mem_joinPath (by decide) (by decide)), hnul]
    simp [hjoined, hhead]
  have hparts : ¬path.any isUnsafePart = true := by
    rw [List.any_eq_true]
    rintro ⟨name, hname, hunsafe⟩
    rw [h.safe name hname] at hunsafe
    cases hunsafe
  unfold safeRelative
  simp only [if_neg hshort, hnormal, hproper, hsplit, hparts, Bool.false_eq_true,
    if_false]

theorem not_isLineBreak (h : EventFile records path) {c : Char}
    (hc : c ∈ joinPath path) : isLineBreak c = false := by
  have hbreaks : ['\n', '\r', '\x0b', '\x0c', '\x1c', '\x1d', '\x1e', '\u0085',
      '\u2028', '\u2029'].all (fun c => !isNameChar c && c != '/') = true := by
    decide
  rw [← Bool.not_eq_true]
  intro hbreak
  have hmem : c ∈ ['\n', '\r', '\x0b', '\x0c', '\x1c', '\x1d', '\x1e', '\u0085',
      '\u2028', '\u2029'] := by
    simpa [isLineBreak, or_assoc] using hbreak
  have hother := List.all_eq_true.mp hbreaks c hmem
  rcases h.isNameChar_or_slash hc with hname | rfl
  · rw [hname] at hother
    cases hother
  · cases hother

end DataCache.Storage.EventFile

namespace DataCache.Upload

open DataCache.Foundation DataCache.Capture DataCache.Storage DataCache.RecordIo
open DataCache.Receiver (Sending Separate Certified Fits Runtime manifestName
  maxFiles maxTotalBytes maxActiveTransfers maxManifestBytes safeRelative
  validateEventName)
open DataCache.Trigger (validEventName)

/-! ## What is there to begin with -/

/-- A file lies in a directory, and none is called `.`. -/
structure WellFormed (disk : FileSystem) : Prop where
  parent : ∀ path, disk.isFile path = true → disk.isDir path.dropLast = true
  named : ∀ path, disk.isFile path = true → path.getLastD [] ≠ "."

/-- The stored transfer id, if there is one, was made up by an earlier attempt. -/
def StoredId (directory : Text) (disk : FileSystem) : Prop :=
  ∀ content, disk.read? (uploadIdPath directory) = some content →
    ∃ now id : Nat, now < 2 ^ 63 ∧ IsUInt64 id ∧ content =
      encodeUtf8 (showInt (Int.ofNat now) ++ ("-" : Text) ++ showNat id ++ "\n")

theorem firstLine_written {text : Text} (h : '\n' ∉ text) :
    firstLine (encodeUtf8 (text ++ ("\n" : Text))) = text := by
  have hline : (text ++ ("\n" : Text)).takeWhile (fun c => decide (c ≠ '\n')) =
      text := by
    have hall : ∀ c ∈ text, decide (c ≠ '\n') = true := fun c hc =>
      decide_eq_true fun heq => h (heq ▸ hc)
    rw [List.takeWhile_append_of_pos hall]
    exact List.append_nil _
  have hbyte : (fun byte : UInt8 => decide (byte ≠ 10)) = (· != byteOf '\n') := by
    funext byte
    rw [Bool.eq_iff_iff, bne_iff_ne, decide_eq_true_iff]
    rfl
  rw [firstLine, hbyte, takeWhile_encodeUtf8 (by decide), hline, textOf,
    decodeUtf8?_encodeUtf8, Option.getD_some]

theorem StoredId.usable {directory : Text} {disk : FileSystem}
    (h : StoredId directory disk) : IdUsable directory disk := by
  intro content hread _
  obtain ⟨now, id, hnow, hid, rfl⟩ := h content hread
  have hline : '\n' ∉ showInt (Int.ofNat now) ++ ("-" : Text) ++ showNat id := by
    change '\n' ∉ showNat now ++ ("-" : Text) ++ showNat id
    simp only [List.mem_append, not_or]
    exact ⟨⟨not_mem_showNat (by decide) now, by decide⟩,
      not_mem_showNat (by decide) id⟩
  rw [firstLine_written hline]
  exact usable_generated hnow hid

/-! ## The files that are sent -/

/-- Case folding leaves lower-case ASCII names alone. -/
def KeepsNames (runtime : Runtime) : Prop :=
  ∀ text : Text, (∀ c ∈ text, isNameChar c = true ∨ c = '/') →
    runtime.casefold text = text

def contentOf (disk : FileSystem) (directory : Text) (path : Path) : Bytes :=
  (disk.read? (directory :: path)).getD []

/-- A file sent under its own path and in one piece. -/
def sendingOf (content : Path → Bytes) (path : Path)
    (safe : safeRelative (joinPath path) = some path) : Sending :=
  ⟨joinPath path, path, safe, [content path]⟩

/-- The list has these files, each with its content, under their own paths. -/
structure Packs (content : Path → Bytes) (paths : List Path)
    (outgoing : List Sending) : Prop where
  parts : outgoing.map Sending.parts = paths
  plain : ∀ file ∈ outgoing, file.path = file.relative
  data : ∀ file ∈ outgoing, file.data = content file.parts

theorem exists_packs (content : Path → Bytes) {paths : List Path}
    (h : ∀ path ∈ paths, safeRelative (joinPath path) = some path) :
    ∃ outgoing, Packs content paths outgoing := by
  induction paths with
  | nil => exact ⟨[], rfl, nofun, nofun⟩
  | cons path rest ih =>
      obtain ⟨outgoing, hparts, hplain, hdata⟩ := ih fun other hother =>
        h other (List.mem_cons_of_mem _ hother)
      refine ⟨sendingOf content path (h path List.mem_cons_self) :: outgoing, ?_,
        List.forall_mem_cons.mpr ⟨rfl, hplain⟩,
        List.forall_mem_cons.mpr ⟨?_, hdata⟩⟩
      · rw [List.map_cons, hparts]
        rfl
      · exact List.append_nil _

/-! ## The files of a completed event -/

theorem length_encodeUtf8_le (text : Text) :
    (encodeUtf8 text).length ≤ 4 * text.length := by
  induction text with
  | nil => exact Nat.zero_le _
  | cons c text ih =>
      have hchar : (String.utf8EncodeChar c).length ≤ 4 := by
        rw [String.length_utf8EncodeChar]
        exact c.utf8Size_le_four
      rw [encodeUtf8_cons, List.length_append, List.length_cons]
      omega

theorem shown_iff_visible {path : Path} (hdot : path.getLastD [] ≠ ".") :
    Shown path ↔ isMarkerOrTemp path = false := by
  have hlong : (path.getLastD []).head? = some '.' →
      (path.getLastD []).length > 1 := by
    intro hhead
    cases hname : path.getLastD [] with
    | nil =>
        rw [hname] at hhead
        cases hhead
    | cons c rest =>
        rw [hname] at hhead hdot
        cases rest with
        | nil =>
            cases hhead
            exact absurd rfl hdot
        | cons => simp
  simp only [Shown, isMarkerOrTemp, Bool.or_eq_false_iff, Bool.and_eq_false_iff,
    decide_eq_false_iff_not, beq_eq_false_iff_ne]
  refine and_congr_left fun _ => ⟨.inr, fun h => ?_⟩
  exact h.elim (fun hshort hhead => hshort (hlong hhead)) id

theorem eq_of_checksumsName {records : List SensorData} {path : Path}
    (h : EventFile records path) (hname : path.getLastD [] = manifestName) :
    path = [manifestName] := by
  have hbase : ∀ {record base} (ending : Text), IsBaseName record base →
      base ++ ending ≠ manifestName := fun ending hbase heq => by
    have hmem := List.mem_append_left ending hbase.underscore_mem
    rw [heq] at hmem
    exact absurd hmem (by decide)
  cases h with
  | manifest => exact absurd hname (by decide)
  | pairs => exact absurd hname (by decide)
  | checksums => rfl
  | stored _ hbaseName _ => exact absurd hname (hbase _ hbaseName)
  | copied _ hbaseName _ => exact absurd hname (hbase _ hbaseName)
  | directory type =>
      cases type <;> exact absurd hname (by decide)

/-- The files `transferDirectory` collects. -/
def visibleFiles (disk : FileSystem) (directory : Text) : List Path :=
  (filesBelow disk [directory]).filter fun path => !isMarkerOrTemp path

section Completed

variable {codec : Codec} {worker : Storage.Worker} {directory : Text}
  {rounds : List (Job × Processed)} {w : Watched} {runtime : Runtime}
  {files : List Path} {outgoing : List Sending}

theorem mem_visibleFiles (hdir : w.disk.isDir [directory] = true) {path : Path} :
    path ∈ visibleFiles w.disk directory ↔ path ≠ [] ∧
      isMarkerOrTemp path = false ∧ w.disk.isFile (directory :: path) = true := by
  simp only [visibleFiles, List.mem_filter, isFile_of_mem_filesBelow,
    Bool.not_eq_true', List.singleton_append]
  constructor
  · rintro ⟨hfile, hvisible⟩
    refine ⟨?_, hvisible, hfile⟩
    rintro rfl
    rw [Disk.isFile_eq_false_of_isDir (List.cons_ne_nil _ _) hdir] at hfile
    cases hfile
  · rintro ⟨-, hvisible, hfile⟩
    exact ⟨hfile, hvisible⟩

/-- The sender's files are the worker's, and the manifest that lists them. -/
theorem visible_iff (h : CompletedEvent codec worker directory rounds w)
    (hdisk : WellFormed w.disk)
    (hfiles : Checksummed worker.sha256 directory files w.disk) {path : Path} :
    path ∈ visibleFiles w.disk directory ↔ path ∈ [manifestName] :: files := by
  obtain ⟨⟨entries, hready⟩, -, -⟩ := h.ready
  have hmanifest : w.disk.isFile (directory :: [manifestName]) = true := by
    rw [Disk.isFile, show w.disk.read? (directory :: [manifestName]) = _ from
      hfiles.kept.read?]
    rfl
  have hdot : w.disk.isFile (directory :: path) = true → path ≠ [] →
      path.getLastD [] ≠ "." := by
    intro hfile hne
    have hlast := hdisk.named _ hfile
    cases path with
    | nil => exact absurd rfl hne
    | cons name rest => exact hlast
  rw [mem_visibleFiles hready.isDir, List.mem_cons, hfiles.mem]
  constructor
  · rintro ⟨hne, hvisible, hfile⟩
    have hshown := (shown_iff_visible (hdot hfile hne)).mpr hvisible
    by_cases hname : path.getLastD [] = manifestName
    · exact .inl (eq_of_checksumsName (h.eventFile hshown hfile) hname)
    · exact .inr ⟨isCovered_iff.mpr ⟨hname, hshown⟩, hfile⟩
  · rintro (rfl | ⟨hcovered, hfile⟩)
    · exact ⟨List.cons_ne_nil _ _, by decide, hmanifest⟩
    · have hne : path ≠ [] := by
        rintro rfl
        rw [Disk.isFile_eq_false_of_isDir (List.cons_ne_nil _ _) hready.isDir] at hfile
        cases hfile
      exact ⟨hne, (shown_iff_visible (hdot hfile hne)).mp (shown_of_covered hcovered),
        hfile⟩

theorem nodup_paths (hfiles : Checksummed worker.sha256 directory files w.disk) :
    ([manifestName] :: files).Nodup := by
  refine List.nodup_cons.mpr ⟨fun hmem => ?_, hfiles.nodup⟩
  exact absurd ((hfiles.mem _).mp hmem).1 (by decide)

/-- The files of a completed event, ready to be sent. -/
structure Ships (directory : Text) (records : List SensorData) (disk : FileSystem)
    (files : List Path) (outgoing : List Sending) : Prop where
  packs : Packs (contentOf disk directory) ([manifestName] :: files) outgoing
  named : ∀ file ∈ outgoing, EventFile records file.parts
  isFile : ∀ file ∈ outgoing, disk.isFile (directory :: file.parts) = true

theorem exists_ships (h : CompletedEvent codec worker directory rounds w)
    (hdisk : WellFormed w.disk)
    (hstamps : ∀ record ∈ handedRecords rounds, InInt64 (timestampOf record))
    (hfiles : Checksummed worker.sha256 directory files w.disk) :
    ∃ outgoing, Ships directory (handedRecords rounds) w.disk files outgoing := by
  obtain ⟨⟨entries, hready⟩, -, -⟩ := h.ready
  have hevent : ∀ path ∈ [manifestName] :: files,
      EventFile (handedRecords rounds) path ∧
        w.disk.isFile (directory :: path) = true := by
    intro path hpath
    obtain ⟨hne, hvisible, hfile⟩ := (mem_visibleFiles hready.isDir).mp
      ((visible_iff h hdisk hfiles).mpr hpath)
    refine ⟨?_, hfile⟩
    rcases List.mem_cons.mp hpath with rfl | hpath
    · exact .checksums
    · exact h.eventFile (shown_of_covered ((hfiles.mem path).mp hpath).1) hfile
  obtain ⟨outgoing, hpacks⟩ := exists_packs (contentOf w.disk directory)
    fun path hpath => (hevent path hpath).1.safeRelative_joinPath hstamps
  have hparts : ∀ file ∈ outgoing, file.parts ∈ [manifestName] :: files :=
    fun file hfile => hpacks.parts ▸ List.mem_map_of_mem hfile
  exact ⟨outgoing, hpacks, fun file hfile => (hevent _ (hparts file hfile)).1,
    fun file hfile => (hevent _ (hparts file hfile)).2⟩

section Ships

variable {records : List SensorData} {disk : FileSystem}

theorem Ships.nodup (h : Ships directory records disk files outgoing)
    (hnodup : ([manifestName] :: files).Nodup) :
    (outgoing.map Sending.parts).Nodup := by
  rw [h.packs.parts]
  exact hnodup

theorem Ships.read (h : Ships directory records disk files outgoing)
    {file : Sending} (hfile : file ∈ outgoing) :
    disk.read? (directory :: file.parts) = some file.data := by
  have hsome := h.isFile file hfile
  rw [Disk.isFile, Option.isSome_iff_exists] at hsome
  obtain ⟨content, hread⟩ := hsome
  rw [h.packs.data file hfile, contentOf, hread, Option.getD_some]

/-- The names stay apart when the receiver folds their case. -/
theorem Ships.separate (h : Ships directory records disk files outgoing)
    (hnodup : ([manifestName] :: files).Nodup) (hdisk : WellFormed disk)
    (hfold : KeepsNames runtime) : Separate runtime outgoing where
  folded := by
    refine (List.pairwise_map.mp (h.nodup hnodup)).imp_of_mem
      fun {first second} hfirst hsecond hne heq => hne ?_
    have hkept : ∀ file ∈ outgoing, runtime.casefold file.relative = file.relative :=
      fun file hfile => hfold _ fun c hc => (h.named file hfile).isNameChar_or_slash hc
    rw [hkept first hfirst, hkept second hsecond] at heq
    rw [← Sending.splitPath_relative, heq, Sending.splitPath_relative]
  flat first hfirst second hsecond hstarts := by
    by_contra hne
    -- The second file would lie below the first, which is no directory.
    obtain ⟨tail, htail⟩ := hstarts
    have hlength := congrArg List.length htail
    have hshort := (h.named second hsecond).length_le
    have hpos := List.length_pos_iff.mpr first.parts_ne_nil
    rw [List.length_append] at hlength
    have hone : tail.length = 1 := by
      refine le_antisymm (by omega) (Nat.one_le_iff_ne_zero.mpr fun hzero => hne ?_)
      rw [← htail, List.length_eq_zero_iff.mp hzero, List.append_nil]
    obtain ⟨name, rfl⟩ := List.length_eq_one_iff.mp hone
    have hdir := hdisk.parent _ (h.isFile second hsecond)
    rw [← htail, ← List.cons_append, List.dropLast_concat] at hdir
    have hfile := h.isFile first hfirst
    rw [Disk.isFile_eq_false_of_isDir (List.cons_ne_nil _ _) hdir] at hfile
    cases hfile

theorem length_lines_le {listed : List Sending} {digest : Sending → Digest}
    (h : ∀ file ∈ listed, (joinPath file.parts).length ≤ 70) :
    (listed.flatMap fun file => checksumLine (digest file) file.parts).length ≤
      137 * listed.length := by
  induction listed with
  | nil => exact Nat.zero_le _
  | cons file rest ih =>
      have hrest := ih fun other hother => h other (List.mem_cons_of_mem _ hother)
      have hname := h file List.mem_cons_self
      have hline : (checksumLine (digest file) file.parts).length =
          64 + 2 + (joinPath file.parts).length + 1 := by
        simp only [checksumLine, List.length_append, length_hexdigest]
        rfl
      rw [List.flatMap_cons, List.length_append, List.length_cons, hline]
      omega

/-- The manifest is the one the receiver compares the other files with. -/
theorem Ships.certified (h : Ships directory records disk files outgoing)
    (hfiles : Checksummed worker.sha256 directory files disk)
    (hnodup : ([manifestName] :: files).Nodup) (hsome : files ≠ [])
    (hstamps : ∀ record ∈ records, InInt64 (timestampOf record))
    (hsha256 : runtime.sha256 = worker.sha256)
    (hcount : outgoing.length ≤ maxFiles) :
    ∃ listed, Certified runtime outgoing listed := by
  obtain ⟨manifest, listed, rfl, hparts, hlisted⟩ :=
    List.map_eq_cons_iff.mp h.packs.parts
  have hdistinct := h.nodup hnodup
  rw [List.map_cons] at hdistinct
  obtain ⟨hnew, hrest⟩ := List.nodup_cons.mp hdistinct
  have hname : manifest.relative = manifestName := by
    rw [Sending.relative, hparts]
    decide
  have hdata : manifest.data = encodeUtf8 (listed.flatMap fun other =>
      checksumLine (runtime.sha256 other.data) other.parts) := by
    have hread : disk.read? (directory :: manifest.parts) = some (encodeUtf8
        (files.flatMap (Storage.lineOf worker.sha256 directory disk))) := by
      rw [hparts]
      exact hfiles.kept.read?
    have hsame := Option.some.inj ((h.read List.mem_cons_self).symm.trans hread)
    rw [hsame, ← hlisted, List.flatMap_map]
    refine congrArg encodeUtf8 (List.flatMap_congr fun file hfile => ?_)
    rw [Storage.lineOf, hsha256, h.packs.data file (List.mem_cons_of_mem _ hfile), contentOf]
  refine ⟨listed, List.Nodup.of_map _ hrest, fun file => ?_, ?_,
    fun file hfile c hc => (h.named file (List.mem_cons_of_mem _ hfile)).not_isLineBreak
      hc, manifest, List.mem_cons_self, hname, ?_, hdata⟩
  · constructor
    · refine fun hfile => ⟨List.mem_cons_of_mem _ hfile, fun heq => hnew ?_⟩
      rw [← Sending.splitPath_relative, hname, ← heq, Sending.splitPath_relative]
      exact List.mem_map_of_mem hfile
    · rintro ⟨hfile, hne⟩
      rcases List.mem_cons.mp hfile with rfl | hfile
      · exact absurd hname hne
      · exact hfile
  · rintro rfl
    exact hsome hlisted.symm
  · have hlines := @length_lines_le listed (fun other => runtime.sha256 other.data)
      fun file hfile =>
        (h.named file (List.mem_cons_of_mem _ hfile)).length_joinPath_le hstamps
    have hbytes := length_encodeUtf8_le (listed.flatMap fun other =>
      checksumLine (runtime.sha256 other.data) other.parts)
    rw [List.length_cons] at hcount
    rw [hdata]
    simp only [maxFiles, maxManifestBytes] at hcount ⊢
    omega

end Ships

/-- As many files as the sender finds, with as many bytes. -/
theorem Ships.perm (hships : Ships directory (handedRecords rounds) w.disk files outgoing)
    (h : CompletedEvent codec worker directory rounds w) (hdisk : WellFormed w.disk)
    (hfiles : Checksummed worker.sha256 directory files w.disk) :
    (outgoing.map Sending.parts).Perm (visibleFiles w.disk directory) := by
  rw [hships.packs.parts]
  exact (List.perm_ext_iff_of_nodup (nodup_paths hfiles)
    ((nodup_filesBelow _ _).filter _)).mpr fun path =>
      (visible_iff h hdisk hfiles).symm

theorem Ships.carries (hships : Ships directory (handedRecords rounds) w.disk files outgoing)
    (h : CompletedEvent codec worker directory rounds w) (hdisk : WellFormed w.disk)
    (hfiles : Checksummed worker.sha256 directory files w.disk) :
    Carries directory outgoing w.disk := by
  obtain ⟨⟨entries, hready⟩, -, -⟩ := h.ready
  have hperm := hships.perm h hdisk hfiles
  refine ⟨hready.isDir, fun file => hships.read, hships.packs.plain,
    fun file hfile => ?_, fun path hne hvisible hfile => ?_⟩
  · have hmem := hperm.mem_iff.mp (List.mem_map_of_mem hfile)
    exact ((mem_visibleFiles hready.isDir).mp hmem).2.1
  · have hmem := (mem_visibleFiles hready.isDir).mpr ⟨hne, hvisible, hfile⟩
    exact List.mem_map.mp (hperm.mem_iff.mpr hmem)

/-- The receiver can begin a transfer of the event. -/
structure Receives (directory : Text) (node : Receiver.Node) : Prop where
  room : node.transfers.size < maxActiveTransfers
  free : ∀ key state, node.transfers.get? key = some state →
    state.event ≠ directory

theorem Ships.fits {eventName : Text} {captureId time : Nat} {node : Receiver.Node}
    (hships : Ships (eventDirectoryName eventName captureId time)
      (handedRecords rounds) w.disk files outgoing)
    (h : CompletedEvent codec worker (eventDirectoryName eventName captureId time)
      rounds w) (hdisk : WellFormed w.disk)
    (hfiles : Checksummed worker.sha256 (eventDirectoryName eventName captureId time)
      files w.disk)
    (hname : validEventName eventName = true) (hid : captureId < 2 ^ 64)
    (htime : time < 2 ^ 63)
    (hcount : (visibleFiles w.disk
      (eventDirectoryName eventName captureId time)).length ≤ maxFiles)
    (htotal : ((visibleFiles w.disk (eventDirectoryName eventName captureId time)).map
      fun path => (contentOf w.disk (eventDirectoryName eventName captureId time)
        path).length).sum ≤ maxTotalBytes)
    (hnode : Receives (eventDirectoryName eventName captureId time) node)
    {transferId : Text} (husable : Usable transferId) :
    Fits (eventDirectoryName eventName captureId time, transferId) outgoing node := by
  have hperm := hships.perm h hdisk hfiles
  obtain ⟨first, rest, -, -, hlength, -⟩ := validEventName_eq_true hname
  have hshort := length_eventDirectoryName_le hlength hid htime
  have hsizes : outgoing.map Sending.size = (outgoing.map Sending.parts).map
      fun path => (contentOf w.disk (eventDirectoryName eventName captureId time)
        path).length := by
    rw [List.map_map]
    refine List.map_congr_left fun file hfile => ?_
    rw [Function.comp_apply, ← hships.packs.data file hfile]
    rfl
  refine ⟨validateEventName_eventDirectoryName hname hid htime, husable.valid, ?_, ?_,
    ?_, ?_, hnode.room, hnode.free⟩
  · have hid := husable.short
    change (eventDirectoryName eventName captureId time).length +
      transferId.length + 7 ≤ 240
    omega
  · rintro rfl
    exact absurd hships.packs.parts (List.cons_ne_nil _ _).symm
  · rw [← List.length_map Sending.parts, hperm.length_eq]
    exact hcount
  · rw [hsizes, (hperm.map _).sum_eq]
    exact htotal

/--
A completed event with a name of the monitor's, within the limits of a receiver
that can begin a transfer of it.
-/
structure Sendable (codec : Codec) (worker : Storage.Worker) (runtime : Runtime)
    (eventName : Text) (captureId time : Nat) (rounds : List (Job × Processed))
    (w : Watched) (node : Receiver.Node) : Prop where
  completed : CompletedEvent codec worker (eventDirectoryName eventName captureId time)
    rounds w
  named : validEventName eventName = true
  idRange : captureId < 2 ^ 64
  timeRange : time < 2 ^ 63
  stamps : ∀ record ∈ handedRecords rounds, InInt64 (timestampOf record)
  disk : WellFormed w.disk
  storedId : StoredId (eventDirectoryName eventName captureId time) w.disk
  count : (visibleFiles w.disk
    (eventDirectoryName eventName captureId time)).length ≤ maxFiles
  total : ((visibleFiles w.disk (eventDirectoryName eventName captureId time)).map
    fun path => (contentOf w.disk (eventDirectoryName eventName captureId time)
      path).length).sum ≤ maxTotalBytes
  sha256 : runtime.sha256 = worker.sha256
  fold : KeepsNames runtime
  receives : Receives (eventDirectoryName eventName captureId time) node

/-- The tree has the visible files of the directory, and no others. -/
def Holds (tree : Receiver.Tree) (directory : Text) (disk : FileSystem) : Prop :=
  ∀ path content, tree.read? path = some content ↔
    path ∈ visibleFiles disk directory ∧
      disk.read? (directory :: path) = some content

section Sendable

variable {eventName : Text} {captureId time : Nat} {node : Receiver.Node}
  {config : Config} {late : List Receiver.Request}

theorem Sendable.ends
    (h : Sendable codec worker runtime eventName captureId time rounds w node)
    (hchunk : 1 ≤ config.chunkBytes) :
    Ends codec runtime (fun ok s' => ok = true ∧ ∃ tree,
        s'.node.inbox.get? (eventDirectoryName eventName captureId time) = some tree ∧
          Holds tree (eventDirectoryName eventName captureId time) w.disk)
      (transferDirectory config (eventDirectoryName eventName captureId time))
      ⟨w.store, node, late⟩ := by
  obtain ⟨⟨entries, hready⟩, -, -⟩ := h.completed.ready
  obtain ⟨files, hfiles⟩ := hready.checksummed
  have hmanifest : (["manifest.csv"] : Path) ∈ files := by
    refine (hfiles.mem _).mpr ⟨by decide, ?_⟩
    rw [Disk.isFile, show w.disk.read? (_ :: ["manifest.csv"]) = _ from
      hready.listed.manifest]
    rfl
  obtain ⟨outgoing, hships⟩ := exists_ships h.completed h.disk h.stamps hfiles
  have hnodup := nodup_paths hfiles
  have hperm := hships.perm h.completed h.disk hfiles
  have hfits : ∀ transferId, Usable transferId →
      Fits (eventDirectoryName eventName captureId time, transferId) outgoing node :=
    fun _ husable => hships.fits h.completed h.disk hfiles h.named h.idRange h.timeRange
      h.count h.total h.receives husable
  obtain ⟨listed, hcertified⟩ := hships.certified hfiles hnodup
    (List.ne_nil_of_mem hmanifest) h.stamps h.sha256 (by
      rw [← List.length_map Sending.parts, hperm.length_eq]
      exact h.count)
  have hends : Ends codec runtime (fun ok s' => ok = true ∧
      Stocks (eventDirectoryName eventName captureId time) outgoing s'.node)
      (transferDirectory config (eventDirectoryName eventName captureId time))
      ⟨w.store, node, late⟩ :=
    ends_transferDirectory hchunk (hships.carries h.completed h.disk hfiles)
      h.storedId.usable (hships.separate hnodup h.disk h.fold) hcertified hfits
  refine Prog.wp_mono (fun _ => id) ?_ (fun _ _ => id) hends
  rintro ok s' ⟨rfl, tree, htree, hread⟩
  refine ⟨rfl, tree, htree, fun path content => ?_⟩
  rw [hread]
  constructor
  · rintro ⟨file, hfile, rfl, rfl⟩
    exact ⟨hperm.mem_iff.mp (List.mem_map_of_mem hfile), hships.read hfile⟩
  · rintro ⟨hvisible, hcontent⟩
    obtain ⟨file, hfile, rfl⟩ := List.mem_map.mp (hperm.mem_iff.mpr hvisible)
    exact ⟨file, hfile, rfl, Option.some.inj ((hships.read hfile).symm.trans hcontent)⟩

/--
Every completed event can be uploaded.  Where nothing fails and the receiver has
room, each run of the transfer ends with success, and the inbox has exactly the
visible files of the directory, byte for byte.
-/
theorem completed_event_uploads {s' : Network} {p' : Transfer Bool}
    (h : Sendable codec worker runtime eventName captureId time rounds w node)
    (hchunk : 1 ≤ config.chunkBytes)
    (hrun : Prog.Exec (Undisturbed codec runtime) ⟨w.store, node, late⟩
      (transferDirectory config (eventDirectoryName eventName captureId time)) s' p') :
    (∀ error, p' ≠ .raise error) ∧ ∀ ok, p' = .ret ok → ok = true ∧
      ∃ tree, s'.node.inbox.get? (eventDirectoryName eventName captureId time) =
          some tree ∧
        Holds tree (eventDirectoryName eventName captureId time) w.disk := by
  obtain ⟨-, hpost⟩ := Prog.wp_exec hrun trivial (h.ends hchunk)
  refine ⟨?_, ?_⟩
  · rintro error rfl
    exact hpost
  · rintro ok rfl
    exact hpost

end Sendable

end Completed

/-! ### One record twice, in chunks of 50 bytes -/

section Example

variable {codec : Codec} {runtime : Runtime}

theorem wellFormed_of_files {disk : FileSystem}
    (h : ∀ path ∈ filesBelow disk [], disk.isDir path.dropLast = true ∧
      path.getLastD [] ≠ ".") : WellFormed disk :=
  ⟨fun path hfile => (h path (isFile_of_mem_filesBelow.mpr hfile)).1,
    fun path hfile => (h path (isFile_of_mem_filesBelow.mpr hfile)).2⟩

/-- The call reports that it has worked. -/
def worked : (op : FsOp) → op.Res → Bool
  | .createDirectories _, r => r
  | .openTrunc _, r => r
  | .append _ _, r => r
  | .rename _ _, r => r
  | .listFiles _, r => r.2
  | _, _ => true

theorem succeeds_respond {s s' : Store} {op : FsOp} {r : op.Res}
    (h : s.respond codec op = some (r, s')) (hworked : worked op r = true) :
    Succeeds s op r := by
  cases op with
  | createDirectories path => exact hworked
  | openTrunc path => exact hworked
  | append path data => exact hworked
  | rename source target => exact hworked
  | listFiles directory => exact hworked
  | readFile path => cases h; rfl
  | fileSize path => cases h; rfl
  | systemNow => cases h; exact ⟨⟨by decide, by decide⟩, le_refl _⟩
  | _ => trivial

/-- Where a call of the disk fails, or a transfer is idle, there is no answer. -/
def Network.serve (codec : Codec) (runtime : Runtime) (s : Network) :
    (op : UploadOp) → Option (op.Res × Network)
  | .fs op => (s.store.respond codec op).bind fun answer =>
      if worked op answer.1 then some (answer.1, { s with store := answer.2 })
      else none
  | .openRead path => some (s.store.disk.isFile path, s)
  | .call request =>
      if Receiver.IdleIn s.node
          (Receiver.stagingName request.eventName request.transferId) 0 then none
      else s.respond codec runtime true (.call request)
  | op => s.respond codec runtime true op

theorem undisturbed_serve {s s' : Network} {op : UploadOp} {r : op.Res}
    (h : s.serve codec runtime op = some (r, s')) :
    Undisturbed codec runtime s op r s' := by
  cases op with
  | fs op =>
      obtain ⟨answer, hanswer, heq⟩ := Option.bind_eq_some_iff.mp h
      split at heq
      next hworked =>
        cases heq
        exact ⟨answer.2, ⟨succeeds_respond hanswer hworked, effect_respond hanswer⟩, rfl⟩
      next => cases heq
  | call request =>
      simp only [Network.serve] at h
      split at h
      next => cases h
      next hactive =>
        cases h
        exact ⟨⟨0, 0⟩, hactive, rfl, rfl⟩
  | takeId => cases h; exact ⟨by norm_num [IsUInt64], rfl⟩
  | relative directory path => cases h; exact ⟨rfl, rfl⟩
  | openRead path => cases h; exact ⟨rfl, rfl⟩
  | readChunk path offset count => cases h; exact ⟨rfl, rfl⟩
  | _ => cases h; rfl

def namesRuntime : Runtime :=
  { Receiver.sampleRuntime with
    casefold := id
    sha256 := compressingWorker.sha256 }

def pieces50 : Config := ⟨"/upload", 3, 1000, 50, 300, 0⟩

/-- Two jobs complete an event on a blank disk, and it can be sent afterwards. -/
def isSent (codec : Codec) (directory : Text) (first last : Job) : Bool :=
  Prog.passes (Watched.respond codec 0 directory)
    (fun result s => Prog.passes (Watched.respond codec 0 directory)
      (fun _ w => !w.swept && w.disk.isFile (completePath directory) &&
        decide (∀ path ∈ filesBelow w.disk [],
          w.disk.isDir path.dropLast = true ∧ path.getLastD [] ≠ ".") &&
        decide (∀ path ∈ filesBelow w.disk [directory],
          path ≠ [] ∧ ∀ name ∈ path, name ≠ [] ∧ '/' ∉ name) &&
        decide (w.disk.read? (uploadIdPath directory) = none) &&
        decide ((visibleFiles w.disk directory).length ≤ maxFiles) &&
        decide (((visibleFiles w.disk directory).map fun path =>
          (contentOf w.disk directory path).length).sum ≤ maxTotalBytes) &&
        Prog.passes (Network.serve codec namesRuntime) (fun _ _ => true)
          (transferDirectory pieces50 directory)
          ⟨w.store, ⟨Dict.empty, Dict.empty⟩, []⟩)
      (processJob compressingWorker result.1 last) s)
    (processJob compressingWorker .empty first) blankWatched

/-- The event of two jobs, and the run of the transfer, from the check. -/
theorem sendable_of_isSent {directory eventName : Text} {captureId time : Nat}
    {firstJob lastJob : Job} (h : isSent codec directory firstJob lastJob = true)
    (hdirectory : directory = eventDirectoryName eventName captureId time)
    (hnamed : validEventName eventName = true) (hid : captureId < 2 ^ 64)
    (htime : time < 2 ^ 63) (hfirst : firstJob.directory = directory)
    (hlast : lastJob.directory = directory) (hnotFinal : firstJob.finalJob = false)
    (hfinal : lastJob.finalJob = true)
    (hstamps : ∀ record ∈ firstJob.records ++ lastJob.records,
      InInt64 (timestampOf record)) : ∃ first second w s' ok,
    Sendable codec compressingWorker namesRuntime eventName captureId time
      [(firstJob, first), (lastJob, second)] w ⟨Dict.empty, Dict.empty⟩ ∧
    (∀ path ∈ filesBelow w.disk [directory],
      path ≠ [] ∧ ∀ name ∈ path, name ≠ [] ∧ '/' ∉ name) ∧
    Prog.Exec (Undisturbed codec namesRuntime)
      ⟨w.store, ⟨Dict.empty, Dict.empty⟩, []⟩ (transferDirectory pieces50 directory)
      s' (.ret ok) := by
  subst hdirectory
  obtain ⟨⟨table₁, first⟩, s₁, hround, hcheck⟩ := watched_exec h
  obtain ⟨⟨table, second⟩, w, hround', hchecked⟩ := watched_exec hcheck
  simp only [Bool.and_eq_true, Bool.not_eq_true', decide_eq_true_eq] at hchecked
  obtain ⟨⟨⟨⟨⟨⟨⟨hunswept, hcomplete⟩, hwellFormed⟩, hnames⟩, hunsent⟩, hcount⟩, htotal⟩,
    hserved⟩ := hchecked
  have hbefore : ∀ round ∈ [(firstJob, first)], round.1.directory =
      eventDirectoryName eventName captureId time → round.1.finalJob = false := by
    simp [hnotFinal]
  have hcompleted : CompletedEvent codec compressingWorker
      (eventDirectoryName eventName captureId time)
      [(firstJob, first), (lastJob, second)] w :=
    @CompletedEvent.intro _ _ _ _ _ _ _ [(firstJob, first)] [] lastJob
      second (Dict.get?_empty _) (fun _ _ => rfl) (unstarted_blank _).absent
      (.cons hround (.cons hround' (.nil _ _))) hlast hfinal hbefore (by simp)
      hcomplete hunswept
  have hhandler : ∀ (s : Network) (op : UploadOp) (r : op.Res) (s' : Network),
      s.serve codec namesRuntime op = some (r, s') →
      Undisturbed codec namesRuntime s op r s' :=
    fun _ _ _ _ => undisturbed_serve
  obtain ⟨ok, s', hexec, -⟩ := Prog.exec_of_passes hhandler hserved
  have hstored : StoredId (eventDirectoryName eventName captureId time) w.disk := by
    intro content hread
    rw [hunsent] at hread
    cases hread
  have hhanded : ∀ record ∈ handedRecords [(firstJob, first), (lastJob, second)],
      InInt64 (timestampOf record) := by
    simpa [handedRecords] using hstamps
  exact ⟨first, second, w, s', ok, ⟨hcompleted, hnamed, hid, htime, hhanded,
    wellFormed_of_files hwellFormed, hstored, hcount, htotal, rfl, fun _ _ => rfl,
    ⟨by decide, nofun⟩⟩, hnames, hexec⟩

theorem brake_uploaded : ∃ first second w s' ok,
    Sendable headerCodec compressingWorker namesRuntime "brake" 7 1700000000000000000
      [(compressedJob, first), (brakeJob, second)] w ⟨Dict.empty, Dict.empty⟩ ∧
    (∀ path ∈ filesBelow w.disk
        [eventDirectoryName "brake" 7 (1700000000000000000 : Nat)],
      path ≠ [] ∧ ∀ name ∈ path, name ≠ [] ∧ '/' ∉ name) ∧
    Prog.Exec (Undisturbed headerCodec namesRuntime)
      ⟨w.store, ⟨Dict.empty, Dict.empty⟩, []⟩ (transferDirectory pieces50
        (eventDirectoryName "brake" 7 (1700000000000000000 : Nat))) s' (.ret ok) := by
  have hdirectory : brakeDirectory =
      eventDirectoryName "brake" 7 (1700000000000000000 : Nat) := by
    decide +kernel
  rw [← hdirectory]
  exact sendable_of_isSent (by decide +kernel) hdirectory (by decide) (by norm_num)
    (by norm_num) rfl rfl rfl rfl (by decide)

theorem completed_event_uploads_twice : ∃ first second w s' tree,
    CompletedEvent headerCodec compressingWorker
      (eventDirectoryName "brake" 7 (1700000000000000000 : Nat))
      [(compressedJob, first), (brakeJob, second)] w ∧
    Prog.Exec (Undisturbed headerCodec namesRuntime)
      ⟨w.store, ⟨Dict.empty, Dict.empty⟩, []⟩ (transferDirectory pieces50
        (eventDirectoryName "brake" 7 (1700000000000000000 : Nat))) s' (.ret true) ∧
    s'.node.inbox.get? (eventDirectoryName "brake" 7 (1700000000000000000 : Nat)) =
      some tree ∧
    Holds tree (eventDirectoryName "brake" 7 (1700000000000000000 : Nat)) w.disk := by
  obtain ⟨first, second, w, s', ok, hsendable, -, hexec⟩ := brake_uploaded
  obtain ⟨-, hdone⟩ := completed_event_uploads hsendable (by decide) hexec
  obtain ⟨rfl, tree, htree, hholds⟩ := hdone ok rfl
  exact ⟨first, second, w, s', tree, hsendable.completed, hexec, htree, hholds⟩

end Example

end DataCache.Upload
