import Mathlib.Data.Fintype.Card
import DataCache.RecordIo.Records
import DataCache.RecordIo.Torn

/-!
# Exporting records

`record_reader --export` writes each selected record it can load as an image
or a point cloud, under a name made of the entry's sensor and stamp.  The
storage worker tells records of one stamp apart by a counter in their file
names; the export has no such counter, so a later one replaces an earlier one.
-/

namespace DataCache.RecordIo

open DataCache.Foundation DataCache.Capture DataCache.Storage

/-! ## The loop -/

structure VerifyOptions where
  sensor : Bytes
  limit : Nat

/-- What becomes of a write, and what it leaves there when it fails. -/
inductive Saving where
  | done
  | failed (left : Option Bytes)
  | thrown

/-- The message, image and point cloud libraries, and how writes turn out. -/
structure ExportRuntime where
  zstd : Zstd
  deserializeImage : Bytes → Except Bytes Image
  deserializeCloud : Bytes → Except Bytes PointCloud2
  encodePng : Image → Bytes
  encodePcd : PointCloud2 → Bytes
  saving : Place Bytes → Saving

/-- Files by their normalised places. -/
abbrev ExportFiles := Place Bytes → Option Bytes

def ExportFiles.put (files : ExportFiles) (key : Place Bytes)
    (content : Option Bytes) : ExportFiles :=
  fun other => if other = key then content else files other

structure ExportState where
  exported : Nat
  exitCode : Nat
  files : ExportFiles

section Loop

variable (runtime : ExportRuntime) (disk : FileSystem) (directory : Text)
  (exportDir : Place Bytes) (options : VerifyOptions)

/-- `none` when an exception leaves the program. -/
def save (target : Place Bytes) (content : Bytes) (files : ExportFiles) :
    Option (Bool × ExportFiles) :=
  let key := target.normal nameKind
  match runtime.saving key with
  | .done => some (true, files.put key (some content))
  | .failed left => some (false, files.put key left)
  | .thrown => none

def isExportable (image : Image) : Bool :=
  !(image.height = 0 || image.width = 0 || image.step = 0 ||
      image.step.toNat * image.height.toNat > image.data.length) &&
    convertibleEncodings.contains image.encoding

def exportImage (image : Image) (target : Place Bytes) (files : ExportFiles) :
    Option (Bool × ExportFiles) :=
  if !isExportable image then some (false, files)
  else save runtime target (runtime.encodePng image) files

def exportPointCloud (cloud : PointCloud2) (target : Place Bytes)
    (files : ExportFiles) : Option (Bool × ExportFiles) :=
  save runtime target (runtime.encodePcd cloud) files

def exportBase (entry : ManifestEntry) : Bytes :=
  entry.sensor ++ ascii "_" ++ encodeUtf8 (showInt entry.timestampNs)

/-- One record that has been loaded. -/
def exportLoaded (entry : ManifestEntry) (bytes : Bytes) (files : ExportFiles) :
    Option (Bool × ExportFiles) :=
  if entry.sensor = ascii "camera" then
    match runtime.deserializeImage bytes with
    | .error _ => some (false, files)
    | .ok image => exportImage runtime image
        (appendPath exportDir (exportBase entry ++ ascii ".png")) files
  else
    match runtime.deserializeCloud bytes with
    | .error _ => some (false, files)
    | .ok cloud => exportPointCloud runtime cloud
        (appendPath exportDir (exportBase entry ++ ascii ".pcd")) files

def exportEntry (entry : ManifestEntry) (st : ExportState) : Option ExportState :=
  match loadRecordBytes runtime.zstd disk directory entry with
  | .error _ => some { st with exitCode := 2 }
  | .ok bytes =>
      (exportLoaded runtime exportDir entry bytes st.files).map fun result =>
        if result.1 then
          { st with exported := st.exported + 1, files := result.2 }
        else { st with exitCode := 2, files := result.2 }

def isSelected (entry : ManifestEntry) : Bool :=
  options.sensor.isEmpty || entry.sensor == options.sensor

def exportLoop : List ManifestEntry → ExportState → Option ExportState
  | [], st => some st
  | entry :: rest, st =>
      if !isSelected options entry then exportLoop rest st
      else if options.limit ≠ 0 ∧ st.exported ≥ options.limit then some st
      else
        match exportEntry runtime disk directory exportDir entry st with
        | none => none
        | some st => exportLoop rest st

/-- `--export` of an event directory; the event's own files are only read. -/
def exportRecords (files : ExportFiles) : Option ExportState :=
  exportLoop runtime disk directory exportDir options
    (readManifest disk directory).1 ⟨0, 0, files⟩

/-! ## What is exported -/

/-- The data an entry is exported as, when it can be. -/
def entryData (entry : ManifestEntry) : Option Bytes :=
  match loadRecordBytes runtime.zstd disk directory entry with
  | .error _ => none
  | .ok bytes =>
      if entry.sensor = ascii "camera" then
        match runtime.deserializeImage bytes with
        | .error _ => none
        | .ok image =>
            if isExportable image then some (runtime.encodePng image) else none
      else
        match runtime.deserializeCloud bytes with
        | .error _ => none
        | .ok cloud => some (runtime.encodePcd cloud)

/-- Where an entry is exported to. -/
def exportName (entry : ManifestEntry) : Bytes :=
  exportBase entry ++
    if entry.sensor = ascii "camera" then ascii ".png" else ascii ".pcd"

def exportKey (entry : ManifestEntry) : Place Bytes :=
  (appendPath exportDir (exportName entry)).normal nameKind

def isWanted (entry : ManifestEntry) : Bool :=
  isSelected options entry && (entryData runtime disk directory entry).isSome

/-- The wanted entries up to the limit, when `exported` records are out already. -/
def chosen (exported : Nat) (entries : List ManifestEntry) :
    List ManifestEntry :=
  let wanted := entries.filter (isWanted runtime disk directory options)
  if options.limit = 0 then wanted else wanted.take (options.limit - exported)

end Loop

section Run

variable {runtime : ExportRuntime} {disk : FileSystem} {directory : Text}
  {exportDir : Place Bytes} {options : VerifyOptions}

theorem exportEntry_unwanted {entry : ManifestEntry}
    (h : entryData runtime disk directory entry = none) (st : ExportState) :
    exportEntry runtime disk directory exportDir entry st =
      some { st with exitCode := 2 } := by
  unfold entryData at h
  unfold exportEntry exportLoaded
  cases hload : loadRecordBytes runtime.zstd disk directory entry with
  | error error => rfl
  | ok bytes =>
      simp only [hload] at h ⊢
      by_cases hcamera : entry.sensor = ascii "camera"
      · simp only [hcamera, if_true] at h ⊢
        cases himage : runtime.deserializeImage bytes with
        | error error => simp
        | ok image =>
            simp only [himage] at h ⊢
            cases hvalid : isExportable image with
            | false => simp [exportImage, hvalid]
            | true => simp [hvalid] at h
      · simp only [hcamera, if_false] at h ⊢
        cases hcloud : runtime.deserializeCloud bytes with
        | error error => simp
        | ok cloud => simp [hcloud] at h

theorem exportEntry_wanted {entry : ManifestEntry} {data : Bytes}
    (h : entryData runtime disk directory entry = some data)
    (hsaved : runtime.saving (exportKey exportDir entry) = .done)
    (st : ExportState) :
    exportEntry runtime disk directory exportDir entry st =
      some { st with
        exported := st.exported + 1
        files := st.files.put (exportKey exportDir entry) (some data) } := by
  unfold entryData at h
  unfold exportKey exportName at *
  unfold exportEntry exportLoaded
  cases hload : loadRecordBytes runtime.zstd disk directory entry with
  | error error => simp [hload] at h
  | ok bytes =>
      simp only [hload] at h ⊢
      by_cases hcamera : entry.sensor = ascii "camera"
      · simp only [hcamera, if_true] at h hsaved ⊢
        cases himage : runtime.deserializeImage bytes with
        | error error => simp [himage] at h
        | ok image =>
            simp only [himage] at h ⊢
            cases hvalid : isExportable image with
            | false => simp [hvalid] at h
            | true =>
                simp only [hvalid, if_true, Option.some.injEq] at h
                simp [exportImage, hvalid, save, hsaved, h]
      · simp only [hcamera, if_false] at h hsaved ⊢
        cases hcloud : runtime.deserializeCloud bytes with
        | error error => simp [hcloud] at h
        | ok cloud =>
            simp only [hcloud, Option.some.injEq] at h
            simp [exportPointCloud, save, hsaved, h]

/-- Entries written one after another. -/
def putAll (key : ManifestEntry → Place Bytes)
    (data : ManifestEntry → Option Bytes) (entries : List ManifestEntry)
    (files : ExportFiles) : ExportFiles :=
  entries.foldl (fun files entry => files.put (key entry) (data entry)) files

section Chosen

variable {exported : Nat} {entry : ManifestEntry} {rest : List ManifestEntry}

theorem chosen_skip (h : isWanted runtime disk directory options entry = false) :
    chosen runtime disk directory options exported (entry :: rest) =
      chosen runtime disk directory options exported rest := by
  simp [chosen, h]

theorem chosen_full (hlimit : options.limit ≠ 0 ∧ exported ≥ options.limit)
    (entries : List ManifestEntry) :
    chosen runtime disk directory options exported entries = [] := by
  simp [chosen, hlimit.1, Nat.sub_eq_zero_of_le hlimit.2]

theorem chosen_cons (h : isWanted runtime disk directory options entry = true)
    (hlimit : ¬(options.limit ≠ 0 ∧ exported ≥ options.limit)) :
    chosen runtime disk directory options exported (entry :: rest) =
      entry :: chosen runtime disk directory options (exported + 1) rest := by
  unfold chosen
  rw [List.filter_cons_of_pos h]
  split
  · rfl
  · have hleft : options.limit - exported = options.limit - (exported + 1) + 1 := by
      omega
    rw [hleft, List.take_succ_cons]

theorem chosen_wanted {entries : List ManifestEntry}
    (h : entry ∈ chosen runtime disk directory options exported entries) :
    ∃ data, entryData runtime disk directory entry = some data := by
  have hmem : entry ∈ entries.filter (isWanted runtime disk directory options) := by
    unfold chosen at h
    split at h
    · exact h
    · exact List.mem_of_mem_take h
  have hwanted := (List.mem_filter.mp hmem).2
  simp only [isWanted, Bool.and_eq_true, Option.isSome_iff_exists] at hwanted
  exact hwanted.2

end Chosen

/-- When all its writes succeed, the loop writes the chosen entries in order. -/
theorem exportLoop_chosen : ∀ (entries : List ManifestEntry) (st : ExportState),
    (∀ entry ∈ chosen runtime disk directory options st.exported entries,
      runtime.saving (exportKey exportDir entry) = .done) →
    ∃ exitCode, exportLoop runtime disk directory exportDir options entries st =
      some ⟨st.exported +
          (chosen runtime disk directory options st.exported entries).length,
        exitCode, putAll (exportKey exportDir) (entryData runtime disk directory)
          (chosen runtime disk directory options st.exported entries) st.files⟩
  | [], st, _ => ⟨st.exitCode, by simp [exportLoop, chosen, putAll]⟩
  | entry :: rest, st, hsaved => by
      unfold exportLoop
      cases hselected : isSelected options entry with
      | false =>
          have hunwanted : isWanted runtime disk directory options entry = false := by
            simp [isWanted, hselected]
          rw [chosen_skip hunwanted] at hsaved ⊢
          simpa using exportLoop_chosen rest st hsaved
      | true =>
          by_cases hlimit : options.limit ≠ 0 ∧ st.exported ≥ options.limit
          · exact ⟨st.exitCode, by simp [hlimit, chosen_full hlimit, putAll]⟩
          cases hdata : entryData runtime disk directory entry with
          | none =>
              have hunwanted : isWanted runtime disk directory options entry =
                  false := by
                simp [isWanted, hdata]
              rw [chosen_skip hunwanted] at hsaved ⊢
              obtain ⟨exitCode, hrest⟩ := exportLoop_chosen rest
                { st with exitCode := 2 } hsaved
              refine ⟨exitCode, ?_⟩
              simp only [Bool.not_true, Bool.false_eq_true, if_false, hlimit,
                exportEntry_unwanted hdata]
              exact hrest
          | some data =>
              have hwanted : isWanted runtime disk directory options entry =
                  true := by
                simp [isWanted, hselected, hdata]
              rw [chosen_cons hwanted hlimit] at hsaved ⊢
              obtain ⟨exitCode, hrest⟩ := exportLoop_chosen rest { st with
                exported := st.exported + 1
                files := st.files.put (exportKey exportDir entry) (some data) }
                fun other hother => hsaved other (List.mem_cons_of_mem _ hother)
              refine ⟨exitCode, ?_⟩
              simp only [Bool.not_true, Bool.false_eq_true, if_false, hlimit,
                exportEntry_wanted hdata (hsaved entry List.mem_cons_self)]
              rw [hrest]
              simp only [putAll, List.foldl_cons, hdata, List.length_cons]
              congr 2
              omega

/-! ## Nothing is lost -/

theorem putAll_other {key : ManifestEntry → Place Bytes}
    {data : ManifestEntry → Option Bytes} {entries : List ManifestEntry}
    {place : Place Bytes} (h : place ∉ entries.map key) (files : ExportFiles) :
    putAll key data entries files place = files place := by
  induction entries generalizing files with
  | nil => rfl
  | cons entry entries ih =>
      simp only [List.map_cons, List.mem_cons, not_or] at h
      have hrest := ih h.2 (files.put (key entry) (data entry))
      rw [putAll, List.foldl_cons, ← putAll, hrest]
      simp [ExportFiles.put, h.1]

theorem putAll_own {key : ManifestEntry → Place Bytes}
    {data : ManifestEntry → Option Bytes} {entries : List ManifestEntry}
    (hnodup : (entries.map key).Nodup) {entry : ManifestEntry}
    (h : entry ∈ entries) (files : ExportFiles) :
    putAll key data entries files (key entry) = data entry := by
  induction entries generalizing files with
  | nil => cases h
  | cons first entries ih =>
      rw [List.map_cons, List.nodup_cons] at hnodup
      rw [putAll, List.foldl_cons, ← putAll]
      rcases List.mem_cons.mp h with rfl | h
      · rw [putAll_other hnodup.1]
        simp [ExportFiles.put]
      · exact ih hnodup.2 h _

/-- One file of its own below the directory for each entry, with its data. -/
def KeepsAll (exportDir : Place Bytes) (data : ManifestEntry → Option Bytes)
    (entries : List ManifestEntry) (files : ExportFiles) : Prop :=
  ∃ file : Fin entries.length → Place Bytes, Function.Injective file ∧
    ∀ i, exportDir.LiesBelow nameKind (file i) ∧ files (file i) = data entries[i]

theorem keepsAll_of_nodup {entries : List ManifestEntry}
    (hnodup : (entries.map (exportKey exportDir)).Nodup)
    (hbelow : ∀ entry ∈ entries,
      exportDir.LiesBelow nameKind (exportKey exportDir entry))
    (data : ManifestEntry → Option Bytes) (files : ExportFiles) :
    KeepsAll exportDir data entries
      (putAll (exportKey exportDir) data entries files) := by
  refine ⟨fun i => exportKey exportDir entries[i], ?_, fun i =>
    ⟨hbelow _ (List.getElem_mem _), putAll_own hnodup (List.getElem_mem _) files⟩⟩
  intro i j heq
  have hmapped : (entries.map (exportKey exportDir)).get ⟨i, by simp⟩ =
      (entries.map (exportKey exportDir)).get ⟨j, by simp⟩ := by
    simpa using heq
  exact Fin.ext (Fin.mk.inj (hnodup.get_inj_iff.mp hmapped))

theorem nodup_of_keepsAll {entries : List ManifestEntry}
    {data : ManifestEntry → Option Bytes} {files : ExportFiles}
    (hdata : ∀ entry ∈ entries, ∃ bytes, data entry = some bytes)
    (hfresh : ∀ place, exportDir.LiesBelow nameKind place → files place = none)
    (h : KeepsAll exportDir data entries
      (putAll (exportKey exportDir) data entries files)) :
    (entries.map (exportKey exportDir)).Nodup ∧ ∀ entry ∈ entries,
      exportDir.LiesBelow nameKind (exportKey exportDir entry) := by
  obtain ⟨file, hinjective, hfile⟩ := h
  have hmem : ∀ i, file i ∈ entries.map (exportKey exportDir) := by
    intro i
    by_contra hnot
    obtain ⟨hbelow, hcontent⟩ := hfile i
    rw [putAll_other hnot, hfresh _ hbelow] at hcontent
    obtain ⟨bytes, hbytes⟩ := hdata _ (List.getElem_mem i.isLt)
    rw [show data entries[i] = some bytes from hbytes] at hcontent
    cases hcontent
  have himage : Finset.univ.image file ⊆
      (entries.map (exportKey exportDir)).toFinset := by
    intro place hplace
    obtain ⟨i, -, rfl⟩ := Finset.mem_image.mp hplace
    exact List.mem_toFinset.mpr (hmem i)
  have hcard : (Finset.univ.image file).card = entries.length := by
    rw [Finset.card_image_of_injective _ hinjective, Finset.card_univ, Fintype.card_fin]
  have hle := Finset.card_le_card himage
  have hlength := (List.dedup_sublist (entries.map (exportKey exportDir))).length_le
  rw [hcard, List.card_toFinset] at hle
  rw [List.length_map] at hlength
  refine ⟨?_, fun entry hentry => ?_⟩
  · have heq : (entries.map (exportKey exportDir)).dedup =
        entries.map (exportKey exportDir) :=
      (List.dedup_sublist _).eq_of_length (by rw [List.length_map]; omega)
    exact List.dedup_eq_self.mp heq
  · have hall := Finset.eq_of_subset_of_card_le himage
      (by rw [hcard, List.card_toFinset]; omega)
    have hin : exportKey exportDir entry ∈ Finset.univ.image file := by
      rw [hall, List.mem_toFinset]
      exact List.mem_map_of_mem hentry
    obtain ⟨i, -, heq⟩ := Finset.mem_image.mp hin
    rw [← heq]
    exact (hfile i).1

/-! ## Names -/

theorem underscore_not_mem_showInt (n : Int) : '_' ∉ showInt n :=
  not_mem_showInt (by decide) (by decide) n

theorem showInt_injective : Function.Injective showInt := by
  have hminus : ∀ n rest, showNat n ≠ '-' :: rest := by
    intro n rest heq
    have hdigit := isDigit_of_mem_showNat (n := n) (c := '-') (by simp [heq])
    exact absurd hdigit (by decide)
  intro first second h
  cases first with
  | ofNat n =>
      cases second with
      | ofNat m => exact congrArg Int.ofNat (showNat_injective h)
      | negSucc m => exact absurd h (hminus _ _)
  | negSucc n =>
      cases second with
      | ofNat m => exact absurd h.symm (hminus _ _)
      | negSucc m =>
          have hnat := showNat_injective (List.cons.inj h).2
          rw [Nat.succ.inj hnat]

theorem exportName_inj {first second : ManifestEntry}
    (h : exportName first = exportName second) :
    first.sensor = second.sensor ∧ first.timestampNs = second.timestampNs := by
  have hext : ∀ sensor : Bytes, (if sensor = ascii "camera" then ascii ".png"
      else ascii ".pcd").length = 4 := by
    intro sensor
    split <;> decide
  have hstamp : ∀ n, byteOf '_' ∉ encodeUtf8 (showInt n) := fun n => by
    rw [byteOf_mem_encodeUtf8 (by decide)]
    exact underscore_not_mem_showInt n
  have hunderscore : ascii "_" = [byteOf '_'] := by decide
  obtain ⟨hbase, -⟩ := List.append_inj' h (by rw [hext, hext])
  simp only [exportBase, hunderscore, List.append_assoc, List.singleton_append]
    at hbase
  obtain ⟨hsensor, hdigits⟩ := append_cons_inj_last (hstamp _) (hstamp _) hbase
  exact ⟨hsensor, showInt_injective (encodeUtf8_injective hdigits)⟩

theorem slash_not_mem_exportName {entry : ManifestEntry}
    (h : byteOf '/' ∉ entry.sensor) : byteOf '/' ∉ exportName entry := by
  have hstamp : byteOf '/' ∉ encodeUtf8 (showInt entry.timestampNs) := by
    rw [byteOf_mem_encodeUtf8 (by decide)]
    exact not_mem_showInt (by decide) (by decide) _
  have hext : byteOf '/' ∉ (if entry.sensor = ascii "camera" then ascii ".png"
      else ascii ".pcd") := by
    split <;> decide
  have hunderscore : byteOf '/' ∉ ascii "_" := by decide
  simp only [exportName, exportBase, List.mem_append, not_or]
  exact ⟨⟨⟨h, hunderscore⟩, hstamp⟩, hext⟩

theorem nameKind_exportName (entry : ManifestEntry) :
    nameKind (exportName entry) = .down := by
  have hmem : byteOf '_' ∈ exportName entry := by
    simp [exportName, exportBase, show ascii "_" = [byteOf '_'] by decide]
  have hne : ∀ other : Bytes, byteOf '_' ∉ other → exportName entry ≠ other :=
    fun other hnot heq => hnot (heq ▸ hmem)
  simp [nameKind, hne [] (by decide), hne (ascii ".") (by decide),
    hne (ascii "/") (by decide), hne (ascii "..") (by decide)]

/-- A sensor without a slash makes the export name one plain file name. -/
theorem exportKey_of_plain {entry : ManifestEntry}
    (h : byteOf '/' ∉ entry.sensor) :
    exportKey exportDir entry = { exportDir with
      names := exportDir.normalNames nameKind ++ [exportName entry] } := by
  have hslash := slash_not_mem_exportName h
  have hdown := nameKind_exportName entry
  have hne : exportName entry ≠ [] := by
    intro hnil
    simp [hnil, nameKind] at hdown
  obtain ⟨habsolute, hcomponents⟩ := components_of_name hslash hne
  rw [exportKey, appendPath, Place.join, habsolute, hcomponents, Place.normal]
  have hnames : Place.normalNames nameKind
      { exportDir with names := exportDir.names ++ [exportName entry] } =
        exportDir.normalNames nameKind ++ [exportName entry] :=
    Place.normalNames_append nameKind exportDir (by simpa using hdown)
  simp [hnames]

theorem exportKey_below {entry : ManifestEntry} (h : byteOf '/' ∉ entry.sensor) :
    exportDir.LiesBelow nameKind (exportKey exportDir entry) := by
  rw [exportKey_of_plain h]
  exact ⟨rfl, [exportName entry], by simp,
    by simpa using nameKind_exportName entry, rfl⟩

def sensorAndStamp (entry : ManifestEntry) : Bytes × Int :=
  (entry.sensor, entry.timestampNs)

/-- Of such sensors, two entries share a file when they share sensor and stamp. -/
theorem nodup_exportKeys_iff {entries : List ManifestEntry}
    (hplain : ∀ entry ∈ entries, byteOf '/' ∉ entry.sensor) :
    (entries.map (exportKey exportDir)).Nodup ↔
      (entries.map sensorAndStamp).Nodup := by
  have hkeys : ∀ first ∈ entries, ∀ second ∈ entries,
      (exportKey exportDir first = exportKey exportDir second ↔
        sensorAndStamp first = sensorAndStamp second) := by
    intro first hfirst second hsecond
    rw [exportKey_of_plain (hplain first hfirst),
      exportKey_of_plain (hplain second hsecond)]
    constructor
    · intro heq
      have hname : exportName first = exportName second := by simpa using heq
      obtain ⟨hsensor, hstamp⟩ := exportName_inj hname
      rw [sensorAndStamp, sensorAndStamp, hsensor, hstamp]
    · intro heq
      obtain ⟨hsensor, hstamp⟩ := Prod.mk.inj heq
      rw [exportName, exportName, exportBase, exportBase, hsensor, hstamp]
  simp only [List.Nodup, List.pairwise_map]
  exact List.Pairwise.iff_of_mem fun hfirst hsecond =>
    not_congr (hkeys _ hfirst _ hsecond)

/-! ## When the export loses nothing -/

/-- The export paths of these entries are different files below the directory. -/
structure ExportsApart (exportDir : Place Bytes) (entries : List ManifestEntry) :
    Prop where
  apart : (entries.map (exportKey exportDir)).Nodup
  below : ∀ entry ∈ entries,
    exportDir.LiesBelow nameKind (exportKey exportDir entry)

/-- What this means for the sensors the worker writes. -/
theorem exportsApart_iff {entries : List ManifestEntry}
    (hplain : ∀ entry ∈ entries, byteOf '/' ∉ entry.sensor) :
    ExportsApart exportDir entries ↔ (entries.map sensorAndStamp).Nodup := by
  rw [← nodup_exportKeys_iff hplain]
  exact ⟨fun h => h.apart, fun h =>
    ⟨h, fun entry hentry => exportKey_below (hplain entry hentry)⟩⟩

/--
All writes of the loop succeed.  Each of the records it reports has a file of
its own with its data when their export paths are apart, and in a directory
that was empty only then.
-/
theorem export_keeps_all_iff {files : ExportFiles}
    (hsaved : ∀ entry ∈ chosen runtime disk directory options 0
        (readManifest disk directory).1,
      runtime.saving (exportKey exportDir entry) = .done) :
    ∃ st exported, exported = chosen runtime disk directory options 0
        (readManifest disk directory).1 ∧
      exportRecords runtime disk directory exportDir options files = some st ∧
      st.exported = exported.length ∧
      (ExportsApart exportDir exported → KeepsAll exportDir
        (entryData runtime disk directory) exported st.files) ∧
      ((∀ place, exportDir.LiesBelow nameKind place → files place = none) →
        (KeepsAll exportDir (entryData runtime disk directory) exported st.files ↔
          ExportsApart exportDir exported)) := by
  obtain ⟨exitCode, hrun⟩ := exportLoop_chosen (readManifest disk directory).1
    ⟨0, 0, files⟩ hsaved
  refine ⟨_, _, rfl, hrun, Nat.zero_add _, fun h =>
    keepsAll_of_nodup h.apart h.below _ _, fun hfresh => ⟨fun h => ?_, fun h =>
      keepsAll_of_nodup h.apart h.below _ _⟩⟩
  obtain ⟨hapart, hbelow⟩ := nodup_of_keepsAll (fun entry hentry =>
    chosen_wanted hentry) hfresh h
  exact ⟨hapart, hbelow⟩

end Run

/-! ## Two images of one stamp -/

def storedDisk (manifest : Text) (records : List (Text × Bytes)) : FileSystem :=
  ((manifestPath brakeDirectory, encodeUtf8 manifest) ::
      records.map fun record => ([brakeDirectory, record.1], record.2)).foldl
    (fun disk file => (disk.create file.1).append file.1 file.2) .blank

def plainZstd : Zstd := ⟨fun _ => .error, fun _ _ => .error [], false, fun _ => []⟩

def plainExport : ExportRuntime where
  zstd := plainZstd
  deserializeImage := fun bytes => .ok ⟨5, 1, 1, "mono8", 1, bytes⟩
  deserializeCloud := fun _ => .error []
  encodePng := Image.data
  encodePcd := PointCloud2.data
  saving := fun _ => .done

def exportDirectory : Place Bytes := ⟨true, [ascii "out"]⟩

def sameStampDisk : FileSystem :=
  storedDisk (manifestHeader ++ "camera,5,camera_5.bin,raw,\n" ++
    "camera,5,camera_5_1.bin,raw,\n") [("camera_5.bin", [1]), ("camera_5_1.bin", [2])]

theorem export_overwrites_same_stamp :
    ¬∀ (runtime : ExportRuntime) (disk : FileSystem) (directory : Text)
      (exportDir : Place Bytes) (options : VerifyOptions) (files : ExportFiles)
      (st : ExportState),
      (∀ entry ∈ chosen runtime disk directory options 0
          (readManifest disk directory).1,
        runtime.saving (exportKey exportDir entry) = .done) →
      exportRecords runtime disk directory exportDir options files = some st →
      KeepsAll exportDir (entryData runtime disk directory)
        (chosen runtime disk directory options 0 (readManifest disk directory).1)
        st.files := by
  intro h
  have hchosen : chosen plainExport sameStampDisk brakeDirectory ⟨[], 0⟩ 0
      (readManifest sameStampDisk brakeDirectory).1 =
        [⟨ascii "camera", 5, ascii "camera_5.bin", ascii "raw", []⟩,
          ⟨ascii "camera", 5, ascii "camera_5_1.bin", ascii "raw", []⟩] := by
    decide +kernel
  have hsaved : ∀ entry ∈ chosen plainExport sameStampDisk brakeDirectory ⟨[], 0⟩ 0
      (readManifest sameStampDisk brakeDirectory).1,
      plainExport.saving (exportKey exportDirectory entry) = .done :=
    fun _ _ => rfl
  obtain ⟨exitCode, hrun⟩ := exportLoop_chosen
    (readManifest sameStampDisk brakeDirectory).1
    (⟨0, 0, fun _ => none⟩ : ExportState) hsaved
  have hkeeps := h _ _ _ _ _ _ _ hsaved hrun
  rw [hchosen] at hkeeps
  obtain ⟨file, -, hfile⟩ := hkeeps
  have hfirst := (hfile ⟨0, by decide⟩).2
  have hdata : entryData plainExport sameStampDisk brakeDirectory
      ⟨ascii "camera", 5, ascii "camera_5.bin", ascii "raw", []⟩ = some [1] ∧
    entryData plainExport sameStampDisk brakeDirectory
      ⟨ascii "camera", 5, ascii "camera_5_1.bin", ascii "raw", []⟩ = some [2] := by
    decide +kernel
  have hkey : exportKey exportDirectory
      ⟨ascii "camera", 5, ascii "camera_5.bin", ascii "raw", []⟩ =
    exportKey exportDirectory
      ⟨ascii "camera", 5, ascii "camera_5_1.bin", ascii "raw", []⟩ := rfl
  simp only [putAll, List.foldl_cons, List.foldl_nil, hdata, hkey,
    ExportFiles.put] at hfirst
  split at hfirst
  · simp [hdata] at hfirst
  · simp [hdata] at hfirst

/-- Images of different stamps are all kept. -/
theorem export_keeps_all_two : ∃ st,
    exportRecords plainExport
      (storedDisk (manifestHeader ++ "camera,5,camera_5.bin,raw,\n" ++
        "camera,6,camera_6.bin,raw,\n") [("camera_5.bin", [1]), ("camera_6.bin", [2])])
      brakeDirectory exportDirectory ⟨[], 0⟩ (fun _ => none) = some st ∧
    st.exported = 2 := by
  obtain ⟨st, exported, hexported, hrun, hcount, -, -⟩ := @export_keeps_all_iff
    plainExport (storedDisk (manifestHeader ++ "camera,5,camera_5.bin,raw,\n" ++
      "camera,6,camera_6.bin,raw,\n") [("camera_5.bin", [1]), ("camera_6.bin", [2])])
    brakeDirectory exportDirectory ⟨[], 0⟩ (fun _ => none) fun _ _ => rfl
  refine ⟨st, hrun, ?_⟩
  rw [hcount, hexported]
  decide +kernel

end DataCache.RecordIo
