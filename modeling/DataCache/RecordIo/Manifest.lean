import DataCache.RecordIo.Csv
import DataCache.Foundation.Outcomes
import DataCache.Storage.Jobs

/-!
# The manifest and its reader

The worker appends one row for each stored record; `readManifest` turns every
complete row back into the entry it was written from.
-/

namespace DataCache.RecordIo

open DataCache.Foundation DataCache.Capture DataCache.Storage

/-! ## Reading -/

structure ManifestEntry where
  sensor : Bytes
  timestampNs : Int
  file : Bytes
  encoding : Bytes
  convertedFile : Bytes
  deriving DecidableEq

/-- How both readers name a line. -/
def lineOf (file : String) (lineNumber : Nat) : Bytes :=
  ascii file ++ ascii " line " ++ encodeUtf8 (showNat lineNumber) ++ ascii ": "

def parseManifestRow (lineNumber : Nat) (fields : List Bytes) :
    Except Bytes ManifestEntry :=
  match fields with
  | sensor :: timestamp :: file :: encoding :: more =>
      match parseI64 timestamp with
      | none => .error (lineOf "manifest.csv" lineNumber ++
          ascii "invalid timestamp '" ++ timestamp ++ ascii "'")
      | some timestampNs =>
          .ok ⟨sensor, timestampNs, file, encoding, more.headD []⟩
  | fields => .error (lineOf "manifest.csv" lineNumber ++
      ascii "expected at least 4 fields, got " ++
        encodeUtf8 (showNat fields.length))

/-- The entries of `manifest.csv`, and the problems noted on the way. -/
def readManifest (disk : FileSystem) (directory : Text) :
    List ManifestEntry × List Bytes :=
  readList parseManifestRow (disk.read? (manifestPath directory))

/-! ## Rows -/

deriving instance DecidableEq for ManifestRow

def encodingText (compressed : Bool) : Text :=
  if compressed then "zstd" else "raw"

def rowFields (row : ManifestRow) : List Text :=
  [sensorPrefix row.sensor, showInt row.timestampNs, row.file,
    encodingText row.compressed, row.convertedFile]

def rowEntry (row : ManifestRow) : ManifestEntry where
  sensor := encodeUtf8 (sensorPrefix row.sensor)
  timestampNs := row.timestampNs
  file := encodeUtf8 row.file
  encoding := encodeUtf8 (encodingText row.compressed)
  convertedFile := encodeUtf8 row.convertedFile

theorem encodeUtf8_renderRow (row : ManifestRow) :
    encodeUtf8 (renderRow row) = csvLine (rowFields row) ++ [byteOf '\n'] := by
  have hcomma := @encodeUtf8_cons_of_isAscii ',' (by decide)
  have hnewline := @encodeUtf8_cons_of_isAscii '\n' (by decide)
  simp [renderRow, csvLine, rowFields, encodingText, encodeUtf8_append,
    List.intercalate_cons_cons, hcomma, hnewline]
  cases row.compressed <;> rfl

/-- What the worker writes of a record: its names follow from its base name. -/
structure RowOf (record : SensorData) (row : ManifestRow) : Prop where
  sensor : row.sensor = record.type
  timestampNs : row.timestampNs = timestampOf record
  named : ∃ base, IsBaseName record base ∧
    row.file = (if row.compressed then base ++ ".bin" ++ ".zst"
      else base ++ ".bin") ∧
    (row.convertedFile = [] ∨ ∃ ending ∈ copyEndings,
      row.convertedFile = joinPath [convertedDirectory record.type, base ++ ending])

theorem freshBaseName_returns {directory : Text} {record : SensorData} :
    ∀ (tries duplicate : Nat) {name : Text}, IsBaseName record name →
      duplicate + tries ≤ 2 ^ 64 →
      (freshBaseName directory (basePrefix record) tries duplicate name).returns
        (IsBaseName record)
  | 0, _, _, _, _ => fun never => never.elim
  | tries + 1, duplicate, name, hname, hle => by
      refine Prog.returns_bind (Prog.returns_true _) fun taken _ => ?_
      cases taken with
      | false => exact hname
      | true =>
          exact freshBaseName_returns tries (duplicate + 1)
            (.inr ⟨duplicate + 1, by omega, rfl⟩) (by omega)

theorem convertRecord_returns (job : Job) (record : SensorData) (base : Text) :
    (convertRecord job record base).returns fun copy => copy = [] ∨
      ∃ ending ∈ copyEndings,
        copy = joinPath [convertedDirectory record.type, base ++ ending] := by
  unfold convertRecord
  split
  · exact .inl rfl
  refine Prog.returns_bind (Prog.returns_true _) fun created _ => ?_
  cases created with
  | false => exact .inl rfl
  | true =>
      refine Prog.returns_bind (Prog.returns_true _) fun converted _ => ?_
      cases converted with
      | false => exact .inl rfl
      | true => exact .inr ⟨_, convertedExtension_mem job record.type, rfl⟩

theorem writeRecord_returns (worker : Worker) (job : Job) (record : SensorData) :
    (writeRecord worker job record).returns fun written =>
      ∀ row, written = some row → RowOf record row := by
  refine Prog.returns_bind (Prog.returns_true _) fun bytes _ => ?_
  refine Prog.returns_bind
    (freshBaseName_returns (2 ^ 64) 0 (.inl rfl) (by omega)) fun base hbase => ?_
  refine Prog.returns_bind (Prog.returns_true _) fun compressed _ => ?_
  refine Prog.returns_bind (Prog.returns_true _) fun stored _ => ?_
  cases stored with
  | false => exact nofun
  | true =>
      refine Prog.returns_bind (convertRecord_returns job record base)
        fun copy hcopy => ?_
      rintro row ⟨⟩
      exact ⟨rfl, rfl, base, hbase, by cases compressed <;> rfl, hcopy⟩

/-! ### A whole row -/

/-- The separators occur in none of the fixed parts of a row. -/
structure Separates (c : Char) : Prop where
  digit : c.isDigit = false
  minus : c ≠ '-'
  slash : c ≠ '/'
  sensor : ∀ type, c ∉ sensorPrefix type ++ ("_" : Text)
  directory : ∀ type, c ∉ convertedDirectory type
  encoding : ∀ compressed, c ∉ encodingText compressed
  endings : ∀ ending ∈ storedEndings ++ copyEndings, c ∉ ending

theorem separates {c : Char} (hc : c ∈ [',', '\r', '\n']) : Separates c := by
  simp only [List.mem_cons, List.not_mem_nil, or_false] at hc
  rcases hc with rfl | rfl | rfl <;>
    exact ⟨by decide, by decide, by decide, by rintro (_ | _) <;> decide,
      by rintro (_ | _) <;> decide, by decide, by decide⟩

theorem RowOf.clean {record : SensorData} {row : ManifestRow}
    (h : RowOf record row) : CleanFields (rowFields row) := by
  intro c hc
  have hsep := separates hc
  obtain ⟨base, hbase, hfile, hcopy⟩ := h.named
  have hbase : c ∉ base := hbase.not_mem hsep.digit hsep.minus hsep.sensor
  simp only [rowFields, List.mem_cons, List.not_mem_nil, or_false]
  rintro field (rfl | rfl | rfl | rfl | rfl)
  · exact fun hmem => hsep.sensor _ (List.mem_append_left _ hmem)
  · exact not_mem_showInt hsep.digit hsep.minus _
  · have hraw := hsep.endings ".bin" (by simp [storedEndings])
    have hzst := hsep.endings ".bin.zst" (by simp [storedEndings])
    rw [hfile]
    split
    · rw [List.append_assoc, List.mem_append, not_or]
      exact ⟨hbase, hzst⟩
    · rw [List.mem_append, not_or]
      exact ⟨hbase, hraw⟩
  · exact hsep.encoding _
  · rcases hcopy with hnone | ⟨ending, hending, hcopy⟩
    · simp [hnone]
    · have hending := hsep.endings ending (List.mem_append_right _ hending)
      rw [hcopy, joinPath]
      refine not_mem_intercalate (by simpa using hsep.slash) fun part hpart => ?_
      simp only [List.mem_cons, List.not_mem_nil, or_false] at hpart
      rcases hpart with rfl | rfl
      · exact hsep.directory _
      · rw [List.mem_append, not_or]
        exact ⟨hbase, hending⟩

theorem parseManifestRow_rowFields {row : ManifestRow}
    (hclean : CleanFields (rowFields row)) (hstamp : InInt64 row.timestampNs)
    (lineNumber : Nat) :
    parseManifestRow lineNumber (splitCsvLine (csvLine (rowFields row))) =
      .ok (rowEntry row) := by
  rw [splitCsvLine_csvLine hclean (by simp [rowFields])]
  simp [parseManifestRow, rowFields, parseI64_showInt hstamp, rowEntry]

theorem csvLine_rowFields_ne_nil (row : ManifestRow) :
    csvLine (rowFields row) ≠ [] := by
  simp [csvLine, rowFields, List.intercalate_cons_cons]

theorem manifestHeader_eq : encodeUtf8 manifestHeader =
    encodeUtf8 manifestHeader.dropLast ++ [byteOf '\n'] := by
  decide +kernel

theorem newline_not_mem_manifestHeader :
    byteOf '\n' ∉ encodeUtf8 manifestHeader.dropLast := by
  decide +kernel

/-- What the worker has listed is read without problems. -/
theorem readManifest_of_manifestBytes {disk : FileSystem} {directory : Text}
    {entries : List Storage.Entry}
    (hread : disk.read? (manifestPath directory) = some (manifestBytes entries))
    (hrows : ∀ entry ∈ entries, CleanFields (rowFields entry.row) ∧
      InInt64 entry.row.timestampNs) :
    readManifest disk directory =
      (entries.map fun entry => rowEntry entry.row, []) := by
  have hbytes : manifestBytes entries = encodeUtf8 manifestHeader ++
      entries.flatMap fun entry => encodeUtf8 (renderRow entry.row) := by
    rw [manifestBytes, encodeUtf8_append]
    simp [encodeUtf8, List.flatMap_assoc]
  rw [readManifest, hread, hbytes, manifestHeader_eq]
  simp only [encodeUtf8_renderRow]
  exact readList_written newline_not_mem_manifestHeader fun entry hentry =>
    ⟨newline_not_mem_csvLine (hrows entry hentry).1,
      csvLine_rowFields_ne_nil entry.row,
      parseManifestRow_rowFields (hrows entry hentry).1 (hrows entry hentry).2⟩

end DataCache.RecordIo
