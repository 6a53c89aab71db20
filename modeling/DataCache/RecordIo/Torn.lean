import DataCache.RecordIo.Pairs

/-!
# Torn rows

A crash can leave a part of the last row of `manifest.csv` without its
newline.  The reader notes such a row when fewer than four fields are left of
it.  From the third comma on it takes the part for a whole row, which is right
only when nothing but the comma before an empty last field is missing.
-/

namespace DataCache.RecordIo

open DataCache.Foundation DataCache.Capture DataCache.Storage

/-! ## Counting fields -/

theorem length_splitFields (current line : Bytes) :
    (splitFields current line).length = line.count (byteOf ',') + 1 := by
  induction line generalizing current with
  | nil => rfl
  | cons c line ih =>
      unfold splitFields
      by_cases hcomma : c = byteOf ','
      · simp [hcomma, ih]
      · rw [if_neg hcomma, List.count_cons_of_ne hcomma]
        split <;> rw [ih]

theorem length_splitCsvLine (line : Bytes) :
    (splitCsvLine line).length = line.count (byteOf ',') + 1 :=
  length_splitFields [] line

theorem splitCsvLine_cons {field : Bytes} (hcomma : byteOf ',' ∉ field)
    (hreturn : byteOf '\r' ∉ field) (rest : Bytes) :
    splitCsvLine (field ++ byteOf ',' :: rest) = field :: splitCsvLine rest := by
  rw [splitCsvLine, splitFields_field hcomma hreturn, List.nil_append]
  simp [splitFields, splitCsvLine]

theorem splitCsvLine_field {field : Bytes} (hcomma : byteOf ',' ∉ field)
    (hreturn : byteOf '\r' ∉ field) : splitCsvLine field = [field] := by
  have hsplit : splitCsvLine ([byteOf ','].intercalate [field]) = [field] :=
    splitCsvLine_intercalate (by simp) (by simpa using hcomma)
      (by simpa using hreturn)
  simpa using hsplit

theorem parseManifestRow_short {fields : List Bytes} (h : fields.length < 4)
    (lineNumber : Nat) :
    ∃ problem, parseManifestRow lineNumber fields = .error problem := by
  match fields, h with
  | [], _ => exact ⟨_, rfl⟩
  | [_], _ => exact ⟨_, rfl⟩
  | [_, _], _ => exact ⟨_, rfl⟩
  | [_, _, _], _ => exact ⟨_, rfl⟩

/-! ## The part that is left -/

/-- The first three fields of a row, each with its comma. -/
def rowKey (row : ManifestRow) : Bytes :=
  csvLine [sensorPrefix row.sensor, showInt row.timestampNs, row.file] ++
    [byteOf ',']

theorem csvLine_rowFields (row : ManifestRow) :
    csvLine (rowFields row) = rowKey row ++
      (encodeUtf8 (encodingText row.compressed) ++
        byteOf ',' :: encodeUtf8 row.convertedFile) := by
  simp [csvLine, rowFields, rowKey, List.intercalate_cons_cons]

theorem count_comma_key {row : ManifestRow} (h : CleanFields (rowFields row)) :
    (csvLine [sensorPrefix row.sensor, showInt row.timestampNs,
      row.file]).count (byteOf ',') = 2 := by
  have hclean : CleanFields [sensorPrefix row.sensor, showInt row.timestampNs,
      row.file] := fun c hc field hfield => h c hc field (by
    simp only [rowFields, List.mem_cons, List.not_mem_nil, or_false] at hfield ⊢
    tauto)
  have hlength := length_splitCsvLine (csvLine [sensorPrefix row.sensor,
    showInt row.timestampNs, row.file])
  rw [splitCsvLine_csvLine hclean (by simp)] at hlength
  simpa using hlength.symm

/-- A part with three commas begins with the whole key. -/
theorem key_prefix {row : ManifestRow} (hclean : CleanFields (rowFields row))
    {part : Bytes} (hpart : part <+: csvLine (rowFields row))
    (hcount : 3 ≤ part.count (byteOf ',')) : rowKey row <+: part := by
  have hkey : rowKey row <+: csvLine (rowFields row) := by
    rw [csvLine_rowFields]
    exact List.prefix_append _ _
  rcases List.prefix_or_prefix_of_prefix hkey hpart with hstarts | hstarts
  · exact hstarts
  · rcases List.prefix_concat_iff.mp hstarts with heq | hshort
    · rw [heq, rowKey]
    · have hle := hshort.sublist.count_le (byteOf ',')
      rw [count_comma_key hclean] at hle
      omega

/-- A part of two fields is a part of the first, or the first and a part of the other. -/
theorem prefix_two_fields {first second tail : Bytes}
    (h : tail <+: first ++ byteOf ',' :: second) :
    tail <+: first ∨ ∃ rest, rest <+: second ∧ tail = first ++ byteOf ',' :: rest := by
  rcases List.prefix_or_prefix_of_prefix h (List.prefix_append _ _) with
    hshort | ⟨rest, rfl⟩
  · exact .inl hshort
  · rw [List.prefix_append_right_inj] at h
    cases rest with
    | nil => exact .inl (by simp)
    | cons c rest =>
        obtain ⟨rfl, hrest⟩ := List.cons_prefix_cons.mp h
        exact .inr ⟨rest, hrest, rfl⟩

/-! ## Reported or intact -/

/--
Against what is read without the row, one more problem is noted, or one more
entry is read and it is the right one.
-/
def ReportedOrIntact (prior result : List ManifestEntry × List Bytes)
    (entry : ManifestEntry) : Prop :=
  (∃ problem, result = (prior.1, prior.2 ++ [problem])) ∨
    result = (prior.1 ++ [entry], prior.2)

theorem readList_part {before part : Bytes} (hnewline : byteOf '\n' ∉ part)
    (hne : part ≠ []) : ∃ lineNumber,
      readList parseManifestRow (some (before ++ byteOf '\n' :: part)) =
        ((readList parseManifestRow (some (before ++ [byteOf '\n']))).1 ++
            (readRows parseManifestRow lineNumber [part]).1,
          (readList parseManifestRow (some (before ++ [byteOf '\n']))).2 ++
            (readRows parseManifestRow lineNumber [part]).2) := by
  have hlines : getLines (byteOf '\n') (before ++ byteOf '\n' :: part) = _ :=
    getLines_append before part
  rw [getLines_last hnewline hne] at hlines
  simp only [readList, hlines]
  rw [List.drop_append_of_le_length (List.length_pos_iff.mpr (getLines_ne_nil _)),
    readRows_append]
  exact ⟨_, rfl⟩

theorem reportedOrIntact_ok {prior : List ManifestEntry × List Bytes}
    {read entry : ManifestEntry} :
    ReportedOrIntact prior (prior.1 ++ [read], prior.2 ++ []) entry ↔
      read = entry := by
  simp [ReportedOrIntact]

theorem splitCsvLine_part {row : ManifestRow} (hclean : CleanFields (rowFields row))
    (tail : Bytes) :
    splitCsvLine (rowKey row ++ tail) =
      encodeUtf8 (sensorPrefix row.sensor) :: encodeUtf8 (showInt row.timestampNs) ::
        encodeUtf8 row.file :: splitCsvLine tail := by
  have hcomma := hclean.not_mem (c := ',') (by simp)
  have hreturn := hclean.not_mem (c := '\r') (by simp)
  have hkey : rowKey row ++ tail = encodeUtf8 (sensorPrefix row.sensor) ++
      byteOf ',' :: (encodeUtf8 (showInt row.timestampNs) ++
        byteOf ',' :: (encodeUtf8 row.file ++ byteOf ',' :: tail)) := by
    simp [rowKey, csvLine, List.intercalate_cons_cons]
  rw [hkey]
  simp only [rowFields, List.map_cons, List.mem_cons] at hcomma hreturn
  rw [splitCsvLine_cons (hcomma _ (by simp)) (hreturn _ (by simp)),
    splitCsvLine_cons (hcomma _ (by simp)) (hreturn _ (by simp)),
    splitCsvLine_cons (hcomma _ (by simp)) (hreturn _ (by simp))]

/-- What is read of a part with three commas, and when it is the row's entry. -/
theorem parse_part {row : ManifestRow} (hclean : CleanFields (rowFields row))
    (hstamp : InInt64 row.timestampNs) {part : Bytes}
    (hpart : part <+: csvLine (rowFields row))
    (hproper : part ≠ csvLine (rowFields row))
    (hcount : 3 ≤ part.count (byteOf ',')) (lineNumber : Nat) :
    ∃ entry, parseManifestRow lineNumber (splitCsvLine part) = .ok entry ∧
      (entry = rowEntry row ↔ row.convertedFile = [] ∧
        part.length + 1 = (csvLine (rowFields row)).length) := by
  have hcomma := hclean.not_mem (c := ',') (by simp)
  have hreturn := hclean.not_mem (c := '\r') (by simp)
  simp only [rowFields, List.map_cons, List.mem_cons] at hcomma hreturn
  obtain ⟨tail, rfl⟩ := key_prefix hclean hpart hcount
  rw [csvLine_rowFields, List.prefix_append_right_inj] at hpart
  rw [csvLine_rowFields] at hproper ⊢
  have hproper : tail ≠ encodeUtf8 (encodingText row.compressed) ++
      byteOf ',' :: encodeUtf8 row.convertedFile := fun heq => hproper (by rw [heq])
  rw [splitCsvLine_part hclean]
  rcases prefix_two_fields hpart with hshort | ⟨rest, hrest, rfl⟩
  · -- The encoding is cut, or nothing is left after it.
    have htail : splitCsvLine tail = [tail] := splitCsvLine_field
      (fun hmem => hcomma _ (by simp) (hshort.subset hmem))
      (fun hmem => hreturn _ (by simp) (hshort.subset hmem))
    refine ⟨{ rowEntry row with encoding := tail, convertedFile := [] },
      by simp [parseManifestRow, htail, parseI64_showInt hstamp, rowEntry], ?_⟩
    simp only [rowEntry, ManifestEntry.mk.injEq, true_and, List.length_append,
      List.length_cons]
    constructor
    · rintro ⟨rfl, hcopy⟩
      have hcopy : row.convertedFile = [] := encodeUtf8_eq_nil.mp hcopy.symm
      simp [hcopy, Nat.add_assoc]
    · rintro ⟨hcopy, hlength⟩
      refine ⟨hshort.eq_of_length ?_, by simp [hcopy]⟩
      simp only [hcopy, encodeUtf8_nil, List.length_nil] at hlength
      omega
  · -- The converted file is cut.
    have hne : rest ≠ encodeUtf8 row.convertedFile := fun heq => hproper (by rw [heq])
    have htail : splitCsvLine (encodeUtf8 (encodingText row.compressed) ++
        byteOf ',' :: rest) =
          [encodeUtf8 (encodingText row.compressed), rest] := by
      rw [splitCsvLine_cons (hcomma _ (by simp)) (hreturn _ (by simp)),
        splitCsvLine_field (fun hmem => hcomma _ (by simp) (hrest.subset hmem))
          (fun hmem => hreturn _ (by simp) (hrest.subset hmem))]
    refine ⟨{ rowEntry row with convertedFile := rest },
      by simp [parseManifestRow, htail, parseI64_showInt hstamp, rowEntry], ?_⟩
    simp only [rowEntry, ManifestEntry.mk.injEq, true_and]
    refine iff_of_false hne ?_
    rintro ⟨hcopy, -⟩
    rw [hcopy, encodeUtf8_nil] at hrest hne
    exact hne (List.prefix_nil.mp hrest)

section Torn

variable {σ : Type} {effect : Prog.Effect FsOp.Res σ} {worker : Worker}
  {job : Job} {record : SensorData} {row : ManifestRow} {s s' : σ}
  {disk disk₀ : FileSystem} {directory : Text} {before : Bytes} {cut : Nat}

/--
A row the worker has written is cut somewhere inside.  The cut is reported, or
harmless, exactly when fewer than three commas of the row are left, or the
last field is empty and nothing but its comma and the newline are missing.
-/
theorem torn_row_handled_iff
    (hexec : Prog.Exec effect s (writeRecord worker job record) s'
      (.ret (some row))) (hstamp : InInt64 (timestampOf record))
    (hleft : 0 < cut) (hcut : cut + 2 ≤ (encodeUtf8 (renderRow row)).length)
    (hbefore : disk₀.read? (manifestPath directory) =
      some (before ++ [byteOf '\n']))
    (htorn : disk.read? (manifestPath directory) = some (before ++
      byteOf '\n' :: (encodeUtf8 (renderRow row)).take cut)) :
    ReportedOrIntact (readManifest disk₀ directory) (readManifest disk directory)
        (rowEntry row) ↔
      ((encodeUtf8 (renderRow row)).take cut).count (byteOf ',') < 3 ∨
        (row.convertedFile = [] ∧
          cut + 2 = (encodeUtf8 (renderRow row)).length) := by
  have hrow : RowOf record row :=
    (writeRecord_returns worker job record).exec hexec row rfl
  have hclean := hrow.clean
  have hstamp : InInt64 row.timestampNs := hrow.timestampNs ▸ hstamp
  rw [encodeUtf8_renderRow, List.length_append] at hcut ⊢
  rw [encodeUtf8_renderRow] at htorn
  simp only [List.length_cons, List.length_nil] at hcut ⊢
  have hpart : (csvLine (rowFields row) ++ [byteOf '\n']).take cut =
      (csvLine (rowFields row)).take cut := List.take_append_of_le_length (by omega)
  rw [hpart] at htorn ⊢
  have hstarts := List.take_prefix cut (csvLine (rowFields row))
  have hlength : ((csvLine (rowFields row)).take cut).length = cut :=
    List.length_take_of_le (by omega)
  generalize (csvLine (rowFields row)).take cut = part at *
  have hne : part ≠ [] := List.length_pos_iff.mp (by omega)
  obtain ⟨lineNumber, hread⟩ := @readList_part before part
    (fun hmem => newline_not_mem_csvLine hclean (hstarts.subset hmem)) hne
  rw [readManifest, readManifest, hbefore, htorn, hread]
  by_cases hcount : part.count (byteOf ',') < 3
  · have hshort : (splitCsvLine part).length < 4 := by
      rw [length_splitCsvLine]
      omega
    obtain ⟨problem, hproblem⟩ := parseManifestRow_short hshort lineNumber
    refine iff_of_true (.inl ⟨problem, ?_⟩) (.inl hcount)
    simp [readRows, hne, hproblem]
  · obtain ⟨entry, hentry, hiff⟩ := parse_part hclean hstamp hstarts
      (fun heq => by rw [heq] at hlength; omega) (by omega) lineNumber
    simp only [readRows, List.isEmpty_eq_false_iff.mpr hne, Bool.false_eq_true,
      if_false, hentry, reportedOrIntact_ok, hiff, hcount, false_or, hlength]
    refine and_congr_right fun _ => ?_
    omega

end Torn

/-! ### One row -/

open EventState (plainCodec)

def brakeImage : SensorData := .camera 5 (some ⟨5, 1, 1, "mono8", 1, [0]⟩)

def brakeRow : ManifestRow := ⟨.camera, 5, "camera_5.bin", false, []⟩

def manifestDisk (content : Bytes) : FileSystem :=
  (Disk.blank.create (manifestPath brakeDirectory)).append
    (manifestPath brakeDirectory) content

theorem brakeRow_written : ∃ s s', Prog.Exec (Effect plainCodec) s
    (writeRecord defaultWorker brakeJob brakeImage) s' (.ret (some brakeRow)) := by
  have hrun : Prog.passes (Store.respond plainCodec)
      (fun written _ => decide (written = some brakeRow))
      (writeRecord defaultWorker brakeJob brakeImage) madeDirectory.store = true := by
    decide +kernel
  obtain ⟨written, s', hexec, hcheck⟩ :=
    Prog.exec_of_passes (fun s op r s' => @effect_respond plainCodec s s' op r) hrun
  rw [of_decide_eq_true hcheck] at hexec
  exact ⟨madeDirectory.store, s', hexec⟩

/-- The row is cut inside its stamp. -/
theorem torn_row_handled_stamp :
    (readManifest (manifestDisk (encodeUtf8 manifestHeader ++
      (encodeUtf8 (renderRow brakeRow)).take 8)) brakeDirectory).2 ≠ [] := by
  obtain ⟨s, s', hexec⟩ := brakeRow_written
  have hprior : (manifestDisk (encodeUtf8 manifestHeader)).read?
      (manifestPath brakeDirectory) =
        some (encodeUtf8 manifestHeader.dropLast ++ [byteOf '\n']) := by
    decide +kernel
  have htorn : (manifestDisk (encodeUtf8 manifestHeader ++
      (encodeUtf8 (renderRow brakeRow)).take 8)).read?
        (manifestPath brakeDirectory) =
      some (encodeUtf8 manifestHeader.dropLast ++
        byteOf '\n' :: (encodeUtf8 (renderRow brakeRow)).take 8) := by
    decide +kernel
  have hhandled := (torn_row_handled_iff hexec (by decide) (by decide)
    (by decide +kernel) hprior htorn).mpr (.inl (by decide +kernel))
  rcases hhandled with ⟨problem, heq⟩ | heq
  · rw [heq]
    simp
  · exact absurd (congrArg (fun read => read.1.length) heq) (by decide +kernel)

/-- One byte more than the line end is missing: the encoding reads as `ra`. -/
theorem torn_encoding_unnoticed :
    ¬∀ (worker : Worker) (job : Job) (record : SensorData) (row : ManifestRow)
      (s s' : Store) (disk₀ disk : FileSystem) (directory : Text)
      (before : Bytes) (cut : Nat),
      Prog.Exec (Effect plainCodec) s (writeRecord worker job record) s'
        (.ret (some row)) → InInt64 (timestampOf record) → 0 < cut →
      cut + 2 ≤ (encodeUtf8 (renderRow row)).length →
      disk₀.read? (manifestPath directory) = some (before ++ [byteOf '\n']) →
      disk.read? (manifestPath directory) = some (before ++
        byteOf '\n' :: (encodeUtf8 (renderRow row)).take cut) →
      ReportedOrIntact (readManifest disk₀ directory) (readManifest disk directory)
        (rowEntry row) := by
  intro h
  obtain ⟨s, s', hexec⟩ := brakeRow_written
  have hread : readManifest (manifestDisk (encodeUtf8 manifestHeader ++
      (encodeUtf8 (renderRow brakeRow)).take 24)) brakeDirectory =
        ([{ rowEntry brakeRow with encoding := ascii "ra" }], []) := by
    decide +kernel
  have hprior : readManifest (manifestDisk (encodeUtf8 manifestHeader))
      brakeDirectory = ([], []) := by
    decide +kernel
  have hhandled := h _ _ _ _ s s' (manifestDisk (encodeUtf8 manifestHeader))
    (manifestDisk (encodeUtf8 manifestHeader ++
      (encodeUtf8 (renderRow brakeRow)).take 24)) brakeDirectory
    (encodeUtf8 manifestHeader.dropLast) 24 hexec (by decide) (by decide)
    (by decide +kernel) (by decide +kernel) (by decide +kernel)
  rw [hread, hprior] at hhandled
  rcases hhandled with ⟨problem, heq⟩ | heq
  · simp at heq
  · revert heq
    decide +kernel

end DataCache.RecordIo
