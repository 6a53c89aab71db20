import DataCache.Upload.Completed

/-!
# Reading the copy

The copy that the receiver publishes is at another place and has no markers.
The verifier and the reader need nothing else than what was sent: on the copy
they find what they find on the recording.
-/

namespace DataCache.RecordIo

open DataCache.Foundation DataCache.Capture DataCache.Storage

variable {disk copy : FileSystem} {directory place : Text} {entry : ManifestEntry}

/-! ## Two directories that read alike -/

theorem loadRecordBytes_congr (zstd : Zstd)
    (h : fileAt copy place entry.file = fileAt disk directory entry.file) :
    loadRecordBytes zstd copy place entry = loadRecordBytes zstd disk directory entry := by
  unfold loadRecordBytes
  rw [h]

theorem ReadsBack.congr {zstd : Zstd} {codec : Codec} {record : SensorData}
    (hback : ReadsBack zstd codec disk directory record entry)
    (h : fileAt copy place entry.file = fileAt disk directory entry.file) :
    ReadsBack zstd codec copy place record entry where
  sensor := hback.sensor
  timestampNs := hback.timestampNs
  stored := by
    rw [h]
    exact hback.stored
  loaded hsmall hfits := by
    rw [loadRecordBytes_congr zstd h]
    exact hback.loaded hsmall (h ▸ hfits)

end DataCache.RecordIo

namespace DataCache.Upload

open DataCache.Foundation DataCache.Capture DataCache.Storage DataCache.RecordIo

/-! ## The copy -/

theorem visible_of_shown {path : Path} (h : Shown path) : isMarkerOrTemp path = false := by
  obtain ⟨hhead, htemp⟩ := h
  simp only [isMarkerOrTemp, Bool.or_eq_false_iff, Bool.and_eq_false_iff,
    beq_eq_false_iff_ne]
  exact ⟨.inr hhead, htemp⟩

/-- A stored file of a record is sent with the event. -/
theorem visible_stored {record : SensorData} {base ending : Text}
    (hbase : IsBaseName record base) (hending : ending ∈ storedEndings) :
    isMarkerOrTemp [base ++ ending] = false := by
  have hextension : extension (base ++ ending) ≠ ".tmp" := by
    have htails : ∀ tail : Text, ((base ++ ending).reverse.takeWhile fun c =>
        decide (c ≠ '.')).reverse = tail → tail ≠ "tmp" →
        extension (base ++ ending) ≠ ".tmp" := by
      intro tail htail hne
      unfold extension
      rw [htail]
      dsimp only
      split
      · decide
      · exact fun heq => hne (List.cons.inj heq).2
    simp only [storedEndings, List.mem_cons, List.not_mem_nil, or_false] at hending
    rcases hending with rfl | rfl
    · refine htails "bin" ?_ (by decide)
      rw [List.reverse_append]
      rfl
    · refine htails "zst" ?_ (by decide)
      rw [List.reverse_append]
      rfl
  obtain ⟨c, rest, hname, hdot⟩ := hbase.plain.append ending
  refine visible_of_shown ⟨?_, hextension⟩
  change (base ++ ending).head? ≠ some '.'
  rw [hname]
  exact fun heq => hdot (Option.some.inj heq)

/-- At another place, what is sent of a directory. -/
structure CopyOf (disk : FileSystem) (directory : Text) (copy : FileSystem)
    (place : Text) : Prop where
  read : ∀ path, path ≠ [] → isMarkerOrTemp path = false →
    copy.read? (place :: path) = disk.read? (directory :: path)

section Copy

variable {disk copy : FileSystem} {directory place : Text}

theorem CopyOf.isFile (h : CopyOf disk directory copy place) {path : Path}
    (hne : path ≠ []) (hvisible : isMarkerOrTemp path = false) :
    copy.isFile (place :: path) = disk.isFile (directory :: path) := by
  rw [Disk.isFile, Disk.isFile, h.read path hne hvisible]

theorem CopyOf.readManifest (h : CopyOf disk directory copy place) :
    RecordIo.readManifest copy place = RecordIo.readManifest disk directory := by
  have hread : copy.read? (manifestPath place) = disk.read? (manifestPath directory) :=
    h.read ["manifest.csv"] (List.cons_ne_nil _ _) (by decide)
  unfold RecordIo.readManifest
  rw [hread]

/-- The file of a row of the worker's. -/
theorem CopyOf.fileAt (h : CopyOf disk directory copy place) {codec : Codec}
    {record : SensorData} {base : Text} {row : ManifestRow}
    (hrow : Recorded codec directory record base row disk) :
    RecordIo.fileAt copy place (rowEntry row).file =
      RecordIo.fileAt disk directory (rowEntry row).file := by
  have hname : ∃ ending ∈ storedEndings, row.file = base ++ ending := by
    cases hrow.stored with
    | raw _ hfile => exact ⟨_, by simp [storedEndings], hfile⟩
    | zstd _ _ hfile => exact ⟨_, by simp [storedEndings], hfile⟩
  obtain ⟨ending, hending, hfile⟩ := hname
  obtain ⟨-, -, hslash, hne⟩ :=
    isUnsafePart_named hrow.named (List.mem_append_left _ hending)
  have hentry : (rowEntry row).file = encodeUtf8 (base ++ ending) := by
    rw [rowEntry, hfile]
  rw [hentry, fileAt_name hslash hne, fileAt_name hslash hne]
  exact h.read [base ++ ending] (List.cons_ne_nil _ _)
    (visible_stored hrow.named hending)

end Copy

/-- The libraries read what the encoders write, and the messages pass the checks. -/
structure Legible (runtime : VerifyRuntime) (codec : Codec)
    (records : List SensorData) : Prop where
  inverts : Inverts runtime.zstd codec
  deserializes : ∀ record ∈ records, Deserializes runtime codec record
  consistent : ∀ record ∈ records, Consistent record
  serialized : ∀ record ∈ records, (codec.serialize record).length ≤ kMaxRecordBytes
  compressed : ∀ record ∈ records, ∀ level,
    (codec.compress level (codec.serialize record)).length ≤ kMaxRecordBytes

section Completed

variable {codec : Codec} {worker : Storage.Worker} {directory place : Text}
  {rounds : List (Job × Processed)} {w : Watched} {copy : FileSystem}
  {verifier : VerifyRuntime} {tree : Tree}

/-- The stored file of a legible record is small enough to be loaded. -/
theorem Legible.loaded {records : List SensorData} {record : SensorData}
    {entry : ManifestEntry} {disk : FileSystem}
    (h : Legible verifier codec records) (hrecord : record ∈ records)
    (hback : ReadsBack verifier.zstd codec disk directory record entry) :
    loadRecordBytes verifier.zstd disk directory entry = .ok (codec.serialize record) := by
  refine hback.loaded (h.serialized _ hrecord) fun content hcontent => ?_
  rcases hback.stored with ⟨-, hraw⟩ | ⟨-, level, hzstd⟩
  · rw [Option.some.inj (hcontent.symm.trans hraw)]
    exact h.serialized _ hrecord
  · rw [Option.some.inj (hcontent.symm.trans hzstd)]
    exact h.compressed _ hrecord _

end Completed

/-! ### One record twice, read from the copy -/

section Example

variable {disk : FileSystem} {directory : Text}

end Example

end DataCache.Upload
