import DataCache.Storage.Files

/-!
# Storing one record

A record gets a base name no earlier record has, one stored file and perhaps a
converted copy; everything it writes carries the base name.
-/

namespace DataCache.Storage

open DataCache.Foundation DataCache.Capture

/-! ## Base names -/

/-- The sensor and timestamp, with a counter for duplicates. -/
def IsBaseName (record : SensorData) (base : Text) : Prop :=
  base = basePrefix record ∨
    ∃ n, n ≤ 2 ^ 64 ∧ base = basePrefix record ++ "_" ++ showNat n

theorem not_mem_showNat {c : Char} (hdigit : c.isDigit = false) (n : Nat) :
    c ∉ showNat n := fun h => by
  rw [isDigit_of_mem_showNat h] at hdigit
  cases hdigit

theorem not_mem_showInt {c : Char} (hdigit : c.isDigit = false) (hminus : c ≠ '-') :
    ∀ n : Int, c ∉ showInt n
  | .ofNat n => not_mem_showNat hdigit n
  | .negSucc n => by
      rw [showInt, List.mem_cons, not_or]
      exact ⟨hminus, not_mem_showNat hdigit _⟩

theorem not_mem_basePrefix {c : Char} (hdigit : c.isDigit = false)
    (hminus : c ≠ '-') (hstart : ∀ type, c ∉ sensorPrefix type ++ ("_" : Text))
    (record : SensorData) : c ∉ basePrefix record := by
  rw [basePrefix, List.mem_append, not_or]
  exact ⟨hstart _, not_mem_showInt hdigit hminus _⟩

theorem underscore_mem_basePrefix (record : SensorData) :
    '_' ∈ basePrefix record := by
  simp [basePrefix]

theorem plain_basePrefix (record : SensorData) : Plain (basePrefix record) := by
  cases record with
  | camera timestamp image => exact ⟨'c', _, rfl, by decide⟩
  | lidar timestamp cloud => exact ⟨'l', _, rfl, by decide⟩

namespace IsBaseName

variable {record : SensorData} {base : Text}

theorem plain (h : IsBaseName record base) : Plain base := by
  rcases h with rfl | ⟨n, -, rfl⟩
  · exact plain_basePrefix record
  · exact ((plain_basePrefix record).append _).append _

theorem not_mem {c : Char} (h : IsBaseName record base)
    (hdigit : c.isDigit = false) (hminus : c ≠ '-')
    (hstart : ∀ type, c ∉ sensorPrefix type ++ ("_" : Text)) : c ∉ base := by
  have hfront := not_mem_basePrefix hdigit hminus hstart record
  rcases h with rfl | ⟨n, -, rfl⟩
  · exact hfront
  · have hunderscore : c ∉ ("_" : Text) := fun h =>
      hstart .camera (List.mem_append_right _ h)
    simp only [List.mem_append, not_or]
    exact ⟨⟨hfront, hunderscore⟩, not_mem_showNat hdigit n⟩

theorem dot_not_mem (h : IsBaseName record base) : '.' ∉ base :=
  h.not_mem (by decide) (by decide) (by rintro (_ | _) <;> decide)

theorem slash_not_mem (h : IsBaseName record base) : '/' ∉ base :=
  h.not_mem (by decide) (by decide) (by rintro (_ | _) <;> decide)

theorem underscore_mem (h : IsBaseName record base) : '_' ∈ base := by
  rcases h with rfl | ⟨n, -, rfl⟩
  · exact underscore_mem_basePrefix record
  · simp [underscore_mem_basePrefix]

end IsBaseName

/-- A name up to its first dot. -/
def stem (name : Text) : Text := name.takeWhile fun c => decide (c ≠ '.')

theorem stem_append {base : Text} (h : '.' ∉ base) (ending : Text) :
    stem (base ++ '.' :: ending) = base := by
  unfold stem
  rw [List.takeWhile_append_of_pos]
  · simp
  · intro c hc
    simp only [decide_eq_true_eq]
    exact fun heq => h (heq ▸ hc)

/-! ## The paths of one record -/

def storedEndings : List Text := [".bin", ".bin.zst"]

def copyEndings : List Text := [".jpg", ".png", ".pcd"]

def StoredPath (directory base : Text) (path : Path) : Prop :=
  ∃ ending ∈ storedEndings, AtOrTemp [directory, base ++ ending] path

def CopyPath (directory : Text) (type : SensorType) (base : Text)
    (path : Path) : Prop :=
  ∃ ending ∈ copyEndings,
    AtOrTemp [directory, convertedDirectory type, base ++ ending] path

def RecordPath (directory : Text) (type : SensorType) (base : Text)
    (path : Path) : Prop :=
  path <+: [directory, convertedDirectory type] ∨
    StoredPath directory base path ∨ CopyPath directory type base path

theorem ending_dot : ∀ ending ∈ storedEndings ++ copyEndings,
    ∃ rest, ending = '.' :: rest := by
  simp [storedEndings, copyEndings]

theorem IsBaseName.stem_ending {record : SensorData} {base ending : Text}
    (h : IsBaseName record base) (hending : ending ∈ storedEndings ++ copyEndings) :
    Storage.stem (base ++ ending) = base := by
  obtain ⟨rest, rfl⟩ := ending_dot ending hending
  exact stem_append h.dot_not_mem rest

theorem stem_of_atOrTemp {front : Path} {base ending : Text} {path : Path}
    (hbase : '.' ∉ base) (hending : ∃ rest, ending = '.' :: rest)
    (h : AtOrTemp (front ++ [base ++ ending]) path) :
    stem (path.getLastD []) = base := by
  obtain ⟨rest, rfl⟩ := hending
  rcases h with rfl | rfl
  · simp [stem_append hbase]
  · simp [tempPath, stem_append hbase]

/-- A record's files carry its base name, and lie at one of two depths. -/
theorem RecordPath.stem {directory : Text} {type : SensorType} {base : Text}
    {path : Path} (hbase : '.' ∉ base)
    (h : RecordPath directory type base path) :
    path <+: [directory, convertedDirectory type] ∨
      Storage.stem (path.getLastD []) = base := by
  rcases h with hstart | ⟨ending, hending, hpath⟩ | ⟨ending, hending, hpath⟩
  · exact .inl hstart
  · exact .inr (@stem_of_atOrTemp [directory] _ _ _ hbase
      (ending_dot ending (List.mem_append_left _ hending)) hpath)
  · exact .inr (@stem_of_atOrTemp [directory, convertedDirectory type] _ _ _ hbase
      (ending_dot ending (List.mem_append_right _ hending)) hpath)

/-! ## Frames and kept files -/

section Keeping

variable {directory : Text} {touched : Path → Prop} {s s' : Watched}

theorem Frame.kept (h : Frame directory touched s s') (hswept : s'.swept = false)
    {path : Path} {data : Bytes} (howned : Owned directory path)
    (hpath : ¬touched path) (hkept : Kept path data s.disk) :
    Kept path data s'.disk :=
  hkept.of_sameAt (h.same hswept path howned hpath)

theorem Does.within {α : Type} {codec : Codec} {touched' : Path → Prop}
    {p : Action α} {post : α → Watched → Prop}
    (h : Does codec directory touched p s post)
    (hsub : ∀ path, touched path → touched' path) :
    Does codec directory touched' p s fun value s' =>
      post value s' ∧ Frame directory touched s s' :=
  (h.mono fun _ _ _ hframe hpost => ⟨hpost, hframe⟩).widen hsub

end Keeping

/-! ## Naming and storing -/

def Fresh (directory base : Text) (s : Watched) : Prop :=
  ∀ ending ∈ storedEndings, s.disk.node? [directory, base ++ ending] = none

section Programs

variable {codec : Codec} {directory : Text} {s : Watched}

theorem quiet_confined {touched : Path → Prop} {op : FsOp}
    (hremoval : ∀ target, op ≠ .removeAll target)
    (htouches : ∀ path, ¬op.Touches path) : Confined directory touched op :=
  confined_of hremoval fun path h => absurd h (htouches path)

theorem nullPointer_does {α : Type} {touched : Path → Prop}
    {post : α → Watched → Prop} :
    Does codec directory touched nullPointer s post :=
  fun never => never.elim

theorem existsOrThrow_does {path : Path} (howned : Owned directory path) :
    Does codec directory (fun _ => False) (existsOrThrow path) s
      fun found _ => (s.disk.node? path).isSome = found := by
  refine Does.perform (quiet_confined nofun fun _ => id)
    fun found s' heffect _ _ => ?_
  cases found with
  | none => exact Does.raise
  | some found => exact Does.pure fun _ => heffect.pathExists howned

theorem isTaken_does {name : Text} (hplain : Plain name) :
    Does codec directory (fun _ => False) (isTaken directory name) s
      fun taken s' => taken = false → Fresh directory name s' := by
  have howned : ∀ ending, Owned directory [directory, name ++ ending] :=
    fun ending => owned_child (hplain.append ending)
  refine Does.bind (existsOrThrow_does (howned ".bin")) ?_
  rintro (_ | _) s₁ - hframe₁ hraw
  · refine (existsOrThrow_does (howned ".bin.zst")).mono ?_
    rintro _ s₂ hswept₂ hframe₂ hcompressed rfl ending hending
    have hsame₂ := hframe₂.same hswept₂ _ (howned ending) id
    have hsame₁ := hframe₁.same (hframe₂.swept hswept₂) _ (howned ending) id
    rw [hsame₂.node]
    rcases List.mem_cons.mp hending with rfl | hending
    · rw [hsame₁.node]
      simpa using hraw
    · obtain rfl := List.mem_singleton.mp hending
      simpa using hcompressed
  · exact Does.pure fun _ => nofun

theorem freshBaseName_does {front : Text} (hfront : Plain front) :
    ∀ (tries duplicate : Nat) {s : Watched} {name : Text}, Plain name →
      Does codec directory (fun _ => False)
        (freshBaseName directory front tries duplicate name) s
        fun base s' => Fresh directory base s' ∧ (base = name ∨
          ∃ n, n ≤ duplicate + tries ∧ base = front ++ "_" ++ showNat n)
  | 0, _, _, _, _ => nullPointer_does
  | tries + 1, duplicate, s, name, hname => by
      refine Does.bind (isTaken_does hname) ?_
      rintro (_ | _) s₁ - - hfresh
      · exact Does.pure fun _ => ⟨hfresh rfl, .inl rfl⟩
      · refine (freshBaseName_does hfront tries (duplicate + 1)
          ((hfront.append _).append _)).mono ?_
        rintro base s₂ - - ⟨hfresh, hbase⟩
        refine ⟨hfresh, .inr ?_⟩
        rcases hbase with rfl | ⟨n, hn, rfl⟩
        · exact ⟨duplicate + 1, by omega, rfl⟩
        · exact ⟨n, by omega, rfl⟩

theorem orThrow_does {α β : Type} {touched : Path → Prop}
    {response : Except StorageError α} {next : α → Action β}
    {post : β → Watched → Prop}
    (h : ∀ value, response = .ok value →
      Does codec directory touched (next value) s post) :
    Does codec directory touched (orThrow response >>= next) s post := by
  cases response with
  | ok value => exact h value rfl
  | error error => exact Does.raise

theorem serializeRecord_does (record : SensorData) :
    Does codec directory (fun _ => False) (serializeRecord record) s
      fun bytes _ => bytes = codec.serialize record := by
  unfold serializeRecord
  split
  · exact nullPointer_does
  · exact nullPointer_does
  · refine Does.perform (quiet_confined nofun fun _ => id)
      fun response s₁ heffect _ _ => ?_
    cases response with
    | ok bytes => exact Does.pure fun _ => heffect.serialize
    | error error => exact Does.raise

variable {base : Text} (job : Job)

theorem storeCompressed_does (worker : Worker) {bytes : Bytes}
    (hbase : Plain base) :
    Does codec job.directory
      (AtOrTemp [job.directory, base ++ ".bin" ++ ".zst"])
      (storeCompressed worker job (base ++ ".bin") bytes) s fun ok s' =>
        ok = true → Kept [job.directory, base ++ ".bin" ++ ".zst"]
          (codec.compress job.compressionLevel bytes) s'.disk := by
  unfold storeCompressed
  split
  · exact Does.pure fun _ => nofun
  refine Does.perform (quiet_confined nofun fun _ => id)
    fun response s₁ heffect _ _ => ?_
  refine orThrow_does fun compressed h => ?_
  subst h
  cases compressed with
  | none => exact Does.pure fun _ => nofun
  | some compressed =>
      rw [← heffect.compress]
      exact writeAtomically_does compressed
        (owned_child ((hbase.append _).append _))
        (owned_child (((hbase.append _).append _).append ".tmp"))

theorem storeRaw_does {needed : Bool} {name : Text} {bytes : Bytes}
    (hname : Plain name) :
    Does codec directory (AtOrTemp [directory, name])
      (storeRaw needed [directory, name] bytes) s fun ok s' =>
        ok = true → needed = true → Kept [directory, name] bytes s'.disk := by
  unfold storeRaw
  split
  · exact (writeAtomically_does bytes (owned_child hname)
      (owned_child (hname.append ".tmp"))).mono fun _ _ _ _ h hok _ => h hok
  next hneeded => exact Does.pure fun _ _ h => absurd h hneeded

/-! ## Converted copies -/

theorem convertImage_does {image : Image} {subdirectory : Text}
    (hbase : Plain base) :
    Does codec directory
      (AtOrTemp [directory, subdirectory, base ++ imageExtension job.imageFormat])
      (convertImage image [directory, subdirectory] base job) s fun ok s' =>
        ok = true → ∃ data, Kept [directory, subdirectory,
          base ++ imageExtension job.imageFormat] data s'.disk := by
  unfold convertImage
  split
  · exact Does.pure fun _ => nofun
  split
  · exact Does.pure fun _ => nofun
  refine Does.perform (quiet_confined nofun fun _ => id)
    fun response s₁ heffect _ _ => ?_
  refine orThrow_does fun encoded _ => ?_
  cases encoded with
  | none => exact Does.pure fun _ => nofun
  | some encoded =>
      exact (writeAtomically_does encoded (owned_grandchild (hbase.append _))
        (owned_grandchild ((hbase.append _).append ".tmp"))).mono
        fun _ _ _ _ h hok => ⟨encoded, h hok⟩

theorem convertPointCloud_does {cloud : PointCloud2} {subdirectory : Text}
    (hbase : Plain base) :
    Does codec directory (AtOrTemp [directory, subdirectory, base ++ ".pcd"])
      (convertPointCloud cloud [directory, subdirectory] base job) s fun ok s' =>
        ok = true → ∃ data, Kept [directory, subdirectory, base ++ ".pcd"] data
          s'.disk := by
  have htarget : Owned directory [directory, subdirectory, base ++ ".pcd"] :=
    owned_grandchild (hbase.append _)
  have htemp : Owned directory
      [directory, subdirectory, base ++ ".pcd" ++ ".tmp"] :=
    owned_grandchild ((hbase.append _).append _)
  unfold convertPointCloud
  split
  · exact Does.pure fun _ => nofun
  refine Does.perform (confined_of nofun fun _ h => .inr h)
    fun response s₁ hsave _ _ => ?_
  refine orThrow_does fun saved h => ?_
  subst h
  cases saved with
  | false =>
      exact Does.perform (confined_of nofun fun _ h => .inr h)
        fun _ _ _ _ _ => Does.pure fun _ => nofun
  | true =>
      obtain ⟨content, hread⟩ := hsave.savePcd htemp
      obtain ⟨inode, synced, hnode⟩ := Disk.node?_of_read? hread
      refine Does.perform (confined_of nofun fun _ h => h.symm)
        fun renamed s₂ hrename _ _ => ?_
      cases renamed with
      | false =>
          exact Does.bind (removeOrThrow_does (.inr rfl)) fun _ _ _ _ _ =>
            Does.pure fun _ => nofun
      | true =>
          -- The copy is renamed before its bytes are synced.
          have hnode₂ := hrename.rename htemp htarget hnode
          refine Does.perform (confined_of nofun fun _ h => .inl h)
            fun _ s₃ hsync _ _ => ?_
          obtain ⟨inode, hnode₃⟩ :=
            hsync.syncFile htarget (Disk.read?_of_node? hnode₂)
          refine Does.perform (quiet_confined nofun fun _ => id)
            fun _ s₄ hsyncDir _ _ => Does.pure fun _ _ => ?_
          exact ⟨content, ⟨inode, (hsyncDir.sameAt htarget id).node.trans hnode₃⟩,
            hsyncDir.syncDirectory _ htarget rfl⟩

theorem convertMessage_does {record : SensorData} {subdirectory : Text}
    (hbase : Plain base) :
    Does codec job.directory
      (AtOrTemp [job.directory, subdirectory,
        base ++ convertedExtension job record.type])
      (convertMessage record [job.directory, subdirectory] base job) s
      fun ok s' => ok = true → ∃ data, Kept [job.directory, subdirectory,
        base ++ convertedExtension job record.type] data s'.disk := by
  unfold convertMessage
  split
  · exact convertImage_does job hbase
  · exact convertPointCloud_does job hbase
  · exact nullPointer_does
  · exact nullPointer_does

theorem convertedExtension_mem (type : SensorType) :
    convertedExtension job type ∈ copyEndings := by
  cases type with
  | camera =>
      simp only [convertedExtension, imageExtension]
      split <;> simp [copyEndings]
  | lidar => simp [convertedExtension, copyEndings]

/-- No copy, or one that is kept under the name the row gives. -/
def Copied (directory : Text) (type : SensorType) (base copy : Text)
    (disk : FileSystem) : Prop :=
  copy = [] ∨ ∃ ending ∈ copyEndings,
    copy = joinPath [convertedDirectory type, base ++ ending] ∧
    disk.isDir [directory, convertedDirectory type] = true ∧
    ∃ data, Kept [directory, convertedDirectory type, base ++ ending] data disk

theorem owned_convertedDirectory (directory : Text) (type : SensorType) :
    Owned directory [directory, convertedDirectory type] := by
  refine owned_child ?_
  cases type
  · exact ⟨'i', _, rfl, by decide⟩
  · exact ⟨'p', _, rfl, by decide⟩

theorem convertRecord_does {record : SensorData} (hbase : Plain base) :
    Does codec job.directory
      (fun path => path <+: [job.directory, convertedDirectory record.type] ∨
        CopyPath job.directory record.type base path)
      (convertRecord job record base) s fun copy s' =>
        Copied job.directory record.type base copy s'.disk := by
  have hending := convertedExtension_mem job record.type
  unfold convertRecord
  split
  · exact Does.pure fun _ => .inl rfl
  refine Does.perform (confined_of nofun fun _ h => .inl h)
    fun created s₁ hcreate _ _ => ?_
  have howned := owned_convertedDirectory job.directory record.type
  cases created with
  | false => exact Does.pure fun _ => .inl rfl
  | true =>
      have hdir₁ := hcreate.createDirectories howned
      refine Does.bind ((convertMessage_does job hbase).widen
        fun _ h => .inr ⟨_, hending, h⟩) fun converted s₂ hswept₂ hframe hkept => ?_
      cases converted with
      | false => exact Does.pure fun _ => .inl rfl
      | true =>
          exact Does.pure fun _ => .inr ⟨_, hending, rfl,
            hframe.isDir hswept₂ howned hdir₁, hkept rfl⟩

end Programs

/-! ## What a stored record leaves behind -/

/-- The file a row names holds the record, as it is or compressed. -/
inductive Stored (codec : Codec) (directory : Text) (record : SensorData)
    (base : Text) (row : ManifestRow) (disk : FileSystem) : Prop
  | raw (hcompressed : row.compressed = false) (hfile : row.file = base ++ ".bin")
      (hkept : Kept [directory, base ++ ".bin"] (codec.serialize record) disk)
  | zstd (level : Int) (hcompressed : row.compressed = true)
      (hfile : row.file = base ++ ".bin.zst")
      (hkept : Kept [directory, base ++ ".bin.zst"]
        (codec.compress level (codec.serialize record)) disk)

structure Recorded (codec : Codec) (directory : Text) (record : SensorData)
    (base : Text) (row : ManifestRow) (disk : FileSystem) : Prop where
  named : IsBaseName record base
  sensor : row.sensor = record.type
  timestamp : row.timestampNs = timestampOf record
  stored : Stored codec directory record base row disk
  copied : Copied directory record.type base row.convertedFile disk

section Recorded

variable {codec : Codec} {directory base : Text} {record : SensorData}
  {row : ManifestRow} {touched : Path → Prop} {s s' : Watched}

theorem Stored.of_frame (h : Stored codec directory record base row s.disk)
    (hbase : Plain base) (hframe : Frame directory touched s s')
    (hswept : s'.swept = false) (hfree : ∀ ending ∈ storedEndings,
      ¬touched [directory, base ++ ending]) :
    Stored codec directory record base row s'.disk := by
  have hkeep : ∀ {ending : Text} {data : Bytes}, ending ∈ storedEndings →
      Kept [directory, base ++ ending] data s.disk →
      Kept [directory, base ++ ending] data s'.disk := fun hending hkept =>
    hframe.kept hswept (owned_child (hbase.append _)) (hfree _ hending) hkept
  cases h with
  | raw hcompressed hfile hkept =>
      exact .raw hcompressed hfile (hkeep (by simp [storedEndings]) hkept)
  | zstd level hcompressed hfile hkept =>
      exact .zstd level hcompressed hfile (hkeep (by simp [storedEndings]) hkept)

theorem Copied.of_frame {type : SensorType} {copy : Text}
    (h : Copied directory type base copy s.disk)
    (hbase : Plain base) (hframe : Frame directory touched s s')
    (hswept : s'.swept = false) (hfree : ∀ ending ∈ copyEndings,
      ¬touched [directory, convertedDirectory type, base ++ ending]) :
    Copied directory type base copy s'.disk := by
  rcases h with hnone | ⟨ending, hending, hcopy, hdir, data, hkept⟩
  · exact .inl hnone
  · exact .inr ⟨ending, hending, hcopy,
      hframe.isDir hswept (owned_convertedDirectory _ _) hdir, data,
      hframe.kept hswept (owned_grandchild (hbase.append _))
        (hfree ending hending) hkept⟩

/-- Its files stay when none of them is touched. -/
theorem Recorded.of_frame (h : Recorded codec directory record base row s.disk)
    (hframe : Frame directory touched s s') (hswept : s'.swept = false)
    (hfree : ∀ path, Owned directory path →
      stem (path.getLastD []) = base → 2 ≤ path.length → ¬touched path) :
    Recorded codec directory record base row s'.disk := by
  refine ⟨h.named, h.sensor, h.timestamp, ?_, ?_⟩
  · exact h.stored.of_frame h.named.plain hframe hswept fun ending hending =>
      hfree _ (owned_child (h.named.plain.append _))
        (h.named.stem_ending (List.mem_append_left _ hending)) (Nat.le_refl 2)
  · exact h.copied.of_frame h.named.plain hframe hswept fun ending hending =>
      hfree _ (owned_grandchild (h.named.plain.append _))
        (h.named.stem_ending (List.mem_append_right _ hending)) (Nat.le_succ 2)

end Recorded

/-! ## Storing a record -/

section Storing

variable {codec : Codec} {s : Watched} (worker : Worker) (job : Job)

theorem storedPath_bin (directory base : Text) {path : Path}
    (h : AtOrTemp [directory, base ++ ".bin"] path) :
    StoredPath directory base path :=
  ⟨".bin", by simp [storedEndings], h⟩

theorem append_zst (base : Text) :
    base ++ ".bin" ++ ".zst" = base ++ (".bin.zst" : Text) := by
  rw [List.append_assoc]
  rfl

theorem storedPath_zst (directory base : Text) {path : Path}
    (h : AtOrTemp [directory, base ++ ".bin" ++ ".zst"] path) :
    StoredPath directory base path :=
  ⟨".bin.zst", by simp [storedEndings], append_zst base ▸ h⟩

/-- The compressed file survives the writing of the raw one. -/
theorem Stored.of_written {record : SensorData} {base copy : Text}
    {compressed keepRaw : Bool} {level : Int} {s s' : Watched}
    (hbase : IsBaseName record base) (hswept : s'.swept = false)
    (hframe : Frame job.directory (AtOrTemp [job.directory, base ++ ".bin"]) s s')
    (hzstd : compressed = true →
      Kept [job.directory, base ++ ".bin" ++ ".zst"]
        (codec.compress level (codec.serialize record)) s.disk)
    (hraw : (!compressed || keepRaw) = true →
      Kept [job.directory, base ++ ".bin"] (codec.serialize record) s'.disk) :
    Stored codec job.directory record base ⟨record.type, timestampOf record,
      if compressed then base ++ ".bin" ++ ".zst" else base ++ ".bin",
      compressed, copy⟩ s'.disk := by
  cases compressed with
  | false => exact .raw rfl rfl (hraw rfl)
  | true =>
      rw [append_zst] at hzstd
      refine .zstd level rfl (append_zst base) (hframe.kept hswept
        (owned_child (hbase.plain.append _)) ?_ (hzstd rfl))
      have hlast : ∀ ending : Text, base ++ (".bin.zst" : Text) = base ++ ending →
          ending = ".bin.zst" := fun _ heq => (List.append_cancel_left heq).symm
      rintro (heq | heq)
      · exact absurd (hlast _ (List.cons.inj (List.cons.inj heq).2).1) (by decide)
      · have hname := (List.cons.inj (List.cons.inj heq).2).1
        rw [List.getLastD_cons, List.getLastD_cons, List.getLastD_nil,
          List.append_assoc] at hname
        exact absurd (hlast _ hname) (by decide)

theorem not_convertedPath_of_stored {directory base ending : Text}
    {type : SensorType} (hbase : '_' ∈ base) :
    ¬([directory, base ++ ending] <+: [directory, convertedDirectory type] ∨
      CopyPath directory type base [directory, base ++ ending]) := by
  rintro (hstart | ⟨ending', -, heq | heq⟩)
  · have hname := (List.cons_prefix_cons.mp
      (List.cons_prefix_cons.mp hstart).2).1
    have hunderscore : '_' ∉ convertedDirectory type := by cases type <;> decide
    exact hunderscore (hname ▸ List.mem_append_left ending hbase)
  · have hlength := congrArg List.length heq
    simp at hlength
  · have hlength := congrArg List.length heq
    simp [tempPath] at hlength

/-- What is stored once the base name is chosen. -/
theorem writeNamed_does {record : SensorData} {base : Text}
    (hbase : IsBaseName record base) :
    Does codec job.directory (RecordPath job.directory record.type base) (do
      let compressed ← storeCompressed worker job (base ++ ".bin")
        (codec.serialize record)
      let stored ← storeRaw (!compressed || job.keepRaw)
        [job.directory, base ++ ".bin"] (codec.serialize record)
      if !stored then return none
      else
        let convertedFile ← convertRecord job record base
        return some ⟨record.type, timestampOf record,
          if compressed then base ++ ".bin" ++ ".zst" else base ++ ".bin",
          compressed, convertedFile⟩) s fun written s' =>
        ∀ row, written = some row →
          Recorded codec job.directory record base row s'.disk := by
  refine Does.bind ((storeCompressed_does job worker hbase.plain).widen
    fun _ h => .inr (.inl (storedPath_zst _ _ h))) fun compressed s₁ _ _ hzstd => ?_
  refine Does.bind ((storeRaw_does (hbase.plain.append ".bin")).within
    fun _ h => .inr (.inl (storedPath_bin _ _ h))) fun stored s₂ hswept₂ _ hraw => ?_
  obtain ⟨hraw, hframe₂⟩ := hraw
  cases stored with
  | false => exact Does.pure fun _ => nofun
  | true =>
      refine Does.bind ((convertRecord_does job hbase.plain).within fun _ h =>
        h.imp_right .inr) fun copy s₃ hswept₃ _ hcopied => ?_
      obtain ⟨hcopied, hframe₃⟩ := hcopied
      refine Does.pure fun _ row hrow => ?_
      cases hrow
      refine ⟨hbase, rfl, rfl, ?_, hcopied⟩
      exact (Stored.of_written job hbase hswept₂ hframe₂ hzstd (hraw rfl)).of_frame
        hbase.plain hframe₃ hswept₃ fun ending _ =>
          not_convertedPath_of_stored hbase.underscore_mem

theorem writeRecord_does (record : SensorData) :
    Does codec job.directory (fun path => ∃ base, IsBaseName record base ∧
        RecordPath job.directory record.type base path)
      (writeRecord worker job record) s fun written s' =>
        ∃ base, IsBaseName record base ∧ Fresh job.directory base s ∧
          Frame job.directory (RecordPath job.directory record.type base) s s' ∧
          ∀ row, written = some row →
            Recorded codec job.directory record base row s'.disk := by
  have hnone : ∀ {touched : Path → Prop} (path : Path), False → touched path :=
    fun _ => False.elim
  refine Does.bind ((serializeRecord_does record).within hnone)
    fun bytes s₁ _ _ hbytes => ?_
  obtain ⟨rfl, hframe₁⟩ := hbytes
  refine Does.bind ((freshBaseName_does (plain_basePrefix record) _ 0
    (plain_basePrefix record)).within hnone) fun base s₂ hswept₂ _ hbase => ?_
  obtain ⟨⟨hfresh, hbase⟩, hframe₂⟩ := hbase
  have hnamed : IsBaseName record base := hbase.imp_right fun ⟨n, hn, heq⟩ =>
    ⟨n, by omega, heq⟩
  have hquiet := hframe₁.trans hframe₂
  have hfresh : Fresh job.directory base s := fun ending hending =>
    (hquiet.same hswept₂ _ (owned_child (hnamed.plain.append _)) id).node ▸
      hfresh ending hending
  refine ((writeNamed_does worker job hnamed).within fun _ h =>
    ⟨base, hnamed, h⟩).mono fun written s₃ _ _ hpost => ?_
  exact ⟨base, hnamed, hfresh, (hquiet.widen hnone).trans hpost.2, hpost.1⟩

end Storing

end DataCache.Storage
