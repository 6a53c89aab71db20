import DataCache.Storage.Frame

/-!
# Footprints

Which paths the worker's programs can change: a job stays below its own event
directory, and a retention sweep only removes whole event directories.
-/

namespace DataCache.Storage

open DataCache.Foundation DataCache.Capture

/-- Work below one event directory. -/
structure Serving (directory : Text) (op : FsOp) : Prop where
  below : ∀ path, op.Touches path → path = [] ∨ [directory] <+: path
  removal : ∀ target, op ≠ .removeAll target

def Reading (op : FsOp) : Prop :=
  (∀ path, ¬op.Touches path) ∧ ∀ target, op ≠ .removeAll target

/-- Reading, or removing one event directory. -/
def Sweeping (op : FsOp) : Prop :=
  (∃ name, op = .removeAll [name]) ∨
    (∀ path, ¬op.Touches path) ∧ ∀ target, op ≠ .removeAll target

theorem Serving.confined {directory other : Text} {op : FsOp}
    (h : Serving other op) (hne : other ≠ directory) :
    Confined directory (fun _ => False) op := by
  refine .inr ⟨fun target heq => absurd heq (h.removal target), ?_⟩
  rintro path ⟨rest, rfl, -⟩ htouches
  rcases h.below _ htouches with hnil | hstarts
  · cases hnil
  · exact hne (List.cons_prefix_cons.mp hstarts).1

theorem Sweeping.confined {op : FsOp} (h : Sweeping op) (directory : Text) :
    Confined directory (fun _ => False) op := by
  rcases h with ⟨name, rfl⟩ | ⟨htouches, hremoval⟩
  · by_cases heq : name = directory
    · exact .inl (by simp [sweeps, heq])
    · have hnot : ∀ path, Owned directory path → ¬[name] <+: path := by
        rintro path ⟨rest, rfl, -⟩ hstarts
        exact heq (List.cons_prefix_cons.mp hstarts).1
      refine .inr ⟨?_, hnot⟩
      rintro target heq path howned
      cases heq
      exact hnot path howned
  · exact .inr ⟨fun target heq => absurd heq (hremoval target),
      fun path _ h => absurd h (htouches path)⟩

theorem serving_below {directory : Text} {op : FsOp} {target : Path}
    (htouches : ∀ path, op.Touches path → path = directory :: target)
    (hremoval : ∀ target, op ≠ .removeAll target) : Serving directory op :=
  ⟨fun path h => .inr (by rw [htouches path h]; exact ⟨target, rfl⟩), hremoval⟩

/-! ## Sweeps -/

theorem pathExists_uses (path : Path) : (pathExists path).uses Reading :=
  ⟨⟨fun _ => id, nofun⟩, fun _ => trivial⟩

theorem alsoExists_uses (found : Bool) (path : Path) :
    (alsoExists found path).uses Reading := by
  unfold alsoExists
  split
  · trivial
  · exact pathExists_uses path

theorem isBusy_uses (name : Text) : (isBusy name).uses Reading :=
  Prog.uses_bind (pathExists_uses _) fun _ =>
    Prog.uses_bind (alsoExists_uses _ _) fun _ => alsoExists_uses _ _

theorem isRemovable_uses (policy : Policy) (name : Text) :
    (isRemovable policy name).uses Reading := by
  refine Prog.uses_bind (isBusy_uses name) fun busy => ?_
  split
  · trivial
  refine Prog.uses_bind (pathExists_uses _) fun complete => ?_
  refine Prog.uses_bind (pathExists_uses _) fun failed => ?_
  split
  · trivial
  split
  · exact pathExists_uses _
  · trivial

theorem collectFrom_uses (policy : Policy) :
    ∀ names, (collectFrom policy names).uses Reading
  | [] => trivial
  | name :: rest => by
      refine Prog.uses_bind (isRemovable_uses policy name) fun removable => ?_
      refine Prog.uses_bind (collectFrom_uses policy rest) fun dirs => ?_
      dsimp only
      split <;> trivial

theorem collectEventDirs_uses (policy : Policy) :
    (collectEventDirs policy).uses Reading :=
  Prog.uses_call_bind ⟨fun _ => id, nofun⟩ fun _ =>
    Prog.uses_bind (collectFrom_uses policy _) fun _ => trivial

theorem deleteDir_uses (dir : EventDir) : (deleteDir dir).uses Sweeping :=
  ⟨.inl ⟨dir.name, rfl⟩, fun _ => trivial⟩

theorem sweepByAge_uses (cutoffNs : Int) :
    ∀ dirs, (sweepByAge cutoffNs dirs).uses Sweeping
  | [] => trivial
  | dir :: rest => by
      unfold sweepByAge
      split
      · exact Prog.uses_bind (deleteDir_uses dir) fun deleted =>
          Prog.uses_bind (sweepByAge_uses cutoffNs rest) fun _ => trivial
      · trivial

theorem sumSizes_uses (directory : Path) :
    ∀ paths, (sumSizes directory paths).uses Reading
  | [] => trivial
  | _ :: rest =>
      Prog.uses_call_bind ⟨fun _ => id, nofun⟩ fun _ =>
        Prog.uses_bind (sumSizes_uses directory rest) fun _ => trivial

theorem directorySize_uses (name : Text) : (directorySize name).uses Reading :=
  Prog.uses_call_bind ⟨fun _ => id, nofun⟩ fun _ => sumSizes_uses _ _

theorem measure_uses : ∀ dirs, (measure dirs).uses Reading
  | [] => trivial
  | dir :: rest =>
      Prog.uses_bind (directorySize_uses dir.name) fun _ =>
        Prog.uses_bind (measure_uses rest) fun _ => trivial

theorem sweepByCapacity_uses (maxCapacityBytes : Nat) :
    ∀ dirs total, (sweepByCapacity maxCapacityBytes total dirs).uses Sweeping
  | [], _ => trivial
  | dir :: rest, total => by
      unfold sweepByCapacity
      split
      · trivial
      · exact Prog.uses_bind (deleteDir_uses dir) fun deleted =>
          sweepByCapacity_uses maxCapacityBytes rest _

theorem applyAgeLimit_uses (policy : Policy) (dirs : List EventDir) :
    (applyAgeLimit policy dirs).uses Sweeping := by
  unfold applyAgeLimit
  split
  · exact Prog.uses_call_bind (.inr ⟨fun _ => id, nofun⟩) fun _ =>
      sweepByAge_uses _ _
  · trivial

theorem applyCapacityLimit_uses (policy : Policy) (dirs : List EventDir) :
    (applyCapacityLimit policy dirs).uses Sweeping := by
  unfold applyCapacityLimit
  split
  · exact Prog.uses_bind (Prog.uses_mono (fun _ => .inr) (measure_uses dirs))
      fun _ => sweepByCapacity_uses _ _ _
  · trivial

theorem sweep_uses (policy : Policy) : (sweep policy).uses Sweeping :=
  Prog.uses_bind (Prog.uses_mono (fun _ => .inr) (collectEventDirs_uses policy))
    fun _ => Prog.uses_bind (applyAgeLimit_uses policy _) fun _ =>
      applyCapacityLimit_uses policy _

theorem enforceRetention_uses (policy : Policy) (force : Bool) :
    (enforceRetention policy force).uses Sweeping := by
  unfold enforceRetention
  split
  · trivial
  refine Prog.uses_call_bind (.inr ⟨fun _ => id, nofun⟩) fun now => ?_
  refine Prog.uses_call_bind (.inr ⟨fun _ => id, nofun⟩) fun last => ?_
  split
  · trivial
  · exact Prog.uses_call_bind (.inr ⟨fun _ => id, nofun⟩) fun _ =>
      sweep_uses policy

theorem prepareForWrite_uses (policy : Policy) :
    (prepareForWrite policy).uses Sweeping := by
  unfold prepareForWrite
  split
  · trivial
  refine Prog.uses_call_bind (.inr ⟨fun _ => id, nofun⟩) fun available => ?_
  split
  · trivial
  · exact Prog.uses_bind (enforceRetention_uses policy true) fun _ =>
      ⟨.inr ⟨fun _ => id, nofun⟩, fun _ => trivial⟩

theorem hasSpace_uses (worker : Worker) : (hasSpace worker).uses Sweeping := by
  unfold hasSpace
  split
  · trivial
  · exact prepareForWrite_uses _

theorem sweepAfterEvent_uses (worker : Worker) :
    (sweepAfterEvent worker).uses Sweeping := by
  unfold sweepAfterEvent
  split
  · trivial
  · exact enforceRetention_uses _ _

/-! ## Jobs -/

theorem tempPath_cons (directory : Text) {rest : Path} (hne : rest ≠ []) :
    tempPath (directory :: rest) = directory :: tempPath rest := by
  cases rest with
  | nil => exact absurd rfl hne
  | cons head rest => simp [tempPath]

theorem existsOrThrow_uses (directory : Text) (path : Path) :
    (existsOrThrow path).uses (Serving directory) :=
  Prog.uses_call_bind ⟨fun _ h => absurd h id, nofun⟩ fun found => by
    cases found <;> trivial

theorem removeOrThrow_uses (directory : Text) (rest : Path) :
    (removeOrThrow (directory :: rest)).uses (Serving directory) :=
  Prog.uses_call_bind (serving_below (fun _ h => h) nofun) fun removed => by
    cases removed <;> trivial

theorem replace_uses {directory : Text} {rest : Path} (hne : rest ≠ []) :
    Serving directory
      (.rename (tempPath (directory :: rest)) (directory :: rest)) := by
  refine ⟨fun path h => .inr ?_, nofun⟩
  rcases h with rfl | rfl
  · rw [tempPath_cons directory hne]
    exact ⟨_, rfl⟩
  · exact ⟨rest, rfl⟩

theorem writeAtomically_uses {directory : Text} {rest : Path} (hne : rest ≠ [])
    (data : Bytes) :
    (writeAtomically (directory :: rest) data).uses (Serving directory) := by
  have htemp := tempPath_cons directory hne
  have hat : ∀ {op : FsOp}, (∀ path, op.Touches path →
      path = tempPath (directory :: rest)) →
      (∀ target, op ≠ .removeAll target) → Serving directory op :=
    fun htouches hremoval => serving_below
      (fun path h => (htouches path h).trans htemp) hremoval
  refine Prog.uses_call_bind (hat (fun _ h => h) nofun) ?_
  rintro (_ | _)
  · trivial
  refine Prog.uses_call_bind (hat (fun _ h => h) nofun) ?_
  rintro (_ | _)
  · exact Prog.uses_call_bind (hat (fun _ h => h) nofun) fun _ => trivial
  refine Prog.uses_call_bind (hat (fun _ h => h) nofun) fun _ => ?_
  refine Prog.uses_call_bind (replace_uses hne) ?_
  rintro (_ | _)
  · refine Prog.uses_bind ?_ fun _ => trivial
    rw [htemp]
    exact removeOrThrow_uses directory _
  · exact Prog.uses_call_bind ⟨fun _ h => absurd h id, nofun⟩ fun _ => trivial

section Streams

variable {allowed : FsOp → Prop} {path : Path}

theorem Stream.put_uses (hspill : ∀ data all, allowed (.spill path data all))
    (stream : Stream) (data : Bytes) : (stream.put path data).uses allowed := by
  unfold Stream.put
  split
  · trivial
  · exact Prog.uses_call_bind (hspill _ _) fun _ => trivial

theorem Stream.flush_uses (hspill : ∀ data all, allowed (.spill path data all))
    (stream : Stream) : (stream.flush path).uses allowed := by
  unfold Stream.flush
  split
  · trivial
  · exact Prog.uses_call_bind (hspill _ _) fun _ => trivial

theorem Stream.close_uses (hspill : ∀ data all, allowed (.spill path data all))
    (stream : Stream) : (stream.close path).uses allowed := by
  unfold Stream.close
  split
  · trivial
  · exact Prog.uses_call_bind (hspill _ _) fun _ => trivial

theorem Stream.putAll_uses
    (hspill : ∀ data all, allowed (.spill path data all)) :
    ∀ (rows : List Bytes) (stream : Stream),
      (stream.putAll path rows).uses allowed
  | [], _ => trivial
  | data :: rest, stream =>
      Prog.uses_bind (Stream.put_uses hspill stream data) fun _ =>
        Stream.putAll_uses hspill rest _

theorem Stream.start_uses (hspill : ∀ data all, allowed (.spill path data all))
    (position : Nat) (header : Text) :
    (Stream.start path position header).uses allowed := by
  unfold Stream.start
  split
  · exact Stream.put_uses hspill _ _
  · trivial

end Streams

theorem writePairs_uses {allowed : FsOp → Prop} {directory : Text}
    (hopen : allowed (.openAppend (pairsPath directory)))
    (hspill : ∀ data all, allowed (.spill (pairsPath directory) data all))
    (pairs : List PairRecord) : (writePairs directory pairs).uses allowed := by
  unfold writePairs
  split
  · trivial
  refine Prog.uses_call_bind hopen ?_
  rintro (_ | position)
  · trivial
  · exact Prog.uses_bind (Stream.start_uses hspill _ _) fun _ =>
      Prog.uses_bind (Stream.putAll_uses hspill _ _) fun _ =>
        Prog.uses_bind (Stream.flush_uses hspill _) fun _ =>
          Prog.uses_bind (Stream.close_uses hspill _) fun _ => trivial

section Jobs

variable (worker : Worker) (job : Job)

theorem serving_quiet {directory : Text} {op : FsOp}
    (htouches : ∀ path, ¬op.Touches path)
    (hremoval : ∀ target, op ≠ .removeAll target) : Serving directory op :=
  ⟨fun path h => absurd h (htouches path), hremoval⟩

theorem spill_serving (directory name : Text) (data : Bytes) (all : Bool) :
    Serving directory (.spill [directory, name] data all) :=
  serving_below (fun _ h => h) nofun

theorem orThrow_uses {α : Type} {allowed : FsOp → Prop}
    (response : Except StorageError α) : (orThrow response).uses allowed := by
  cases response <;> trivial

theorem nullPointer_uses {α : Type} (directory : Text) :
    (nullPointer : Action α).uses (Serving directory) :=
  ⟨serving_quiet (fun _ => id) nofun, fun never => never.elim⟩

theorem convertImage_uses (image : Image) (subdirectory fileName : Text) :
    (convertImage image [job.directory, subdirectory] fileName job).uses
      (Serving job.directory) := by
  unfold convertImage
  split
  · trivial
  split
  · trivial
  refine Prog.uses_call_bind (serving_quiet (fun _ => id) nofun) fun response => ?_
  refine Prog.uses_bind (orThrow_uses response) ?_
  rintro (_ | encoded)
  · trivial
  · exact writeAtomically_uses (by simp) encoded

theorem convertPointCloud_uses (cloud : PointCloud2)
    (subdirectory fileName : Text) :
    (convertPointCloud cloud [job.directory, subdirectory] fileName job).uses
      (Serving job.directory) := by
  unfold convertPointCloud
  split
  · trivial
  have hat : ∀ {op : FsOp}, (∀ path, op.Touches path → path =
      [job.directory, subdirectory, fileName ++ ".pcd" ++ ".tmp"]) →
      (∀ target, op ≠ .removeAll target) → Serving job.directory op :=
    serving_below
  refine Prog.uses_call_bind (hat (fun _ h => h) nofun) fun response => ?_
  refine Prog.uses_bind (orThrow_uses response) ?_
  rintro (_ | _)
  · exact Prog.uses_call_bind (hat (fun _ h => h) nofun) fun _ => trivial
  refine Prog.uses_call_bind (@replace_uses job.directory
    [subdirectory, fileName ++ ".pcd"] (by simp)) ?_
  rintro (_ | _)
  · exact Prog.uses_bind (removeOrThrow_uses job.directory
      [subdirectory, fileName ++ ".pcd" ++ ".tmp"]) fun _ => trivial
  · exact Prog.uses_call_bind (serving_below (fun _ h => h) nofun) fun _ =>
      Prog.uses_call_bind (serving_quiet (fun _ => id) nofun) fun _ => trivial

theorem convertRecord_uses (record : SensorData) (baseName : Text) :
    (convertRecord job record baseName).uses (Serving job.directory) := by
  unfold convertRecord
  split
  · trivial
  have hcreate : Serving job.directory (.createDirectories
      [job.directory, convertedDirectory record.type]) := by
    refine ⟨fun path h => ?_, nofun⟩
    cases path with
    | nil => exact .inl rfl
    | cons head rest =>
        refine .inr ⟨rest, ?_⟩
        rw [(List.cons_prefix_cons.mp h).1]
        rfl
  refine Prog.uses_call_bind hcreate ?_
  rintro (_ | _)
  · trivial
  refine Prog.uses_bind ?_ ?_
  · unfold convertMessage
    split
    · exact convertImage_uses job _ _ _
    · exact convertPointCloud_uses job _ _ _
    · exact nullPointer_uses _
    · exact nullPointer_uses _
  · rintro (_ | _) <;> trivial

theorem serializeRecord_uses (directory : Text) (record : SensorData) :
    (serializeRecord record).uses (Serving directory) := by
  unfold serializeRecord
  split
  · exact nullPointer_uses _
  · exact nullPointer_uses _
  · exact Prog.uses_call_bind (serving_quiet (fun _ => id) nofun) fun _ =>
      orThrow_uses _

theorem freshBaseName_uses (directory stem : Text) :
    ∀ (tries duplicate : Nat) (name : Text),
      (freshBaseName directory stem tries duplicate name).uses
        (Serving directory)
  | 0, _, _ => nullPointer_uses _
  | tries + 1, duplicate, name => by
      refine Prog.uses_bind (Prog.uses_bind (existsOrThrow_uses _ _) ?_) ?_
      · rintro (_ | _)
        · exact existsOrThrow_uses _ _
        · trivial
      · rintro (_ | _)
        · trivial
        · exact freshBaseName_uses directory stem tries _ _

theorem storeCompressed_uses (rawName : Text) (bytes : Bytes) :
    (storeCompressed worker job rawName bytes).uses (Serving job.directory) := by
  unfold storeCompressed
  split
  · trivial
  refine Prog.uses_call_bind (serving_quiet (fun _ => id) nofun) fun response => ?_
  refine Prog.uses_bind (orThrow_uses response) ?_
  rintro (_ | compressed)
  · trivial
  · exact writeAtomically_uses (by simp) compressed

theorem storeRaw_uses (needed : Bool) (directory name : Text) (bytes : Bytes) :
    (storeRaw needed [directory, name] bytes).uses (Serving directory) := by
  unfold storeRaw
  split
  · exact writeAtomically_uses (by simp) bytes
  · trivial

theorem writeRecord_uses (record : SensorData) :
    (writeRecord worker job record).uses (Serving job.directory) := by
  refine Prog.uses_bind (serializeRecord_uses _ record) fun bytes => ?_
  refine Prog.uses_bind (freshBaseName_uses _ _ _ _ _) fun baseName => ?_
  refine Prog.uses_bind (storeCompressed_uses worker job _ bytes) fun compressed => ?_
  refine Prog.uses_bind (storeRaw_uses _ _ _ bytes) ?_
  rintro (_ | _)
  · trivial
  · exact Prog.uses_bind (convertRecord_uses job record baseName) fun _ => trivial

theorem writeRecords_uses :
    ∀ (records : List SensorData) (manifest : Stream) (outcome : JobOutcome),
      (writeRecords worker job records manifest outcome).uses
        (Serving job.directory)
  | [], _, _ => trivial
  | record :: rest, manifest, outcome => by
      have hspill := spill_serving job.directory "manifest.csv"
      unfold writeRecords
      split
      · exact writeRecords_uses rest manifest outcome
      refine Prog.uses_bind (Prog.uses_catchError
        (writeRecord_uses worker job record) fun error =>
          Prog.uses_bind (Stream.close_uses hspill manifest) fun _ => trivial) ?_
      rintro (_ | row)
      · exact writeRecords_uses rest manifest _
      refine Prog.uses_bind (Stream.put_uses hspill _ _) fun manifest' => ?_
      split
      · trivial
      · exact writeRecords_uses rest _ _

theorem syncLists_uses (outcome : JobOutcome) :
    (syncLists job outcome).uses (Serving job.directory) := by
  unfold syncLists
  split
  · trivial
  refine Prog.uses_call_bind (serving_below (fun _ h => h) nofun) fun _ => ?_
  refine Prog.uses_bind (existsOrThrow_uses _ _) ?_
  rintro (_ | _)
  · trivial
  · exact Prog.uses_call_bind (serving_below (fun _ h => h) nofun) fun _ =>
      trivial

theorem closeManifest_uses (directory : Text) (manifest : Stream)
    (outcome : JobOutcome) :
    (closeManifest directory manifest outcome).uses (Serving directory) :=
  have hspill := spill_serving directory "manifest.csv"
  Prog.uses_bind (Stream.flush_uses hspill _) fun _ =>
    Prog.uses_bind (Stream.close_uses hspill _) fun _ => trivial

theorem writeOpened_uses (position : Nat) :
    (writeOpened worker job position).uses (Serving job.directory) := by
  have hspill := spill_serving job.directory "manifest.csv"
  refine Prog.uses_bind (Stream.start_uses hspill _ _) fun manifest => ?_
  refine Prog.uses_bind (writePairs_uses
    (serving_below (fun _ h => h) nofun)
    (spill_serving job.directory "pairs.csv") _) fun paired => ?_
  refine Prog.uses_bind (writeRecords_uses worker job _ _ _) fun written => ?_
  exact Prog.uses_bind (closeManifest_uses _ _ _) fun outcome =>
    syncLists_uses job outcome

end Jobs

/-! ## Verdicts -/

theorem checksumLines_uses (sha256 : Bytes → Digest) (directory : Text) :
    ∀ paths, (checksumLines sha256 directory paths).uses (Serving directory)
  | [] => trivial
  | path :: rest => by
      refine Prog.uses_call_bind (serving_quiet (fun _ => id) nofun) ?_
      rintro (_ | content)
      · trivial
      · exact Prog.uses_bind (checksumLines_uses sha256 directory rest) fun _ =>
          trivial

theorem writeChecksumManifest_uses (sha256 : Bytes → Digest)
    (directory : Text) :
    (writeChecksumManifest sha256 directory).uses (Serving directory) := by
  refine Prog.uses_call_bind (serving_quiet (fun _ => id) nofun) fun listing => ?_
  dsimp only
  split
  · trivial
  refine Prog.uses_bind (checksumLines_uses _ _ _) ?_
  rintro (_ | lines)
  · trivial
  dsimp only
  split
  · trivial
  · exact writeAtomically_uses (by simp) _

theorem markerOp_serving {directory : Text} {op : FsOp}
    (h : EventState.MarkerOp directory op) : Serving directory op := by
  rcases h with rfl | rfl | ⟨name, -, rfl⟩ | ⟨name, -, rfl⟩ | ⟨name, -, hreplace⟩
  · exact serving_quiet (fun _ => id) nofun
  · exact serving_quiet (fun _ => id) nofun
  · exact serving_quiet (fun _ => id) nofun
  · exact serving_below (fun _ h => h) nofun
  · have hat : ∀ {op : FsOp}, (∀ path, op.Touches path →
        path = directory :: [name ++ (".tmp" : Text)]) →
        (∀ target, op ≠ .removeAll target) → Serving directory op :=
      serving_below
    cases op with
    | createDirectories path =>
        obtain rfl : path = [directory] := hreplace
        refine ⟨fun path h => ?_, nofun⟩
        cases path with
        | nil => exact .inl rfl
        | cons head rest =>
            exact .inr ⟨rest, by rw [(List.cons_prefix_cons.mp h).1]; rfl⟩
    | openTrunc path => cases hreplace; exact hat (fun _ h => h) nofun
    | append path data => cases hreplace; exact hat (fun _ h => h) nofun
    | syncFile path => cases hreplace; exact hat (fun _ h => h) nofun
    | syncDirectory path => exact serving_quiet (fun _ => id) nofun
    | rename source target =>
        obtain ⟨rfl, rfl⟩ := hreplace
        exact @replace_uses directory [name] (by simp)
    | remove path =>
        rcases hreplace with rfl | rfl
        · exact hat (fun _ h => h) nofun
        · exact serving_below (fun _ h => h) nofun
    | _ => exact absurd hreplace id

theorem conclude_uses (worker : Worker) (directory : Text)
    (progress : EventProgress) :
    (conclude worker directory progress).uses (Serving directory) := by
  have hchecked : ∀ progress checksums,
      (concludeChecked directory progress checksums).uses
        (Serving directory) := by
    intro progress checksums
    have hfail : ∀ reason, (EventState.fail directory reason).uses
        (Serving directory) := fun reason =>
      Prog.uses_mono (fun _ => markerOp_serving) (EventState.fail_uses _ reason)
    have hcomplete := Prog.uses_mono (fun _ => markerOp_serving)
      (EventState.complete_uses directory progress.persistedRecords)
    unfold concludeChecked
    split
    · exact Prog.uses_bind (hfail _) fun _ => trivial
    · refine Prog.uses_bind (Prog.uses_bind hcomplete ?_) fun _ => trivial
      rintro (_ | _)
      · exact Prog.uses_bind (hfail _) fun _ => trivial
      · trivial
  unfold conclude
  split
  · exact hchecked _ _
  · exact Prog.uses_bind (writeChecksumManifest_uses _ _) fun _ => hchecked _ _

/-! ## Whole rounds -/

/-- What processing a job of this directory may issue. -/
def Working (directory : Text) (op : FsOp) : Prop :=
  Serving directory op ∨ Sweeping op

theorem Working.confined {directory other : Text} {op : FsOp}
    (h : Working other op) (hne : other ≠ directory) :
    Confined directory (fun _ => False) op :=
  h.elim (fun h => h.confined hne) fun h => h.confined directory

/-- A removal of what the directory is part of counts as its own. -/
theorem Working.removal {directory other : Text} {op : FsOp}
    (h : Working other op) (hkept : sweeps directory op = false) :
    ∀ target, op = .removeAll target → ¬target <+: [directory] := by
  rintro target rfl hstarts
  rcases h with hserving | ⟨name, heq⟩ | ⟨-, hremoval⟩
  · exact hserving.removal target rfl
  · cases heq
    obtain rfl := (List.cons_prefix_cons.mp hstarts).1
    simp [sweeps] at hkept
  · exact hremoval target rfl

section Aside

variable {codec : Codec} {directory other : Text} {s s' : Store} {op : FsOp}
  {r : op.Res}

theorem Effect.aside (h : Effect codec s op r s')
    (huntouched : ∀ path, Owned directory path → ¬op.Touches path) :
    Aside directory s s' :=
  fun path howned => h.sameAt (huntouched path howned)

theorem Serving.aside (h : Serving other op) (hne : other ≠ directory)
    (heffect : Effect codec s op r s') : Aside directory s s' := by
  refine heffect.aside fun path howned htouches => ?_
  obtain ⟨rest, rfl, -⟩ := howned
  rcases h.below _ htouches with hnil | hstarts
  · cases hnil
  · exact hne (List.cons_prefix_cons.mp hstarts).1

theorem Working.aside (h : Working other op) (hne : other ≠ directory)
    (hkept : sweeps directory op = false) (heffect : Effect codec s op r s') :
    Aside directory s s' := by
  rcases h with hserving | ⟨name, rfl⟩ | ⟨htouches, -⟩
  · exact hserving.aside hne heffect
  · refine heffect.aside fun path howned htouches => ?_
    obtain ⟨rest, rfl, -⟩ := howned
    obtain rfl := (List.cons_prefix_cons.mp htouches).1
    simp [sweeps] at hkept
  · exact heffect.aside fun path _ => htouches path

end Aside

theorem processJob_uses (worker : Worker) (table : EventTable) (job : Job) :
    (processJob worker table job).uses (Working job.directory) := by
  have hserving : ∀ {α : Type} {p : Action α}, p.uses (Serving job.directory) →
      p.uses (Working job.directory) := Prog.uses_mono fun _ => .inl
  have hsweeping : ∀ {α : Type} {p : Action α}, p.uses Sweeping →
      p.uses (Working job.directory) := Prog.uses_mono fun _ => .inr
  refine Prog.uses_bind (Prog.uses_catchError ?_ fun _ => trivial)
    fun outcome => ?_
  · refine Prog.uses_bind (hsweeping (hasSpace_uses worker)) ?_
    rintro (_ | _)
    · trivial
    have hcreate : Serving job.directory (.createDirectories [job.directory]) := by
      refine ⟨fun path h => ?_, nofun⟩
      cases path with
      | nil => exact .inl rfl
      | cons head rest =>
          exact .inr ⟨rest, by rw [(List.cons_prefix_cons.mp h).1]; rfl⟩
    refine Prog.uses_call_bind (.inl hcreate) ?_
    rintro (_ | _)
    · trivial
    refine Prog.uses_call_bind
      (.inl (serving_below (fun _ h => h) nofun)) ?_
    rintro (_ | position)
    · trivial
    · exact hserving (writeOpened_uses worker job position)
  · dsimp only [finishJob]
    split
    · trivial
    · exact Prog.uses_bind (hserving (conclude_uses _ _ _)) fun _ =>
        Prog.uses_bind (hsweeping (sweepAfterEvent_uses worker)) fun _ => trivial

end DataCache.Storage
