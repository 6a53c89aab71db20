import DataCache.Storage.Jobs
import DataCache.EventState.Marks

/-!
# Concluding an event

After the last job the checksum manifest is written, and then `.complete`: at
that point everything the event consists of is on the disk for certain.
-/

namespace DataCache.Storage

open DataCache.Foundation DataCache.Capture

/-! ## The checksum manifest -/

def checksumsPath (directory : Text) : Path := [directory, "manifest.sha256"]

/-- The line of a file with the content it has now. -/
def lineOf (sha256 : Bytes → Digest) (directory : Text) (disk : FileSystem)
    (path : Path) : Text :=
  checksumLine (sha256 ((disk.read? (directory :: path)).getD [])) path

/-- `manifest.sha256` has one line for each covered file. -/
structure Checksummed (sha256 : Bytes → Digest) (directory : Text)
    (files : List Path) (disk : FileSystem) : Prop where
  nodup : files.Nodup
  mem : ∀ path, path ∈ files ↔
    isCovered path = true ∧ disk.isFile (directory :: path) = true
  kept : Kept (checksumsPath directory)
    (encodeUtf8 (files.flatMap (lineOf sha256 directory disk))) disk

theorem isCovered_iff {path : Path} : isCovered path = true ↔
    path.getLastD [] ≠ "manifest.sha256" ∧
    (path.getLastD []).head? ≠ some '.' ∧
    extension (path.getLastD []) ≠ ".tmp" := by
  simp only [isCovered, Bool.and_eq_true, bne_iff_ne, and_assoc]

theorem owned_of_covered {directory : Text} {path : Path}
    (h : isCovered path = true) : Owned directory (directory :: path) := by
  refine ⟨path, rfl, ?_⟩
  rintro ⟨rest, heq⟩
  exact (isCovered_iff.mp h).2.1 (heq ▸ rfl)

theorem owned_checksums (directory : Text) :
    Owned directory (checksumsPath directory) :=
  owned_child ⟨'m', _, rfl, by decide⟩

section Checksums

variable {codec : Codec} {directory : Text} {s : Watched}
  (sha256 : Bytes → Digest)

theorem checksumLines_does :
    ∀ (files : List Path) {s : Watched}, (∀ path ∈ files, isCovered path = true) →
      Does codec directory (fun _ => False) (checksumLines sha256 directory files)
        s fun lines s' => ∀ text, lines = some text →
          text = files.flatMap (lineOf sha256 directory s'.disk)
  | [], _, _ => Does.pure fun _ _ h => (Option.some.inj h).symm
  | path :: rest, s, hcovered => by
      have howned : Owned directory (directory :: path) :=
        owned_of_covered (hcovered path List.mem_cons_self)
      refine Does.perform (quiet_confined nofun fun _ => id)
        fun content s₁ hread hswept₁ hframe₁ => ?_
      cases content with
      | none => exact Does.pure fun _ _ => nofun
      | some content =>
          refine Does.bind ((checksumLines_does rest fun path hpath =>
            hcovered path (List.mem_cons_of_mem _ hpath)).within fun _ => id)
            fun lines s₂ hswept₂ _ hrest => Does.pure fun _ text htext => ?_
          obtain ⟨hlines, hframe₂⟩ := hrest
          obtain ⟨tail, rfl, rfl⟩ := Option.map_eq_some_iff.mp htext
          have hcontent : s₂.disk.read? (directory :: path) = some content := by
            rw [(hframe₂.same hswept₂ _ howned id).read?,
              (hframe₁.same hswept₁ _ howned id).read?, hread.readFile howned]
          rw [List.flatMap_cons, ← hlines tail rfl, lineOf, hcontent,
            Option.getD_some]

/-- Covered files are never the checksum manifest or its temporary file. -/
theorem not_checksums_of_covered {path : Path} (h : isCovered path = true) :
    ¬AtOrTemp (checksumsPath directory) (directory :: path) := by
  obtain ⟨hname, -, htemp⟩ := isCovered_iff.mp h
  rintro (heq | heq)
  · obtain rfl := (List.cons.inj heq).2
    exact hname rfl
  · have htmp : tempPath (checksumsPath directory) =
        [directory, "manifest.sha256.tmp"] := rfl
    obtain rfl := (List.cons.inj (heq.trans htmp)).2
    exact htemp (by decide)

theorem Checksummed.of_lines {files : List Path} {text : Text} {s' : Watched}
    (hnodup : files.Nodup) (hmem : ∀ path, path ∈ files ↔
      isCovered path = true ∧ s.disk.isFile (directory :: path) = true)
    (htext : text = files.flatMap (lineOf sha256 directory s.disk))
    (hframe : Frame directory (AtOrTemp (checksumsPath directory)) s s')
    (hswept : s'.swept = false)
    (hkept : Kept (checksumsPath directory) (encodeUtf8 text) s'.disk) :
    Checksummed sha256 directory files s'.disk := by
  have hsame : ∀ {path : Path}, isCovered path = true →
      Disk.SameAt (directory :: path) s.disk s'.disk := fun h =>
    hframe.same hswept _ (owned_of_covered h) (not_checksums_of_covered h)
  refine ⟨hnodup, fun path => ?_, ?_⟩
  · rw [hmem]
    refine and_congr_right fun hcovered => ?_
    rw [(hsame hcovered).isFile]
  · have hlines : files.flatMap (lineOf sha256 directory s'.disk) = text := by
      rw [htext]
      refine List.flatMap_congr fun path hpath => ?_
      rw [lineOf, (hsame ((hmem path).mp hpath).1).read?, lineOf]
    rwa [hlines]

theorem writeChecksumManifest_does :
    Does codec directory (AtOrTemp (checksumsPath directory))
      (writeChecksumManifest sha256 directory) s fun ok s' => ok = true →
        (∃ files, files ≠ [] ∧ Checksummed sha256 directory files s'.disk) ∧
        Settled directory [directory] s'.disk := by
  refine Does.perform (quiet_confined nofun fun _ => id)
    fun listing s₁ hlist hswept₁ hframe₁ => ?_
  dsimp only
  split
  · exact Does.pure fun _ => nofun
  next hcomplete =>
    have hmem : ∀ path,
        path ∈ (listing.1.filter isCovered).insertionSort PathBefore ↔
        isCovered path = true ∧ s₁.disk.isFile (directory :: path) = true := by
      intro path
      rw [(List.perm_insertionSort _ _).mem_iff, List.mem_filter, and_comm]
      refine and_congr_right fun hcovered => ?_
      have howned : Owned directory (directory :: path) := owned_of_covered hcovered
      rw [hlist.listFiles howned (by simpa using hcomplete),
        (hlist.sameAt howned id).isFile]
    have hnodup : ((listing.1.filter isCovered).insertionSort PathBefore).Nodup := by
      rw [(List.perm_insertionSort _ _).nodup_iff]
      exact hlist.nodup_listing.filter _
    refine Does.bind ((checksumLines_does sha256 _ fun path hpath =>
      ((hmem path).mp hpath).1).within fun _ => False.elim)
      fun lines s₂ hswept₂ _ hlines => ?_
    obtain ⟨hlines, hframe₂⟩ := hlines
    cases lines with
    | none => exact Does.pure fun _ => nofun
    | some text =>
        dsimp only
        split
        · exact Does.pure fun _ => nofun
        next hsome =>
        refine ((writeAtomically_settles (encodeUtf8 text)
          (owned_checksums directory) (owned_child ⟨'m', _, rfl, by decide⟩)).within
            fun _ h => h).mono fun ok s₃ hswept₃ _ hwritten hok => ?_
        obtain ⟨hwritten, hframe₃⟩ := hwritten
        obtain ⟨hkept, hsettled⟩ := hwritten hok
        refine ⟨⟨_, by simpa using hsome, Checksummed.of_lines sha256 hnodup
          (fun path => ?_) (hlines text rfl) hframe₃ hswept₃ hkept⟩, hsettled⟩
        rw [hmem]
        refine and_congr_right fun hcovered => ?_
        rw [(hframe₂.same hswept₂ _ (owned_of_covered hcovered) id).isFile]

end Checksums

/-! ## A ready event -/

def completePath (directory : Text) : Path :=
  EventState.markerPath directory ".complete"

/-- What the marker programs may change. -/
def MarkerPath (directory : Text) (path : Path) : Prop :=
  path <+: [directory] ∨ ∃ rest, path = [directory, '.' :: rest]

/-- All an event consists of is listed, checksummed and certain. -/
structure Ready (codec : Codec) (sha256 : Bytes → Digest) (directory : Text)
    (entries : List Entry) (disk : FileSystem) : Prop where
  isDir : disk.isDir [directory] = true
  listed : Listed codec directory entries disk
  synced : SyncedLists directory disk
  checksummed : ∃ files, Checksummed sha256 directory files disk
  settled : ∀ name, Plain name →
    ∀ change ∈ disk.pending, change.1 ≠ [directory, name]

/-- There is no entry under the path, and no change that could bring one back. -/
structure Absent (path : Path) (disk : FileSystem) : Prop where
  node : disk.node? path = none
  entry : ∀ change ∈ disk.pending, change.1 ≠ path

theorem Absent.of_sameAt {path : Path} {disk disk' : FileSystem}
    (h : Absent path disk) (hsame : Disk.SameAt path disk disk') :
    Absent path disk' :=
  ⟨hsame.node.trans h.node, fun change hmem heq =>
    h.entry change (hsame.pending change hmem heq) heq⟩

theorem Absent.isFile {path : Path} {disk : FileSystem} (h : Absent path disk) :
    disk.isFile path = false := by
  rw [Disk.isFile, Disk.read?, h.node]
  rfl

theorem not_markerPath_child {directory name : Text} (h : Plain name) :
    ¬MarkerPath directory [directory, name] := by
  obtain ⟨c, rest, rfl, hc⟩ := h
  rintro (hstart | ⟨rest', heq⟩)
  · exact absurd hstart.length_le (by simp)
  · simp only [List.cons.injEq, and_true, true_and] at heq
    exact hc heq.1

theorem unrelated_markerPath (directory : Text) :
    Unrelated (MarkerPath directory) := by
  rintro path (hstart | ⟨rest, rfl⟩) hlength
  · exact unrelated_directory directory path hstart hlength
  · simp [stem]

theorem not_markerPath_of_covered {directory : Text} {path : Path}
    (hne : path ≠ []) (h : isCovered path = true) :
    ¬MarkerPath directory (directory :: path) := by
  rintro (hstart | ⟨rest, heq⟩)
  · exact hne (List.prefix_nil.mp (List.cons_prefix_cons.mp hstart).2)
  · obtain rfl := (List.cons.inj heq).2
    exact (isCovered_iff.mp h).2.1 rfl

section Ready

variable {codec : Codec} {sha256 : Bytes → Digest} {directory : Text}
  {entries : List Entry} {s s' : Watched}

theorem Checksummed.of_frame {files : List Path}
    (h : Checksummed sha256 directory files s.disk)
    (hdir : s.disk.isDir [directory] = true)
    (hframe : Frame directory (MarkerPath directory) s s')
    (hswept : s'.swept = false) :
    Checksummed sha256 directory files s'.disk := by
  have hsame : ∀ {path : Path}, path ≠ [] → isCovered path = true →
      Disk.SameAt (directory :: path) s.disk s'.disk := fun hne h =>
    hframe.same hswept _ (owned_of_covered h) (not_markerPath_of_covered hne h)
  have hnotFile : ∀ {disk : FileSystem}, disk.isDir [directory] = true →
      disk.isFile [directory] = false :=
    Disk.isFile_eq_false_of_isDir (List.cons_ne_nil _ _)
  have hdir' := hframe.isDir hswept (owned_directory directory) hdir
  have hmem : ∀ path, path ∈ files ↔ isCovered path = true ∧
      s'.disk.isFile (directory :: path) = true := by
    intro path
    rw [h.mem]
    refine and_congr_right fun hcovered => ?_
    cases path with
    | nil => rw [hnotFile hdir, hnotFile hdir']
    | cons head rest => rw [(hsame (List.cons_ne_nil _ _) hcovered).isFile]
  refine ⟨h.nodup, hmem, ?_⟩
  have hlines : files.flatMap (lineOf sha256 directory s'.disk) =
      files.flatMap (lineOf sha256 directory s.disk) := by
    refine List.flatMap_congr fun path hpath => ?_
    obtain ⟨hcovered, hfile⟩ := (h.mem path).mp hpath
    have hne : path ≠ [] := by
      rintro rfl
      rw [hnotFile hdir] at hfile
      cases hfile
    rw [lineOf, (hsame hne hcovered).read?, lineOf]
  rw [hlines]
  exact hframe.kept hswept (owned_checksums directory)
    (not_markerPath_child ⟨'m', _, rfl, by decide⟩) h.kept

theorem SyncedLists.of_frame {touched : Path → Prop}
    (h : SyncedLists directory s.disk)
    (hframe : Frame directory touched s s') (hswept : s'.swept = false)
    (hmanifest : ¬touched (manifestPath directory))
    (hpairs : ¬touched (pairsPath directory)) :
    SyncedLists directory s'.disk :=
  ⟨h.manifest.of_sameAt (hframe.same hswept _ (owned_manifest _) hmanifest),
    h.pairs.of_sameAt (hframe.same hswept _ (owned_pairs _) hpairs)⟩

theorem Ready.of_frame (h : Ready codec sha256 directory entries s.disk)
    (hframe : Frame directory (MarkerPath directory) s s')
    (hswept : s'.swept = false) :
    Ready codec sha256 directory entries s'.disk where
  isDir := hframe.isDir hswept (owned_directory directory) h.isDir
  listed := h.listed.of_frame hframe hswept
    (not_markerPath_child ⟨'m', _, rfl, by decide⟩)
    (unrelated_markerPath directory)
  synced := h.synced.of_frame hframe hswept
    (not_markerPath_child ⟨'m', _, rfl, by decide⟩)
    (not_markerPath_child ⟨'p', _, rfl, by decide⟩)
  checksummed := h.checksummed.imp fun _ hfiles =>
    hfiles.of_frame h.isDir hframe hswept
  settled name hname change hmem heq :=
    h.settled name hname change ((hframe.same hswept _ (owned_child hname)
      (not_markerPath_child hname)).pending change hmem heq) heq

end Ready

/-! ## Markers -/

theorem owned_marker (directory : Text) (marker : EventState.Marker) :
    Owned directory (marker.path directory) := by
  refine ⟨[marker.name], rfl, ?_⟩
  cases marker <;> decide

theorem owned_complete (directory : Text) :
    Owned directory (completePath directory) :=
  owned_marker directory .complete

theorem owned_markerTemp (directory : Text) (marker : EventState.Marker) :
    Owned directory (tempPath (marker.path directory)) := by
  refine ⟨[marker.name ++ ".tmp"], rfl, ?_⟩
  cases marker <;> decide

theorem markerPath_marker (directory : Text) (marker : EventState.Marker) :
    MarkerPath directory (marker.path directory) := by
  cases marker <;> exact .inr ⟨_, rfl⟩

theorem markerPath_markerTemp (directory : Text) (marker : EventState.Marker) :
    MarkerPath directory (tempPath (marker.path directory)) := by
  cases marker <;> exact .inr ⟨_, rfl⟩

section Markers

variable {codec : Codec} {directory : Text} {s : Watched}

/-- The marker names its content, or it is still absent. -/
def Marked (path : Path) (content : Bytes) (ok : Bool) (s : Watched) : Prop :=
  (ok = true → s.disk.read? path = some content) ∧
  (ok = false → Absent path s.disk)

theorem Marked.failed {path : Path} {content : Bytes} {s : Watched}
    (h : Absent path s.disk) : Marked path content false s :=
  ⟨fun hfalse => absurd hfalse Bool.false_ne_true, fun _ => h⟩

theorem tempPath_ne_marker (directory : Text) (marker : EventState.Marker) :
    marker.path directory ≠ tempPath (marker.path directory) :=
  (EventState.tempPath_ne_path marker marker directory directory).symm

theorem replaceTarget_does {marker : EventState.Marker} {content : Bytes}
    (habsent : Absent (marker.path directory) s.disk)
    (hread : s.disk.read? (tempPath (marker.path directory)) = some content) :
    Does codec directory (MarkerPath directory)
      (EventState.replaceTarget (marker.path directory)) s
      (Marked (marker.path directory) content) := by
  have howned := owned_marker directory marker
  have htemp := owned_markerTemp directory marker
  have hne := tempPath_ne_marker directory marker
  have htouch := markerPath_marker directory marker
  have htouchTemp := markerPath_markerTemp directory marker
  have hrenames : ∀ {s s' : Watched} {content : Bytes},
      s.disk.read? (tempPath (marker.path directory)) = some content →
      WorkerEffect codec directory s
        (.rename (tempPath (marker.path directory)) (marker.path directory))
        true s' → s'.disk.read? (marker.path directory) = some content := by
    intro s s' content hread hrename
    obtain ⟨inode, synced, hnode⟩ := Disk.node?_of_read? hread
    exact Disk.read?_of_node? (hrename.rename htemp howned hnode)
  have hsync : ∀ {s : Watched},
      s.disk.read? (marker.path directory) = some content →
      Does codec directory (MarkerPath directory) (do
        perform (.syncDirectory (marker.path directory).dropLast)
        return true) s (Marked (marker.path directory) content) := by
    intro s hread
    refine Does.perform (quiet_confined nofun fun _ => id)
      fun _ s' hsync _ _ => Does.pure fun _ => ⟨fun _ => ?_, nofun⟩
    rw [(hsync.sameAt howned id).read?, hread]
  have hconfined : ∀ {op : FsOp}, (∀ path, op.Touches path →
      path = tempPath (marker.path directory) ∨ path = marker.path directory) →
      (∀ target, op ≠ .removeAll target) →
      Confined directory (MarkerPath directory) op := fun htouches hremoval =>
    confined_of hremoval fun path h =>
      (htouches path h).elim (fun h => h ▸ htouchTemp) fun h => h ▸ htouch
  refine Does.perform (hconfined (fun _ h => h) nofun)
    fun renamed s₁ hrename _ _ => ?_
  cases renamed with
  | true => exact hsync (hrenames hread hrename)
  | false =>
      have habsent₁ := habsent.of_sameAt (hrename.rename_failed howned)
      refine Does.perform (hconfined (fun _ h => .inr h) nofun)
        fun _ s₂ hremove _ _ => ?_
      have habsent₂ := habsent₁.of_sameAt
        (hremove.remove_absent howned habsent₁.node)
      have hread₂ : s₂.disk.read? (tempPath (marker.path directory)) =
          some content := by
        rw [(hremove.sameAt htemp hne.symm).read?,
          (hrename.rename_failed htemp).read?, hread]
      refine Does.perform (hconfined (fun _ h => h) nofun)
        fun renamed s₃ hrename₃ _ _ => ?_
      cases renamed with
      | true => exact hsync (hrenames hread₂ hrename₃)
      | false =>
          refine Does.perform (hconfined (fun _ h => .inl h) nofun)
            fun _ s₄ hremove₄ _ _ => Does.pure fun _ => ⟨nofun, fun _ => ?_⟩
          exact (habsent₂.of_sameAt (hrename₃.rename_failed howned)).of_sameAt
            (hremove₄.sameAt howned hne)

theorem writeMarker_does {marker : EventState.Marker} (content : Bytes)
    (habsent : Absent (marker.path directory) s.disk) :
    Does codec directory (MarkerPath directory)
      (EventState.writeAtomically (marker.path directory) content) s
      (Marked (marker.path directory) content) := by
  have howned := owned_marker directory marker
  have htemp := owned_markerTemp directory marker
  have hne := tempPath_ne_marker directory marker
  have htouchTemp := markerPath_markerTemp directory marker
  refine Does.perform (confined_of (fun _ => FsOp.noConfusion) fun _ h => .inl h)
    fun created s₁ hcreate _ _ => ?_
  have habsent₁ := habsent.of_sameAt (hcreate.sameAt howned fun hstart =>
    absurd hstart.length_le (by simp [EventState.Marker.path, EventState.markerPath]))
  cases created with
  | false => exact Does.pure fun _ => Marked.failed habsent₁
  | true =>
      refine Does.perform
        (confined_of (fun _ => FsOp.noConfusion) fun _ h => h ▸ htouchTemp)
        fun opened s₂ hopen _ _ => ?_
      have habsent₂ := habsent₁.of_sameAt (hopen.sameAt howned hne)
      cases opened with
      | false => exact Does.pure fun _ => Marked.failed habsent₂
      | true =>
          refine Does.perform
            (confined_of (fun _ => FsOp.noConfusion) fun _ h => h ▸ htouchTemp)
            fun written s₃ happend _ _ => ?_
          have habsent₃ := habsent₂.of_sameAt (happend.sameAt howned hne)
          cases written with
          | false =>
              exact Does.perform
                (confined_of (fun _ => FsOp.noConfusion) fun _ h => h ▸ htouchTemp)
                fun _ s₄ hremove _ _ => Does.pure fun _ => Marked.failed
                  (habsent₃.of_sameAt (hremove.sameAt howned hne))
          | true =>
              have hread₃ := happend.append htemp (hopen.openTrunc htemp)
              refine Does.perform
                (confined_of (fun _ => FsOp.noConfusion) fun _ h => h ▸ htouchTemp)
                fun _ s₄ hsync _ _ => ?_
              obtain ⟨inode, hnode⟩ := hsync.syncFile htemp hread₃
              exact replaceTarget_does
                (habsent₃.of_sameAt (hsync.sameAt howned hne))
                (Disk.read?_of_node? hnode)

theorem complete_does {recordCount : Nat}
    (habsent : Absent (completePath directory) s.disk) :
    Does codec directory (MarkerPath directory)
      (EventState.complete directory recordCount) s
      (Marked (completePath directory) (EventState.completeContent recordCount)) := by
  have howned := owned_complete directory
  have hother : ∀ marker : EventState.Marker, marker ≠ .complete →
      completePath directory ≠ marker.path directory := fun marker hne heq =>
    hne (@EventState.Marker.path_inj .complete _ _ _ heq).1.symm
  refine Does.bind (@writeMarker_does codec directory s .complete _ habsent)
    fun written s₁ _ _ hwritten => ?_
  cases written with
  | false => exact Does.pure fun _ => ⟨nofun, fun _ => hwritten.2 rfl⟩
  | true =>
      refine Does.perform (confined_of nofun fun _ h =>
        h ▸ markerPath_marker directory .pending) fun _ s₂ hpending _ _ => ?_
      refine Does.perform (confined_of nofun fun _ h =>
        h ▸ markerPath_marker directory .failed) fun _ s₃ hfailed _ _ => ?_
      refine Does.perform (quiet_confined nofun fun _ => id)
        fun _ s₄ hsync _ _ => Does.pure fun _ => ⟨fun _ => ?_, nofun⟩
      rw [(hsync.sameAt howned id).read?,
        (hfailed.sameAt howned (hother .failed nofun)).read?,
        (hpending.sameAt howned (hother .pending nofun)).read?]
      exact hwritten.1 rfl

/-! ### Failing -/

/-- At most a removal of the path itself. -/
def Leaves (path : Path) (op : FsOp) : Prop :=
  op = .remove path ∨ ¬op.Touches path

theorem WorkerEffect.absent {s' : Watched} {path : Path} {op : FsOp} {r : op.Res}
    (h : WorkerEffect codec directory s op r s') (howned : Owned directory path)
    (hleaves : Leaves path op) (habsent : Absent path s.disk) :
    Absent path s'.disk := by
  rcases hleaves with rfl | htouches
  · exact habsent.of_sameAt (h.remove_absent howned habsent.node)
  · exact habsent.of_sameAt (h.sameAt howned htouches)

theorem replaceOp_leaves {directory : Text} {marker other : EventState.Marker}
    (hne : marker ≠ other) {op : FsOp}
    (h : EventState.ReplaceOp (marker.path directory) op) :
    Leaves (other.path directory) op := by
  have htemp : other.path directory ≠ tempPath (marker.path directory) :=
    (EventState.tempPath_ne_path marker other directory directory).symm
  have htarget : other.path directory ≠ marker.path directory := fun heq =>
    hne (EventState.Marker.path_inj heq).1.symm
  refine .inr ?_
  cases op with
  | createDirectories path =>
      obtain rfl : path = [directory] := h
      exact fun hstart => absurd hstart.length_le
        (by simp [EventState.Marker.path, EventState.markerPath])
  | openTrunc path => cases h; exact htemp
  | append path data => cases h; exact htemp
  | syncFile path => cases h; exact htemp
  | syncDirectory path => exact id
  | rename source target =>
      obtain ⟨rfl, rfl⟩ := h
      exact fun h => h.elim htemp htarget
  | remove path =>
      rcases h with rfl | rfl
      · exact htemp
      · exact htarget
  | _ => exact absurd h id

theorem fail_leaves (directory reason : Text) :
    (EventState.fail directory reason).uses (Leaves (completePath directory)) := by
  refine Prog.uses_call_bind (.inr id) fun now => ?_
  refine Prog.uses_bind (Prog.uses_mono (fun _ h =>
    @replaceOp_leaves directory .failed .complete nofun _ h)
      (EventState.writeAtomically_uses _ _)) ?_
  rintro (_ | _)
  · trivial
  · refine ⟨.inr fun heq => ?_, fun _ => ⟨.inl rfl, fun _ => trivial⟩⟩
    exact absurd (@EventState.Marker.path_inj .complete .pending _ _ heq).1 nofun

theorem markerPath_of_mem {directory name : Text}
    (h : name ∈ EventState.markerNames) :
    MarkerPath directory [directory, name] ∧
      MarkerPath directory [directory, name ++ ".tmp"] := by
  simp only [EventState.markerNames, List.mem_cons, List.not_mem_nil,
    or_false] at h
  rcases h with rfl | rfl | rfl <;> exact ⟨.inr ⟨_, rfl⟩, .inr ⟨_, rfl⟩⟩

theorem markerOp_confined {op : FsOp} (h : EventState.MarkerOp directory op) :
    Confined directory (MarkerPath directory) op := by
  rcases h with rfl | rfl | ⟨name, -, rfl⟩ | ⟨name, hname, rfl⟩ |
    ⟨name, hname, hreplace⟩
  · exact quiet_confined nofun fun _ => id
  · exact quiet_confined nofun fun _ => id
  · exact quiet_confined nofun fun _ => id
  · exact confined_of nofun fun _ h => h ▸ (markerPath_of_mem hname).1
  · obtain ⟨hmarker, htemp⟩ := @markerPath_of_mem directory name hname
    have hat : ∀ {op : FsOp}, (∀ path, op.Touches path →
        path = [directory, name ++ (".tmp" : Text)]) →
        (∀ target, op ≠ .removeAll target) →
        Confined directory (MarkerPath directory) op := fun htouches hremoval =>
      confined_of hremoval fun path h => htouches path h ▸ htemp
    cases op with
    | createDirectories path =>
        obtain rfl : path = [directory] := hreplace
        exact confined_of nofun fun _ h => .inl h
    | openTrunc path => cases hreplace; exact hat (fun _ h => h) nofun
    | append path data => cases hreplace; exact hat (fun _ h => h) nofun
    | syncFile path => cases hreplace; exact hat (fun _ h => h) nofun
    | syncDirectory path => exact quiet_confined nofun fun _ => id
    | rename source target =>
        obtain ⟨rfl, rfl⟩ := hreplace
        exact confined_of nofun fun _ h =>
          h.elim (fun h => h ▸ htemp) fun h => h ▸ hmarker
    | remove path =>
        rcases hreplace with rfl | rfl
        · exact hat (fun _ h => h) nofun
        · exact confined_of nofun fun _ h => h ▸ hmarker
    | _ => exact absurd hreplace id

theorem fail_does {reason : Text}
    (habsent : Absent (completePath directory) s.disk) :
    Does codec directory (MarkerPath directory)
      (EventState.fail directory reason) s
      fun _ s' => Absent (completePath directory) s'.disk := by
  have hinv : ∀ (s : Watched) op r s', Leaves (completePath directory) op →
      Absent (completePath directory) s.disk →
      WorkerEffect codec directory s op r s' →
      Absent (completePath directory) s'.disk :=
    fun _ _ _ _ hleaves habsent heffect =>
      heffect.absent (owned_complete directory) hleaves habsent
  exact Does.of_uses_inv hinv (Prog.uses_mono (fun _ => markerOp_confined)
    (EventState.fail_uses _ reason)) (fail_leaves directory reason) habsent

theorem completeOrFail_does {recordCount : Nat} {reason : Text}
    (habsent : Absent (completePath directory) s.disk) :
    Does codec directory (MarkerPath directory)
      (EventState.completeOrFail directory recordCount reason) s
      (Marked (completePath directory)
        (EventState.completeContent recordCount)) := by
  refine Does.bind (complete_does habsent) fun completed s₁ _ _ hcompleted => ?_
  cases completed with
  | true => exact Does.pure fun _ => hcompleted
  | false =>
      exact Does.bind (fail_does (hcompleted.2 rfl)) fun _ s₂ _ _ habsent₂ =>
        Does.pure fun _ => ⟨nofun, fun _ => habsent₂⟩

end Markers

/-! ## The conclusion -/

section Conclude

variable {codec : Codec} (worker : Worker) {directory : Text}
  {progress : EventProgress} {s : Watched}

def ConcludePath (directory : Text) (path : Path) : Prop :=
  AtOrTemp (checksumsPath directory) path ∨ MarkerPath directory path

/-- However it comes out. -/
theorem conclude_touches :
    Does codec directory (ConcludePath directory)
      (conclude worker directory progress) s fun _ _ => True := by
  have hmarker : ∀ {α : Type} {p : Action α} {s : Watched},
      p.uses (EventState.MarkerOp directory) →
      Does codec directory (ConcludePath directory) p s fun _ _ => True :=
    fun huses => (Does.of_uses (Prog.uses_mono (fun _ => markerOp_confined)
      huses)).widen fun _ => .inr
  have hcomplete : ∀ {count : Nat} {reason : Text} {s : Watched},
      Does codec directory (ConcludePath directory)
        (EventState.completeOrFail directory count reason) s fun _ _ => True := by
    intro count reason s
    refine Does.bind (hmarker (EventState.complete_uses _ _))
      fun completed _ _ _ _ => ?_
    cases completed with
    | true => exact Does.pure fun _ => trivial
    | false =>
        exact Does.bind (hmarker (EventState.fail_uses _ _)) fun _ _ _ _ _ =>
          Does.pure fun _ => trivial
  have hchecked : ∀ {progress : EventProgress} {checksums : Bool} {s : Watched},
      Does codec directory (ConcludePath directory)
        (concludeChecked directory progress checksums) s fun _ _ => True := by
    intro progress checksums s
    unfold concludeChecked
    split
    · exact Does.bind (hmarker (EventState.fail_uses _ _)) fun _ _ _ _ _ =>
        Does.pure fun _ => trivial
    · exact Does.bind hcomplete fun _ _ _ _ _ => Does.pure fun _ => trivial
  unfold conclude
  split
  · exact hchecked
  · exact Does.bind ((writeChecksumManifest_does worker.sha256).widen
      fun _ => .inl) fun _ _ _ _ _ => hchecked

/-- What `conclude` needs of an event none of whose jobs has failed. -/
structure Concludable (codec : Codec) (directory : Text) (entries : List Entry)
    (disk : FileSystem) : Prop where
  isDir : disk.isDir [directory] = true
  listed : Listed codec directory entries disk
  synced : SyncedLists directory disk

theorem unrelated_checksums (directory : Text) :
    Unrelated (AtOrTemp (checksumsPath directory)) := by
  rintro path (rfl | rfl) -
  · simp [checksumsPath, stem]
  · simp [checksumsPath, tempPath, stem]

theorem not_checksums_child {directory name : Text}
    (hname : name ≠ "manifest.sha256") (htemp : name ≠ "manifest.sha256.tmp") :
    ¬AtOrTemp (checksumsPath directory) [directory, name] := by
  rintro (heq | heq)
  · exact hname (List.cons.inj (List.cons.inj heq).2).1
  · exact htemp (List.cons.inj (List.cons.inj heq).2).1

theorem Concludable.ready {entries : List Entry} {files : List Path}
    {s' : Watched} {sha256 : Bytes → Digest}
    (h : Concludable codec directory entries s.disk)
    (hframe : Frame directory (AtOrTemp (checksumsPath directory)) s s')
    (hswept : s'.swept = false)
    (hchecksums : Checksummed sha256 directory files s'.disk)
    (hsettled : Settled directory [directory] s'.disk) :
    Ready codec sha256 directory entries s'.disk where
  isDir := hframe.isDir hswept (owned_directory directory) h.isDir
  listed := h.listed.of_frame hframe hswept
    (not_checksums_child (by decide) (by decide)) (unrelated_checksums directory)
  synced := h.synced.of_frame hframe hswept
    (not_checksums_child (by decide) (by decide))
    (not_checksums_child (by decide) (by decide))
  checksummed := ⟨files, hchecksums⟩
  settled name hname := hsettled _ (owned_child hname) rfl

end Conclude

end DataCache.Storage
