import DataCache.Storage.Footprint

/-!
# Files the worker writes

What each operation tells about an owned path, and from this what the worker's
atomic writes and append-only streams leave on the disk.
-/

namespace DataCache.Storage

open DataCache.Foundation DataCache.Capture

/-! ## Owned paths -/

/-- A name that is neither empty nor hidden. -/
def Plain (name : Text) : Prop := ∃ c rest, name = c :: rest ∧ c ≠ '.'

theorem Plain.append {name : Text} (h : Plain name) (ending : Text) :
    Plain (name ++ ending) := by
  obtain ⟨c, rest, rfl, hc⟩ := h
  exact ⟨c, rest ++ ending, rfl, hc⟩

theorem Plain.not_upload {name : Text} (h : Plain name) :
    ¬(".upload" : Text) <+: name := by
  obtain ⟨c, rest, rfl, hc⟩ := h
  intro hstarts
  exact hc (List.cons_prefix_cons.mp hstarts).1.symm

theorem owned_directory (directory : Text) : Owned directory [directory] :=
  ⟨[], rfl, by decide⟩

theorem owned_child {directory name : Text} (h : Plain name) :
    Owned directory [directory, name] :=
  ⟨[name], rfl, h.not_upload⟩

theorem owned_grandchild {directory subdirectory name : Text} (h : Plain name) :
    Owned directory [directory, subdirectory, name] :=
  ⟨[subdirectory, name], rfl, h.not_upload⟩

theorem owned_manifest (directory : Text) :
    Owned directory (manifestPath directory) :=
  owned_child ⟨'m', _, rfl, by decide⟩

theorem owned_pairs (directory : Text) : Owned directory (pairsPath directory) :=
  owned_child ⟨'p', _, rfl, by decide⟩

/-! ## What the operations tell -/

/-- A file with synced bytes under a certain entry. -/
structure Kept (path : Path) (data : Bytes) (disk : FileSystem) : Prop where
  file : ∃ inode, disk.node? path = some (.file inode data true)
  entry : ∀ change ∈ disk.pending, change.1 ≠ path

theorem Kept.of_sameAt {path : Path} {data : Bytes} {disk disk' : FileSystem}
    (h : Kept path data disk) (hsame : Disk.SameAt path disk disk') :
    Kept path data disk' := by
  obtain ⟨inode, hnode⟩ := h.file
  exact ⟨⟨inode, hsame.node.trans hnode⟩, fun change hmem heq =>
    h.entry change (hsame.pending change hmem heq) heq⟩

theorem Kept.certain {path : Path} {data : Bytes} {disk : FileSystem}
    (h : Kept path data disk) : disk.Certain path := by
  obtain ⟨inode, hnode⟩ := h.file
  refine ⟨h.entry, fun inode' content synced hfile => ?_⟩
  rw [hnode] at hfile
  cases hfile
  rfl

theorem Kept.read? {path : Path} {data : Bytes} {disk : FileSystem}
    (h : Kept path data disk) : disk.read? path = some data := by
  obtain ⟨inode, hnode⟩ := h.file
  exact Disk.read?_of_node? hnode

/-- No change of an owned entry of this directory is pending. -/
def Settled (directory : Text) (parent : Path) (disk : FileSystem) : Prop :=
  ∀ path, Owned directory path → path.dropLast = parent →
    ∀ change ∈ disk.pending, change.1 ≠ path

namespace WorkerEffect

variable {codec : Codec} {directory : Text} {s s' : Watched}

theorem sameAt {op : FsOp} {r : op.Res}
    (h : WorkerEffect codec directory s op r s') {path : Path}
    (howned : Owned directory path) (htouches : ¬op.Touches path) :
    Disk.SameAt path s.disk s'.disk := by
  obtain ⟨before, during, hbefore, heffect, hafter⟩ := h.at howned
  exact (hbefore.trans (heffect.sameAt htouches)).trans hafter

theorem openTrunc {path : Path} (howned : Owned directory path)
    (h : WorkerEffect codec directory s (.openTrunc path) true s') :
    s'.disk.read? path = some [] := by
  obtain ⟨before, during, -, heffect, hafter⟩ := h.at howned
  rcases heffect with ⟨-, -, rfl⟩ | ⟨hfail, -⟩
  · rw [hafter.read?]
    exact Disk.read?_create_self _ _
  · cases hfail

theorem append {path : Path} {data content : Bytes}
    (howned : Owned directory path)
    (h : WorkerEffect codec directory s (.append path data) true s')
    (hread : s.disk.read? path = some content) :
    s'.disk.read? path = some (content ++ data) := by
  obtain ⟨before, during, hbefore, heffect, hafter⟩ := h.at howned
  rcases heffect with ⟨-, rfl⟩ | ⟨hfail, -⟩
  · rw [hafter.read?, Store.setDisk, Disk.read?_append_self, hbefore.read?, hread]
    rfl
  · cases hfail

theorem spill {path : Path} {data content : Bytes} {all : Bool}
    {spilt : Nat × Bool} (howned : Owned directory path)
    (h : WorkerEffect codec directory s (.spill path data all) spilt s')
    (hread : s.disk.read? path = some content) :
    s'.disk.read? path = some (content ++ data.take spilt.1) ∧
      (all = true → spilt.2 = true → spilt.1 = data.length) := by
  obtain ⟨before, during, hbefore, heffect, hafter⟩ := h.at howned
  obtain ⟨-, hall, rfl⟩ := heffect
  refine ⟨?_, hall⟩
  rw [hafter.read?, Store.setDisk, Disk.read?_append_self, hbefore.read?, hread]
  rfl

theorem openAppend {path : Path} {position : Nat}
    (howned : Owned directory path)
    (h : WorkerEffect codec directory s (.openAppend path) (some position) s') :
    position = ((s.disk.read? path).getD []).length ∧
      s'.disk.read? path = some ((s.disk.read? path).getD []) := by
  obtain ⟨before, during, hbefore, heffect, hafter⟩ := h.at howned
  rcases heffect with ⟨hposition, -, rfl⟩ | ⟨hfail, -⟩
  · rw [hbefore.read?] at hposition
    refine ⟨Option.some.inj hposition, ?_⟩
    rw [hafter.read?, Store.setDisk, Disk.read?_ensure_self, hbefore.read?]
  · cases hfail

theorem syncFile {path : Path} {content : Bytes} {r : Unit}
    (howned : Owned directory path)
    (h : WorkerEffect codec directory s (.syncFile path) r s')
    (hread : s.disk.read? path = some content) :
    ∃ inode, s'.disk.node? path = some (.file inode content true) := by
  obtain ⟨before, during, hbefore, heffect, hafter⟩ := h.at howned
  cases heffect
  rw [← hbefore.read?] at hread
  obtain ⟨inode, synced, hnode⟩ := Disk.node?_of_read? hread
  refine ⟨inode, ?_⟩
  rw [hafter.node]
  exact Disk.node?_syncFile_self hnode

theorem rename {source target : Path} {node : Foundation.Node UInt8}
    (hsource : Owned directory source) (htarget : Owned directory target)
    (h : WorkerEffect codec directory s (.rename source target) true s')
    (hnode : s.disk.node? source = some node) :
    s'.disk.node? target = some node := by
  obtain ⟨before, during, hbefore, heffect, hafter, -⟩ := h
  rcases heffect with ⟨-, -, -, rfl⟩ | ⟨hfail, -⟩
  · rw [(hafter target htarget).node]
    exact Disk.node?_rename_target ((hbefore source hsource).node.trans hnode)
  · cases hfail

theorem rename_failed {source target path : Path}
    (howned : Owned directory path)
    (h : WorkerEffect codec directory s (.rename source target) false s') :
    Disk.SameAt path s.disk s'.disk := by
  obtain ⟨before, during, hbefore, heffect, hafter⟩ := h.at howned
  rcases heffect with ⟨hdone, -⟩ | ⟨-, rfl⟩
  · cases hdone
  · exact hbefore.trans hafter

theorem syncDirectory {parent : Path} {r : Unit}
    (h : WorkerEffect codec directory s (.syncDirectory parent) r s') :
    Settled directory parent s'.disk := by
  intro path howned hparent
  obtain ⟨before, during, -, heffect, hafter⟩ := h.at howned
  cases heffect
  intro change hmem heq
  have hpending := (List.mem_filter.mp (hafter.pending change hmem heq)).2
  rw [heq, hparent] at hpending
  simp at hpending

theorem pathExists {path : Path} {found : Bool} (howned : Owned directory path)
    (h : WorkerEffect codec directory s (.exists path) (some found) s') :
    (s.disk.node? path).isSome = found := by
  obtain ⟨before, during, hbefore, heffect, -⟩ := h.at howned
  obtain ⟨-, heq | hnone⟩ := heffect
  · rw [← hbefore.node, ← Disk.pathExists_eq howned.ne_nil]
    exact (Option.some.inj heq).symm
  · cases hnone

theorem readFile {path : Path} {content : Bytes} (howned : Owned directory path)
    (h : WorkerEffect codec directory s (.readFile path) (some content) s') :
    s.disk.read? path = some content := by
  obtain ⟨before, during, hbefore, heffect, -⟩ := h.at howned
  obtain ⟨-, heq | hnone⟩ := heffect
  · rw [← hbefore.read?]
    exact heq.symm
  · cases hnone

/-- A complete listing has exactly the owned files. -/
theorem listFiles {listing : List Path × Bool} {path : Path}
    (howned : Owned directory (directory :: path))
    (h : WorkerEffect codec directory s (.listFiles [directory]) listing s')
    (hcomplete : listing.2 = true) :
    path ∈ listing.1 ↔ s.disk.isFile (directory :: path) = true := by
  obtain ⟨before, during, hbefore, heffect, -⟩ := h.at howned
  obtain ⟨-, -, hfiles, hall⟩ := heffect
  rw [← hbefore.isFile]
  exact ⟨hfiles path, hall hcomplete path⟩

theorem nodup_listing {path : Path} {listing : List Path × Bool}
    (h : WorkerEffect codec directory s (.listFiles path) listing s') :
    listing.1.Nodup := by
  obtain ⟨before, during, -, heffect, -, -⟩ := h
  exact heffect.2.1

theorem createDirectories {path : Path} (howned : Owned directory path)
    (h : WorkerEffect codec directory s (.createDirectories path) true s') :
    s'.disk.isDir path = true := by
  obtain ⟨before, during, -, heffect, hafter⟩ := h.at howned
  rcases heffect with ⟨-, disk, hdisk, rfl⟩ | ⟨hfail, -⟩
  · rw [hafter.isDir]
    exact Disk.isDir_mkdirs hdisk
  · cases hfail

theorem savePcd {path : Path} {cloud : PointCloud2}
    (howned : Owned directory path)
    (h : WorkerEffect codec directory s (.savePcd path cloud) (.ok true) s') :
    ∃ content, s'.disk.read? path = some content := by
  obtain ⟨before, during, -, heffect, hafter⟩ := h.at howned
  rcases heffect with ⟨-, content, -, rfl⟩ | ⟨hfail, -⟩
  · refine ⟨content, ?_⟩
    rw [hafter.read?, Store.setDisk, Disk.read?_append_self,
      Disk.read?_create_self]
    rfl
  · exact absurd rfl hfail

/-- Removing what is not there changes nothing. -/
theorem remove_absent {path : Path} {r : Bool} (howned : Owned directory path)
    (h : WorkerEffect codec directory s (.remove path) r s')
    (habsent : s.disk.node? path = none) : Disk.SameAt path s.disk s'.disk := by
  obtain ⟨before, during, hbefore, heffect, hafter⟩ := h.at howned
  refine (hbefore.trans ?_).trans hafter
  rcases heffect with ⟨-, -, rfl⟩ | ⟨-, rfl⟩
  · refine Disk.sameAt_remove (.inr ?_)
    rw [Disk.isFile, Disk.read?, hbefore.node, habsent]
    rfl
  · exact .refl _ _

theorem serialize {record : SensorData} {bytes : Bytes}
    (h : WorkerEffect codec directory s (.serialize record) (.ok bytes) s') :
    bytes = codec.serialize record := by
  obtain ⟨before, during, -, heffect, -, -⟩ := h
  obtain ⟨-, heq | ⟨error, herror⟩⟩ := heffect
  · exact Except.ok.inj heq
  · cases herror

theorem compress {level : Int} {bytes compressed : Bytes}
    (h : WorkerEffect codec directory s (.compress level bytes)
      (.ok (some compressed)) s') :
    compressed = codec.compress level bytes := by
  obtain ⟨before, during, -, heffect, -, -⟩ := h
  obtain ⟨-, heq | hnone | ⟨error, herror⟩⟩ := heffect
  · exact Option.some.inj (Except.ok.inj heq)
  · cases hnone
  · cases herror

end WorkerEffect

/-! ## Atomic writes -/

/-- A target and its temporary file. -/
def AtOrTemp (target path : Path) : Prop := path = target ∨ path = tempPath target

theorem confined_of {directory : Text} {touched : Path → Prop} {op : FsOp}
    (hremoval : ∀ target, op ≠ .removeAll target)
    (htouches : ∀ path, op.Touches path → touched path) :
    Confined directory touched op :=
  .inr ⟨fun target heq => absurd heq (hremoval target),
    fun path _ h => htouches path h⟩

section Programs

variable {codec : Codec} {directory : Text} {touched : Path → Prop}
  {s : Watched}

theorem removeOrThrow_does {path : Path} (hpath : touched path) :
    Does codec directory touched (removeOrThrow path) s fun _ _ => True := by
  refine Does.of_uses (Prog.uses_call_bind
    (confined_of nofun fun _ h => h ▸ hpath) ?_)
  rintro (_ | _) <;> trivial

/-- Syncing, renaming and syncing the parent directory keeps the bytes. -/
theorem replace_does {target : Path} {data : Bytes}
    (htarget : Owned directory target)
    (htemp : Owned directory (tempPath target))
    (hread : s.disk.read? (tempPath target) = some data) :
    Does codec directory (AtOrTemp target) (do
      perform (.syncFile (tempPath target))
      let renamed : Bool ← perform (.rename (tempPath target) target)
      if !renamed then
        removeOrThrow (tempPath target)
        return false
      else
        perform (.syncDirectory target.dropLast)
        return true) s fun ok s' => ok = true → Kept target data s'.disk ∧
          Settled directory target.dropLast s'.disk := by
  refine Does.perform (confined_of nofun fun _ h => .inr h)
    fun _ s₁ hsync _ _ => ?_
  obtain ⟨inode, hnode⟩ := hsync.syncFile htemp hread
  refine Does.perform (confined_of nofun fun _ h => h.symm)
    fun renamed s₂ hrename _ _ => ?_
  cases renamed with
  | false =>
      exact Does.bind (removeOrThrow_does (.inr rfl)) fun _ _ _ _ _ =>
        Does.pure fun _ => nofun
  | true =>
      have hnode₂ := hrename.rename htemp htarget hnode
      refine Does.perform (confined_of nofun fun _ h => absurd h id)
        fun _ s₃ hsyncDir _ _ => Does.pure fun _ _ => ?_
      have hsettled := hsyncDir.syncDirectory
      exact ⟨⟨⟨inode, (hsyncDir.sameAt htarget id).node.trans hnode₂⟩,
        hsettled target htarget rfl⟩, hsettled⟩

theorem writeAtomically_settles {target : Path} (data : Bytes)
    (htarget : Owned directory target)
    (htemp : Owned directory (tempPath target)) :
    Does codec directory (AtOrTemp target) (writeAtomically target data) s
      fun ok s' => ok = true → Kept target data s'.disk ∧
        Settled directory target.dropLast s'.disk := by
  refine Does.perform (confined_of nofun fun _ h => .inr h)
    fun opened s₁ hopen _ _ => ?_
  cases opened with
  | false => exact Does.pure fun _ => nofun
  | true =>
      have hread₁ := hopen.openTrunc htemp
      refine Does.perform (confined_of nofun fun _ h => .inr h)
        fun written s₂ happend _ _ => ?_
      cases written with
      | false =>
          exact Does.perform (confined_of nofun fun _ h => .inr h)
            fun _ _ _ _ _ => Does.pure fun _ => nofun
      | true => exact replace_does htarget htemp (happend.append htemp hread₁)

theorem writeAtomically_does {target : Path} (data : Bytes)
    (htarget : Owned directory target)
    (htemp : Owned directory (tempPath target)) :
    Does codec directory (AtOrTemp target) (writeAtomically target data) s
      fun ok s' => ok = true → Kept target data s'.disk :=
  (writeAtomically_settles data htarget htemp).mono fun _ _ _ _ h hok =>
    (h hok).1

/-! ## Streams -/

/-- While the stream is good, file and buffer together make up the content. -/
def Stream.Holds (path : Path) (content : Bytes) (stream : Stream)
    (s : Watched) : Prop :=
  stream.good = true → ∃ written, s.disk.read? path = some written ∧
    written ++ stream.buffered = content

variable {path : Path} {content : Bytes}

theorem Stream.Holds.of_sameAt {stream : Stream} {s' : Watched}
    (h : stream.Holds path content s)
    (hsame : Disk.SameAt path s.disk s'.disk) :
    stream.Holds path content s' := by
  intro hgood
  obtain ⟨written, hread, hcontent⟩ := h hgood
  exact ⟨written, hsame.read?.trans hread, hcontent⟩

theorem Stream.put_does {stream : Stream} (howned : Owned directory path)
    (h : stream.Holds path content s) (data : Bytes) :
    Does codec directory (fun other => other = path) (stream.put path data) s
      fun stream' s' => stream'.Holds path (content ++ data) s' := by
  unfold Stream.put
  split
  next hbad =>
    refine Does.pure fun _ hgood => ?_
    simp [hgood] at hbad
  next hgood =>
    obtain ⟨written, hread, hcontent⟩ := h (by simpa using hgood)
    refine Does.perform (confined_of nofun fun _ h => h)
      fun spilt s' hspill _ _ => Does.pure fun _ _ => ?_
    refine ⟨_, (hspill.spill howned hread).1, ?_⟩
    rw [← hcontent, List.append_assoc, List.take_append_drop, List.append_assoc]

theorem Stream.flush_does {stream : Stream} (howned : Owned directory path)
    (h : stream.Holds path content s) :
    Does codec directory (fun other => other = path) (stream.flush path) s
      fun stream' s' => stream'.good = true →
        s'.disk.read? path = some content ∧ stream'.buffered = [] := by
  unfold Stream.flush
  split
  next hbad =>
    refine Does.pure fun _ hgood => ?_
    simp [hgood] at hbad
  next hgood =>
    obtain ⟨written, hread, hcontent⟩ := h (by simpa using hgood)
    refine Does.perform (confined_of nofun fun _ h => h)
      fun spilt s' hspill _ _ => Does.pure fun _ hflushed => ?_
    obtain ⟨hread', hall⟩ := hspill.spill howned hread
    have hcount := hall rfl hflushed
    rw [hcount, List.take_length] at hread'
    refine ⟨by rw [hread', hcontent], ?_⟩
    rw [hcount]
    exact List.drop_length

theorem Stream.close_does {stream : Stream} (hpath : touched path)
    (h : stream.good = true → stream.buffered = []) :
    Does codec directory touched (stream.close path) s fun _ s' =>
      stream.good = true → s'.disk = s.disk := by
  unfold Stream.close
  split
  · exact Does.pure fun _ _ => rfl
  next hbuffered =>
    refine Does.perform (confined_of nofun fun _ h => h ▸ hpath)
      fun _ _ _ _ _ => Does.pure fun _ hgood => ?_
    rw [h hgood] at hbuffered
    exact absurd rfl hbuffered

theorem Stream.start_does {position : Nat} (header : Text)
    (howned : Owned directory path)
    (hread : s.disk.read? path = some content)
    (hposition : position = content.length) :
    Does codec directory (fun other => other = path)
      (Stream.start path position header) s fun stream s' =>
        stream.Holds path (if content = [] then encodeUtf8 header else content)
          s' := by
  have hopened : Stream.Holds path content ⟨[], true⟩ s := fun _ =>
    ⟨content, hread, List.append_nil content⟩
  have hempty : position = 0 ↔ content = [] := by
    rw [hposition, List.length_eq_zero_iff]
  unfold Stream.start
  split
  next hzero =>
    have hnil := hempty.mp hzero
    rw [if_pos hnil]
    refine (Stream.put_does howned hopened _).mono fun stream s' _ _ h => ?_
    rwa [hnil, List.nil_append] at h
  next hnonzero =>
    rw [if_neg fun hnil => hnonzero (hempty.mpr hnil)]
    exact Does.pure fun _ => hopened

end Programs

end DataCache.Storage
