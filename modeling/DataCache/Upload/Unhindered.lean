import DataCache.Receiver.Acceptance
import DataCache.Upload.Delivery
import DataCache.Upload.EventNames

/-!
# An upload that nothing hinders

Where no file operation fails and every request is answered in time, the sender
measures, cuts and sends its files so that the receiver takes every request: the
transfer ends with success and the inbox has the files byte for byte.
-/

namespace DataCache.Upload

open DataCache.Foundation DataCache.Storage
open DataCache.Receiver (Request Response Runtime Sending Separate Certified Fits
  Awaits stagingName validateEventName handleRequest dispatch IdleIn opBegin
  opFileChunk opEnd)
open DataCache.EventState (ReplaceOp)

/-! ## Runs without hindrance -/

/-- No call reports a failure, and the clock is past the epoch. -/
def Succeeds (s : Store) : (op : FsOp) → op.Res → Prop
  | .createDirectories _, r => r = true
  | .openTrunc _, r => r = true
  | .append _ _, r => r = true
  | .rename _ _, r => r = true
  | .readFile path, r => r = s.disk.read? path
  | .fileSize path, r => r = (s.disk.read? path).map List.length
  | .listFiles _, r => r.2 = true
  | .systemNow, now => IsInt64 now ∧ (0 : Int) ≤ now
  | _, _ => True

def Reliable (codec : Codec) : Prog.Effect FsOp.Res Store :=
  fun s op r s' => Succeeds s op r ∧ Effect codec s op r s'

/-- Every request is answered before its transfer is idle for too long. -/
def Undisturbed (codec : Codec) (runtime : Runtime) :
    Prog.Effect UploadOp.Res Network
  | s, .fs op, r, s' => ∃ store, Reliable codec s.store op r store ∧
      s' = { s with store }
  | s, .takeId, id, s' => IsUInt64 id ∧ s' = s
  | s, .relative _ path, r, s' => r = some (joinPath path) ∧ s' = s
  | s, .openRead path, r, s' => r = s.store.disk.isFile path ∧ s' = s
  | s, .readChunk path offset count, r, s' => s' = s ∧
      r = (((s.store.disk.read? path).getD []).drop offset).take count
  | s, .call request, r, s' => ∃ clock,
      ¬IdleIn s.node (stagingName request.eventName request.transferId)
        clock.pruneAt ∧
      r = some (handleRequest runtime clock .none s.node request).1 ∧
      s' = { s with node := (handleRequest runtime clock .none s.node request).2 }
  | s, _, _, s' => s' = s

/-- Every run of a program from `s` returns, with `post`. -/
abbrev Ends {α : Type} (codec : Codec) (runtime : Runtime)
    (post : α → Network → Prop) (p : Transfer α) (s : Network) : Prop :=
  Prog.wp (Undisturbed codec runtime) (fun _ => True) post (fun _ _ => False) p s

abbrev EndsOnDisk {α : Type} (codec : Codec) (post : α → Store → Prop)
    (p : Action α) (s : Store) : Prop :=
  Prog.wp (Reliable codec) (fun _ => True) post (fun _ _ => False) p s

theorem Ends.bind {α β : Type} {codec : Codec} {runtime : Runtime}
    {mid : β → Network → Prop} {post : α → Network → Prop} {p : Transfer β}
    {f : β → Transfer α} {s : Network} (hfirst : Ends codec runtime mid p s)
    (h : ∀ value s', mid value s' → Ends codec runtime post (f value) s') :
    Ends codec runtime post (p >>= f) s :=
  Prog.wp_bind (Prog.wp_mono (fun _ => id) h (fun _ _ => id) hfirst)

/-- The visible files of a directory are those of the list. -/
structure Carries (directory : Text) (outgoing : List Sending)
    (disk : FileSystem) : Prop where
  isDir : disk.isDir [directory] = true
  read : ∀ file ∈ outgoing, disk.read? (directory :: file.parts) = some file.data
  plain : ∀ file ∈ outgoing, file.path = file.relative
  visible : ∀ file ∈ outgoing, isMarkerOrTemp file.parts = false
  known : ∀ path, path ≠ [] → isMarkerOrTemp path = false →
    disk.isFile (directory :: path) = true → ∃ file ∈ outgoing, file.parts = path

section Disk

variable {codec : Codec} {runtime : Runtime} {directory name : Text}
  {outgoing : List Sending} {s : Store}

theorem touched_of_replaceOp {op : FsOp} {path : Path}
    (hop : ReplaceOp [directory, name] op) (htouches : op.Touches path) :
    path <+: [directory] ∨ path = [directory, name] ∨
      path = [directory, name ++ (".tmp" : Text)] := by
  cases op with
  | createDirectories made =>
      obtain rfl : made = [directory] := hop
      exact .inl htouches
  | openTrunc target => exact .inr (.inr (htouches.trans hop))
  | append target data => exact .inr (.inr (htouches.trans hop))
  | syncFile target => exact .inr (.inr (htouches.trans hop))
  | rename source target =>
      obtain ⟨rfl, rfl⟩ := hop
      exact .inr (Or.symm htouches)
  | remove target =>
      obtain rfl : path = target := htouches
      exact .inr (Or.symm hop)
  | syncDirectory target => exact absurd htouches id
  | _ => exact absurd hop id

/-- Writing a marker leaves the visible files as they are. -/
theorem Carries.kept (h : Carries directory outgoing s.disk)
    (hname : isMarkerOrTemp [name] = true)
    (htemp : isMarkerOrTemp [name ++ (".tmp" : Text)] = true) {op : FsOp}
    {r : op.Res} {s' : Store} (hop : ReplaceOp [directory, name] op)
    (heffect : Effect codec s op r s') : Carries directory outgoing s'.disk := by
  have hsame : ∀ {path : Path}, path ≠ [] → isMarkerOrTemp path = false →
      Disk.SameAt (directory :: path) s.disk s'.disk := by
    intro path hne hvisible
    refine heffect.sameAt fun htouches => ?_
    rcases touched_of_replaceOp hop htouches with hstart | heq | heq
    · exact hne (List.prefix_nil.mp (List.cons_prefix_cons.mp hstart).2)
    · rw [(List.cons.inj heq).2, hname] at hvisible
      cases hvisible
    · rw [(List.cons.inj heq).2, htemp] at hvisible
      cases hvisible
  have hdirectory : Disk.SameAt [directory] s.disk s'.disk :=
    heffect.sameAt_of_isDir (List.cons_ne_nil _ _) h.isDir
      fun target heq => by subst heq; exact absurd hop id
  refine ⟨hdirectory.isDir.trans h.isDir, fun file hfile => ?_, h.plain, h.visible,
    fun path hne hvisible hfile => ?_⟩
  · rw [(hsame file.parts_ne_nil (h.visible file hfile)).read?]
    exact h.read file hfile
  · rw [(hsame hne hvisible).isFile] at hfile
    exact h.known path hne hvisible hfile

theorem writeAtomically_succeeds (target : Path) (content : Bytes) :
    EndsOnDisk codec (fun ok _ => ok = true)
      (EventState.writeAtomically target content) s := by
  rintro _ s₁ ⟨rfl, -⟩
  refine ⟨trivial, ?_⟩
  rintro _ s₂ ⟨rfl, -⟩
  refine ⟨trivial, ?_⟩
  rintro _ s₃ ⟨rfl, -⟩
  refine ⟨trivial, fun _ s₄ _ => ⟨trivial, ?_⟩⟩
  rintro _ s₅ ⟨rfl, -⟩
  exact ⟨trivial, fun _ _ _ => ⟨trivial, rfl⟩⟩

/-- A marker can be written, and the visible files stay. -/
theorem Carries.writeAtomically (h : Carries directory outgoing s.disk)
    (hname : isMarkerOrTemp [name] = true)
    (htemp : isMarkerOrTemp [name ++ (".tmp" : Text)] = true) (content : Bytes) :
    EndsOnDisk codec (fun ok s' => ok = true ∧ Carries directory outgoing s'.disk)
      (EventState.writeAtomically [directory, name] content) s := by
  have hstep : ∀ s op r s', ReplaceOp [directory, name] op →
      Carries directory outgoing s.disk → Reliable codec s op r s' →
      Carries directory outgoing s'.disk :=
    fun _ _ _ _ hop h heffect => h.kept hname htemp hop heffect.2
  have hkept := Prog.wp_of_uses hstep
    (EventState.writeAtomically_uses [directory, name] content) h
  exact Prog.wp_mono (fun _ _ => trivial) (fun _ _ => id) (fun _ _ h => h.1.elim)
    (Prog.wp_and (writeAtomically_succeeds _ content) hkept)

/-- What a program on the disk does as a part of an upload. -/
theorem ends_files {α : Type} {post : α → Store → Prop} :
    ∀ {p : Action α} {s : Network}, EndsOnDisk codec post p s.store →
      Ends codec runtime (fun value s' => ∃ store, post value store ∧
        s' = { s with store }) (files p) s
  | .ret _, s, h => ⟨s.store, h, rfl⟩
  | .raise _, _, h => h
  | .call _ _, s, h => by
      rintro r _ ⟨store, heffect, rfl⟩
      exact ⟨trivial, @ends_files _ _ _ { s with store } (h r store heffect).2⟩

/-- The files are collected, in some order. -/
theorem Carries.collectFiles (h : Carries directory outgoing s.disk)
    (hnodup : (outgoing.map Sending.parts).Nodup) :
    EndsOnDisk codec (fun collected s' => s' = s ∧ collected.2 = true ∧
      collected.1.Perm (outgoing.map Sending.parts))
      (Upload.collectFiles directory) s := by
  rintro listing _ ⟨hcomplete, rfl, hdistinct, hfiles, hall⟩
  refine ⟨trivial, rfl, hcomplete, ?_⟩
  refine (List.perm_insertionSort _ _).trans ((List.perm_ext_iff_of_nodup
    (hdistinct.filter _) hnodup).mpr fun path => ?_)
  rw [List.mem_filter, List.mem_map]
  constructor
  · rintro ⟨hpath, hvisible⟩
    have hfile := hfiles path hpath
    refine h.known path ?_ (by simpa using hvisible) hfile
    rintro rfl
    rw [List.append_nil, Disk.isFile_eq_false_of_isDir (List.cons_ne_nil _ _)
      h.isDir] at hfile
    cases hfile
  · rintro ⟨file, hfile, rfl⟩
    refine ⟨hall hcomplete _ ?_, by simp [h.visible file hfile]⟩
    rw [Disk.isFile, List.singleton_append, h.read file hfile]
    rfl

end Disk

/-! ## The transfer id -/

/-- The receiver takes the id together with every event name of the recorder. -/
structure Usable (transferId : Text) : Prop where
  valid : validateEventName transferId = some transferId
  short : transferId.length ≤ 41

/-- The id stored in a directory, if there is one, is usable. -/
def IdUsable (directory : Text) (disk : FileSystem) : Prop :=
  ∀ content, disk.read? (uploadIdPath directory) = some content →
    firstLine content ≠ [] → Usable (firstLine content)

theorem usable_generated {now id : Nat} (hnow : now < 2 ^ 63) (hid : IsUInt64 id) :
    Usable (showInt (Int.ofNat now) ++ ("-" : Text) ++ showNat id) := by
  have hlength := length_showNat_uint64 (show IsUInt64 now from hnow.trans (by norm_num))
  have hcount := length_showNat_uint64 hid
  change Usable (showNat now ++ ("-" : Text) ++ showNat id)
  cases hdigits : showNat now with
  | nil => exact absurd hdigits (showNat_ne_nil now)
  | cons first rest =>
      have hchars : ∀ c ∈ first :: rest, c.isDigit = true := fun c hc =>
        isDigit_of_mem_showNat (hdigits ▸ hc)
      have hall : ∀ c ∈ rest ++ (("-" : Text) ++ showNat id),
          Receiver.isEventNameChar c = true := by
        intro c hc
        rcases List.mem_append.mp hc with hc | hc
        · exact isEventNameChar_of_digit (hchars c (List.mem_cons_of_mem _ hc))
        · rcases List.mem_append.mp hc with hc | hc
          · rw [List.mem_singleton.mp hc]
            decide
          · exact isEventNameChar_showNat hc
      have hshort : (first :: (rest ++ (("-" : Text) ++ showNat id))).length ≤ 41 := by
        rw [hdigits] at hlength
        simp only [List.length_cons, List.length_append] at hlength ⊢
        change rest.length + (1 + _) + 1 ≤ 41
        omega
      have hfirst : first.isAlphanum = true := by
        rw [Char.isAlphanum, hchars first List.mem_cons_self, Bool.or_true]
      rw [List.append_assoc, List.cons_append]
      exact ⟨validateEventName_append hfirst hall (hshort.trans (by decide)), hshort⟩

section Transfer

variable {codec : Codec} {runtime : Runtime} {directory : Text}
  {outgoing : List Sending} {s : Network}

theorem Carries.transferIdFor (h : Carries directory outgoing s.store.disk)
    (hid : IdUsable directory s.store.disk) :
    Ends codec runtime (fun transferId s' => Usable transferId ∧
      Carries directory outgoing s'.store.disk ∧ s'.node = s.node)
      (Upload.transferIdFor directory) s := by
  rintro content _ ⟨store, ⟨hcontent, heffect⟩, rfl⟩
  obtain rfl : store = s.store := heffect.1
  have hcontent : content = s.store.disk.read? (uploadIdPath directory) := hcontent
  refine ⟨trivial, ?_⟩
  change Ends codec runtime _ (ite _ _ _) s
  split
  next hstored =>
    have hne : firstLine (content.getD []) ≠ [] := by simpa using hstored
    refine ⟨?_, h, rfl⟩
    cases hread : s.store.disk.read? (uploadIdPath directory) with
    | none =>
        rw [hcontent, hread] at hne
        exact absurd rfl hne
    | some bytes =>
        rw [hcontent, hread] at hne ⊢
        exact hid bytes hread hne
  next =>
    rintro now _ ⟨store, ⟨⟨⟨-, hhigh⟩, hpos⟩, rfl⟩, rfl⟩
    obtain ⟨n, rfl⟩ := Int.eq_ofNat_of_zero_le hpos
    have hn : n < 2 ^ 63 := by omega
    refine ⟨trivial, ?_⟩
    rintro id _ ⟨hcount, rfl⟩
    have hwritten := @Carries.writeAtomically codec directory ".upload_id" outgoing
      s.store h (by decide) (by decide)
    refine ⟨trivial, ?_⟩
    change Ends codec runtime _ (Upload.files (EventState.writeAtomically _ _) >>= _) s
    refine Ends.bind (ends_files (hwritten _)) ?_
    rintro _ _ ⟨store, ⟨rfl, hcarries⟩, rfl⟩
    exact ⟨usable_generated hn hcount, hcarries, rfl⟩

/-! ## The sizes -/

/-- What the sender knows of a file. -/
def infoOf (file : Sending) : FileInfo := ⟨file.parts, file.relative, file.size⟩

theorem relative_ne_nil (file : Sending) : file.relative ≠ [] := by
  intro hempty
  have hsafe := file.safeRelative_relative
  rw [hempty] at hsafe
  exact absurd hsafe (by decide)

theorem Carries.measureFiles (h : Carries directory outgoing s.store.disk)
    {files : List Sending} (hsub : files ⊆ outgoing) {totalBytes : Nat}
    (hbound : totalBytes + (files.map Sending.size).sum ≤ maxUInt64) :
    Ends codec runtime (fun measured s' => s' = s ∧ measured =
        some (files.map infoOf, totalBytes + (files.map Sending.size).sum))
      (Upload.measureFiles directory (files.map Sending.parts) totalBytes) s := by
  induction files generalizing totalBytes with
  | nil => exact ⟨rfl, rfl⟩
  | cons file rest ih =>
      have hread := h.read file (hsub List.mem_cons_self)
      rw [List.map_cons, List.sum_cons, ← Nat.add_assoc] at hbound
      rintro size _ ⟨store, ⟨hsize, heffect⟩, rfl⟩
      obtain rfl : store = s.store := heffect.1
      obtain rfl : size = some file.size :=
        Eq.trans (show size = (s.store.disk.read? _).map List.length from hsize)
          (by rw [hread]; rfl)
      refine ⟨trivial, ?_⟩
      change Ends codec runtime _ (ite _ _ _) s
      rw [if_neg (by omega)]
      rintro _ s' ⟨rfl, hsame⟩
      refine ⟨trivial, ?_⟩
      change Ends codec runtime _ (ite _ _ _) s'
      have hrelative : ¬List.isEmpty (joinPath file.parts) = true := by
        rw [List.isEmpty_iff]
        exact relative_ne_nil file
      rw [if_neg hrelative, hsame]
      refine Ends.bind (ih (List.cons_subset.mp hsub).2 hbound) ?_
      rintro _ s₂ ⟨hsame, rfl⟩
      refine ⟨hsame, ?_⟩
      rw [List.map_cons, List.map_cons, List.sum_cons, ← Nat.add_assoc]
      rfl

/-! ## The chunks -/

/-- The files lie on the sender's disk, and the receiver holds `contents`. -/
structure Underway (runtime : Runtime) (directory transferId : Text)
    (outgoing : List Sending) (contents : Text → Option Bytes) (s : Network) :
    Prop where
  carries : Carries directory outgoing s.store.disk
  awaits : Awaits runtime (directory, transferId) outgoing contents s.node

theorem ends_answeredOk {post : Network → Prop} {request : Request}
    (h : ∀ clock : Receiver.Clock,
      ¬IdleIn s.node (stagingName request.eventName request.transferId)
        clock.pruneAt →
      (dispatch runtime clock .none s.node request).1.accepted = true ∧
        post { s with node := (dispatch runtime clock .none s.node request).2 }) :
    Ends codec runtime (fun ok s' => ok = true ∧ post s') (answeredOk request) s := by
  rintro _ _ ⟨clock, hactive, rfl, rfl⟩
  obtain ⟨haccepted, hpost⟩ := h clock hactive
  refine ⟨trivial, ?_, hpost⟩
  rw [Option.any_some]
  exact (Receiver.success_toResponse runtime _).trans haccepted

/-- What a delivery has to be for its receiver. -/
structure Deliverable (runtime : Runtime) (key : Text × Text)
    (outgoing : List Sending) : Prop where
  separate : Separate runtime outgoing
  event : validateEventName key.1 = some key.1
  transferId : validateEventName key.2 = some key.2

section Chunks

variable {transferId : Text} {contents : Text → Option Bytes} {config : Config}
  {file : Sending}

/-- The next chunk of a file is sent and taken. -/
theorem Underway.answeredOk
    (h : Underway runtime directory transferId outgoing contents s)
    (hdeliverable : Deliverable runtime (directory, transferId) outgoing)
    (hfile : file ∈ outgoing) {offset : Nat} {data : Bytes}
    (hoffset : offset = ((contents file.relative).getD []).length)
    (hend : offset + data.length ≤ file.size) :
    Ends codec runtime (fun ok s' => ok = true ∧
        Underway runtime directory transferId outgoing
          (addPiece contents ⟨file.relative, offset, data⟩) s')
      (Upload.answeredOk (chunkRequest directory transferId (infoOf file) offset data))
      s := by
  let piece : Piece Text UInt8 := ⟨file.relative, offset, data⟩
  have hrequest : chunkRequest directory transferId (infoOf file) offset data =
      file.request (directory, transferId) piece := by
    rw [Sending.request, h.carries.plain file hfile]
    rfl
  have hname : piece.name = file.relative := rfl
  have hstart : piece.offset = ((contents file.relative).getD []).length := hoffset
  have hstop : piece.end ≤ file.size := hend
  rw [hrequest]
  refine ends_answeredOk fun clock hactive => ?_
  obtain ⟨haccepted, hawaits⟩ := h.awaits.chunk hdeliverable.separate
    hdeliverable.event hdeliverable.transferId hactive hfile hname hstart hstop
  exact ⟨haccepted, h.carries, hawaits⟩

/-- The next slice of a content whose front is there. -/
theorem addPiece_slice {name : Text} {content : Bytes} {offset : Nat}
    (h : (contents name).getD [] = content.take offset) (count : Nat) :
    addPiece contents ⟨name, offset, (content.drop offset).take count⟩ name =
      some (content.take (offset + ((content.drop offset).take count).length)) := by
  have hself := addPiece_self contents ⟨name, offset, (content.drop offset).take count⟩
  rw [h, take_append_take_drop] at hself
  exact hself

/-- A whole file has been added to what the receiver holds. -/
def Completes (file : Sending) (contents contents' : Text → Option Bytes) : Prop :=
  contents' file.relative = some file.data ∧
    ∀ relative, relative ≠ file.relative → contents' relative = contents relative

/-- The chunks of a file, from one that is as far as the receiver is. -/
theorem Underway.sendChunks (hchunk : 1 ≤ config.chunkBytes)
    (hdeliverable : Deliverable runtime (directory, transferId) outgoing)
    (hfile : file ∈ outgoing) {rounds : Nat} :
    ∀ {offset : Nat} {good : Bool} {contents : Text → Option Bytes} {s : Network},
      Underway runtime directory transferId outgoing contents s →
      (contents file.relative).getD [] = file.data.take offset →
      (offset = file.size → contents file.relative = some file.data) →
      offset ≤ file.size → file.size ≤ offset + rounds →
      (good = true ∨ offset = file.size) →
      Ends codec runtime (fun sent s' => sent = some file.size ∧
          ∃ contents', Completes file contents contents' ∧
            Underway runtime directory transferId outgoing contents' s')
        (Upload.sendChunks config directory transferId (infoOf file) rounds offset
          good) s := by
  induction rounds with
  | zero =>
      intro offset good contents s h _ hwhole hle hrounds _
      obtain rfl : offset = file.size := by omega
      exact ⟨rfl, contents, ⟨hwhole rfl, fun _ _ => rfl⟩, h⟩
  | succ rounds ih =>
      intro offset good contents s h hfront hwhole hle hrounds hgood
      rw [Upload.sendChunks]
      split
      next hstop =>
        obtain rfl : offset = file.size := by
          simp only [Bool.or_eq_true, decide_eq_true_eq, Bool.not_eq_true'] at hstop
          rcases hstop with hstop | hstop
          · exact le_antisymm hle hstop
          · exact hgood.resolve_left (by rw [hstop]; exact Bool.false_ne_true)
        exact ⟨rfl, contents, ⟨hwhole rfl, fun _ _ => rfl⟩, h⟩
      next hmore =>
        simp only [Bool.or_eq_true, decide_eq_true_eq, not_or] at hmore
        have hbelow : offset < file.size := Nat.lt_of_not_le hmore.1
        rintro data s ⟨rfl, hdata⟩
        have hread := h.carries.read file hfile
        obtain rfl : data = (file.data.drop offset).take config.chunkBytes :=
          hdata.trans (by
            rw [show s.store.disk.read? (directory :: (infoOf file).path) = _ from hread,
              Option.getD_some])
        have hlength : ((file.data.drop offset).take config.chunkBytes).length =
            min config.chunkBytes (file.size - offset) := by
          rw [List.length_take, List.length_drop]
          rfl
        have hsome : ¬List.isEmpty ((file.data.drop offset).take config.chunkBytes) =
            true := by
          rw [List.isEmpty_iff, ← List.length_eq_zero_iff, hlength]
          omega
        have hstart : offset = ((contents file.relative).getD []).length := by
          rw [hfront, List.length_take]
          exact (min_eq_left hle).symm
        refine ⟨trivial, ?_⟩
        change Ends codec runtime _ (ite _ _ _) s
        rw [if_neg hsome]
        refine Ends.bind (h.answeredOk hdeliverable hfile hstart (by omega)) ?_
        rintro _ s' ⟨rfl, h'⟩
        have hgrown := addPiece_slice hfront config.chunkBytes
        refine Prog.wp_mono (fun _ => id) ?_ (fun _ _ => id)
          (ih h' (by rw [hgrown]; rfl) ?_ (by omega) (by omega) ?_)
        · rintro sent s'' ⟨rfl, contents', ⟨hown, hothers⟩, h''⟩
          exact ⟨rfl, contents', ⟨hown, fun relative hne =>
            (hothers relative hne).trans (addPiece_other hne)⟩, h''⟩
        · intro hfull
          rw [hgrown, hfull]
          exact congrArg some List.take_length
        · by_cases hshort : ((file.data.drop offset).take
              config.chunkBytes).length = config.chunkBytes
          · exact .inl (decide_eq_true hshort)
          · refine .inr ?_
            omega

theorem Completes.trans {contents₁ contents₂ : Text → Option Bytes}
    (hfirst : ∀ relative, relative ≠ file.relative →
      contents₁ relative = contents relative)
    (h : Completes file contents₁ contents₂) : Completes file contents contents₂ :=
  ⟨h.1, fun relative hne => (h.2 relative hne).trans (hfirst relative hne)⟩

/-- An empty file has arrived with its announcement. -/
theorem Underway.announceEmpty
    (h : Underway runtime directory transferId outgoing contents s)
    (hdeliverable : Deliverable runtime (directory, transferId) outgoing)
    (hfile : file ∈ outgoing) (hnone : contents file.relative = none) :
    Ends codec runtime (fun ok s' => ok = true ∧ ∃ contents',
        Underway runtime directory transferId outgoing contents' s' ∧
        (contents' file.relative).getD [] = [] ∧
        (0 = file.size → contents' file.relative = some file.data) ∧
        ∀ relative, relative ≠ file.relative → contents' relative = contents relative)
      (Upload.announceEmpty directory transferId (infoOf file)) s := by
  unfold Upload.announceEmpty
  split
  next hempty =>
    have hsize : file.size = 0 := hempty
    have hdata : file.data = [] := List.length_eq_zero_iff.mp hsize
    have hself := addPiece_self contents ⟨file.relative, 0, []⟩
    rw [hnone] at hself
    refine Prog.wp_mono (fun _ => id) ?_ (fun _ _ => id)
      (h.answeredOk hdeliverable hfile (by rw [hnone]; rfl) (by rw [hsize]; rfl))
    rintro _ s' ⟨rfl, h'⟩
    refine ⟨rfl, _, h', by rw [hself]; rfl, fun _ => ?_, fun relative hne =>
      addPiece_other hne⟩
    rw [hself, hdata]
    rfl
  next hempty =>
    exact ⟨rfl, contents, h, by rw [hnone]; rfl, fun hzero =>
      absurd hzero.symm hempty, fun _ _ => rfl⟩

theorem Underway.sendFile (hchunk : 1 ≤ config.chunkBytes)
    (h : Underway runtime directory transferId outgoing contents s)
    (hdeliverable : Deliverable runtime (directory, transferId) outgoing)
    (hfile : file ∈ outgoing) (hnone : contents file.relative = none) :
    Ends codec runtime (fun sent s' => sent = some file.size ∧ ∃ contents',
        Completes file contents contents' ∧
        Underway runtime directory transferId outgoing contents' s')
      (Upload.sendFile config directory transferId (infoOf file)) s := by
  have hread := h.carries.read file hfile
  rintro opened s ⟨hopened, rfl⟩
  obtain rfl : opened = true := hopened.trans (by
    rw [Disk.isFile, show s.store.disk.read? (directory :: (infoOf file).path) = _
      from hread]
    rfl)
  refine ⟨trivial, ?_⟩
  change Ends codec runtime _ (Upload.announceEmpty _ _ _ >>= _) s
  refine Ends.bind (h.announceEmpty hdeliverable hfile hnone) ?_
  rintro _ s₁ ⟨rfl, contents₁, h₁, hfront, hwhole, hothers⟩
  change Ends codec runtime _ (Upload.sendChunks _ _ _ _ _ _ _ >>= _) s₁
  refine Ends.bind (Underway.sendChunks hchunk hdeliverable hfile h₁
    (by rw [hfront, List.take_zero]) hwhole (Nat.zero_le _)
    (Nat.le_add_left _ _) (.inl rfl)) ?_
  rintro _ s₂ ⟨rfl, contents₂, hcompletes, h₂⟩
  change Ends codec runtime _ (ite _ _ _) s₂
  have hfull : ¬file.size ≠ (infoOf file).size := not_not.mpr rfl
  rw [if_neg hfull]
  rintro size _ ⟨store, ⟨hsize, heffect⟩, rfl⟩
  obtain rfl : store = s₂.store := heffect.1
  have hkept : size = some file.size :=
    Eq.trans (show size = (s₂.store.disk.read? _).map List.length from hsize)
      (by rw [show s₂.store.disk.read? (directory :: (infoOf file).path) = _ from
        h₂.carries.read file hfile]; rfl)
  refine ⟨trivial, ?_, contents₂, hcompletes.trans hothers, h₂⟩
  rw [hkept]
  exact if_pos (beq_self_eq_true _)

/-- One file after another, none of which the receiver has anything of. -/
theorem Underway.sendFiles (hchunk : 1 ≤ config.chunkBytes)
    (hdeliverable : Deliverable runtime (directory, transferId) outgoing)
    {files : List Sending} :
    ∀ {contents : Text → Option Bytes} {s : Network} {sentBytes : Nat},
      Underway runtime directory transferId outgoing contents s →
      files ⊆ outgoing → files.Nodup →
      (∀ file ∈ files, contents file.relative = none) →
      Ends codec runtime (fun sent s' =>
          sent = some (sentBytes + (files.map Sending.size).sum) ∧ ∃ contents',
          Underway runtime directory transferId outgoing contents' s' ∧
          (∀ file ∈ files, contents' file.relative = some file.data) ∧
          ∀ file ∈ outgoing, file ∉ files →
            contents' file.relative = contents file.relative)
        (Upload.sendFiles config directory transferId (files.map infoOf) sentBytes)
        s := by
  induction files with
  | nil =>
      intro contents s sentBytes h _ _ _
      exact ⟨rfl, contents, h, nofun, fun _ _ _ => rfl⟩
  | cons file rest ih =>
      intro contents s sentBytes h hsub hnodup hnone
      obtain ⟨hfile, hrest⟩ := List.cons_subset.mp hsub
      obtain ⟨hnew, hnodup⟩ := List.nodup_cons.mp hnodup
      refine Ends.bind (h.sendFile hchunk hdeliverable hfile
        (hnone file List.mem_cons_self)) ?_
      rintro _ s₁ ⟨rfl, contents₁, ⟨hown, hothers⟩, h₁⟩
      have happart : ∀ other ∈ outgoing, other ≠ file →
          contents₁ other.relative = contents other.relative :=
        fun other hother hne => hothers _ fun heq =>
          hne (hdeliverable.separate.eq_of_relative hother hfile heq)
      refine Prog.wp_mono (fun _ => id) ?_ (fun _ _ => id)
        (ih h₁ hrest hnodup fun other hother => ?_)
      · rintro _ s₂ ⟨rfl, contents₂, h₂, hsent, hkept⟩
        refine ⟨?_, contents₂, h₂, List.forall_mem_cons.mpr ⟨?_, hsent⟩,
          fun other hother hmem => ?_⟩
        · rw [List.map_cons, List.sum_cons, ← Nat.add_assoc]
        · rw [hkept file hfile hnew, hown]
        · rw [List.mem_cons, not_or] at hmem
          rw [hkept other hother hmem.2, happart other hother hmem.1]
      · rw [happart other (hrest hother) fun heq => hnew (heq ▸ hother)]
        exact hnone other (List.mem_cons_of_mem _ hother)

/-! ## The transfer -/

/-- The inbox has the files of the list under this name, and no others. -/
def Stocks (name : Text) (outgoing : List Sending) (node : Receiver.Node) : Prop :=
  ∃ tree, node.inbox.get? name = some tree ∧
    ∀ path content, tree.read? path = some content ↔
      ∃ file ∈ outgoing, file.parts = path ∧ file.data = content

theorem Underway.finishTransfer {listed : List Sending}
    (h : Underway runtime directory transferId outgoing contents s)
    (hdeliverable : Deliverable runtime (directory, transferId) outgoing)
    (hcertified : Certified runtime outgoing listed)
    (hwhole : ∀ file ∈ outgoing, contents file.relative = some file.data) :
    Ends codec runtime (fun ok s' => ok = true ∧ Stocks directory outgoing s'.node)
      (Upload.finishTransfer directory transferId
        (outgoing.map Sending.size).sum) s := by
  rintro _ _ ⟨clock, hactive, rfl, rfl⟩
  have hopcode : (endRequest directory transferId).opcode = opEnd := rfl
  obtain ⟨hreply, harrived⟩ := @Receiver.Awaits.finish runtime _ _ listed _ _ clock
    .none _ h.awaits hdeliverable.separate hwhole hcertified hdeliverable.event
    hdeliverable.transferId hactive hopcode rfl
  refine ⟨trivial, ?_, harrived⟩
  have hresponse : (handleRequest runtime clock .none s.node
      (endRequest directory transferId)).1 =
      ⟨true, "transfer complete", (outgoing.map Sending.size).sum⟩ :=
    congrArg (Receiver.Reply.toResponse runtime) hreply
  rw [hresponse, Option.any_some]
  simp

theorem exists_map_of_perm {α β : Type} {f : α → β} {images : List β} {items : List α}
    (h : images.Perm (items.map f)) :
    ∃ items' : List α, images = items'.map f ∧ items'.Perm items :=
  (congrFun (congrFun (List.eq_map_comp_perm f) images) items).mpr h

theorem ends_transferMeasured {files listed : List Sending}
    (hchunk : 1 ≤ config.chunkBytes)
    (hcarries : Carries directory outgoing s.store.disk)
    (hseparate : Separate runtime outgoing)
    (hcertified : Certified runtime outgoing listed)
    (hfits : Fits (directory, transferId) outgoing s.node)
    (hperm : files.Perm outgoing) (hnodup : files.Nodup) :
    Ends codec runtime (fun ok s' => ok = true ∧ Stocks directory outgoing s'.node)
      (transferMeasured config directory transferId (files.map infoOf)
        (outgoing.map Sending.size).sum) s := by
  have hdeliverable : Deliverable runtime (directory, transferId) outgoing :=
    ⟨hseparate, hfits.event, hfits.transferId⟩
  have hbegin : Ends codec runtime (fun ok s' => ok = true ∧
      Underway runtime directory transferId outgoing (fun _ => none) s')
      (Upload.answeredOk (beginRequest directory transferId (files.map infoOf).length
        (outgoing.map Sending.size).sum)) s := by
    refine ends_answeredOk fun clock _ => ?_
    obtain ⟨haccepted, hawaits⟩ := @Receiver.Fits.begin runtime _ _ _ clock .none
      (beginRequest directory transferId (files.map infoOf).length
        (outgoing.map Sending.size).sum) hfits rfl rfl
      (by rw [beginRequest, List.length_map, hperm.length_eq]) rfl
    exact ⟨haccepted, hcarries, hawaits⟩
  refine Ends.bind hbegin ?_
  rintro _ s₁ ⟨rfl, h₁⟩
  change Ends codec runtime _ (Upload.sendFiles _ _ _ _ _ >>= _) s₁
  refine Ends.bind (Underway.sendFiles hchunk hdeliverable h₁ hperm.subset hnodup
    fun _ _ => rfl) ?_
  rintro _ s₂ ⟨rfl, contents, h₂, hsent, -⟩
  have htotal : 0 + (files.map Sending.size).sum =
      (outgoing.map Sending.size).sum := by
    rw [Nat.zero_add]
    exact (hperm.map _).sum_eq
  dsimp only
  rw [htotal]
  exact h₂.finishTransfer hdeliverable hcertified fun file hfile =>
    hsent file (hperm.mem_iff.mpr hfile)

end Chunks

/--
A directory whose files can be sent arrives whole at a receiver that has room
for it, whatever the chunk size.
-/
theorem ends_transferDirectory {config : Config} {listed : List Sending}
    (hchunk : 1 ≤ config.chunkBytes)
    (hcarries : Carries directory outgoing s.store.disk)
    (hid : IdUsable directory s.store.disk) (hseparate : Separate runtime outgoing)
    (hcertified : Certified runtime outgoing listed)
    (hfits : ∀ transferId, Usable transferId →
      Fits (directory, transferId) outgoing s.node) :
    Ends codec runtime (fun ok s' => ok = true ∧ Stocks directory outgoing s'.node)
      (transferDirectory config directory) s := by
  have hrelatives := hseparate.nodup_relatives
  have hnodup : (outgoing.map Sending.parts).Nodup :=
    (List.Nodup.of_map _ hrelatives).map_on fun first hfirst second hsecond =>
      hseparate.eq_of_parts hfirst hsecond
  refine Ends.bind (ends_files (hcarries.collectFiles hnodup)) ?_
  rintro ⟨collected, complete⟩ _ ⟨store, ⟨rfl, hcomplete, hcollected⟩, rfl⟩
  obtain rfl : complete = true := hcomplete
  obtain ⟨files, rfl, hperm⟩ := exists_map_of_perm hcollected
  obtain ⟨manifest, hmanifest, -⟩ := hcertified.manifest
  have hsome : List.isEmpty (files.map Sending.parts) = false := by
    rw [← Bool.not_eq_true, List.isEmpty_iff, List.map_eq_nil_iff]
    rintro rfl
    exact absurd (hperm.mem_iff.mpr hmanifest) List.not_mem_nil
  dsimp only
  rw [if_neg (by simp [hsome])]
  refine Ends.bind (hcarries.transferIdFor hid) ?_
  rintro transferId s₁ ⟨husable, hcarries₁, hnode⟩
  have hfits := hfits transferId husable
  rw [← hnode] at hfits
  have hnamed : transferId.isEmpty = false := by
    rw [← Bool.not_eq_true, List.isEmpty_iff]
    rintro rfl
    exact absurd husable.valid (by decide)
  have hcount : ¬(files.map Sending.parts).length > maxUInt32 := by
    have hlimit := hfits.fileLimit
    rw [List.length_map, hperm.length_eq]
    exact Nat.not_lt.mpr (hlimit.trans (by decide))
  have htotal : 0 + (files.map Sending.size).sum =
      (outgoing.map Sending.size).sum := by
    rw [Nat.zero_add]
    exact (hperm.map _).sum_eq
  change Ends codec runtime _ (ite _ _ _) s₁
  have hgo : (transferId.isEmpty || decide ((files.map Sending.parts).length >
      maxUInt32)) = false := by
    rw [hnamed, Bool.false_or, decide_eq_false hcount]
  rw [if_neg (by rw [hgo]; exact Bool.false_ne_true)]
  refine Ends.bind (hcarries₁.measureFiles hperm.subset
    (by rw [htotal]; exact hfits.byteLimit.trans (by decide))) ?_
  rintro _ s₂ ⟨rfl, rfl⟩
  dsimp only
  rw [htotal]
  exact ends_transferMeasured hchunk hcarries₁ hseparate hcertified hfits hperm
    (hperm.nodup_iff.mpr (List.Nodup.of_map _ hrelatives))

end Transfer

end DataCache.Upload
