import DataCache.Upload.Attempts

/-!
# Delivery over a lossy network

Any number of attempts on one directory run beside a receiver.  A request may
be lost, answered, or given up by its caller and arrive at any later moment.
In every such run, an attempt that succeeds leaves the directory in the inbox,
where it stays.
-/

namespace DataCache.Upload

open DataCache.Foundation DataCache.Storage
open DataCache.Receiver (Request Response Runtime Clock WriteFault Time opEnd
  handleRequest pruneIdleTransfers manifestName dispatch)

/-! ## The network -/

/-- The sender's disk, the receiver, and the requests given up by their callers. -/
structure Network where
  store : Store
  node : Receiver.Node
  late : List Request

/-- What becomes of a request, and what its caller gets. -/
inductive Called (runtime : Runtime) (s : Network) (request : Request) :
    Option Response → Network → Prop
  | lost : Called runtime s request none s
  | answered (clock : Clock) (fault : WriteFault) :
      Called runtime s request
        (some (handleRequest runtime clock fault s.node request).1)
        { s with node := (handleRequest runtime clock fault s.node request).2 }
  | abandoned : Called runtime s request none
      { s with late := request :: s.late }

def Performs (codec : Codec) (runtime : Runtime) :
    Prog.Effect UploadOp.Res Network
  | s, .fs op, r, s' => ∃ store, Effect codec s.store op r store ∧
      s' = { s with store }
  | s, .relative _ path, r, s' => s' = s ∧ (r = some (joinPath path) ∨ r = none)
  | s, .readChunk path offset count, r, s' => s' = s ∧ ∃ got ≤ count,
      r = (((s.store.disk.read? path).getD []).drop offset).take got
  | s, .call request, r, s' => Called runtime s request r s'
  | s, _, _, s' => s' = s

/-- The stored transfer id can be read. -/
def readsId (event : Text) : (op : UploadOp) → op.Res → Bool
  | .fs (.readFile path), content =>
      decide (path ≠ uploadIdPath event) || Option.isSome content
  | _, _ => true

/-- The files of the parcel are the visible ones of its directory. -/
structure Parcel.Lies (parcel : Parcel) (store : Store) : Prop where
  directory : store.disk.isDir [parcel.event] = true
  files : ∀ path, path ≠ [] → isMarkerOrTemp path = false →
    store.disk.read? (parcel.event :: path) =
      if path ∈ parcel.files then some (parcel.content path) else none
  id : ∃ bytes, store.disk.read? (uploadIdPath parcel.event) = some bytes ∧
    firstLine bytes = parcel.transferId

/-- A network, and what its attempts have still to do. -/
structure Delivery where
  net : Network
  attempts : List (Transfer Bool)

inductive Delivery.Step (codec : Codec) (runtime : Runtime) (parcel : Parcel) (w : Delivery) :
    Delivery → Prop
  | begin (config : Config) : Delivery.Step codec runtime parcel w
      { w with attempts := uploadDirectory config parcel.event :: w.attempts }
  | act {before after : List (Transfer Bool)} {op : UploadOp}
      {next : op.Res → Transfer Bool} {r : op.Res} {net : Network}
      (hattempt : w.attempts = before ++ .call op next :: after)
      (hperforms : Performs codec runtime w.net op r net)
      (hid : readsId parcel.event op r = true) :
      Delivery.Step codec runtime parcel w ⟨net, before ++ next r :: after⟩
  | arrive {request : Request} (clock : Clock) (fault : WriteFault)
      (hlate : request ∈ w.net.late) : Delivery.Step codec runtime parcel w
        { w with net := { w.net with
          node := (handleRequest runtime clock fault w.net.node request).2
          late := w.net.late.erase request } }
  | prune (now : Time) : Delivery.Step codec runtime parcel w
      { w with net := { w.net with node := pruneIdleTransfers now w.net.node } }
  | foreign {request : Request} (clock : Clock) (fault : WriteFault)
      (h : parcel.Foreign w.net.node clock request) : Delivery.Step codec runtime parcel w
        { w with net := { w.net with
          node := (handleRequest runtime clock fault w.net.node request).2 } }
  | others {store : Store} (h : parcel.Lies store) : Delivery.Step codec runtime parcel w
      { w with net := { w.net with store } }

abbrev Delivery.Steps (codec : Codec) (runtime : Runtime) (parcel : Parcel) :
    Delivery → Delivery → Prop :=
  Relation.ReflTransGen (Delivery.Step codec runtime parcel)

/-- No attempt has begun, and the receiver has no transfer of the event. -/
structure Parcel.Starts (parcel : Parcel) (runtime : Runtime) (w : Delivery) : Prop where
  lies : parcel.Lies w.net.store
  reachable : Receiver.Reachable runtime Receiver.NoOverlap w.net.node
  idle : ∀ key state, w.net.node.transfers.get? key = some state →
    key.1 ≠ parcel.event
  apart : ∀ key state, w.net.node.transfers.get? key = some state →
    ¬Receiver.Overlaps key parcel.key
  late : w.net.late = []
  attempts : w.attempts = []

/-! ## What every step keeps -/

section Disk

variable {parcel : Parcel} {codec : Codec} {store store' : Store} {op : FsOp}
  {r : op.Res}

theorem Parcel.Lies.same (h : parcel.Lies store) (hop : Marking parcel.event op)
    (heffect : Effect codec store op r store') {path : Path}
    (hpath : ∀ name ∈ ownMarkers, path ≠ [name]) :
    Disk.SameAt (parcel.event :: path) store.disk store'.disk := by
  rcases hop with rfl | htouches
  · have hsame : ∀ {made : Path} {disk : FileSystem}, made <+: [parcel.event] →
        store.disk.mkdirs made = some disk →
        Disk.SameAt (parcel.event :: path) store.disk disk := by
      intro made disk hmade hmkdirs
      refine Disk.sameAt_mkdirs hmkdirs ?_
      cases path with
      | nil => exact .inr h.directory
      | cons name rest =>
          refine .inl fun hbelow => ?_
          have hlength := (hbelow.trans hmade).length_le
          simp at hlength
    rcases heffect with ⟨-, disk, hmkdirs, rfl⟩ | ⟨-, made, disk, hmade, hmkdirs, rfl⟩
    · exact hsame (List.prefix_refl _) hmkdirs
    · exact hsame hmade hmkdirs
  · refine heffect.sameAt fun htouched => ?_
    obtain ⟨name, hname, heq⟩ := htouches _ htouched
    exact hpath name hname (List.cons.inj heq).2

theorem Parcel.Lies.kept (h : parcel.Lies store) (hop : Marking parcel.event op)
    (heffect : Effect codec store op r store') : parcel.Lies store' where
  directory := by
    have hsame : Disk.SameAt [parcel.event] store.disk store'.disk :=
      h.same hop heffect fun _ _ => by simp
    exact hsame.isDir.trans h.directory
  files path hne hvisible := by
    have hown : ∀ name ∈ ownMarkers, path ≠ [name] := by
      rintro name hname rfl
      have hmarkers : ∀ name ∈ ownMarkers, isMarkerOrTemp [name] = true := by decide
      rw [hmarkers name hname] at hvisible
      cases hvisible
    rw [(h.same hop heffect hown).read?]
    exact h.files path hne hvisible
  id := by
    have hown : ∀ name ∈ ownMarkers, ([".upload_id"] : Path) ≠ [name] := by decide
    obtain ⟨bytes, hread, hid⟩ := h.id
    exact ⟨bytes, (h.same hop heffect hown).read?.trans hread, hid⟩

theorem Parcel.Lies.read (h : parcel.Lies store) {path : Path}
    (hpath : path ∈ parcel.files) :
    store.disk.read? (parcel.event :: path) = some (parcel.content path) := by
  rw [h.files path (parcel.named path hpath).1 (parcel.visible path hpath),
    if_pos hpath]

theorem Parcel.Lies.isFile_iff (h : parcel.Lies store) {path : Path}
    (hvisible : isMarkerOrTemp path = false) :
    store.disk.isFile (parcel.event :: path) = true ↔ path ∈ parcel.files := by
  cases path with
  | nil =>
      refine iff_of_false ?_ fun hmem => (parcel.named _ hmem).1 rfl
      rw [Disk.isFile_eq_false_of_isDir (by simp) h.directory]
      exact Bool.false_ne_true
  | cons name rest =>
      rw [Disk.isFile, h.files _ (List.cons_ne_nil _ _) hvisible]
      split <;> simp [*]

/-- The directory answers what the parcel says of it. -/
theorem Parcel.Lies.tells {runtime : Runtime} {s s' : Network} {op : UploadOp}
    {r : op.Res} (h : parcel.Lies s.store) (hperforms : Performs codec runtime s op r s')
    (hid : readsId parcel.event op r = true) : parcel.Tells op r := by
  cases op with
  | fs op =>
      obtain ⟨store, heffect, -⟩ := hperforms
      cases op with
      | readFile path =>
          rintro rfl
          obtain ⟨bytes, hread, hbytes⟩ := h.id
          rcases heffect.2 with hr | hnone
          · exact ⟨bytes, hr.trans hread, hbytes⟩
          · subst hnone
            simp [readsId] at hid
      | listFiles directory =>
          rintro rfl
          obtain ⟨-, hnodup, hfiles, hall⟩ := heffect
          refine ⟨hnodup, fun path hvisible hpath => ?_, fun hcomplete path hpath => ?_⟩
          · exact (h.isFile_iff hvisible).mp (hfiles path hpath)
          · exact hall hcomplete path
              ((h.isFile_iff (parcel.visible path hpath)).mpr hpath)
      | fileSize path =>
          rintro rest hrest rfl
          rcases heffect.2 with hr | hnone
          · rw [h.read hrest] at hr
            exact .inl hr
          · exact .inr hnone
      | _ => trivial
  | relative directory path => exact hperforms.2
  | readChunk path offset count =>
      rintro rest hrest rfl
      obtain ⟨-, got, -, hr⟩ := hperforms
      rw [h.read hrest] at hr
      exact ⟨got, hr⟩
  | _ => trivial

end Disk

/-- All that has been sent of the event, and is still to arrive, is the parcel's. -/
structure Parcel.Kept (parcel : Parcel) (s : Network) : Prop where
  lies : parcel.Lies s.store
  expects : parcel.Expects s.node
  late : ∀ request ∈ s.late, parcel.Sends request

/-- A success that is still to be reported has been earned. -/
def Parcel.Sound (parcel : Parcel) (node : Receiver.Node) (p : Transfer Bool) : Prop :=
  ∃ concluded, (concluded = true → parcel.Arrived node) ∧
    parcel.Follows (fun ok concluded' => ok = true → concluded' = true) p concluded

structure Parcel.Inv (parcel : Parcel) (w : Delivery) : Prop where
  kept : parcel.Kept w.net
  sound : ∀ p ∈ w.attempts, parcel.Sound w.net.node p

section Steps

variable {parcel : Parcel} {codec : Codec} {runtime : Runtime} {s s' : Network}
  {w w' : Delivery}

/-- How the receiver is after one of the parcel's requests. -/
theorem Parcel.Kept.handle (h : parcel.Kept s) (hcompleted : parcel.Completed)
    {request : Request} (hsends : parcel.Sends request) (runtime : Runtime)
    (clock : Clock) (fault : WriteFault) :
    let result := handleRequest runtime clock fault s.node request
    parcel.Expects result.2 ∧ (parcel.Arrived s.node → parcel.Arrived result.2) ∧
      (request.opcode = opEnd → result.1.success = true →
        parcel.Arrived result.2) := by
  cases hdispatch : dispatch runtime clock fault s.node request with
  | mk reply node =>
      simp only [handleRequest, hdispatch, Receiver.success_toResponse]
      exact h.expects.own hcompleted hsends hdispatch

theorem Parcel.Kept.called (h : parcel.Kept s) (hcompleted : parcel.Completed)
    {request : Request} {response : Option Response} (hsends : parcel.Sends request)
    (hcalled : Called runtime s request response s') :
    parcel.Kept s' ∧ (parcel.Arrived s.node → parcel.Arrived s'.node) ∧
      (concludes (.call request) response = true → parcel.Arrived s'.node) := by
  cases hcalled with
  | lost => exact ⟨h, id, by simp [concludes]⟩
  | answered clock fault =>
      obtain ⟨hexpects, hkept, harrives⟩ :=
        h.handle hcompleted hsends runtime clock fault
      refine ⟨⟨h.lies, hexpects, h.late⟩, hkept, fun hconcludes => ?_⟩
      simp only [concludes, Option.any_some, Bool.and_eq_true, decide_eq_true_eq]
        at hconcludes
      exact harrives hconcludes.1 hconcludes.2
  | abandoned =>
      exact ⟨⟨h.lies, h.expects, List.forall_mem_cons.mpr ⟨hsends, h.late⟩⟩, id,
        by simp [concludes]⟩

theorem Parcel.Kept.perform (h : parcel.Kept s) (hcompleted : parcel.Completed)
    {op : UploadOp} {r : op.Res} (hissues : parcel.Issues op)
    (hperforms : Performs codec runtime s op r s') :
    parcel.Kept s' ∧ (parcel.Arrived s.node → parcel.Arrived s'.node) ∧
      (concludes op r = true → parcel.Arrived s'.node) := by
  have hsame : s' = s → concludes op r = false → parcel.Kept s' ∧
      (parcel.Arrived s.node → parcel.Arrived s'.node) ∧
        (concludes op r = true → parcel.Arrived s'.node) := by
    rintro rfl hno
    exact ⟨h, id, fun hyes => by rw [hno] at hyes; cases hyes⟩
  cases op with
  | fs op =>
      obtain ⟨store, heffect, rfl⟩ := hperforms
      exact ⟨⟨h.lies.kept hissues heffect, h.expects, h.late⟩, id, nofun⟩
  | call request => exact h.called hcompleted hissues hperforms
  | relative directory path => exact hsame hperforms.1 rfl
  | readChunk path offset count => exact hsame hperforms.1 rfl
  | lastWriteTime path => exact hsame hperforms rfl
  | fileClockNow => exact hsame hperforms rfl
  | takeId => exact hsame hperforms rfl
  | openRead path => exact hsame hperforms rfl

theorem Parcel.Sound.mono {node node' : Receiver.Node} {p : Transfer Bool}
    (h : parcel.Sound node p) (hkept : parcel.Arrived node → parcel.Arrived node') :
    parcel.Sound node' p := by
  obtain ⟨concluded, harrived, hfollows⟩ := h
  exact ⟨concluded, fun hyes => hkept (harrived hyes), hfollows⟩

/-- A step that leaves the attempts alone and spares what has arrived. -/
theorem Parcel.Inv.besides (h : parcel.Inv w) (hkept : parcel.Kept s)
    (harrived : parcel.Arrived w.net.node → parcel.Arrived s.node) :
    parcel.Inv { w with net := s } :=
  ⟨hkept, fun p hp => (h.sound p hp).mono harrived⟩

theorem Parcel.Inv.act (h : parcel.Inv w) (hcompleted : parcel.Completed)
    {before after : List (Transfer Bool)} {op : UploadOp}
    {next : op.Res → Transfer Bool} {r : op.Res}
    (hattempt : w.attempts = before ++ .call op next :: after)
    (hperforms : Performs codec runtime w.net op r s)
    (hid : readsId parcel.event op r = true) :
    parcel.Inv ⟨s, before ++ next r :: after⟩ := by
  have hmem : ∀ p ∈ before ++ .call op next :: after, parcel.Sound w.net.node p :=
    hattempt ▸ h.sound
  obtain ⟨concluded, harrived, hfollows⟩ := hmem (.call op next) (by simp)
  have hissues := hfollows.issued fun _ => rfl
  obtain ⟨hkept, hstays, harrives⟩ :=
    h.kept.perform hcompleted hissues hperforms
  have hlearns : parcel.Learns concluded op r (concluded || concludes op r) :=
    ⟨h.kept.lies.tells hperforms hid, rfl⟩
  refine ⟨hkept, fun p hp => ?_⟩
  rcases List.mem_append.mp hp with hp | hp
  · exact (hmem p (List.mem_append_left _ hp)).mono hstays
  · rcases List.mem_cons.mp hp with rfl | hp
    · refine ⟨_, fun hyes => ?_, hfollows.step (fun _ => rfl) hlearns⟩
      rcases Bool.or_eq_true_iff.mp hyes with hyes | hyes
      · exact hstays (harrived hyes)
      · exact harrives hyes
    · exact (hmem p (List.mem_append_right _ (List.mem_cons_of_mem _ hp))).mono hstays

theorem Delivery.Step.inv (h : parcel.Inv w) (hcompleted : parcel.Completed)
    (hstep : Delivery.Step codec runtime parcel w w') : parcel.Inv w' := by
  have hkept := h.kept
  cases hstep with
  | begin config =>
      refine ⟨hkept, List.forall_mem_cons.mpr ⟨⟨false, nofun, ?_⟩, h.sound⟩⟩
      exact follows_uploadDirectory config
  | act hattempt hperforms hid => exact h.act hcompleted hattempt hperforms hid
  | arrive clock fault hlate =>
      obtain ⟨hexpects, hstays, -⟩ := hkept.handle hcompleted
        (hkept.late _ hlate) runtime clock fault
      exact h.besides ⟨hkept.lies, hexpects, fun other hother =>
        hkept.late other (List.mem_of_mem_erase hother)⟩ hstays
  | prune now =>
      exact h.besides ⟨hkept.lies, hkept.expects.prune now, hkept.late⟩
        fun harrived => harrived.prune now
  | @foreign request clock fault hforeign =>
      cases hdispatch : dispatch runtime clock fault w.net.node request with
      | mk reply node =>
          obtain ⟨hexpects, hstays⟩ := hkept.expects.foreign hforeign hdispatch
          simp only [handleRequest, hdispatch]
          exact h.besides ⟨hkept.lies, hexpects, hkept.late⟩ hstays
  | others hlies => exact h.besides ⟨hlies, hkept.expects, hkept.late⟩ id

theorem Parcel.Starts.inv (h : parcel.Starts runtime w) : parcel.Inv w where
  kept :=
    { lies := h.lies
      expects := ⟨h.reachable.nodeOk, fun key state hget _ => h.apart key state hget,
        fun state hget => absurd rfl (h.idle _ state hget)⟩
      late := by simp [h.late] }
  sound := by simp [h.attempts]

theorem Parcel.Starts.steps (h : parcel.Starts runtime w)
    (hcompleted : parcel.Completed) (hsteps : Delivery.Steps codec runtime parcel w w') :
    parcel.Inv w' := by
  induction hsteps with
  | refl => exact h.inv
  | tail _ hstep ih => exact hstep.inv ih hcompleted

/--
Whatever is lost, comes late or is repeated, also in the middle of another
attempt: once an attempt has reported success, the inbox has exactly the files
of the directory under the event's name, and keeps them.
-/
theorem successful_upload_arrives (hcompleted : parcel.Completed)
    (hstarts : parcel.Starts runtime w) (hsteps : Delivery.Steps codec runtime parcel w w')
    (hdone : .ret true ∈ w'.attempts) :
    ∃ tree, w'.net.node.inbox.get? parcel.event = some tree ∧
      parcel.Matches tree := by
  obtain ⟨concluded, harrived, hfollows⟩ :=
    (hstarts.steps hcompleted hsteps).sound _ hdone
  exact (harrived (hfollows.returned (fun _ => rfl) rfl)).published

end Steps

/-! ### A late BEGIN -/

open EventState (plainCodec)
open Receiver (sampleRuntime sampleManifest)

def abcParcel : Parcel where
  event := "brake_7"
  transferId := "5-0"
  files := [["a"], ["manifest.sha256"]]
  content path := if path = ["a"] then encodeUtf8 "abc" else sampleManifest
  identified := by decide
  nodup := by decide
  named := by decide
  visible := by decide

def withFile (disk : FileSystem) (path : Path) (content : Bytes) : FileSystem :=
  (disk.create path).append path content

def abcDisk : FileSystem :=
  withFile (withFile (withFile
    ((Disk.blank.mkdirs [("brake_7" : Text)]).getD .blank)
    ["brake_7", "a"] (encodeUtf8 "abc"))
    ["brake_7", "manifest.sha256"] sampleManifest)
    ["brake_7", ".upload_id"] (encodeUtf8 "5-0\n")

def abcDelivery : Delivery := ⟨⟨⟨abcDisk, 0⟩, ⟨Dict.empty, Dict.empty⟩, []⟩, []⟩

/-- Without faults on the disk, and with requests answered or given up. -/
def Network.respond (codec : Codec) (runtime : Runtime) (answering : Bool)
    (s : Network) : (op : UploadOp) → Option (op.Res × Network)
  | .fs op => (s.store.respond codec op).map fun answer =>
      (answer.1, { s with store := answer.2 })
  | .lastWriteTime _ => some (none, s)
  | .fileClockNow => some ((0 : Int), s)
  | .takeId => some ((0 : Nat), s)
  | .relative _ path => some (some (joinPath path), s)
  | .openRead _ => some (true, s)
  | .readChunk path offset count =>
      some ((((s.store.disk.read? path).getD []).drop offset).take count, s)
  | .call request =>
      if answering then
        let result := handleRequest runtime ⟨0, 0⟩ .none s.node request
        some (some result.1, { s with node := result.2 })
      else some (none, { s with late := request :: s.late })

theorem performs_respond {codec : Codec} {runtime : Runtime} {answering : Bool}
    {s s' : Network} {op : UploadOp} {r : op.Res}
    (h : s.respond codec runtime answering op = some (r, s')) :
    Performs codec runtime s op r s' := by
  cases op with
  | fs op =>
      obtain ⟨answer, hanswer, heq⟩ := Option.map_eq_some_iff.mp h
      cases heq
      exact ⟨answer.2, effect_respond hanswer, rfl⟩
  | relative directory path => cases h; exact ⟨rfl, .inl rfl⟩
  | readChunk path offset count => cases h; exact ⟨rfl, count, le_rfl, rfl⟩
  | call request =>
      simp only [Network.respond] at h
      split at h <;> cases h
      · exact .answered ⟨0, 0⟩ .none
      · exact .abandoned
  | _ => cases h; rfl

/-- The undisturbed run of one attempt, as steps of the delivery. -/
theorem steps_of_exec {parcel : Parcel} {codec : Codec} {runtime : Runtime}
    {s s' : Network} {p p' : Transfer Bool} {others : List (Transfer Bool)}
    (h : Prog.Exec (fun s op r s' => Performs codec runtime s op r s' ∧
      readsId parcel.event op r = true) s p s' p') :
    Delivery.Steps codec runtime parcel ⟨s, p :: others⟩ ⟨s', p' :: others⟩ := by
  induction h with
  | refl => exact .refl
  | @step s s' s'' op next r p hperforms _ ih =>
      have hstep : Delivery.Step codec runtime parcel ⟨s, .call op next :: others⟩
          ⟨s', [] ++ next r :: others⟩ :=
        .act rfl hperforms.1 hperforms.2
      exact .head hstep ih

/-- An attempt answered or given up throughout, from beginning to end. -/
theorem attempted {parcel : Parcel} {codec : Codec} {runtime : Runtime}
    {answering : Bool} {config : Config} {s : Network}
    {check : Bool → Network → Bool} (others : List (Transfer Bool))
    (h : Prog.passes (fun s op => (s.respond codec runtime answering op).filter
        fun answer => readsId parcel.event op answer.1) check
      (uploadDirectory config parcel.event) s = true) :
    ∃ ok s', Delivery.Steps codec runtime parcel ⟨s, others⟩ ⟨s', .ret ok :: others⟩ ∧
      check ok s' = true := by
  have hhandler : ∀ (s : Network) (op : UploadOp) (r : op.Res) (s' : Network),
      ((s.respond codec runtime answering op).filter
        fun answer => readsId parcel.event op answer.1) = some (r, s') →
      Performs codec runtime s op r s' ∧ readsId parcel.event op r = true := by
    intro s op r s' hanswer
    obtain ⟨hanswer, hid⟩ := Option.filter_eq_some_iff.mp hanswer
    exact ⟨performs_respond hanswer, hid⟩
  obtain ⟨ok, s', hexec, hcheck⟩ := Prog.exec_of_passes hhandler h
  exact ⟨ok, s', .head (.begin config) (steps_of_exec hexec), hcheck⟩

theorem files_abcDisk {path : Path}
    (h : abcDisk.isFile ("brake_7" :: path) = true) :
    path = ["a"] ∨ path = ["manifest.sha256"] ∨ path = [".upload_id"] := by
  have hfiles : filesBelow abcDisk ["brake_7"] =
      ([["a"], ["manifest.sha256"], [".upload_id"]] : List Path) := by
    decide +kernel
  have hmem : path ∈ filesBelow abcDisk ["brake_7"] := isFile_of_mem_filesBelow.mpr h
  rw [hfiles] at hmem
  simpa using hmem

theorem lies_abcDisk : abcParcel.Lies ⟨abcDisk, 0⟩ where
  directory := by decide +kernel
  files path _ hvisible := by
    cases hfile : abcDisk.isFile ("brake_7" :: path) with
    | true =>
        rcases files_abcDisk hfile with rfl | rfl | rfl
        · decide +kernel
        · decide +kernel
        · exact absurd hvisible (by decide)
    | false =>
        have hread : abcDisk.read? ("brake_7" :: path) = none := by
          simpa [Disk.isFile] using hfile
        have hnot : path ∉ abcParcel.files := by
          have hfiles : ∀ path ∈ abcParcel.files,
              abcDisk.isFile ("brake_7" :: path) = true := by
            decide +kernel
          intro hmem
          rw [hfiles path hmem] at hfile
          cases hfile
        rw [if_neg hnot]
        exact hread
  id := ⟨encodeUtf8 "5-0\n", by decide +kernel, by decide +kernel⟩

theorem completed_abcParcel : abcParcel.Completed := by
  refine ⟨hexdigest Receiver.abcDigest ++ "  a\n", by decide +kernel, ?_⟩
  intro path hpath hne
  rcases List.mem_cons.mp hpath with rfl | hpath
  · exact ⟨hexdigest Receiver.abcDigest, hexdigest Receiver.abcDigest ++ "  a",
      by decide +kernel, by decide +kernel⟩
  · exact absurd (List.mem_singleton.mp hpath) hne

theorem starts_abcDelivery : abcParcel.Starts sampleRuntime abcDelivery where
  lies := lies_abcDisk
  reachable := .start _
  idle _ _ h := by cases h
  apart _ _ h := by cases h
  late := rfl
  attempts := rfl

/--
The first attempt gives its `BEGIN` up, the second succeeds, and then that
`BEGIN` arrives and begins the transfer anew.
-/
theorem successful_upload_arrives_late : ∃ w' : Delivery,
    w'.net.node.transfers.contains abcParcel.key = true ∧
    ∃ tree, w'.net.node.inbox.get? "brake_7" = some tree ∧
      abcParcel.Matches tree := by
  let config : Config := ⟨"/upload", 3, 1000, 2, 300, 0⟩
  let late := beginRequest "brake_7" "5-0" 2 71
  have hrun : Prog.passes (fun s op =>
        (s.respond plainCodec sampleRuntime false op).filter
          fun answer => readsId abcParcel.event op answer.1)
      (fun ok s => !ok && Prog.passes (fun s op =>
          (s.respond plainCodec sampleRuntime true op).filter
            fun answer => readsId abcParcel.event op answer.1)
        (fun ok s => ok && decide (s.late = [late]) &&
          (handleRequest sampleRuntime ⟨0, 0⟩ .none s.node
            late).2.transfers.contains abcParcel.key)
        (uploadDirectory config abcParcel.event) s)
      (uploadDirectory config abcParcel.event) abcDelivery.net = true := by
    decide +kernel
  obtain ⟨_, s₁, hfirst, hcheck₁⟩ := attempted [] hrun
  rw [Bool.and_eq_true] at hcheck₁
  obtain ⟨ok, s₂, hsecond, hcheck₂⟩ := attempted _ hcheck₁.2
  simp only [Bool.and_eq_true, decide_eq_true_eq] at hcheck₂
  obtain ⟨⟨rfl, hlate⟩, hactive⟩ := hcheck₂
  have hsteps := (hfirst.trans hsecond).tail
    (.arrive ⟨0, 0⟩ .none (by rw [hlate]; exact List.mem_singleton_self late))
  exact ⟨_, hactive, successful_upload_arrives completed_abcParcel starts_abcDelivery
    hsteps (by simp)⟩

end DataCache.Upload
