import DataCache.Retention.Uploads
import DataCache.Upload.Parcel

/-!
# Attempts to upload

What an attempt issues while the directory stays as it is: markers of its own
and requests of the parcel.  It ends with success only after an `END` that was
answered with success.
-/

namespace DataCache.Upload

open DataCache.Foundation DataCache.Storage
open DataCache.Receiver (Request Response opEnd)
open DataCache.EventState (ReplaceOp)
open DataCache.Retention (Leasing leaseActive_uses)

/-! ## What an attempt issues and learns -/

/-- What the calls of an attempt answer about the directory. -/
def Parcel.Tells (parcel : Parcel) : (op : UploadOp) → op.Res → Prop
  | .fs (.readFile path), content => path = uploadIdPath parcel.event →
      ∃ bytes, content = some bytes ∧ firstLine bytes = parcel.transferId
  | .fs (.listFiles directory), listing => directory = [parcel.event] →
      listing.1.Nodup ∧
      (∀ path, isMarkerOrTemp path = false → path ∈ listing.1 →
        path ∈ parcel.files) ∧
      (listing.2 = true → ∀ path ∈ parcel.files, path ∈ listing.1)
  | .fs (.fileSize path), size => ∀ rest ∈ parcel.files,
      path = parcel.event :: rest →
      size = some (parcel.content rest).length ∨ size = none
  | .relative _ path, relative => relative = some (joinPath path) ∨ relative = none
  | .readChunk path offset _, data => ∀ rest ∈ parcel.files,
      path = parcel.event :: rest →
      ∃ count, data = ((parcel.content rest).drop offset).take count
  | _, _ => True

/-- An `END` was answered with success. -/
def concludes : (op : UploadOp) → op.Res → Bool
  | .call request, response =>
      decide (request.opcode = opEnd) && Option.any Response.success response
  | _, _ => false

def Parcel.Learns (parcel : Parcel) : Prog.Effect UploadOp.Res Bool :=
  fun concluded op r concluded' =>
    parcel.Tells op r ∧ concluded' = (concluded || concludes op r)

def ownMarkers : List Text :=
  [".uploading", ".uploading.tmp", ".uploaded", ".uploaded.tmp"]

/-- Only markers of the attempt's own change, in a directory that is there. -/
def Marking (event : Text) (op : FsOp) : Prop :=
  op = .createDirectories [event] ∨
    ∀ path, op.Touches path → ∃ name ∈ ownMarkers, path = [event, name]

def Parcel.Issues (parcel : Parcel) : UploadOp → Prop
  | .fs op => Marking parcel.event op
  | .call request => parcel.Sends request
  | _ => True

abbrev Parcel.Follows {α : Type} (parcel : Parcel) (post : α → Bool → Prop)
    (p : Transfer α) (concluded : Bool) : Prop :=
  Prog.Safe parcel.Learns Eq (fun _ => parcel.Issues) post p concluded

section Follows

variable {parcel : Parcel} {α β : Type} {post : α → Bool → Prop}
  {concluded : Bool}

theorem follows_ret {value : α} (h : post value concluded) :
    parcel.Follows post (.ret value) concluded := by
  rintro _ rfl
  exact h

theorem follows_call {op : UploadOp} {next : op.Res → Transfer α}
    (hop : parcel.Issues op) (h : ∀ r, parcel.Tells op r →
      parcel.Follows post (next r) (concluded || concludes op r)) :
    parcel.Follows post (.call op next) concluded := by
  rintro _ rfl
  refine ⟨hop, ?_⟩
  rintro r _ ⟨htells, rfl⟩
  exact h r htells

/-- Only requests can conclude an attempt. -/
theorem follows_quiet {op : UploadOp} {next : op.Res → Transfer α}
    (hop : parcel.Issues op) (hquiet : ∀ r, concludes op r = false)
    (h : ∀ r, parcel.Tells op r → parcel.Follows post (next r) concluded) :
    parcel.Follows post (.call op next) concluded :=
  follows_call hop fun r htells => by
    rw [hquiet r, Bool.or_false]
    exact h r htells

theorem Parcel.Follows.bind {p : Transfer β} {f : β → Transfer α}
    {mid : β → Bool → Prop} (hfirst : parcel.Follows mid p concluded)
    (h : ∀ value concluded', mid value concluded' →
      parcel.Follows post (f value) concluded') :
    parcel.Follows post (p >>= f) concluded :=
  Prog.Safe.bind (fun _ => rfl) (hfirst.mono fun value concluded' => h value concluded')

theorem marking_quiet {op : FsOp} {event : Text} (h : ∀ path, ¬op.Touches path) :
    Marking event op :=
  .inr fun path htouches => absurd htouches (h path)

theorem marking_remove {event name : Text} (hname : name ∈ ownMarkers) :
    Marking event (.remove [event, name]) :=
  .inr fun _ htouches => ⟨name, hname, htouches⟩

theorem marking_of_replaceOp {op : FsOp} {event name : Text}
    (h : ReplaceOp [event, name] op) (hname : name ∈ ownMarkers)
    (htemp : name ++ (".tmp" : Text) ∈ ownMarkers) : Marking event op := by
  cases op with
  | createDirectories path => exact .inl (congrArg FsOp.createDirectories h)
  | openTrunc path => exact .inr fun _ htouches => ⟨_, htemp, htouches.trans h⟩
  | append path data => exact .inr fun _ htouches => ⟨_, htemp, htouches.trans h⟩
  | syncFile path => exact .inr fun _ htouches => ⟨_, htemp, htouches.trans h⟩
  | syncDirectory path => exact marking_quiet fun _ => id
  | rename source target =>
      obtain ⟨rfl, rfl⟩ := h
      refine .inr fun path htouches => ?_
      rcases htouches with rfl | rfl
      · exact ⟨_, htemp, rfl⟩
      · exact ⟨name, hname, rfl⟩
  | remove path =>
      rcases h with rfl | rfl
      · exact marking_remove htemp
      · exact marking_remove hname
  | _ => exact absurd h id

theorem follows_files : ∀ {p : Action α}, p.uses (Marking parcel.event) →
    parcel.Follows (fun _ concluded' => concluded' = concluded) (files p) concluded
  | .ret _, _ => follows_ret rfl
  | .raise _, _ => trivial
  | .call _ _, h => follows_quiet h.1 (fun _ => rfl) fun r _ => follows_files (h.2 r)

theorem writeAtomically_marking {event name : Text} {content : Bytes}
    (hname : name ∈ ownMarkers) (htemp : name ++ (".tmp" : Text) ∈ ownMarkers) :
    (EventState.writeAtomically [event, name] content).uses (Marking event) :=
  Prog.uses_mono (fun _ hop => marking_of_replaceOp hop hname htemp)
    (EventState.writeAtomically_uses _ content)

theorem dropLease_marking (event : Text) : (dropLease event).uses (Marking event) :=
  ⟨marking_remove (by decide), fun _ => trivial⟩

theorem acquireLease_marking (config : Config) (event : Text) :
    (acquireLease config event).uses (Marking event) := by
  have hleasing : ∀ op, Leasing event op → Marking event op := by
    intro op h
    cases h with
    | quiet h => exact marking_quiet h
    | dropping => exact marking_remove (by decide)
  refine Prog.uses_bind (Prog.uses_mono hleasing (leaseActive_uses config event))
    fun active => ?_
  cases active with
  | true => trivial
  | false =>
      refine Prog.uses_call_bind (marking_quiet fun _ => id) fun now => ?_
      exact writeAtomically_marking (by decide) (by decide)

/-! ## The files -/

theorem follows_collectFiles :
    parcel.Follows (fun collected _ => collected.2 = true →
      collected.1.Perm parcel.files) (files (collectFiles parcel.event))
      concluded := by
  refine follows_quiet (marking_quiet fun _ => id) (fun _ => rfl) fun listing htells => ?_
  obtain ⟨hnodup, hknown, hall⟩ := htells rfl
  refine follows_ret fun hcomplete => ?_
  refine (List.perm_insertionSort _ _).trans ((List.perm_ext_iff_of_nodup
    (hnodup.filter _) parcel.nodup).mpr fun path => ?_)
  rw [List.mem_filter]
  constructor
  · rintro ⟨hpath, hvisible⟩
    exact hknown path (by simpa using hvisible) hpath
  · intro hpath
    exact ⟨hall hcomplete path hpath, by simp [parcel.visible path hpath]⟩

theorem follows_transferIdFor :
    parcel.Follows (fun transferId _ => transferId = parcel.transferId)
      (transferIdFor parcel.event) concluded := by
  refine follows_quiet (marking_quiet fun _ => id) (fun _ => rfl) fun content htells => ?_
  obtain ⟨bytes, rfl, hid⟩ := htells rfl
  have hstored : (!(firstLine bytes).isEmpty) = true := by
    rw [hid]
    simpa using parcel.identified
  change parcel.Follows _ (ite _ _ _) _
  rw [if_pos (by exact hstored)]
  exact follows_ret hid

theorem follows_measureFiles :
    ∀ (paths : List Path) (totalBytes : Nat) {concluded : Bool},
      (∀ path ∈ paths, path ∈ parcel.files) →
      parcel.Follows (fun measured _ => ∀ result, measured = some result →
          result = (paths.map parcel.info, totalBytes +
            (paths.map fun path => (parcel.content path).length).sum))
        (measureFiles parcel.event paths totalBytes) concluded
  | [], totalBytes, _, _ => follows_ret fun result h => by cases h; rfl
  | path :: rest, totalBytes, concluded, hpaths => by
      have hpath := hpaths path List.mem_cons_self
      refine follows_quiet (marking_quiet fun _ => id) (fun _ => rfl)
        fun (size : Option Nat) htells => ?_
      rcases htells path hpath rfl with rfl | rfl
      · change parcel.Follows _ (ite _ _ _) _
        split
        · exact follows_ret nofun
        refine follows_quiet trivial (fun _ => rfl)
          fun (relative : Option Text) htells => ?_
        rcases htells with rfl | rfl
        · change parcel.Follows _ (ite _ _ _) _
          split
          · exact follows_ret nofun
          refine Parcel.Follows.bind (follows_measureFiles rest _
            fun other hother => hpaths other (List.mem_cons_of_mem _ hother)) ?_
          rintro (_ | measured) _ hmeasured
          · exact follows_ret nofun
          · refine follows_ret fun result h => ?_
            cases h
            rw [hmeasured measured rfl]
            simp [Parcel.info, Nat.add_assoc]
        · exact follows_ret nofun
      · exact follows_ret nofun

/-! ## The requests -/

theorem follows_answeredOk {request : Request} (h : parcel.Sends request) :
    parcel.Follows (fun _ _ => True) (answeredOk request) concluded :=
  follows_call h fun _ _ => follows_ret trivial

theorem follows_sendChunks {config : Config} {path : Path}
    (hpath : path ∈ parcel.files) :
    ∀ (rounds offset : Nat) (good : Bool) {concluded : Bool},
      parcel.Follows (fun _ _ => True) (sendChunks config parcel.event
        parcel.transferId (parcel.info path) rounds offset good) concluded
  | 0, _, _, _ => follows_ret trivial
  | rounds + 1, offset, good, concluded => by
      rw [sendChunks]
      split
      · exact follows_ret trivial
      refine follows_quiet trivial (fun _ => rfl) fun (data : Bytes) htells => ?_
      obtain ⟨count, rfl⟩ := htells path hpath rfl
      change parcel.Follows _ (ite _ _ _) _
      split
      · exact follows_ret trivial
      refine (follows_answeredOk (.piece hpath offset count)).bind fun ok _ _ => ?_
      cases ok with
      | false => exact follows_ret trivial
      | true => exact follows_sendChunks hpath rounds _ _

theorem follows_sendFile {config : Config} {path : Path}
    (hpath : path ∈ parcel.files) :
    parcel.Follows (fun _ _ => True) (sendFile config parcel.event
      parcel.transferId (parcel.info path)) concluded := by
  refine follows_quiet trivial (fun _ => rfl) fun (opened : Bool) _ => ?_
  cases opened with
  | false => exact follows_ret trivial
  | true =>
      have hannounced : parcel.Follows (fun _ _ => True) (announceEmpty
          parcel.event parcel.transferId (parcel.info path)) concluded := by
        unfold announceEmpty
        split
        · exact follows_answeredOk (.piece hpath 0 0)
        · exact follows_ret trivial
      refine hannounced.bind fun announced _ _ => ?_
      cases announced with
      | false => exact follows_ret trivial
      | true =>
          refine (follows_sendChunks hpath _ _ _).bind fun sent _ _ => ?_
          cases sent with
          | none => exact follows_ret trivial
          | some offset =>
              change parcel.Follows _ (ite _ _ _) _
              split
              · exact follows_ret trivial
              · exact follows_quiet (marking_quiet fun _ => id) (fun _ => rfl)
                  fun _ _ => follows_ret trivial

theorem follows_sendFiles {config : Config} :
    ∀ (paths : List Path) (sentBytes : Nat) {concluded : Bool},
      (∀ path ∈ paths, path ∈ parcel.files) →
      parcel.Follows (fun _ _ => True) (sendFiles config parcel.event
        parcel.transferId (paths.map parcel.info) sentBytes) concluded
  | [], _, _, _ => follows_ret trivial
  | path :: rest, sentBytes, _, hpaths => by
      refine (follows_sendFile (hpaths path List.mem_cons_self)).bind
        fun sent _ _ => ?_
      cases sent with
      | none => exact follows_ret trivial
      | some bytes =>
          exact follows_sendFiles rest _ fun other hother =>
            hpaths other (List.mem_cons_of_mem _ hother)

/-- Success is reported only when `END` was answered with success. -/
theorem follows_finishTransfer {sentBytes : Nat} :
    parcel.Follows (fun ok concluded' => ok = true → concluded' = true)
      (finishTransfer parcel.event parcel.transferId sentBytes) concluded := by
  refine follows_call .finish fun (response : Option Response) _ =>
    follows_ret fun hok => ?_
  cases response with
  | none => cases hok
  | some answer =>
      simp only [Option.any_some, Bool.and_eq_true] at hok
      simp [concludes, endRequest, hok.1]

theorem follows_transferMeasured {config : Config} {paths : List Path}
    (hperm : paths.Perm parcel.files) :
    parcel.Follows (fun ok concluded' => ok = true → concluded' = true)
      (transferMeasured config parcel.event parcel.transferId
        (paths.map parcel.info) parcel.totalBytes) concluded := by
  have hstart : parcel.Sends (beginRequest parcel.event parcel.transferId
      (paths.map parcel.info).length parcel.totalBytes) := by
    rw [List.length_map, hperm.length_eq]
    exact .start
  refine (follows_answeredOk hstart).bind fun begun _ _ => ?_
  cases begun with
  | false => exact follows_ret nofun
  | true =>
      refine (follows_sendFiles paths 0 fun path hpath =>
        hperm.mem_iff.mp hpath).bind fun sent _ _ => ?_
      cases sent with
      | none => exact follows_ret nofun
      | some sentBytes => exact follows_finishTransfer

theorem follows_transferDirectory {config : Config} :
    parcel.Follows (fun ok concluded' => ok = true → concluded' = true)
      (transferDirectory config parcel.event) concluded := by
  refine follows_collectFiles.bind fun collected _ hcollected => ?_
  split
  · exact follows_ret nofun
  next hskip =>
    simp only [Bool.or_eq_true, not_or, Bool.not_eq_true', Bool.not_eq_false] at hskip
    have hperm := hcollected hskip.1
    refine follows_transferIdFor.bind fun transferId _ hid => ?_
    subst hid
    split
    · exact follows_ret nofun
    refine (follows_measureFiles collected.1 0 fun path hpath =>
      hperm.mem_iff.mp hpath).bind ?_
    rintro (_ | measured) _ hmeasured
    · exact follows_ret nofun
    · obtain rfl := hmeasured measured rfl
      have htotal : 0 + (collected.1.map fun path =>
          (parcel.content path).length).sum = parcel.totalBytes := by
        rw [Nat.zero_add]
        exact (hperm.map _).sum_eq
      dsimp only
      rw [htotal]
      exact follows_transferMeasured hperm

theorem follows_uploadDirectory (config : Config) :
    parcel.Follows (fun ok concluded' => ok = true → concluded' = true)
      (uploadDirectory config parcel.event) concluded := by
  refine (follows_files (acquireLease_marking config parcel.event)).bind
    fun acquired _ _ => ?_
  cases acquired with
  | false => exact follows_ret nofun
  | true =>
      have hdrop : ∀ {concluded : Bool} (result : Bool), (result = true →
          concluded = true) → parcel.Follows
            (fun ok concluded' => ok = true → concluded' = true)
            (files (dropLease parcel.event) >>= fun _ => pure result) concluded :=
        fun result h => (follows_files (dropLease_marking parcel.event)).bind
          fun _ _ heq => follows_ret fun hok => heq ▸ h hok
      refine follows_transferDirectory.bind fun transferred _ hconcluded => ?_
      cases transferred with
      | false => exact hdrop false nofun
      | true =>
          have hquiet : (collectFiles parcel.event).uses (Marking parcel.event) :=
            ⟨marking_quiet fun _ => id, fun _ => trivial⟩
          refine (follows_files hquiet).bind fun collected _ hsame => ?_
          refine (follows_files (writeAtomically_marking (by decide) (by decide))).bind
            fun written _ hsame' => ?_
          exact hdrop written fun _ => hsame' ▸ hsame ▸ hconcluded rfl

end Follows

end DataCache.Upload
