import DataCache.Retention.Promises

/-!
# The uploader beside a sweep

A search ends with directories that are complete and not uploaded, whatever the
others do meanwhile; an upload touches its directory only while that is still
so or while its lease is there.
-/

namespace DataCache.Retention

open DataCache.Foundation DataCache.Storage DataCache.EventState
open DataCache.Upload

/-! ## File-system calls of the uploader -/

section Files

variable {codec : Codec} {α : Type} {s s' : Store}

/-- A condition on the file-system calls. -/
def ForFiles (allowed : FsOp → Prop) : UploadOp → Prop
  | .fs op => allowed op
  | _ => True

theorem ForFiles.mono {allowed allowed' : FsOp → Prop} {op : UploadOp}
    (h : ForFiles allowed op) (hsub : ∀ op, allowed op → allowed' op) :
    ForFiles allowed' op := by
  cases op with
  | fs op => exact hsub op h
  | _ => trivial

abbrev OnFiles (pre : Store → FsOp → Prop) (s : Store) (op : UploadOp) : Prop :=
  ForFiles (pre s) op

theorem files_safe {rely : Store → Store → Prop} {pre : Store → FsOp → Prop}
    {pre' : Store → UploadOp → Prop} {post : α → Store → Prop}
    (hpre : ∀ s op, pre s op → pre' s (.fs op)) :
    ∀ {p : Action α} {s : Store},
      Prog.Safe (Effect codec) rely pre post p s →
      Prog.Safe (UploadEffect codec) rely pre' post (files p) s
  | .ret _, _, h => h
  | .raise _, _, _ => trivial
  | .call op _, _, h => fun s' hs' =>
      ⟨hpre s' op (h s' hs').1, fun r s'' heffect =>
        files_safe hpre ((h s' hs').2 r s'' heffect)⟩

theorem files_uses {allowed : FsOp → Prop} :
    ∀ {p : Action α}, p.uses allowed → (files p).uses (ForFiles allowed)
  | .ret _, _ => trivial
  | .raise _, _ => trivial
  | .call _ _, h => ⟨h.1, fun r => files_uses (h.2 r)⟩

/-- Calls of other kinds leave the store alone. -/
theorem ForFiles.keeps {allowed : FsOp → Prop}
    {kept : Store → Store → Prop} {op : UploadOp} {r : op.Res}
    (h : ForFiles allowed op) (heffect : UploadEffect codec s op r s')
    (hrefl : kept s s)
    (hfs : ∀ op r, allowed op → Effect codec s op r s' → kept s s') :
    kept s s' := by
  cases op with
  | fs op => exact hfs op r h heffect
  | _ =>
      obtain rfl : s' = s := heffect
      exact hrefl

end Files

/-! ## The search -/

/-- A search removes markers of uploads, and does nothing else to the store. -/
inductive Looking : FsOp → Prop
  | quiet {op : FsOp} (h : ∀ path, ¬op.Touches path) : Looking op
  | dropping (directory : Text) : Looking (.remove (uploadingPath directory))
  | retrying (directory : Text) : Looking (.remove (uploadFailedPath directory))

section Search

variable {codec : Codec} {config : Config} {directory : Text} {s s' : Store}
  {op : FsOp} {r : op.Res}

theorem Looking.present_eq (h : Looking op) (heffect : Effect codec s op r s')
    {name : Text} (hleased : name ≠ ".uploading")
    (hfailed : name ≠ ".upload_failed") :
    present s' directory name = present s directory name := by
  refine Retention.present_eq heffect fun htouches => ?_
  cases h with
  | quiet h => exact h _ htouches
  | dropping other =>
      have heq : [directory, name] = uploadingPath other := htouches
      simp only [uploadingPath, List.cons.injEq, and_true] at heq
      exact hleased heq.2
  | retrying other =>
      have heq : [directory, name] = uploadFailedPath other := htouches
      simp only [uploadFailedPath, List.cons.injEq, and_true] at heq
      exact hfailed heq.2

theorem Looking.absent (h : Looking op) (heffect : Effect codec s op r s')
    {name : Text} (habsent : present s directory name = false) :
    present s' directory name = false := by
  rw [← Bool.not_eq_true] at habsent ⊢
  intro hpresent
  cases h with
  | quiet h =>
      rw [Retention.present_eq heffect (h _)] at hpresent
      exact habsent hpresent
  | dropping other => exact habsent (present_of_remove heffect hpresent)
  | retrying other => exact habsent (present_of_remove heffect hpresent)

theorem Looking.candidate (h : Looking op) (heffect : Effect codec s op r s')
    (hcandidate : Candidate s directory) : Candidate s' directory := by
  constructor
  · rw [h.present_eq heffect (by decide) (by decide)]
    exact hcandidate.complete
  · rw [h.present_eq heffect (by decide) (by decide)]
    exact hcandidate.notUploaded

theorem Looking.keepsBlank (h : Looking op)
    (heffect : Effect codec s op r s') : KeepsBlank directory s s' :=
  ⟨h.absent heffect, h.absent heffect⟩

theorem Looking.keepsDisposable {policy : Policy} (h : Looking op)
    (heffect : Effect codec s op r s') : KeepsDisposable policy s s' := by
  intro other hother
  refine ⟨?_, h.absent heffect hother.settled, h.absent heffect hother.idle, ?_⟩
  · rw [h.present_eq heffect (by decide) (by decide),
      h.present_eq heffect (by decide) (by decide)]
    exact hother.finished
  · rw [h.present_eq heffect (by decide) (by decide),
      h.present_eq heffect (by decide) (by decide)]
    exact hother.uploaded

/-! ### Its programs -/

/-- What a lease check does to its directory. -/
inductive Leasing (directory : Text) : FsOp → Prop
  | quiet {op : FsOp} (h : ∀ path, ¬op.Touches path) : Leasing directory op
  | dropping : Leasing directory (.remove (uploadingPath directory))

theorem Leasing.looking (h : Leasing directory op) : Looking op := by
  cases h with
  | quiet h => exact .quiet h
  | dropping => exact .dropping directory

theorem leaseActive_uses (config : Config) (directory : Text) :
    (leaseActive config directory).uses (Leasing directory) := by
  have hdrop : (dropLease directory).uses (Leasing directory) :=
    ⟨.dropping, fun _ => trivial⟩
  refine Prog.uses_call_bind (.quiet fun _ => id)
    fun (content : Option Bytes) => ?_
  split
  · trivial
  · split
    · exact Prog.uses_bind hdrop fun _ => trivial
    · refine Prog.uses_call_bind (.quiet fun _ => id) fun now => ?_
      change Prog.uses _ (ite _ _ _)
      split
      · trivial
      · exact Prog.uses_bind hdrop fun _ => trivial

abbrev Searches {α : Type} (codec : Codec) (post : α → Store → Prop)
    (p : Transfer α) (s : Store) : Prop :=
  Prog.Safe (UploadEffect codec) KeepsUploads (OnFiles fun _ => Looking) post p s

/-- A part of the search that asks nothing about a candidate keeps it one. -/
theorem searches_of_uses {α : Type} {p : Transfer α} {inv : Store → Prop}
    (hrely : ∀ s s', inv s → KeepsUploads s s' → inv s')
    (hlooking : ∀ s op (r : op.Res) s', Looking op → inv s →
      Effect codec s op r s' → inv s')
    (h : p.uses (ForFiles Looking)) (hinv : inv s) :
    Searches codec (fun _ => inv) p s :=
  Prog.Safe.of_uses hrely (fun s' op hop hinv' => ⟨hop, fun r s'' heffect =>
    @ForFiles.keeps codec s' s'' Looking (fun _ => inv) op r hop heffect hinv'
      fun op r h => hlooking s' op r s'' h hinv'⟩) h hinv

theorem failureExpired_looking :
    (failureExpired config directory).uses (ForFiles Looking) := by
  unfold failureExpired
  split
  · trivial
  · refine ⟨trivial, fun (modified : Option Int) => ?_⟩
    cases modified with
    | none => trivial
    | some modified =>
        refine ⟨trivial, fun now => ?_⟩
        change Prog.uses _ (@ite _ _ (Int.decLt _ _) _ _)
        split
        · trivial
        · exact ⟨.retrying directory, fun _ => trivial⟩

theorem existsOrThrow_looking (path : Path) :
    (existsOrThrow path).uses Looking := by
  refine ⟨.quiet fun _ => id, fun (found : Option Bool) => ?_⟩
  cases found <;> trivial

/-- What the answer of an existence check says holds when it is given. -/
theorem existsOrThrow_searches {name : Text} {good : Bool → Store → Prop}
    (hkept : ∀ found s s', good found s → KeepsUploads s s' → good found s')
    (hgood : ∀ s', KeepsUploads s s' → good (present s' directory name) s') :
    Searches codec good (files (existsOrThrow [directory, name])) s := by
  refine @files_safe _ _ _ (fun _ => Looking) _ _ (fun _ _ => id) _ _
    fun s₁ hs₁ => ⟨.quiet fun _ => id, ?_⟩
  rintro (found : Option Bool) s₂ ⟨rfl, hfound⟩
  cases found with
  | none => trivial
  | some found =>
      rcases hfound with hfound | hfound
      · rw [pathExists_marker] at hfound
        cases hfound
        exact fun s₃ hs₃ => hkept _ _ _ (hgood s₂ hs₁) hs₃
      · cases hfound

theorem isCandidate_searches (s : Store) :
    Searches codec (fun found s => found = true → Candidate s directory)
      (isCandidate config directory) s := by
  refine Prog.Safe.bind KeepsUploads.refl ?_
  have hleased : (files (leaseActive config directory)).uses
      (ForFiles Looking) := files_uses (Prog.uses_mono (fun _ => Leasing.looking)
    (leaseActive_uses config directory))
  refine (@searches_of_uses codec s Bool _ (fun _ => True)
    (fun _ _ _ _ => trivial) (fun _ _ _ _ _ _ _ => trivial) hleased
    trivial).mono fun leased s₁ _ => ?_
  cases leased with
  | true => exact fun _ _ hfalse => nomatch hfalse
  | false =>
      refine Prog.Safe.bind KeepsUploads.refl ((@existsOrThrow_searches codec
        directory s₁ _ (fun found s => found = false →
          present s directory ".uploaded" = false)
        (fun found s s' h hs' hfound => hs'.notUploaded _ (h hfound))
        (fun _ _ => id)).mono fun uploaded s₂ h₂ => ?_)
      cases uploaded with
      | true => exact fun _ _ hfalse => nomatch hfalse
      | false =>
          refine Prog.Safe.bind KeepsUploads.refl ((@existsOrThrow_searches
            codec directory s₂ _ (fun found s => found = true →
              Candidate s directory)
            (fun found s s' h hs' hfound => hs'.candidate _ (h hfound))
            (fun s' hs' hfound =>
              ⟨hfound, hs'.notUploaded _ (h₂ rfl)⟩)).mono
                fun complete s₃ h₃ => ?_)
          cases complete with
          | false => exact fun _ _ hfalse => nomatch hfalse
          | true =>
              have hkept : ∀ {α : Type} (p : Transfer α) (s : Store),
                  p.uses (ForFiles Looking) →
                  Candidate s directory →
                  Searches codec (fun _ s => Candidate s directory) p s :=
                fun p s => searches_of_uses
                  (fun _ _ h hs' => hs'.candidate _ h)
                  fun _ _ _ _ hop h heffect => hop.candidate heffect h
              refine Prog.Safe.bind KeepsUploads.refl ((hkept _ s₃ (files_uses
                (existsOrThrow_looking _)) (h₃ rfl)).mono fun failed s₄ h₄ => ?_)
              cases failed with
              | false => exact fun s₅ hs₅ _ => hs₅.candidate _ h₄
              | true =>
                  change Searches codec _ (failureExpired config directory) s₄
                  refine (hkept _ s₄ failureExpired_looking h₄).mono ?_
                  exact fun _ _ h _ => h

theorem candidatesAmong_searches :
    ∀ (directories : List Text) (s : Store), Searches codec
      (fun candidates s => candidates.Sublist directories ∧
        ∀ directory ∈ candidates, Candidate s directory)
      (candidatesAmong config directories) s
  | [], _ => fun _ _ => ⟨.slnil, nofun⟩
  | directory :: rest, s => by
      refine Prog.Safe.bind KeepsUploads.refl
        ((isCandidate_searches s).mono fun found s₁ h₁ => ?_)
      have hframed := @Prog.Safe.frame _ _ _ _ _ (UploadEffect codec)
        KeepsUploads (OnFiles fun _ => Looking) _
        (fun s => found = true → Candidate s directory)
        (fun _ _ h hs' hfound => hs'.candidate _ (h hfound))
        (fun s op r s' hop h heffect hfound =>
          @ForFiles.keeps codec s s' Looking
            (fun _ s' => Candidate s' directory) op r hop heffect (h hfound)
            fun op r hop heffect => hop.candidate heffect (h hfound))
        _ s₁ (candidatesAmong_searches rest s₁) h₁
      refine Prog.Safe.bind KeepsUploads.refl
        (hframed.mono fun candidates s₂ h₂ => ?_)
      obtain ⟨⟨hsublist, hrest⟩, hfound⟩ := h₂
      intro s₃ hs₃
      cases found with
      | false => exact ⟨hsublist.cons _, fun other hother =>
          hs₃.candidate _ (hrest other hother)⟩
      | true =>
          refine ⟨hsublist.cons_cons _, fun other hother => ?_⟩
          rcases List.mem_cons.mp hother with rfl | hother
          · exact hs₃.candidate _ (hfound rfl)
          · exact hs₃.candidate _ (hrest other hother)

theorem findUploadCandidates_searches (s : Store) :
    Searches codec
      (fun candidates s => candidates.Nodup ∧
        ∀ directory ∈ candidates, Candidate s directory)
      (findUploadCandidates config) s := by
  intro s₁ _
  refine ⟨.quiet fun _ => id, fun listing s₂ heffect => ?_⟩
  exact (candidatesAmong_searches listing.1 s₂).mono
    fun candidates s₃ h => ⟨h.1.nodup heffect.2.1, h.2⟩

end Search

/-! ## An upload -/

/-- The files an upload touches. -/
def uploadFiles : List Text :=
  [".uploading", ".uploading.tmp", ".upload_id", ".upload_id.tmp", ".uploaded",
    ".uploaded.tmp"]

/-- The directory is still to be uploaded, or its lease is there. -/
def Held (directory : Text) (s : Store) : Prop :=
  Candidate s directory ∨ present s directory ".uploading" = true

structure Writes (directory : Text) (s : Store) (op : FsOp) : Prop where
  held : Held directory s
  within : Within directory uploadFiles op

structure Uploads (directory : Text) (s : Store) (op : UploadOp) : Prop where
  held : Held directory s
  within : ForFiles (Within directory uploadFiles) op

theorem Writes.uploads {directory : Text} {s : Store} {op : FsOp}
    (h : Writes directory s op) : Uploads directory s (.fs op) :=
  ⟨h.held, h.within⟩

section Upload

variable {codec : Codec} {config : Config} {directory : Text} {s : Store}

theorem replaces_lease : Replaces codec KeepsUploads (Writes directory)
    (uploadingPath directory) (fun s => Candidate s directory)
    fun s => present s directory ".uploading" = true where
  kept _ _ hcandidate hkeeps := hkeeps.candidate _ hcandidate
  issued s op hop hcandidate :=
    ⟨.inl hcandidate, .replaceOp hop (by decide) (by decide)⟩
  other s op r s' hop hne hcandidate heffect := by
    constructor
    · rw [present_eq_of_replaceOp hop heffect (.inr (by decide))]
      exact hcandidate.complete
    · rw [present_eq_of_replaceOp hop heffect (.inr (by decide))]
      exact hcandidate.notUploaded
  rename _ _ _ := present_of_rename
  held _ _ hlease hkeeps := hkeeps.lease _ hlease
  sync s hlease := by
    refine ⟨⟨.inr hlease, .quiet fun _ => id⟩, fun r s' heffect => ?_⟩
    rw [present_eq heffect (by simp [FsOp.Touches])]
    exact hlease

/-- The lease is there once it has been acquired. -/
theorem acquireLease_writes (h : Candidate s directory) :
    Prog.Safe (Effect codec) KeepsUploads (Writes directory)
      (fun acquired s => acquired = true →
        present s directory ".uploading" = true)
      (acquireLease config directory) s := by
  have hactive : Prog.Safe (Effect codec) KeepsUploads (Writes directory)
      (fun _ s => Candidate s directory) (leaseActive config directory) s := by
    refine Prog.Safe.of_uses (fun _ _ h hkeeps => hkeeps.candidate _ h)
      (fun s op hop h => ⟨⟨.inl h, ?_⟩, fun r s' heffect =>
        hop.looking.candidate heffect h⟩) (leaseActive_uses config directory) h
    cases hop with
    | quiet hquiet => exact .quiet hquiet
    | dropping => exact .remove (by decide)
  refine Prog.Safe.bind KeepsUploads.refl (hactive.mono fun active s₁ h₁ => ?_)
  cases active with
  | true => exact fun _ _ hfalse => nomatch hfalse
  | false =>
      intro s₂ hs₂
      have h₂ := hs₂.candidate _ h₁
      refine ⟨⟨.inl h₂, .quiet fun _ => id⟩, ?_⟩
      rintro now s₃ rfl
      refine (writeAtomically_replaces replaces_lease (leaseContent now)
        h₂).mono fun acquired s₄ h₄ hacquired => ?_
      rwa [if_pos hacquired] at h₄

/-! ### The transfer -/

/-- What is sent is only read; the id and the result are written beside it. -/
inductive Sending (directory : Text) : FsOp → Prop
  | quiet {op : FsOp} (h : ∀ path, ¬op.Touches path) : Sending directory op
  | identifying {op : FsOp} (h : ReplaceOp (uploadIdPath directory) op) :
      Sending directory op
  | marking {op : FsOp} (h : ReplaceOp (uploadedPath directory) op) :
      Sending directory op

abbrev Sends {α : Type} (directory : Text) (p : Transfer α) : Prop :=
  p.uses (ForFiles (Sending directory))

theorem collectFiles_sends (other : Text) :
    Sends directory (files (collectFiles other)) :=
  ⟨.quiet fun _ => id, fun _ => trivial⟩

theorem fileSize_sends (path : Path) :
    Sends directory (files (Storage.perform (.fileSize path))) :=
  ⟨.quiet fun _ => id, fun _ => trivial⟩

theorem transferIdFor_sends : Sends directory (transferIdFor directory) := by
  refine ⟨.quiet fun _ => id, fun content => ?_⟩
  change Prog.uses _ (ite _ _ _)
  split
  · trivial
  · refine Prog.uses_bind ⟨.quiet fun _ => id, fun _ => trivial⟩ fun now => ?_
    refine Prog.uses_call_bind trivial fun id => ?_
    exact Prog.uses_bind (files_uses (Prog.uses_mono
      (fun _ => Sending.identifying) (EventState.writeAtomically_uses _ _)))
      fun _ => trivial

theorem measureFiles_sends : ∀ (paths : List Path) (totalBytes : Nat),
    Sends directory (measureFiles directory paths totalBytes)
  | [], _ => trivial
  | path :: rest, totalBytes => by
      refine ⟨.quiet fun _ => id, fun (size : Option Nat) => ?_⟩
      cases size with
      | none => trivial
      | some size =>
          change Prog.uses _ (ite _ _ _)
          split
          · trivial
          · refine ⟨trivial, fun (relative : Option Text) => ?_⟩
            cases relative with
            | none => trivial
            | some relative =>
                change Prog.uses _ (ite _ _ _)
                split
                · trivial
                · exact Prog.uses_bind (measureFiles_sends rest _)
                    fun _ => trivial

theorem answeredOk_sends (request : Receiver.Request) :
    Sends directory (answeredOk request) :=
  ⟨trivial, fun _ => trivial⟩

theorem sendChunks_sends (event transferId : Text) (file : FileInfo) :
    ∀ rounds offset good,
      Sends directory
        (sendChunks config event transferId file rounds offset good)
  | 0, _, _ => trivial
  | rounds + 1, offset, good => by
      rw [sendChunks]
      split
      · trivial
      · refine ⟨trivial, fun data => ?_⟩
        change Prog.uses _ (ite _ _ _)
        split
        · trivial
        · refine Prog.uses_bind (answeredOk_sends _) fun ok => ?_
          cases ok with
          | false => trivial
          | true => exact sendChunks_sends event transferId file rounds _ _

theorem sendFile_sends (event transferId : Text) (file : FileInfo) :
    Sends directory (sendFile config event transferId file) := by
  refine Prog.uses_call_bind trivial fun (opened : Bool) => ?_
  cases opened with
  | false => trivial
  | true =>
      have hannounced : Sends directory (announceEmpty event transferId file) := by
        unfold announceEmpty
        split
        · exact answeredOk_sends _
        · trivial
      refine Prog.uses_bind hannounced fun announced => ?_
      cases announced with
      | false => trivial
      | true =>
          refine Prog.uses_bind (sendChunks_sends event transferId file _ _ _)
            fun sent => ?_
          cases sent with
          | none => trivial
          | some offset =>
              change Prog.uses _ (ite _ _ _)
              split
              · trivial
              · exact Prog.uses_bind (fileSize_sends _) fun _ => trivial

theorem sendFiles_sends (event transferId : Text) :
    ∀ (fileInfo : List FileInfo) (sentBytes : Nat),
      Sends directory (sendFiles config event transferId fileInfo sentBytes)
  | [], _ => trivial
  | file :: rest, sentBytes => by
      refine Prog.uses_bind (sendFile_sends event transferId file)
        fun sent => ?_
      cases sent with
      | none => trivial
      | some bytes => exact sendFiles_sends event transferId rest _

theorem transferMeasured_sends (event transferId : Text)
    (fileInfo : List FileInfo) (totalBytes : Nat) :
    Sends directory
      (transferMeasured config event transferId fileInfo totalBytes) := by
  refine Prog.uses_bind (answeredOk_sends _) fun begun => ?_
  cases begun with
  | false => trivial
  | true =>
      refine Prog.uses_bind (sendFiles_sends event transferId fileInfo 0)
        fun sent => ?_
      cases sent with
      | none => trivial
      | some sentBytes => exact ⟨trivial, fun _ => trivial⟩

theorem transferDirectory_sends :
    Sends directory (transferDirectory config directory) := by
  refine Prog.uses_bind (collectFiles_sends directory) fun collected => ?_
  change Prog.uses _ (ite _ _ _)
  split
  · trivial
  · refine Prog.uses_bind transferIdFor_sends fun transferId => ?_
    change Prog.uses _ (ite _ _ _)
    split
    · trivial
    · refine Prog.uses_bind (measureFiles_sends _ _) fun measured => ?_
      cases measured with
      | none => trivial
      | some measured => exact transferMeasured_sends _ _ _ _

theorem Sending.within {op : FsOp} (h : Sending directory op) :
    Within directory uploadFiles op := by
  cases h with
  | quiet h => exact .quiet h
  | identifying h => exact .replaceOp h (by decide) (by decide)
  | marking h => exact .replaceOp h (by decide) (by decide)

theorem Sending.lease {op : FsOp} {r : op.Res} {s' : Store}
    (h : Sending directory op) (heffect : Effect codec s op r s') :
    present s' directory ".uploading" = present s directory ".uploading" := by
  cases h with
  | quiet h => exact present_eq heffect (h _)
  | identifying h => exact present_eq_of_replaceOp h heffect (.inr (by decide))
  | marking h => exact present_eq_of_replaceOp h heffect (.inr (by decide))

abbrev SafelyUploads {α : Type} (codec : Codec) (directory : Text)
    (post : α → Store → Prop) (p : Transfer α) (s : Store) : Prop :=
  Prog.Safe (UploadEffect codec) KeepsUploads (Uploads directory) post p s

theorem Sends.uploads {α : Type} {p : Transfer α} (h : Sends directory p)
    (hlease : present s directory ".uploading" = true) :
    SafelyUploads codec directory
      (fun _ s => present s directory ".uploading" = true) p s := by
  refine Prog.Safe.of_uses (fun _ _ h hkeeps => hkeeps.lease _ h)
    (fun s op hop hlease => ⟨⟨.inr hlease, hop.mono fun _ => Sending.within⟩,
      fun r s' heffect => ?_⟩) h hlease
  exact @ForFiles.keeps codec s s' (Sending directory)
    (fun _ s' => present s' directory ".uploading" = true) op r hop heffect
    hlease fun op r h heffect => (h.lease heffect).trans hlease

theorem dropLease_uploads
    (hlease : present s directory ".uploading" = true) :
    SafelyUploads codec directory (fun _ _ => True)
      (files (dropLease directory)) s :=
  @files_safe _ _ _ (Writes directory) _ _ (fun _ _ => Writes.uploads) _ _
    fun s' hs' => ⟨⟨.inr (hs'.lease _ hlease), .remove (by decide)⟩,
      fun _ _ _ _ _ => trivial⟩

theorem uploadLeased_uploads
    (hlease : present s directory ".uploading" = true) :
    SafelyUploads codec directory (fun _ _ => True)
      (uploadLeased config directory) s := by
  refine Prog.Safe.bind KeepsUploads.refl
    ((transferDirectory_sends.uploads hlease).mono fun transferred s₁ h₁ => ?_)
  cases transferred with
  | false =>
      exact Prog.Safe.bind KeepsUploads.refl
        ((dropLease_uploads h₁).mono fun _ _ _ _ _ => trivial)
  | true =>
      refine Prog.Safe.bind KeepsUploads.refl (((collectFiles_sends
        directory).uploads h₁).mono fun collected s₂ h₂ => ?_)
      have hmark : ∀ content, Sends directory (files
          (EventState.writeAtomically (uploadedPath directory) content)) :=
        fun content => files_uses (Prog.uses_mono (fun _ => Sending.marking)
          (EventState.writeAtomically_uses _ content))
      refine Prog.Safe.bind KeepsUploads.refl
        (((hmark _).uploads h₂).mono fun written s₃ h₃ => ?_)
      exact Prog.Safe.bind KeepsUploads.refl
        ((dropLease_uploads h₃).mono fun _ _ _ _ _ => trivial)

theorem uploadDirectory_uploads (h : Candidate s directory) :
    SafelyUploads codec directory (fun _ _ => True)
      (uploadDirectory config directory) s := by
  have hacquires : SafelyUploads codec directory
      (fun acquired s => acquired = true →
        present s directory ".uploading" = true)
      (files (acquireLease config directory)) s :=
    files_safe (fun _ _ hop => Writes.uploads hop) (acquireLease_writes h)
  refine Prog.Safe.bind KeepsUploads.refl
    (hacquires.mono fun acquired s₁ h₁ => ?_)
  cases acquired with
  | false => exact fun _ _ => trivial
  | true => exact uploadLeased_uploads (h₁ rfl)

/-! ### What an upload leaves alone -/

theorem upload_same {op : FsOp} {r : op.Res} {s' : Store} {other : Text}
    (h : Within directory uploadFiles op) (heffect : Effect codec s op r s')
    (hne : other ≠ directory) : SameMarkers other s s' :=
  fun _ _ => h.present_eq heffect (.inl hne)

theorem upload_keepsBlank {op : FsOp} {r : op.Res} {s' : Store}
    (h : Within directory uploadFiles op) (heffect : Effect codec s op r s')
    (other : Text) : KeepsBlank other s s' :=
  ⟨(h.present_eq heffect (.inr (by decide))).trans,
    (h.present_eq heffect (.inr (by decide))).trans⟩

/-- What is still to be uploaded, or leased, is not disposable. -/
theorem Held.not_disposable {policy : Policy}
    (hprotect : policy.protectUnuploaded = true) (h : Held directory s) :
    ¬Disposable policy s directory := by
  intro hdisposable
  rcases h with hcandidate | hlease
  · have huploaded := hdisposable.uploaded hprotect hcandidate.complete
    rw [hcandidate.notUploaded] at huploaded
    cases huploaded
  · rw [hdisposable.idle] at hlease
    cases hlease

theorem Held.keepsDisposable {policy : Policy} {op : FsOp} {r : op.Res}
    {s' : Store} (hprotect : policy.protectUnuploaded = true)
    (h : Held directory s) (hop : Within directory uploadFiles op)
    (heffect : Effect codec s op r s') : KeepsDisposable policy s s' := by
  intro other hother
  refine (upload_same hop heffect ?_).disposable hother
  rintro rfl
  exact h.not_disposable hprotect hother

theorem markFailed_uses (attempts : Nat) :
    (markFailed directory attempts).uses
      (ForFiles (ReplaceOp (uploadFailedPath directory))) :=
  files_uses (EventState.writeAtomically_uses _ _)

theorem givingUp_same {op : FsOp} {r : op.Res} {s' : Store}
    (h : ReplaceOp (uploadFailedPath directory) op)
    (heffect : Effect codec s op r s') (other : Text) :
    SameMarkers other s s' := by
  intro name hname
  refine present_eq_of_replaceOp h heffect (.inr ?_)
  revert name
  decide

end Upload

end DataCache.Retention
