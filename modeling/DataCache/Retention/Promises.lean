import DataCache.Retention.World

/-!
# What the threads rely on

For each thread: what it needs the others to keep, and that its programs issue
every operation only where the others lose nothing they need.
-/

namespace DataCache.Retention

open DataCache.Foundation DataCache.Storage DataCache.EventState
open DataCache.Upload (Transfer UploadOp UploadEffect files)

/-! ## Markers and operations -/

section Markers

variable {codec : Codec} {s s' : Store} {op : FsOp} {r : op.Res}
  {directory name : Text}

theorem present_eq (h : Effect codec s op r s')
    (htouches : ¬op.Touches [directory, name]) :
    present s' directory name = present s directory name := by
  unfold present
  rw [(h.sameAt htouches).node]

/-- Removing a file brings no marker about. -/
theorem present_of_remove {path : Path} {removed : Bool}
    (h : Effect codec s (.remove path) removed s')
    (hpresent : present s' directory name = true) :
    present s directory name = true := by
  rcases h with ⟨-, hdir, rfl⟩ | ⟨-, rfl⟩
  · by_cases hpath : [directory, name] = path
    · subst hpath
      rw [present, Store.setDisk, Disk.node?_remove_self hdir] at hpresent
      cases hpresent
    · rw [← hpresent, present, present, Store.setDisk,
        (Disk.sameAt_remove (.inl (Ne.symm hpath))).node]
  · exact hpresent

theorem present_of_removeAll {path : Path} {removed : Bool}
    (h : Effect codec s (.removeAll path) removed s')
    (hpresent : present s' directory name = true) :
    present s directory name = true := by
  have hunlinked : ∀ (victims : List Path) (disk : FileSystem),
      ((disk.unlinkAll victims).node? [directory, name]).isSome = true →
      (disk.node? [directory, name]).isSome = true := by
    intro victims
    induction victims with
    | nil => exact fun _ => id
    | cons victim rest ih =>
        intro disk hsome
        have hrest := ih _ hsome
        by_cases hvictim : victim = [directory, name]
        · subst hvictim
          simp [Disk.unlink, Disk.node?] at hrest
        · rwa [(Disk.sameAt_unlink hvictim).node] at hrest
  rcases h with ⟨-, rfl⟩ | ⟨-, removed, -, rfl⟩
  · exact hunlinked _ _ hpresent
  · exact hunlinked _ _ hpresent

/-- A rename that succeeds puts the marker there. -/
theorem present_of_rename {source : Path}
    (h : Effect codec s (.rename source [directory, name]) true s') :
    present s' directory name = true := by
  rcases h with ⟨-, hfile, -, rfl⟩ | ⟨hfalse, -⟩
  · obtain ⟨inode, content, synced, hnode⟩ := Disk.isFile_iff.mp hfile
    rw [present, Store.setDisk, Disk.node?_rename_target hnode]
    rfl
  · cases hfalse

theorem pathExists_marker (s : Store) (directory name : Text) :
    s.disk.pathExists [directory, name] = present s directory name :=
  Disk.pathExists_eq (List.cons_ne_nil _ _)

end Markers

/-! ## Replacing a marker -/

/-- Below the directory only these files may change. -/
def Within (directory : Text) (names : List Text) (op : FsOp) : Prop :=
  ∀ path, op.Touches path → path.length ≤ 1 ∨
    ∃ name ∈ names, path = [directory, name]

section Within

variable {codec : Codec} {s s' : Store} {op : FsOp} {r : op.Res}
  {directory : Text} {names : List Text}

theorem Within.present_eq (h : Within directory names op)
    (heffect : Effect codec s op r s') {other name : Text}
    (hother : other ≠ directory ∨ name ∉ names) :
    present s' other name = present s other name := by
  refine Retention.present_eq heffect fun htouches => ?_
  rcases h _ htouches with hshort | ⟨file, hfile, heq⟩
  · exact absurd hshort (by simp)
  · simp only [List.cons.injEq, and_true] at heq
    obtain ⟨rfl, rfl⟩ := heq
    exact hother.elim (fun hne => hne rfl) fun hnot => hnot hfile

theorem Within.mono {names' : List Text} (h : Within directory names op)
    (hsub : ∀ name ∈ names, name ∈ names') : Within directory names' op :=
  fun path htouches => (h path htouches).imp id
    fun ⟨name, hname, heq⟩ => ⟨name, hsub name hname, heq⟩

theorem Within.quiet (h : ∀ path, ¬op.Touches path) :
    Within directory names op :=
  fun path htouches => absurd htouches (h path)

theorem Within.remove {name : Text} (hname : name ∈ names) :
    Within directory names (.remove (markerPath directory name)) :=
  fun _ htouches => .inr ⟨name, hname, htouches⟩

/-- Only the target and its temporary file change, and directories above. -/
theorem Within.replaceOp {name : Text}
    (h : ReplaceOp (markerPath directory name) op) (hname : name ∈ names)
    (htemp : name ++ (".tmp" : Text) ∈ names) : Within directory names op := by
  have htarget : ∀ {path : Path}, path = markerPath directory name →
      path.length ≤ 1 ∨ ∃ name ∈ names, path = [directory, name] :=
    fun heq => .inr ⟨name, hname, heq⟩
  have htemporary : ∀ {path : Path},
      path = tempPath (markerPath directory name) →
      path.length ≤ 1 ∨ ∃ name ∈ names, path = [directory, name] :=
    fun heq => .inr ⟨_, htemp, heq⟩
  intro path htouches
  cases op with
  | createDirectories target =>
      obtain rfl : target = [directory] := h
      exact .inl (List.IsPrefix.length_le htouches)
  | openTrunc target =>
      cases h
      exact htemporary htouches
  | append target data =>
      cases h
      exact htemporary htouches
  | syncFile target =>
      cases h
      exact htemporary htouches
  | rename source target =>
      obtain ⟨rfl, rfl⟩ := h
      exact htouches.elim htemporary htarget
  | remove target =>
      obtain rfl : path = target := htouches
      exact h.elim htemporary htarget
  | syncDirectory target => exact absurd htouches id
  | _ => exact absurd h id

/-- Everything but the target and its temporary file. -/
theorem present_eq_of_replaceOp {name other name' : Text}
    (h : ReplaceOp (markerPath directory name) op)
    (heffect : Effect codec s op r s')
    (hother : other ≠ directory ∨ name' ≠ name ∧ name' ≠ name ++ (".tmp" : Text)) :
    present s' other name' = present s other name' := by
  have hwithin : Within directory [name, name ++ (".tmp" : Text)] op :=
    .replaceOp h List.mem_cons_self
      (List.mem_cons_of_mem _ List.mem_cons_self)
  exact hwithin.present_eq heffect (hother.imp id fun hne => by simpa using hne)

end Within

section Replace

variable {codec : Codec} {rely : Store → Store → Prop} {directory name : Text}

/--
What a replacement promises: `lost` until the rename succeeds, and `won` from
then on.
-/
structure Replaces (codec : Codec) (rely : Store → Store → Prop)
    (pre : Store → FsOp → Prop) (target : Path) (lost won : Store → Prop) :
    Prop where
  kept : ∀ s s', lost s → rely s s' → lost s'
  issued : ∀ s op, ReplaceOp target op → lost s → pre s op
  other : ∀ s op (r : op.Res) s', ReplaceOp target op →
    op ≠ .rename (tempPath target) target → lost s → Effect codec s op r s' →
    lost s'
  rename : ∀ s s', lost s →
    Effect codec s (.rename (tempPath target) target) true s' → won s'
  held : ∀ s s', won s → rely s s' → won s'
  sync : ∀ s, won s → pre s (.syncDirectory target.dropLast) ∧
    ∀ (r : Unit) s', Effect codec s (.syncDirectory target.dropLast) r s' →
      won s'

section Rules

variable {pre : Store → FsOp → Prop} {target : Path} {lost won : Store → Prop}
  {s : Store}

abbrev Replacement (codec : Codec) (rely : Store → Store → Prop)
    (pre : Store → FsOp → Prop) (lost won : Store → Prop) (p : Action Bool)
    (s : Store) : Prop :=
  Prog.Safe (Effect codec) rely pre
    (fun written s => if written then won s else lost s) p s

theorem Replaces.failed (h : Replaces codec rely pre target lost won)
    (hlost : lost s) :
    Replacement codec rely pre lost won (.ret false) s :=
  fun s' hs' => h.kept s s' hlost hs'

theorem Replaces.done (h : Replaces codec rely pre target lost won)
    (hwon : won s) :
    Replacement codec rely pre lost won
      (.call (.syncDirectory target.dropLast) fun _ => .ret true) s := by
  intro s' hs'
  obtain ⟨hpre, hnext⟩ := h.sync s' (h.held s s' hwon hs')
  exact ⟨hpre, fun r s'' heffect s₃ hs₃ =>
    h.held s'' s₃ (hnext r s'' heffect) hs₃⟩

theorem Replaces.call (h : Replaces codec rely pre target lost won) {op : FsOp}
    {next : op.Res → Action Bool} (hop : ReplaceOp target op)
    (hne : op ≠ .rename (tempPath target) target) (hlost : lost s)
    (hnext : ∀ r s', lost s' →
      Replacement codec rely pre lost won (next r) s') :
    Replacement codec rely pre lost won (.call op next) s := by
  intro s' hs'
  have hlost' := h.kept s s' hlost hs'
  exact ⟨h.issued s' op hop hlost', fun r s'' heffect =>
    hnext r s'' (h.other s' op r s'' hop hne hlost' heffect)⟩

/-- A rename that fails changes nothing. -/
theorem Replaces.renamed (h : Replaces codec rely pre target lost won)
    {next : Bool → Action Bool} (hlost : lost s)
    (htrue : ∀ s', won s' →
      Replacement codec rely pre lost won (next true) s')
    (hfalse : ∀ s', lost s' →
      Replacement codec rely pre lost won (next false) s') :
    Replacement codec rely pre lost won
      (.call (.rename (tempPath target) target) next) s := by
  intro s' hs'
  have hlost' := h.kept s s' hlost hs'
  refine ⟨h.issued s' _ ⟨rfl, rfl⟩ hlost', fun (renamed : Bool) s'' heffect => ?_⟩
  cases renamed with
  | true => exact htrue s'' (h.rename s' s'' hlost' heffect)
  | false =>
      rcases heffect with ⟨hcontra, -⟩ | ⟨-, rfl⟩
      · cases hcontra
      · exact hfalse s'' hlost'

theorem writeAtomically_replaces
    (h : Replaces codec rely pre target lost won) (content : Bytes)
    (hlost : lost s) :
    Replacement codec rely pre lost won
      (EventState.writeAtomically target content) s := by
  refine h.call rfl nofun hlost fun (created : Bool) s₁ h₁ => ?_
  cases created with
  | false => exact h.failed h₁
  | true =>
      refine h.call rfl nofun h₁ fun (opened : Bool) s₂ h₂ => ?_
      cases opened with
      | false => exact h.failed h₂
      | true =>
          refine h.call rfl nofun h₂ fun (written : Bool) s₃ h₃ => ?_
          cases written with
          | false =>
              exact h.call (.inl rfl) nofun h₃ fun _ s₄ h₄ => h.failed h₄
          | true =>
              refine h.call rfl nofun h₃ fun _ s₄ h₄ => ?_
              refine h.renamed h₄ (fun _ => h.done) fun s₅ h₅ => ?_
              refine h.call (.inr rfl) nofun h₅ fun _ s₆ h₆ => ?_
              refine h.renamed h₆ (fun _ => h.done) fun s₇ h₇ => ?_
              exact h.call (.inl rfl) nofun h₇ fun _ s₈ h₈ => h.failed h₈

end Rules

/-- Only a removal needs the target to be absent; the rest may replace it. -/
def Replacing (directory name : Text) (s : Store) (op : FsOp) : Prop :=
  ReplaceOp (markerPath directory name) op ∧
    (op = .remove (markerPath directory name) →
      present s directory name = false)

/-- The others do not bring the marker about. -/
def KeepsAbsent (directory name : Text) (rely : Store → Store → Prop) : Prop :=
  ∀ s s', present s directory name = false → rely s s' →
    present s' directory name = false

theorem tempPath_marker_ne (directory name : Text) :
    ¬[directory, name] = tempPath (markerPath directory name) := by
  simp [markerPath, tempPath]

/-- Here the target is removed only when it is not there. -/
theorem replaces_absent (hrely : KeepsAbsent directory name rely) :
    Replaces codec rely (Replacing directory name) (markerPath directory name)
      (fun s => present s directory name = false) fun _ => True where
  kept := hrely
  issued s op hop habsent := ⟨hop, fun _ => habsent⟩
  other s op r s' hop hne habsent heffect := by
    by_cases htouches : op.Touches [directory, name]
    · cases op with
      | createDirectories target =>
          obtain rfl : target = [directory] := hop
          exact absurd (List.IsPrefix.length_le htouches) (by simp)
      | openTrunc target =>
          cases hop
          exact absurd htouches (tempPath_marker_ne directory name)
      | append target data =>
          cases hop
          exact absurd htouches (tempPath_marker_ne directory name)
      | syncFile target =>
          cases hop
          exact absurd htouches (tempPath_marker_ne directory name)
      | rename source target =>
          obtain ⟨rfl, rfl⟩ := hop
          exact absurd rfl hne
      | remove target =>
          rw [← Bool.not_eq_true] at habsent ⊢
          exact fun hpresent => habsent (present_of_remove heffect hpresent)
      | syncDirectory target => exact absurd htouches id
      | _ => exact absurd hop id
    · exact (present_eq heffect htouches).trans habsent
  rename _ _ _ _ := trivial
  held _ _ _ _ := trivial
  sync _ _ := ⟨⟨rfl, nofun⟩, fun _ _ _ => trivial⟩

/-- The marker stays absent when replacing it fails. -/
theorem writeAtomically_absent (hrely : KeepsAbsent directory name rely)
    (content : Bytes) {s : Store} (habsent : present s directory name = false) :
    Prog.Safe (Effect codec) rely (Replacing directory name)
      (fun written s => written = false → present s directory name = false)
      (EventState.writeAtomically (markerPath directory name) content) s := by
  refine (writeAtomically_replaces (replaces_absent hrely) content
    habsent).mono fun written s h hfalse => ?_
  rwa [if_neg (by simp [hfalse])] at h

end Replace

/-! ## What is relied on -/

/-- Complete and not uploaded: the uploader may take it. -/
structure Candidate (s : Store) (directory : Text) : Prop where
  complete : present s directory ".complete" = true
  notUploaded : present s directory ".uploaded" = false

/-- The markers a scan accepts. -/
structure Disposable (policy : Policy) (s : Store) (directory : Text) :
    Prop where
  finished : present s directory ".complete" = true ∨
    present s directory ".failed" = true
  settled : present s directory ".pending" = false
  idle : present s directory ".uploading" = false
  uploaded : policy.protectUnuploaded = true →
    present s directory ".complete" = true →
    present s directory ".uploaded" = true

/-- What the uploader relies on. -/
structure KeepsUploads (s s' : Store) : Prop where
  candidate : ∀ directory, Candidate s directory → Candidate s' directory
  notUploaded : ∀ directory, present s directory ".uploaded" = false →
    present s' directory ".uploaded" = false
  lease : ∀ directory, present s directory ".uploading" = true →
    present s' directory ".uploading" = true

/-- What a sweep relies on. -/
def KeepsDisposable (policy : Policy) (s s' : Store) : Prop :=
  ∀ directory, Disposable policy s directory → Disposable policy s' directory

/-- What whoever judges the directory relies on. -/
structure KeepsBlank (directory : Text) (s s' : Store) : Prop where
  complete : present s directory ".complete" = false →
    present s' directory ".complete" = false
  failed : present s directory ".failed" = false →
    present s' directory ".failed" = false

theorem KeepsUploads.refl (s : Store) : KeepsUploads s s :=
  ⟨fun _ => id, fun _ => id, fun _ => id⟩

theorem KeepsUploads.trans (s s' s'' : Store) (h : KeepsUploads s s')
    (h' : KeepsUploads s' s'') : KeepsUploads s s'' :=
  ⟨fun directory => h'.candidate directory ∘ h.candidate directory,
    fun directory => h'.notUploaded directory ∘ h.notUploaded directory,
    fun directory => h'.lease directory ∘ h.lease directory⟩

theorem KeepsBlank.refl (directory : Text) (s : Store) :
    KeepsBlank directory s s :=
  ⟨id, id⟩

theorem KeepsBlank.trans (directory : Text) (s s' s'' : Store)
    (h : KeepsBlank directory s s') (h' : KeepsBlank directory s' s'') :
    KeepsBlank directory s s'' :=
  ⟨h'.complete ∘ h.complete, h'.failed ∘ h.failed⟩

/-- The markers that the conditions above are about. -/
def markers : List Text :=
  [".pending", ".complete", ".failed", ".uploading", ".uploaded"]

def SameMarkers (directory : Text) (s s' : Store) : Prop :=
  ∀ name ∈ markers, present s' directory name = present s directory name

section SameMarkers

variable {directory : Text} {s s' : Store}

theorem SameMarkers.candidate (h : SameMarkers directory s s')
    (hcandidate : Candidate s directory) : Candidate s' directory :=
  ⟨(h _ (by decide)).trans hcandidate.complete,
    (h _ (by decide)).trans hcandidate.notUploaded⟩

theorem SameMarkers.disposable {policy : Policy}
    (h : SameMarkers directory s s')
    (hdisposable : Disposable policy s directory) :
    Disposable policy s' directory := by
  refine ⟨?_, (h _ (by decide)).trans hdisposable.settled,
    (h _ (by decide)).trans hdisposable.idle, fun hprotect hcomplete => ?_⟩
  · rw [h ".complete" (by decide), h ".failed" (by decide)]
    exact hdisposable.finished
  · rw [h ".complete" (by decide)] at hcomplete
    exact (h _ (by decide)).trans (hdisposable.uploaded hprotect hcomplete)

theorem SameMarkers.keepsBlank (h : SameMarkers directory s s') :
    KeepsBlank directory s s' :=
  ⟨(h _ (by decide)).trans, (h _ (by decide)).trans⟩

theorem KeepsUploads.of_same (h : ∀ directory, SameMarkers directory s s') :
    KeepsUploads s s' :=
  ⟨fun directory => (h directory).candidate,
    fun directory => (h directory _ (by decide)).trans,
    fun directory => (h directory _ (by decide)).trans⟩

theorem Unmarked.same (h : Unmarked s s') (directory : Text) :
    SameMarkers directory s s' := by
  intro name hname
  refine h directory name ?_
  revert name
  decide

end SameMarkers

/-! ## Verdicts -/

section Verdicts

variable {codec : Codec} {directory : Text} {s s' : Store} {op : FsOp}
  {r : op.Res}

/-- The operations of a failure, where they find their preconditions. -/
inductive Failing (directory : Text) (s : Store) : FsOp → Prop
  | systemNow : Failing directory s .systemNow
  | replacing {op : FsOp} (h : Replacing directory ".failed" s op) :
      Failing directory s op
  | settling : Failing directory s (.remove (markerPath directory ".pending"))
  | clearing (habsent : present s directory ".complete" = false) :
      Failing directory s (.remove (markerPath directory ".complete"))

/-- The operations of any verdict. -/
inductive Judging (directory : Text) (s : Store) : FsOp → Prop
  | failing {op : FsOp} (h : Failing directory s op) : Judging directory s op
  | replacing {op : FsOp} (h : Replacing directory ".complete" s op) :
      Judging directory s op
  | clearing : Judging directory s (.remove (markerPath directory ".failed"))
  | syncing : Judging directory s (.syncDirectory [directory])

/-- A verdict that replaces one marker leaves the absence of the other alone. -/
theorem writeVerdict_safe {name other : Text} (content : Bytes)
    (hname : KeepsAbsent directory name (KeepsBlank directory))
    (hother : KeepsAbsent directory other (KeepsBlank directory))
    (htarget : other ≠ name) (htemp : other ≠ name ++ (".tmp" : Text))
    (habsent : present s directory name = false)
    (habsent' : present s directory other = false) :
    Prog.Safe (Effect codec) (KeepsBlank directory) (Replacing directory name)
      (fun written s => (written = false → present s directory name = false) ∧
        present s directory other = false)
      (EventState.writeAtomically (markerPath directory name) content) s :=
  Prog.Safe.frame hother
    (fun _ _ _ _ hop habsent heffect => (present_eq_of_replaceOp hop.1 heffect
      (.inr ⟨htarget, htemp⟩)).trans habsent)
    (writeAtomically_absent hname content habsent) habsent'

theorem keepsAbsent_complete (directory : Text) :
    KeepsAbsent directory ".complete" (KeepsBlank directory) :=
  fun _ _ habsent hkeeps => hkeeps.complete habsent

theorem keepsAbsent_failed (directory : Text) :
    KeepsAbsent directory ".failed" (KeepsBlank directory) :=
  fun _ _ habsent hkeeps => hkeeps.failed habsent

theorem fail_safe (reason : Text) (h : Blank s directory) :
    Prog.Safe (Effect codec) (KeepsBlank directory) (Failing directory)
      (fun _ _ => True) (EventState.fail directory reason) s := by
  intro s₁ hs₁
  refine ⟨.systemNow, fun now s₂ heffect => ?_⟩
  obtain rfl : s₂ = s₁ := heffect
  have hwrite := @writeVerdict_safe codec directory s₂ _ _
    (failedContent reason now) (keepsAbsent_failed directory)
    (keepsAbsent_complete directory) (by decide) (by decide)
    (hs₁.failed h.failed) (hs₁.complete h.complete)
  change Prog.Safe _ _ _ _ ((EventState.writeAtomically _ _).bind _) s₂
  refine Prog.Safe.bind (KeepsBlank.refl directory)
    ((hwrite.weaken fun _ _ => .replacing).mono fun written s₃ h₃ => ?_)
  cases written with
  | false => exact fun _ _ => trivial
  | true =>
      intro s₄ hs₄
      refine ⟨.settling, fun removed s₅ heffect s₆ hs₆ => ?_⟩
      have h₅ : present s₅ directory ".complete" = false :=
        (present_eq heffect (by simp [FsOp.Touches, markerPath])).trans
          (hs₄.complete h₃.2)
      exact ⟨.clearing (hs₆.complete h₅), fun _ _ _ _ _ => trivial⟩

theorem complete_safe (recordCount : Nat) (h : Blank s directory) :
    Prog.Safe (Effect codec) (KeepsBlank directory) (Judging directory)
      (fun completed s => completed = false → Blank s directory)
      (EventState.complete directory recordCount) s := by
  have hwrite := @writeVerdict_safe codec directory s _ _
    (completeContent recordCount) (keepsAbsent_complete directory)
    (keepsAbsent_failed directory) (by decide) (by decide) h.complete h.failed
  refine Prog.Safe.bind (KeepsBlank.refl directory)
    ((hwrite.weaken fun _ _ => .replacing).mono fun written s₁ h₁ => ?_)
  cases written with
  | false =>
      intro s₂ hs₂ _
      exact ⟨hs₂.complete (h₁.1 rfl), hs₂.failed h₁.2⟩
  | true =>
      intro s₂ hs₂
      refine ⟨.failing .settling, fun _ s₃ _ s₄ hs₄ => ⟨.clearing,
        fun _ s₅ _ s₆ hs₆ => ⟨.syncing, fun _ s₇ _ s₈ hs₈ => ?_⟩⟩⟩
      exact fun hfalse => nomatch hfalse

theorem judgement_safe {judgement : Action Bool}
    (hjudgement : Judgement directory judgement) (h : Blank s directory) :
    Prog.Safe (Effect codec) (KeepsBlank directory) (Judging directory)
      (fun _ _ => True) judgement s := by
  cases hjudgement with
  | fail reason => exact (fail_safe reason h).weaken fun _ _ => .failing
  | complete recordCount reason =>
      refine Prog.Safe.bind (KeepsBlank.refl directory)
        ((complete_safe recordCount h).mono fun completed s₁ h₁ => ?_)
      cases completed with
      | true => exact fun _ _ => trivial
      | false =>
          refine Prog.Safe.bind (KeepsBlank.refl directory) ?_
          exact ((fail_safe reason (h₁ rfl)).weaken fun _ _ =>
            .failing).mono fun _ _ _ _ _ => trivial

/-! ### What a verdict keeps -/

theorem Replacing.kept {name : Text} (h : Replacing directory name s op)
    (heffect : Effect codec s op r s')
    (hpresent : present s directory name = true) :
    present s' directory name = true := by
  by_cases htouches : op.Touches [directory, name]
  · obtain ⟨hop, habsent⟩ := h
    cases op with
    | rename source target =>
        obtain ⟨rfl, rfl⟩ := hop
        rcases heffect with ⟨rfl, heffect⟩ | ⟨-, rfl⟩
        · exact @present_of_rename codec _ _ directory name
            (tempPath (markerPath directory name)) (.inl ⟨rfl, heffect⟩)
        · exact hpresent
    | remove target =>
        obtain rfl : [directory, name] = target := htouches
        rw [habsent rfl] at hpresent
        cases hpresent
    | createDirectories target =>
        obtain rfl : target = [directory] := hop
        exact absurd (List.IsPrefix.length_le htouches) (by simp)
    | openTrunc target =>
        cases hop
        exact absurd htouches (tempPath_marker_ne directory name)
    | append target data =>
        cases hop
        exact absurd htouches (tempPath_marker_ne directory name)
    | syncFile target =>
        cases hop
        exact absurd htouches (tempPath_marker_ne directory name)
    | syncDirectory target => exact absurd htouches id
    | _ => exact absurd hop id
  · rw [present_eq heffect htouches]
    exact hpresent

/-- The files a verdict touches. -/
def verdictFiles : List Text :=
  [".pending", ".complete", ".complete.tmp", ".failed", ".failed.tmp"]

theorem Judging.within (h : Judging directory s op) :
    Within directory verdictFiles op := by
  cases h with
  | failing h =>
      cases h with
      | systemNow => exact .quiet fun _ => id
      | replacing h => exact .replaceOp h.1 (by decide) (by decide)
      | settling => exact .remove (by decide)
      | clearing habsent => exact .remove (by decide)
  | replacing h => exact .replaceOp h.1 (by decide) (by decide)
  | clearing => exact .remove (by decide)
  | syncing => exact .quiet fun _ => id

theorem Judging.present_eq (h : Judging directory s op)
    (heffect : Effect codec s op r s') {other name : Text}
    (hother : other ≠ directory ∨ name ∉ verdictFiles) :
    present s' other name = present s other name :=
  h.within.present_eq heffect hother

theorem Failing.complete_kept (h : Failing directory s op)
    (heffect : Effect codec s op r s')
    (hpresent : present s directory ".complete" = true) :
    present s' directory ".complete" = true := by
  cases h with
  | systemNow =>
      obtain rfl : s' = s := heffect
      exact hpresent
  | replacing h =>
      rw [present_eq_of_replaceOp h.1 heffect (.inr (by decide))]
      exact hpresent
  | settling =>
      rw [Retention.present_eq heffect (by simp [FsOp.Touches, markerPath])]
      exact hpresent
  | clearing habsent =>
      rw [habsent] at hpresent
      cases hpresent

theorem Judging.complete_kept (h : Judging directory s op)
    (heffect : Effect codec s op r s')
    (hpresent : present s directory ".complete" = true) :
    present s' directory ".complete" = true := by
  cases h with
  | failing h => exact h.complete_kept heffect hpresent
  | replacing h => exact h.kept heffect hpresent
  | clearing =>
      rw [Retention.present_eq heffect (by simp [FsOp.Touches, markerPath])]
      exact hpresent
  | syncing =>
      rw [Retention.present_eq heffect (by simp [FsOp.Touches])]
      exact hpresent

theorem Failing.failed_kept (h : Failing directory s op)
    (heffect : Effect codec s op r s')
    (hpresent : present s directory ".failed" = true) :
    present s' directory ".failed" = true := by
  cases h with
  | systemNow =>
      obtain rfl : s' = s := heffect
      exact hpresent
  | replacing h => exact h.kept heffect hpresent
  | settling =>
      rw [Retention.present_eq heffect (by simp [FsOp.Touches, markerPath])]
      exact hpresent
  | clearing habsent =>
      rw [Retention.present_eq heffect (by simp [FsOp.Touches, markerPath])]
      exact hpresent

/-- A failure brings neither `.pending` nor `.complete` about. -/
theorem Failing.absent {name : Text} (h : Failing directory s op)
    (heffect : Effect codec s op r s') (hname : name ≠ ".failed")
    (htemp : name ≠ ".failed.tmp")
    (habsent : present s directory name = false) :
    present s' directory name = false := by
  have hremove : ∀ {removed : Text},
      op = .remove (markerPath directory removed) →
      present s' directory name = false := by
    rintro removed rfl
    rw [← Bool.not_eq_true]
    intro hpresent
    rw [present_of_remove heffect hpresent] at habsent
    cases habsent
  cases h with
  | systemNow =>
      obtain rfl : s' = s := heffect
      exact habsent
  | replacing h =>
      rw [present_eq_of_replaceOp h.1 heffect (.inr ⟨hname, htemp⟩)]
      exact habsent
  | settling => exact hremove rfl
  | clearing hcomplete => exact hremove rfl

theorem Judging.keepsUploads (h : Judging directory s op)
    (heffect : Effect codec s op r s') : KeepsUploads s s' := by
  refine ⟨fun other hother => ⟨?_, ?_⟩, fun other habsent => ?_,
    fun other hlease => ?_⟩
  · by_cases heq : other = directory
    · subst heq
      exact h.complete_kept heffect hother.complete
    · rw [h.present_eq heffect (.inl heq)]
      exact hother.complete
  · rw [h.present_eq heffect (.inr (by decide))]
    exact hother.notUploaded
  · rw [h.present_eq heffect (.inr (by decide))]
    exact habsent
  · rw [h.present_eq heffect (.inr (by decide))]
    exact hlease

theorem Judging.keepsBlank (h : Judging directory s op)
    (heffect : Effect codec s op r s') {other : Text} (hne : other ≠ directory) :
    KeepsBlank other s s' := by
  constructor
  · rw [h.present_eq heffect (.inl hne)]
    exact id
  · rw [h.present_eq heffect (.inl hne)]
    exact id

theorem Failing.keepsDisposable {policy : Policy} (h : Failing directory s op)
    (heffect : Effect codec s op r s') : KeepsDisposable policy s s' := by
  intro other hother
  have hjudging : Judging directory s op := .failing h
  have hsame : present s' other ".uploading" = present s other ".uploading" :=
    hjudging.present_eq heffect (.inr (by decide))
  have huploaded : present s' other ".uploaded" = present s other ".uploaded" :=
    hjudging.present_eq heffect (.inr (by decide))
  by_cases heq : other = directory
  · subst heq
    refine ⟨hother.finished.imp (h.complete_kept heffect)
      (h.failed_kept heffect), ?_, hsame.trans hother.idle,
      fun hprotect hcomplete => ?_⟩
    · exact h.absent heffect (by decide) (by decide) hother.settled
    · rw [huploaded]
      refine hother.uploaded hprotect ?_
      by_contra hnot
      rw [Bool.not_eq_true] at hnot
      rw [h.absent heffect (by decide) (by decide) hnot] at hcomplete
      cases hcomplete
  · have hsame : SameMarkers other s s' :=
      fun name _ => hjudging.present_eq heffect (.inl heq)
    exact hsame.disposable hother

end Verdicts

/-! ## Beginnings -/

section Beginnings

variable {codec : Codec} {directory : Text} {s s' : Store} {op : FsOp}
  {r : op.Res}

theorem beginning_present_eq
    (h : ReplaceOp (markerPath directory ".pending") op)
    (heffect : Effect codec s op r s') {other name : Text}
    (hother : other ≠ directory ∨ name ≠ ".pending" ∧ name ≠ ".pending.tmp") :
    present s' other name = present s other name :=
  present_eq_of_replaceOp h heffect hother

theorem beginning_keepsUploads
    (h : ReplaceOp (markerPath directory ".pending") op)
    (heffect : Effect codec s op r s') : KeepsUploads s s' := by
  have hsame : ∀ other, ∀ name ∈ [".complete", ".uploaded", ".uploading"],
      present s' other name.toList = present s other name.toList := by
    intro other name hname
    refine beginning_present_eq h heffect (.inr ?_)
    revert name
    decide
  refine ⟨fun other hother => ⟨?_, ?_⟩, fun other => ?_, fun other => ?_⟩
  · exact (hsame other _ (by decide)).trans hother.complete
  · exact (hsame other _ (by decide)).trans hother.notUploaded
  · exact (hsame other _ (by decide)).trans
  · exact (hsame other _ (by decide)).trans

theorem beginning_keepsBlank
    (h : ReplaceOp (markerPath directory ".pending") op)
    (heffect : Effect codec s op r s') (other : Text) :
    KeepsBlank other s s' := by
  constructor
  · exact (beginning_present_eq h heffect (.inr (by decide))).trans
  · exact (beginning_present_eq h heffect (.inr (by decide))).trans

/-- A blank directory is not disposable, so nothing is lost by beginning it. -/
theorem beginning_keepsDisposable {policy : Policy}
    (h : ReplaceOp (markerPath directory ".pending") op)
    (heffect : Effect codec s op r s') (hblank : Blank s directory) :
    KeepsDisposable policy s s' := by
  intro other hother
  have hne : other ≠ directory := by
    rintro rfl
    rcases hother.finished with hcomplete | hfailed
    · rw [hblank.complete] at hcomplete
      cases hcomplete
    · rw [hblank.failed] at hfailed
      cases hfailed
  have hsame : SameMarkers other s s' :=
    fun name _ => beginning_present_eq h heffect (.inl hne)
  exact hsame.disposable hother

end Beginnings

end DataCache.Retention
