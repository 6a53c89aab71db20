import DataCache.Retention.Uploads

/-!
# Lease markers

Before it uploads a directory a worker reads the lease marker there, asks the
clock, and puts a marker of its own in place when nothing stands against that.
Here are the steps of a program that concern lease markers, and what the
programs of the worker do about them.
-/

namespace DataCache.Upload

open DataCache.Foundation DataCache.Storage
open DataCache.EventState (ReplaceOp markerPath)
open DataCache.Retention (ForFiles Leasing Looking Sending Sends files_uses
  existsOrThrow_looking failureExpired_looking leaseActive_uses
  transferDirectory_sends collectFiles_sends markFailed_uses)

theorem uses_files {α : Type} {allowed : UploadOp → Prop} :
    ∀ {p : Action α}, p.uses (fun op => allowed (.fs op)) →
      (files p).uses allowed
  | .ret _, _ => trivial
  | .raise _, _ => trivial
  | .call _ _, h => ⟨h.1, fun r => uses_files (h.2 r)⟩

theorem files_bind {α β : Type} (p : Action α) (f : α → Action β) :
    files (p.bind f) = (files p).bind fun value => files (f value) :=
  Prog.expand_bind _ _ _

/-! ## Events -/

/-- The directory whose lease marker is at this path. -/
def leaseOf : Path → Option Text
  | [directory, name] => if name = ".uploading" then some directory else none
  | _ => none

theorem leaseOf_uploadingPath (directory : Text) :
    leaseOf (uploadingPath directory) = some directory := by
  unfold leaseOf uploadingPath
  exact if_pos rfl

theorem eq_of_leaseOf {path : Path} {directory : Text}
    (h : leaseOf path = some directory) : path = uploadingPath directory := by
  unfold leaseOf at h
  split at h
  next other name =>
    split at h
    next hname =>
      cases h
      rw [hname, uploadingPath]
    · cases h
  · cases h

/-- What an operation does to a lease marker, or learns for its sake. -/
inductive LeaseEvent where
  | checks (directory : Text) (startedAt : Option Int)
  | reads (now : Int)
  | removes (directory : Text) (done : Bool)
  | installs (directory : Text)
  | nothing
  deriving DecidableEq

def LeaseEvent.ofCheck (path : Path) (content : Option Bytes) : LeaseEvent :=
  match leaseOf path with
  | some directory => .checks directory (content.bind parseLease)
  | none => .nothing

def LeaseEvent.ofRemove (path : Path) (done : Bool) : LeaseEvent :=
  match leaseOf path with
  | some directory => .removes directory done
  | none => .nothing

def LeaseEvent.ofRename (target : Path) (done : Bool) : LeaseEvent :=
  match leaseOf target, done with
  | some directory, true => .installs directory
  | _, _ => .nothing

def leaseEvent : (op : UploadOp) → op.Res → LeaseEvent
  | .fs (.readFile path), content => .ofCheck path content
  | .fs .systemNow, now => .reads now
  | .fs (.remove path), done => .ofRemove path done
  | .fs (.rename _ target), done => .ofRename target done
  | _, _ => .nothing

/-- The operation leaves the lease marker of the directory alone. -/
abbrev Avoids (directory : Text) : UploadOp → Prop :=
  ForFiles fun op => ¬op.Touches (uploadingPath directory)

/-- Lease markers are only removed or put in place, and these only. -/
inductive Handles (removed placed : Text → Prop) : UploadOp → Prop
  | quiet {op : UploadOp} (h : ∀ directory, Avoids directory op) :
      Handles removed placed op
  | remove {directory : Text} (h : removed directory) :
      Handles removed placed (.fs (.remove (uploadingPath directory)))
  | place {directory : Text} (h : placed directory) :
      Handles removed placed (.fs (.rename
        (tempPath (uploadingPath directory)) (uploadingPath directory)))

/-! ### What an event tells of its operation -/

section Events

variable {op : UploadOp} {r : op.Res} {directory : Text}

theorem op_of_checks {startedAt : Option Int}
    (h : leaseEvent op r = .checks directory startedAt) :
    op = .fs (.readFile (uploadingPath directory)) := by
  unfold leaseEvent at h
  split at h
  next path content =>
    unfold LeaseEvent.ofCheck at h
    split at h
    next hpath =>
      cases h
      rw [eq_of_leaseOf hpath]
    · cases h
  · cases h
  · unfold LeaseEvent.ofRemove at h
    split at h <;> cases h
  · unfold LeaseEvent.ofRename at h
    split at h <;> cases h
  · cases h

theorem op_of_removes {done : Bool}
    (h : leaseEvent op r = .removes directory done) :
    op = .fs (.remove (uploadingPath directory)) := by
  unfold leaseEvent at h
  split at h
  · unfold LeaseEvent.ofCheck at h
    split at h <;> cases h
  · cases h
  next path removed =>
    unfold LeaseEvent.ofRemove at h
    split at h
    next hpath =>
      cases h
      rw [eq_of_leaseOf hpath]
    · cases h
  · unfold LeaseEvent.ofRename at h
    split at h <;> cases h
  · cases h

theorem Avoids.not_removes {done : Bool} (h : Avoids directory op) :
    leaseEvent op r ≠ .removes directory done := by
  intro hevent
  obtain rfl := op_of_removes hevent
  exact h rfl

theorem op_of_installs (h : leaseEvent op r = .installs directory) :
    ∃ source, op = .fs (.rename source (uploadingPath directory)) := by
  unfold leaseEvent at h
  split at h
  · unfold LeaseEvent.ofCheck at h
    split at h <;> cases h
  · cases h
  · unfold LeaseEvent.ofRemove at h
    split at h <;> cases h
  next source target renamed =>
    unfold LeaseEvent.ofRename at h
    split at h
    next hpath =>
      cases h
      rw [eq_of_leaseOf hpath]
      exact ⟨source, rfl⟩
    · cases h
  · cases h

theorem Avoids.not_installs (h : Avoids directory op) :
    leaseEvent op r ≠ .installs directory := by
  intro hevent
  obtain ⟨source, rfl⟩ := op_of_installs hevent
  exact h (.inr rfl)

theorem leaseEvent_remove (done : Bool) :
    leaseEvent (.fs (.remove (uploadingPath directory))) done =
      .removes directory done := by
  change LeaseEvent.ofRemove (uploadingPath directory) done = _
  rw [LeaseEvent.ofRemove, leaseOf_uploadingPath]

theorem leaseEvent_check (content : Option Bytes) :
    leaseEvent (.fs (.readFile (uploadingPath directory))) content =
      .checks directory (content.bind parseLease) := by
  change LeaseEvent.ofCheck (uploadingPath directory) content = _
  rw [LeaseEvent.ofCheck, leaseOf_uploadingPath]

theorem leaseEvent_rename (source : Path) :
    leaseEvent (.fs (.rename source (uploadingPath directory))) true =
      .installs directory := by
  change LeaseEvent.ofRename (uploadingPath directory) true = _
  unfold LeaseEvent.ofRename
  rw [leaseOf_uploadingPath]

theorem leaseEvent_rename_failed (source target : Path) :
    leaseEvent (.fs (.rename source target)) false = .nothing := by
  change LeaseEvent.ofRename target false = _
  unfold LeaseEvent.ofRename
  split
  next htrue => cases htrue
  · rfl

end Events

/-! ### What it does to the markers -/

section Stores

variable {codec : Codec} {s s' : Store} {op : UploadOp} {r : op.Res}
  {directory : Text} {removed placed : Text → Prop}

theorem Avoids.sameAt (h : Avoids directory op)
    (heffect : UploadEffect codec s op r s') :
    Disk.SameAt (uploadingPath directory) s.disk s'.disk := by
  cases op with
  | fs op => exact Effect.sameAt heffect h
  | _ =>
      obtain rfl : s' = s := heffect
      exact .refl _ _

theorem avoids_remove {other : Text} (hne : other ≠ directory) :
    Avoids directory (.fs (.remove (uploadingPath other))) := by
  intro htouches
  have heq : uploadingPath directory = uploadingPath other := htouches
  simp only [uploadingPath, List.cons.injEq, and_true] at heq
  exact hne heq.symm

theorem avoids_place {other : Text} (hne : other ≠ directory) :
    Avoids directory (.fs (.rename (tempPath (uploadingPath other))
      (uploadingPath other))) := by
  rintro (htouches | htouches)
  · simp [uploadingPath, tempPath] at htouches
  · simp only [uploadingPath, List.cons.injEq, and_true] at htouches
    exact hne htouches.symm

theorem Handles.removed_of_removes {done : Bool}
    (h : Handles removed placed op)
    (hevent : leaseEvent op r = .removes directory done) :
    removed directory := by
  cases h with
  | quiet h => exact absurd hevent (h directory).not_removes
  | remove h =>
      have heq := op_of_removes hevent
      simp only [uploadingPath, UploadOp.fs.injEq, FsOp.remove.injEq,
        List.cons.injEq, and_true] at heq
      exact heq ▸ h
  | place h => cases op_of_removes hevent

theorem Handles.placed_of_installs (h : Handles removed placed op)
    (hevent : leaseEvent op r = .installs directory) : placed directory := by
  obtain ⟨source, hop⟩ := op_of_installs hevent
  cases h with
  | quiet h => exact absurd hevent (h directory).not_installs
  | remove h => cases hop
  | place h =>
      simp only [uploadingPath, UploadOp.fs.injEq, FsOp.rename.injEq,
        List.cons.injEq, and_true] at hop
      exact hop.2 ▸ h

/-- A marker stays as it is but for a removal or a replacement that succeeds. -/
theorem Handles.kept (h : Handles removed placed op)
    (heffect : UploadEffect codec s op r s') (directory : Text) :
    Disk.SameAt (uploadingPath directory) s.disk s'.disk ∨
      leaseEvent op r = .removes directory true ∧ removed directory ∨
      leaseEvent op r = .installs directory ∧ placed directory := by
  cases h with
  | quiet h => exact .inl ((h directory).sameAt heffect)
  | @remove other h =>
      by_cases hne : other = directory
      · subst hne
        rcases heffect with ⟨rfl, -, -⟩ | ⟨-, rfl⟩
        · exact .inr (.inl ⟨leaseEvent_remove true, h⟩)
        · exact .inl (.refl _ _)
      · exact .inl ((avoids_remove hne).sameAt heffect)
  | @place other h =>
      by_cases hne : other = directory
      · subst hne
        rcases heffect with ⟨rfl, -, -, -⟩ | ⟨-, rfl⟩
        · exact .inr (.inr ⟨leaseEvent_rename _, h⟩)
        · exact .inl (.refl _ _)
      · exact .inl ((avoids_place hne).sameAt heffect)

/-- A marker that has just been put in place is a file. -/
theorem isFile_of_installs (heffect : UploadEffect codec s op r s')
    (hevent : leaseEvent op r = .installs directory) :
    s'.disk.isFile (uploadingPath directory) = true := by
  obtain ⟨source, rfl⟩ := op_of_installs hevent
  rcases heffect with ⟨-, hfile, -, rfl⟩ | ⟨rfl, -⟩
  · obtain ⟨inode, content, synced, hnode⟩ := Disk.isFile_iff.mp hfile
    exact Disk.isFile_iff.mpr ⟨_, _, _, Disk.node?_rename_target hnode⟩
  · rw [leaseEvent_rename_failed] at hevent
    cases hevent

end Stores

/-! ## What a worker may do -/

/-- The clock reading lies within the time of the lease. -/
def InTime (config : Config) (startedAt now : Int) : Prop :=
  0 ≤ now - startedAt ∧
    now - startedAt < config.leaseTimeoutSeconds * Capture.nanosPerSecond

instance (config : Config) (startedAt now : Int) :
    Decidable (InTime config startedAt now) :=
  inferInstanceAs (Decidable (_ ∧ _))

/--
What the running program has learned of a marker: nothing yet, or that a lease
is active; a start time that is still to be compared with the clock; or that
nothing stands against a lease of its own.
-/
inductive View where
  | barred
  | saw (startedAt : Int)
  | free
  deriving DecidableEq

def View.ofCheck : Option Int → View
  | some startedAt => .saw startedAt
  | none => .free

def View.after (config : Config) (directory : Text) (view : View) :
    LeaseEvent → View
  | .checks other startedAt =>
      if other = directory then .ofCheck startedAt else view
  | .reads now =>
      match view with
      | .saw startedAt => if InTime config startedAt now then .barred else .free
      | _ => view
  | _ => view

/-- The lease whose start has been read, if any, is in time. -/
def View.Active (config : Config) (now : Int) : View → Prop
  | .saw startedAt => InTime config startedAt now
  | _ => True

instance (config : Config) (now : Int) :
    (view : View) → Decidable (view.Active config now)
  | .barred => inferInstanceAs (Decidable True)
  | .saw _ => inferInstanceAs (Decidable (InTime _ _ _))
  | .free => inferInstanceAs (Decidable True)

/-- Whether no comparison with the clock is due. -/
def View.Settled (view : View) : Prop := ∀ startedAt, view ≠ .saw startedAt

theorem settled_barred : View.barred.Settled := nofun

def View.Permits (directory : Text) (op : UploadOp) : View → Prop
  | .barred => Avoids directory op
  | .saw _ => op = .fs .systemNow
  | .free => True

def Views (config : Config) (directory : Text) :
    Prog.Effect UploadOp.Res View := fun view op r view' =>
  view' = view.after config directory (leaseEvent op r)

/-- A program never touches the marker of the directory but where it may. -/
abbrev Wary {α : Type} (config : Config) (directory : Text)
    (post : α → View → Prop) (p : Transfer α) (view : View) : Prop :=
  Prog.Safe (Views config directory) Eq
    (fun view op => view.Permits directory op) post p view

/-- The operation neither reads nor changes the marker of the directory. -/
structure Neglects (directory : Text) (op : UploadOp) : Prop where
  avoids : Avoids directory op
  unread : op ≠ .fs (.readFile (uploadingPath directory))

section Views

variable {α : Type} {config : Config} {directory : Text} {view : View}

theorem View.after_eq {event : LeaseEvent} (hsettled : view.Settled)
    (hchecks : ∀ startedAt, event ≠ .checks directory startedAt) :
    view.after config directory event = view := by
  cases event with
  | checks other startedAt =>
      refine if_neg ?_
      rintro rfl
      exact hchecks _ rfl
  | reads now =>
      cases view with
      | saw startedAt => exact absurd rfl (hsettled startedAt)
      | _ => rfl
  | _ => rfl

theorem wary_of_uses {allowed : UploadOp → Prop} {p : Transfer α}
    (hsettled : view.Settled)
    (hop : ∀ op, allowed op → view.Permits directory op ∧
      op ≠ .fs (.readFile (uploadingPath directory)))
    (h : p.uses allowed) :
    Wary config directory (fun _ view' => view' = view) p view := by
  refine Prog.Safe.of_uses (fun _ _ h heq => heq ▸ h)
    (fun view' op hallowed hview => ?_) h rfl
  subst hview
  obtain ⟨hpermits, hunread⟩ := hop op hallowed
  refine ⟨hpermits, fun r view'' heffect => ?_⟩
  rw [heffect]
  refine View.after_eq hsettled fun startedAt hevent => ?_
  exact hunread (op_of_checks hevent)

theorem View.Settled.permits {op : UploadOp} (h : view.Settled)
    (hop : Neglects directory op) : view.Permits directory op := by
  cases view with
  | barred => exact hop.avoids
  | saw startedAt => exact absurd rfl (h startedAt)
  | free => trivial

theorem wary_of_neglects {p : Transfer α} (hsettled : view.Settled)
    (h : p.uses (Neglects directory)) :
    Wary config directory (fun _ view' => view' = view) p view :=
  wary_of_uses hsettled (fun _ hop => ⟨hsettled.permits hop, hop.unread⟩) h

theorem wary_of_free {p : Transfer α}
    (h : p.uses (· ≠ .fs (.readFile (uploadingPath directory)))) :
    Wary config directory (fun _ view' => view' = .free) p .free :=
  wary_of_uses nofun (fun _ hop => ⟨trivial, hop⟩) h

/-! ### The lease check -/

theorem wary_perform {op : FsOp} {f : op.Res → Action α}
    {post : α → View → Prop} (hpermits : view.Permits directory (.fs op))
    (hnext : ∀ r, Wary config directory post (files (f r))
      (view.after config directory (leaseEvent (.fs op) r))) :
    Wary config directory post (files ((Storage.perform op).bind f)) view := by
  rintro _ rfl
  exact ⟨hpermits, fun r view' hview => hview ▸ hnext r⟩

/-- What `leaseActive` has learned when it returns. -/
def Judged (active : Bool) (view : View) : Prop :=
  view.Settled ∧ (active = false → view = .free)

theorem dropLease_judged :
    Wary config directory Judged
      (files ((dropLease directory).bind fun _ => .ret false)) .free := by
  refine wary_perform trivial fun (removed : Bool) => ?_
  rw [leaseEvent_remove]
  rintro _ rfl
  exact ⟨nofun, fun _ => rfl⟩

/-- The marker of a lease that is in time bars the program that has read it. -/
theorem leaseActive_wary (hsettled : view.Settled) :
    Wary config directory Judged (files (leaseActive config directory))
      view := by
  refine wary_perform ?_ fun (content : Option Bytes) => ?_
  · cases view with
    | barred => exact id
    | saw startedAt => exact absurd rfl (hsettled startedAt)
    | free => trivial
  rw [leaseEvent_check, View.after, if_pos rfl]
  split
  · rintro _ rfl
    exact ⟨nofun, fun _ => rfl⟩
  next content =>
    rw [Option.bind_some]
    split
    next hfound =>
      rw [hfound]
      exact dropLease_judged
    next startedAt hfound =>
      rw [hfound]
      refine wary_perform rfl fun (now : Int) => ?_
      change Wary _ _ _ (files (ite _ _ _))
        (ite (InTime config startedAt now) _ _)
      by_cases htime : InTime config startedAt now
      · rw [if_pos htime, if_pos (by simpa [InTime] using htime)]
        rintro _ rfl
        exact ⟨nofun, nofun⟩
      · rw [if_neg htime, if_neg (by simpa [InTime] using htime)]
        exact dropLease_judged

end Views

/-! ## The search for candidates -/

section Search

variable {config : Config} {directory other : Text} {view : View}

theorem leaseActive_neglects (hne : other ≠ directory) :
    (leaseActive config other).uses fun op => Neglects directory (.fs op) := by
  have hdrop : (dropLease other).uses
      fun op => Neglects directory (.fs op) :=
    ⟨⟨avoids_remove hne, fun heq => by cases heq⟩, fun _ => trivial⟩
  refine Prog.uses_call_bind ⟨id, fun heq => ?_⟩
    fun (content : Option Bytes) => ?_
  · simp only [uploadingPath, UploadOp.fs.injEq, FsOp.readFile.injEq,
      List.cons.injEq, and_true] at heq
    exact hne heq
  split
  · trivial
  · split
    · exact Prog.uses_bind hdrop fun _ => trivial
    · refine Prog.uses_call_bind ⟨id, fun heq => by cases heq⟩ fun now => ?_
      change Prog.uses _ (ite _ _ _)
      split
      · trivial
      · exact Prog.uses_bind hdrop fun _ => trivial

theorem existsOrThrow_neglects (path : Path) :
    (files (existsOrThrow path)).uses (Neglects directory) := by
  refine uses_files ⟨⟨id, nofun⟩, fun (found : Option Bool) => ?_⟩
  cases found <;> trivial

theorem failureExpired_neglects :
    (failureExpired config other).uses (Neglects directory) := by
  unfold failureExpired
  split
  · trivial
  · refine ⟨⟨trivial, nofun⟩, fun (modified : Option Int) => ?_⟩
    cases modified with
    | none => trivial
    | some modified =>
        refine ⟨⟨trivial, nofun⟩, fun now => ?_⟩
        change Prog.uses _ (@ite _ _ (Int.decLt _ _) _ _)
        split
        · trivial
        · refine ⟨⟨fun htouches => ?_, nofun⟩, fun _ => trivial⟩
          have heq : uploadingPath directory = uploadFailedPath other :=
            htouches
          simp [uploadingPath, uploadFailedPath] at heq

theorem wary_settled {α : Type} {p : Transfer α} (hsettled : view.Settled)
    (h : p.uses (Neglects directory)) :
    Wary config directory (fun _ view' => view'.Settled) p view :=
  (wary_of_neglects hsettled h).mono fun _ _ heq => heq ▸ hsettled

theorem isCandidate_wary (hsettled : view.Settled) :
    Wary config directory (fun _ view' => view'.Settled)
      (isCandidate config other) view := by
  have hleased : Wary config directory (fun _ view' => view'.Settled)
      (files (leaseActive config other)) view := by
    by_cases hne : other = directory
    · subst hne
      exact (leaseActive_wary hsettled).mono fun _ _ h => h.1
    · exact wary_settled hsettled (uses_files (leaseActive_neglects hne))
  refine Prog.Safe.bind (fun _ => rfl) (hleased.mono fun leased view₁ h₁ => ?_)
  refine wary_settled h₁ ?_
  cases leased with
  | true => trivial
  | false =>
      refine Prog.uses_bind (existsOrThrow_neglects _) fun uploaded => ?_
      cases uploaded with
      | true => trivial
      | false =>
          refine Prog.uses_bind (existsOrThrow_neglects _) fun complete => ?_
          cases complete with
          | false => trivial
          | true =>
              refine Prog.uses_bind (existsOrThrow_neglects _) fun failed => ?_
              cases failed with
              | false => trivial
              | true => exact failureExpired_neglects

theorem candidatesAmong_wary : ∀ (directories : List Text) {view : View},
    view.Settled → Wary config directory (fun _ view' => view'.Settled)
      (candidatesAmong config directories) view
  | [], _, hsettled => fun _ heq => heq ▸ hsettled
  | _ :: rest, _, hsettled => by
      refine Prog.Safe.bind (fun _ => rfl)
        ((isCandidate_wary hsettled).mono fun candidate view₁ h₁ => ?_)
      refine Prog.Safe.bind (fun _ => rfl)
        ((candidatesAmong_wary rest h₁).mono fun candidates view₂ h₂ => ?_)
      exact fun _ heq => heq ▸ h₂

theorem findUploadCandidates_wary (hsettled : view.Settled) :
    Wary config directory (fun _ view' => view'.Settled)
      (findUploadCandidates config) view := by
  have hlisting : (files (Storage.perform .listDirectories)).uses
      (Neglects directory) :=
    uses_files ⟨⟨id, nofun⟩, fun _ => trivial⟩
  refine Prog.Safe.bind (fun _ => rfl) ((wary_settled hsettled hlisting).mono
    fun (listing : List Text × Bool) view₁ h₁ => ?_)
  exact candidatesAmong_wary listing.1 h₁

/-! ### The markers it removes -/

abbrev Searching : UploadOp → Prop :=
  Handles (fun _ => True) fun _ => False

theorem searching_of_looking {op : FsOp} (h : Looking op) :
    Searching (.fs op) := by
  cases h with
  | quiet h => exact .quiet fun _ => h _
  | dropping directory => exact .remove trivial
  | retrying directory =>
      refine .quiet fun other htouches => ?_
      have heq : uploadingPath other = uploadFailedPath directory := htouches
      simp [uploadingPath, uploadFailedPath] at heq

theorem searching_of_forFiles {op : UploadOp} (h : ForFiles Looking op) :
    Searching op := by
  cases op with
  | fs op => exact searching_of_looking h
  | _ => exact .quiet fun _ => trivial

theorem isCandidate_searching (directory : Text) :
    (isCandidate config directory).uses Searching := by
  have hexists : ∀ path, (files (existsOrThrow path)).uses Searching :=
    fun path => uses_files (Prog.uses_mono (fun _ => searching_of_looking)
      (existsOrThrow_looking path))
  refine Prog.uses_bind (uses_files (Prog.uses_mono (fun _ hop =>
    searching_of_looking hop.looking) (leaseActive_uses config directory)))
      fun leased => ?_
  cases leased with
  | true => trivial
  | false =>
      refine Prog.uses_bind (hexists _) fun uploaded => ?_
      cases uploaded with
      | true => trivial
      | false =>
          refine Prog.uses_bind (hexists _) fun complete => ?_
          cases complete with
          | false => trivial
          | true =>
              refine Prog.uses_bind (hexists _) fun failed => ?_
              cases failed with
              | false => trivial
              | true =>
                  change (failureExpired config directory).uses Searching
                  exact Prog.uses_mono (fun _ => searching_of_forFiles)
                    failureExpired_looking

theorem findUploadCandidates_searching :
    (findUploadCandidates config).uses Searching := by
  have hamong : ∀ directories : List Text,
      (candidatesAmong config directories).uses Searching := by
    intro directories
    induction directories with
    | nil => trivial
    | cons directory rest ih =>
        exact Prog.uses_bind (isCandidate_searching directory) fun _ =>
          Prog.uses_bind ih fun _ => trivial
  exact ⟨.quiet fun _ => id, fun listing => hamong listing.1⟩

end Search

/-! ## An upload -/

def leasedAfter (leased : Option Text) : LeaseEvent → Option Text
  | .installs directory => some directory
  | .removes directory _ => if leased = some directory then none else leased
  | _ => leased

/-- The directory under the program's own lease. -/
def Leases : Prog.Effect UploadOp.Res (Option Text) := fun leased op r leased' =>
  leased' = leasedAfter leased (leaseEvent op r)

/-- Once the marker is in place, no lease marker is touched any more. -/
abbrev Acquires (directory : Text) (p : Transfer Bool)
    (leased : Option Text) : Prop :=
  Prog.Safe Leases Eq
    (fun leased op => leased ≠ none → ∀ other, Avoids other op)
    (fun acquired leased => leased = if acquired then some directory else none)
    p leased

/-- The lease is given up in the end, and no marker touched after that. -/
abbrev Releases {α : Type} (p : Transfer α) (leased : Option Text) : Prop :=
  Prog.Safe Leases Eq (fun leased op => leased = none → ∀ other, Avoids other op)
    (fun _ leased => leased = none) p leased

section Upload

variable {config : Config} {directory other : Text} {view : View}
  {leased : Option Text}

theorem leasedAfter_eq_some {event : LeaseEvent}
    (h : leasedAfter leased event = some directory) :
    event = .installs directory ∨ leased = some directory := by
  cases event with
  | installs other =>
      cases h
      exact .inl rfl
  | removes other done =>
      rw [leasedAfter] at h
      split at h
      · cases h
      · exact .inr h
  | _ => exact .inr h

theorem leasedAfter_removes {done : Bool} :
    leasedAfter leased (.removes directory done) ≠ some directory := by
  rw [leasedAfter]
  split
  · simp
  next hne => exact hne

theorem leasedAfter_of_avoids {op : UploadOp} {r : op.Res}
    (h : ∀ other, Avoids other op) :
    leasedAfter leased (leaseEvent op r) = leased := by
  cases hevent : leaseEvent op r with
  | removes directory done => exact absurd hevent (h directory).not_removes
  | installs directory => exact absurd hevent (h directory).not_installs
  | _ => rfl

theorem leasedAfter_none {event : LeaseEvent}
    (h : ∀ {directory}, event = .installs directory → False) :
    leasedAfter none event = none := by
  cases event with
  | installs directory => exact absurd rfl h
  | removes directory done => simp [leasedAfter]
  | _ => rfl

/-- What only removes markers can only give a lease up. -/
theorem leasedAfter_of_handles {removed : Text → Prop} {op : UploadOp}
    {r : op.Res} (h : Handles removed (fun _ => False) op) :
    leasedAfter leased (leaseEvent op r) = none ∨
      leasedAfter leased (leaseEvent op r) = leased := by
  cases hevent : leaseEvent op r with
  | installs directory => exact (h.placed_of_installs hevent).elim
  | removes directory done =>
      rw [leasedAfter]
      split
      · exact .inl rfl
      · exact .inr rfl
  | _ => exact .inr rfl

theorem Acquires.avoiding {op : UploadOp} {next : op.Res → Transfer Bool}
    (hop : ∀ other, Avoids other op)
    (hnext : ∀ r, Acquires directory (next r) leased) :
    Acquires directory (.call op next) leased := by
  rintro _ rfl
  refine ⟨fun _ => hop, fun r leased' hleased => ?_⟩
  rw [show leased' = _ from hleased, leasedAfter_of_avoids hop]
  exact hnext r

/-! ### Acquiring -/

abbrev Acquiring (directory : Text) : UploadOp → Prop :=
  Handles (· = directory) (· = directory)

/-- The operations of a replacement, but for the marker itself. -/
theorem avoids_of_replaceOp {name : Text} {op : FsOp}
    (h : ReplaceOp (markerPath directory name) op)
    (hother : other ≠ directory ∨
      (".uploading" : Text) ≠ name ∧ ".uploading" ≠ name ++ (".tmp" : Text)) :
    Avoids other (.fs op) := by
  intro htouches
  have hwithin : Retention.Within directory [name, name ++ (".tmp" : Text)]
      op := .replaceOp h List.mem_cons_self
    (List.mem_cons_of_mem _ List.mem_cons_self)
  rcases hwithin _ htouches with hshort | ⟨file, hfile, heq⟩
  · exact absurd hshort (by simp [uploadingPath])
  · simp only [uploadingPath, List.cons.injEq, and_true] at heq
    obtain ⟨rfl, rfl⟩ := heq
    simp only [List.mem_cons, List.not_mem_nil, or_false] at hfile
    rcases hother with hne | ⟨hname, htemp⟩
    · exact hne rfl
    · exact hfile.elim hname htemp

theorem avoids_beside {op : FsOp} (h : ReplaceOp (uploadingPath directory) op)
    (htouches : ¬op.Touches (uploadingPath directory)) (other : Text) :
    Avoids other (.fs op) := by
  by_cases hne : other = directory
  · exact hne ▸ htouches
  · exact avoids_of_replaceOp h (.inl hne)

theorem acquiring_of_replaceOp {op : FsOp}
    (h : ReplaceOp (uploadingPath directory) op) :
    Acquiring directory (.fs op) := by
  by_cases htouches : op.Touches (uploadingPath directory)
  · cases op with
    | rename source target =>
        obtain ⟨rfl, rfl⟩ := h
        exact .place rfl
    | remove target =>
        obtain rfl : uploadingPath directory = target := htouches
        exact .remove rfl
    | createDirectories target =>
        obtain rfl : target = [directory] := h
        exact absurd (List.IsPrefix.length_le htouches)
          (by simp [uploadingPath])
    | openTrunc target =>
        obtain rfl : target = tempPath (uploadingPath directory) := h
        exact absurd htouches (Retention.tempPath_marker_ne directory _)
    | append target data =>
        obtain rfl : target = tempPath (uploadingPath directory) := h
        exact absurd htouches (Retention.tempPath_marker_ne directory _)
    | syncFile target =>
        obtain rfl : target = tempPath (uploadingPath directory) := h
        exact absurd htouches (Retention.tempPath_marker_ne directory _)
    | syncDirectory target => exact absurd htouches id
    | _ => exact absurd h id
  · exact .quiet (avoids_beside h htouches)

theorem acquiring_of_leasing {op : FsOp} (h : Leasing directory op) :
    Acquiring directory (.fs op) := by
  cases h with
  | quiet h => exact .quiet fun _ => h _
  | dropping => exact .remove rfl

theorem acquireLease_acquiring :
    (files (acquireLease config directory)).uses (Acquiring directory) := by
  refine uses_files (Prog.uses_bind (Prog.uses_mono
    (fun _ => acquiring_of_leasing) (leaseActive_uses config directory))
      fun active => ?_)
  cases active with
  | true => trivial
  | false =>
      refine Prog.uses_call_bind (.quiet fun _ => id) fun now => ?_
      exact Prog.uses_mono (fun _ => acquiring_of_replaceOp)
        (EventState.writeAtomically_uses _ _)

theorem unread_of_replaceOp {target path : Path} {op : FsOp}
    (h : ReplaceOp target op) : UploadOp.fs op ≠ .fs (.readFile path) := by
  rintro ⟨⟩
  exact h

theorem acquireLease_wary (hsettled : view.Settled) :
    Wary config directory (fun _ _ => True)
      (files (acquireLease config other)) view := by
  unfold acquireLease
  rw [Prog.bind_eq_bind, files_bind]
  by_cases hne : other = directory
  · subst hne
    refine Prog.Safe.bind (fun _ => rfl)
      ((leaseActive_wary hsettled).mono fun active view₁ h₁ => ?_)
    cases active with
    | true => exact fun _ _ => trivial
    | false =>
        obtain rfl := h₁.2 rfl
        refine (wary_of_free (uses_files ?_)).mono fun _ _ _ => trivial
        refine Prog.uses_call_bind nofun fun now => ?_
        exact Prog.uses_mono (fun _ => unread_of_replaceOp)
          (EventState.writeAtomically_uses _ _)
  · refine (wary_of_neglects hsettled (Prog.uses_bind
      (uses_files (leaseActive_neglects hne)) fun active => uses_files ?_)).mono
        fun _ _ _ => trivial
    cases active with
    | true => trivial
    | false =>
        refine Prog.uses_call_bind ⟨id, nofun⟩ fun now => ?_
        exact Prog.uses_mono (fun _ hop => ⟨avoids_of_replaceOp hop
          (.inl (Ne.symm hne)), unread_of_replaceOp hop⟩)
          (EventState.writeAtomically_uses _ _)

theorem Acquires.failed : Acquires directory (.ret false) none := by
  rintro _ rfl
  rfl

theorem Acquires.done {path : Path} : Acquires directory
    (.call (.fs (.syncDirectory path)) fun _ => .ret true) (some directory) :=
  .avoiding (fun _ => id) fun _ _ heq => heq.symm

theorem Acquires.removing {next : Bool → Transfer Bool}
    (hnext : ∀ removed, Acquires directory (next removed) none) :
    Acquires directory (.call (.fs (.remove (uploadingPath directory))) next)
      none := by
  rintro _ rfl
  refine ⟨fun hleased => absurd rfl hleased, fun (r : Bool) leased' hleased => ?_⟩
  rw [show leased' = _ from hleased, leaseEvent_remove]
  exact hnext r

theorem Acquires.renaming {source : Path} {next : Bool → Transfer Bool}
    (htrue : Acquires directory (next true) (some directory))
    (hfalse : Acquires directory (next false) none) :
    Acquires directory
      (.call (.fs (.rename source (uploadingPath directory))) next) none := by
  rintro _ rfl
  refine ⟨fun hleased => absurd rfl hleased, fun (r : Bool) leased' hleased => ?_⟩
  rw [show leased' = _ from hleased]
  cases r with
  | true =>
      rw [leaseEvent_rename]
      exact htrue
  | false =>
      rw [leaseEvent_rename_failed]
      exact hfalse

/-- The lease is the program's own from the rename on. -/
theorem writeAtomically_acquires (content : Bytes) :
    Acquires directory (files (EventState.writeAtomically
      (uploadingPath directory) content)) none := by
  have htemp : ¬uploadingPath directory = tempPath (uploadingPath directory) :=
    Retention.tempPath_marker_ne directory _
  refine .avoiding (avoids_beside rfl fun htouches => ?_)
    fun (created : Bool) => ?_
  · exact absurd (List.IsPrefix.length_le htouches) (by simp [uploadingPath])
  cases created with
  | false => exact .failed
  | true =>
      refine .avoiding (avoids_beside rfl htemp) fun (opened : Bool) => ?_
      cases opened with
      | false => exact .failed
      | true =>
          refine .avoiding (avoids_beside rfl htemp) fun (written : Bool) => ?_
          cases written with
          | false =>
              exact .avoiding (avoids_beside (.inl rfl) htemp) fun _ => .failed
          | true =>
              refine .avoiding (avoids_beside rfl htemp) fun _ => ?_
              refine .renaming .done (.removing fun _ => .renaming .done ?_)
              exact .avoiding (avoids_beside (.inl rfl) htemp) fun _ => .failed

theorem acquireLease_acquires :
    Acquires directory (files (acquireLease config directory)) none := by
  have hactive : Prog.Safe Leases Eq
      (fun leased op => leased ≠ none → ∀ other, Avoids other op)
      (fun _ leased => leased = none)
      (files (leaseActive config directory)) none := by
    refine Prog.Safe.of_uses (fun _ _ h heq => heq ▸ h)
      (fun leased op hop hleased => ?_) (uses_files (Prog.uses_mono
        (fun _ hop => searching_of_looking hop.looking)
        (leaseActive_uses config directory))) rfl
    subst hleased
    refine ⟨fun hleased => absurd rfl hleased, fun r leased' heffect => ?_⟩
    exact heffect.trans (leasedAfter_none hop.placed_of_installs)
  unfold acquireLease
  rw [Prog.bind_eq_bind, files_bind]
  refine Prog.Safe.bind (fun _ => rfl) (hactive.mono fun active leased h => ?_)
  subst h
  cases active with
  | true => exact Acquires.failed
  | false => exact Acquires.avoiding (fun _ => id) fun _ =>
      writeAtomically_acquires _

/-! ### Releasing -/

abbrev Releasing (directory : Text) : UploadOp → Prop :=
  Handles (· = directory) fun _ => False

theorem avoids_of_sending {op : UploadOp} (h : ForFiles (Sending directory) op)
    (other : Text) : Avoids other op := by
  cases op with
  | fs op =>
      cases h with
      | quiet h => exact h _
      | identifying h => exact avoids_of_replaceOp h (.inr (by decide))
      | marking h => exact avoids_of_replaceOp h (.inr (by decide))
  | _ => trivial

theorem releases_of_sends {α : Type} {p : Transfer α}
    (h : Sends directory p) :
    Prog.Safe Leases Eq
      (fun leased op => leased = none → ∀ other, Avoids other op)
      (fun _ leased' => leased' = leased) p leased := by
  refine Prog.Safe.of_uses (fun _ _ h heq => heq ▸ h)
    (fun leased' op hop hleased => ?_) h rfl
  subst hleased
  refine ⟨fun _ => avoids_of_sending hop, fun r leased'' heffect => ?_⟩
  exact heffect.trans (leasedAfter_of_avoids (avoids_of_sending hop))

theorem dropLease_releases :
    Releases (files (dropLease directory)) (some directory) := by
  rintro _ rfl
  refine ⟨nofun, fun (r : Bool) leased' heffect => ?_⟩
  rw [show leased' = _ from heffect, leaseEvent_remove, leasedAfter, if_pos rfl]
  exact fun _ heq => heq.symm

theorem uploadLeased_releases :
    Releases (uploadLeased config directory) (some directory) := by
  have hdrop : ∀ result : Bool, Releases ((files (dropLease directory)).bind
      fun _ => .ret result) (some directory) := fun result =>
    Prog.Safe.bind (fun _ => rfl)
      (dropLease_releases.mono fun _ _ h _ heq => heq ▸ h)
  refine Prog.Safe.bind (fun _ => rfl)
    ((releases_of_sends transferDirectory_sends).mono fun transferred _ h => ?_)
  subst h
  cases transferred with
  | false => exact hdrop false
  | true =>
      have hcollect : Sends directory (files (collectFiles directory)) :=
        collectFiles_sends directory
      refine Prog.Safe.bind (fun _ => rfl)
        ((releases_of_sends hcollect).mono fun collected _ h => ?_)
      subst h
      have hmark : ∀ content, Sends directory (files
          (EventState.writeAtomically (uploadedPath directory) content)) :=
        fun content => files_uses (Prog.uses_mono (fun _ => Sending.marking)
          (EventState.writeAtomically_uses _ content))
      refine Prog.Safe.bind (fun _ => rfl) ((releases_of_sends
        (hmark _)).mono fun written _ h => ?_)
      subst h
      exact hdrop written

theorem uploadLeased_releasing :
    (uploadLeased config directory).uses (Releasing directory) := by
  have hsends : ∀ {α : Type} {p : Transfer α}, Sends directory p →
      p.uses (Releasing directory) := fun h =>
    Prog.uses_mono (fun _ hop => .quiet (avoids_of_sending hop)) h
  have hdrop : (files (dropLease directory)).uses (Releasing directory) :=
    ⟨.remove rfl, fun _ => trivial⟩
  refine Prog.uses_bind (hsends transferDirectory_sends) fun transferred => ?_
  cases transferred with
  | false => exact Prog.uses_bind hdrop fun _ => trivial
  | true =>
      refine Prog.uses_bind (hsends (collectFiles_sends directory))
        fun collected => ?_
      refine Prog.uses_bind (hsends (files_uses (Prog.uses_mono
        (fun _ => Sending.marking) (EventState.writeAtomically_uses _ _))))
          fun written => ?_
      exact Prog.uses_bind hdrop fun _ => trivial

/-- Giving a directory up touches no lease marker. -/
theorem markFailed_avoids (attempts : Nat) :
    (markFailed directory attempts).uses
      fun op => ∀ other, Avoids other op := by
  refine Prog.uses_mono (fun op hop other => ?_) (markFailed_uses attempts)
  cases op with
  | fs op => exact avoids_of_replaceOp hop (.inr (by decide))
  | _ => trivial

end Upload

end DataCache.Upload
