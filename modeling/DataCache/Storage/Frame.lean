import DataCache.Storage.Worker

/-!
# One directory of a working recorder

The worker serves many event directories while the monitor begins new ones and
the uploader leaves its own files in finished ones.  For one directory, what
the others do is a change elsewhere; the rules below run the worker's programs
with such changes around every operation, up to the moment the directory itself
is swept.
-/

namespace DataCache.Storage

open DataCache.Foundation DataCache.Capture

/-! ## Executions seen from one directory -/

/-- A store, and whether removing the directory has been started. -/
structure Watched where
  store : Store
  swept : Bool

abbrev Watched.disk (s : Watched) : FileSystem := s.store.disk

/-- The directory with all its paths but the uploader's own files. -/
def Owned (directory : Text) (path : Path) : Prop :=
  ∃ rest, path = directory :: rest ∧
    ¬(".upload" : Text) <+: rest.getLastD []

/-- Other threads leave the owned paths alone. -/
def Aside (directory : Text) (s s' : Store) : Prop :=
  ∀ path, Owned directory path → Disk.SameAt path s.disk s'.disk

def sweeps (directory : Text) : FsOp → Bool
  | .removeAll path => decide (path = [directory])
  | _ => false

def WorkerEffect (codec : Codec) (directory : Text) :
    Prog.Effect FsOp.Res Watched := fun s op r s' =>
  ∃ before during, Aside directory s.store before ∧
    Effect codec before op r during ∧ Aside directory during s'.store ∧
    s'.swept = (s.swept || sweeps directory op)

/-- Only touched paths of an unswept directory changed, and no directory. -/
structure Frame (directory : Text) (touched : Path → Prop) (s s' : Watched) :
    Prop where
  swept : s'.swept = false → s.swept = false
  same : s'.swept = false → ∀ path, Owned directory path → ¬touched path →
    Disk.SameAt path s.disk s'.disk
  dirs : s'.swept = false → ∀ path, Owned directory path →
    s.disk.isDir path = true → Disk.SameAt path s.disk s'.disk

theorem Owned.ne_nil {directory : Text} {path : Path}
    (h : Owned directory path) : path ≠ [] := by
  obtain ⟨rest, rfl, -⟩ := h
  exact List.cons_ne_nil _ _

theorem Aside.refl (directory : Text) (s : Store) : Aside directory s s :=
  fun path _ => .refl path s.disk

theorem Aside.trans {directory : Text} {s s' s'' : Store}
    (h : Aside directory s s') (h' : Aside directory s' s'') :
    Aside directory s s'' :=
  fun path howned => (h path howned).trans (h' path howned)

section Frame

variable {directory : Text} {touched touched' : Path → Prop}
  {s s' s'' : Watched}

theorem Frame.refl (s : Watched) : Frame directory touched s s :=
  ⟨id, fun _ path _ _ => .refl path _, fun _ path _ _ => .refl path _⟩

theorem Frame.trans (h : Frame directory touched s s')
    (h' : Frame directory touched s' s'') : Frame directory touched s s'' where
  swept := h.swept ∘ h'.swept
  same hswept path howned hpath :=
    (h.same (h'.swept hswept) path howned hpath).trans
      (h'.same hswept path howned hpath)
  dirs hswept path howned hdir := by
    have hfirst := h.dirs (h'.swept hswept) path howned hdir
    refine hfirst.trans (h'.dirs hswept path howned ?_)
    rw [hfirst.isDir, hdir]

theorem Frame.widen (h : Frame directory touched s s')
    (hsub : ∀ path, touched path → touched' path) :
    Frame directory touched' s s' :=
  ⟨h.swept, fun hswept path howned hpath =>
    h.same hswept path howned fun hmem => hpath (hsub path hmem), h.dirs⟩

theorem Frame.of_swept (h : s'.swept = true) : Frame directory touched s s' := by
  refine ⟨?_, ?_, ?_⟩ <;>
    · intro hswept
      rw [h] at hswept
      cases hswept

theorem Frame.isDir (h : Frame directory touched s s') (hswept : s'.swept = false)
    {path : Path} (howned : Owned directory path)
    (hdir : s.disk.isDir path = true) : s'.disk.isDir path = true := by
  rw [(h.dirs hswept path howned hdir).isDir, hdir]

end Frame

/-- Not a removal of the directory or of anything above or below it. -/
def Spares (directory : Text) (op : FsOp) : Prop :=
  ∀ target, op = .removeAll target → ∀ path, Owned directory path →
    ¬target <+: path

/-- The owned paths an operation may change are touched ones. -/
def Confined (directory : Text) (touched : Path → Prop) (op : FsOp) : Prop :=
  sweeps directory op = true ∨ Spares directory op ∧
    ∀ path, Owned directory path → op.Touches path → touched path

section Effects

variable {codec : Codec} {directory : Text} {touched : Path → Prop}
  {s s' : Watched} {op : FsOp} {r : op.Res}

theorem WorkerEffect.frame (h : WorkerEffect codec directory s op r s')
    (hconfined : Confined directory touched op) :
    Frame directory touched s s' := by
  obtain ⟨before, during, hbefore, heffect, hafter, hswept⟩ := h
  rcases hconfined with hsweeps | ⟨hspares, htouched⟩
  · exact .of_swept (by rw [hswept, hsweeps, Bool.or_true])
  refine ⟨fun h => ?_, fun _ path howned hpath => ?_,
    fun _ path howned hdir => ?_⟩
  · rw [hswept, Bool.or_eq_false_iff] at h
    exact h.1
  · have htouches : ¬op.Touches path := fun h => hpath (htouched path howned h)
    exact ((hbefore path howned).trans (heffect.sameAt htouches)).trans
      (hafter path howned)
  · have hdir' : before.disk.isDir path = true := by
      rw [(hbefore path howned).isDir]
      exact hdir
    exact ((hbefore path howned).trans (heffect.sameAt_of_isDir howned.ne_nil
      hdir' fun target heq => hspares target heq path howned)).trans
        (hafter path howned)

/-- The effect proper, between two changes that leave the path alone. -/
theorem WorkerEffect.at (h : WorkerEffect codec directory s op r s')
    {path : Path} (howned : Owned directory path) : ∃ before during,
      Disk.SameAt path s.disk before.disk ∧ Effect codec before op r during ∧
      Disk.SameAt path during.disk s'.disk := by
  obtain ⟨before, during, hbefore, heffect, hafter, -⟩ := h
  exact ⟨before, during, hbefore path howned, heffect, hafter path howned⟩

end Effects

/-! ## Running the worker's programs -/

/--
Every execution from `s` changes only touched paths of the directory and, when
the directory has not been swept, returns with `post`.
-/
def Does {α : Type} (codec : Codec) (directory : Text) (touched : Path → Prop)
    (p : Action α) (s : Watched) (post : α → Watched → Prop) : Prop :=
  Prog.wp (WorkerEffect codec directory) (Frame directory touched s)
    (fun value s' => Frame directory touched s s' ∧
      (s'.swept = false → post value s'))
    (fun _ => Frame directory touched s) p s

section Rules

variable {α β : Type} {codec : Codec} {directory : Text}
  {touched touched' : Path → Prop} {s : Watched} {post : α → Watched → Prop}

theorem Does.pure {value : α} (h : s.swept = false → post value s) :
    Does codec directory touched (Pure.pure value) s post :=
  ⟨.refl s, h⟩

theorem Does.raise {error : StorageError} :
    Does codec directory touched (.raise error) s post :=
  Frame.refl s

theorem wp_swept (p : Action α) (hswept : s.swept = true) :
    Prog.wp (WorkerEffect codec directory) (fun s' => s'.swept = true)
      (fun _ s' => s'.swept = true) (fun _ s' => s'.swept = true) p s := by
  refine Prog.wp_of_uses (fun s op r s' _ h heffect => ?_) (Prog.uses_true p) hswept
  obtain ⟨-, -, -, -, -, hnow⟩ := heffect
  rw [hnow, h, Bool.true_or]

/-- Nothing more is promised of a swept directory. -/
theorem Does.of_swept (p : Action α) (hswept : s.swept = true) :
    Does codec directory touched p s post :=
  Prog.wp_mono (fun _ h => .of_swept h)
    (fun _ _ h => ⟨.of_swept h, fun hno => by rw [h] at hno; cases hno⟩)
    (fun _ _ h => .of_swept h) (wp_swept p hswept)

theorem Does.rebase {s' : Watched} {p : Action α}
    (hframe : Frame directory touched s s')
    (h : Does codec directory touched p s' post) :
    Prog.wp (WorkerEffect codec directory) (Frame directory touched s)
      (fun value s'' => Frame directory touched s s'' ∧
        (s''.swept = false → post value s''))
      (fun _ => Frame directory touched s) p s' :=
  Prog.wp_mono (fun _ => hframe.trans) (fun _ _ h => ⟨hframe.trans h.1, h.2⟩)
    (fun _ _ => hframe.trans) h

theorem Does.perform {op : FsOp} {next : op.Res → Action α}
    (hconfined : Confined directory touched op)
    (h : ∀ r s', WorkerEffect codec directory s op r s' → s'.swept = false →
      Frame directory touched s s' →
      Does codec directory touched (next r) s' post) :
    Does codec directory touched (Storage.perform op >>= next) s post := by
  intro r s' heffect
  have hframe := heffect.frame hconfined
  refine ⟨hframe, ?_⟩
  cases hswept : s'.swept with
  | true => exact (Does.of_swept _ hswept).rebase hframe
  | false => exact (h r s' heffect hswept hframe).rebase hframe

theorem Does.bind {p : Action β} {next : β → Action α}
    {mid : β → Watched → Prop} (hfirst : Does codec directory touched p s mid)
    (h : ∀ value s', s'.swept = false → Frame directory touched s s' →
      mid value s' → Does codec directory touched (next value) s' post) :
    Does codec directory touched (p >>= next) s post := by
  refine Prog.wp_bind (Prog.wp_mono (fun _ => id) ?_ (fun _ _ => id) hfirst)
  intro value s' hmid
  cases hswept : s'.swept with
  | true => exact (Does.of_swept _ hswept).rebase hmid.1
  | false => exact (h value s' hswept hmid.1 (hmid.2 hswept)).rebase hmid.1

theorem Does.catchError {p : Action α} {handler : StorageError → Action α}
    (hfirst : Does codec directory touched p s post)
    (h : ∀ error s', s'.swept = false → Frame directory touched s s' →
      Does codec directory touched (handler error) s' post) :
    Does codec directory touched (p.catchError handler) s post := by
  refine Prog.wp_catchError (Prog.wp_mono (fun _ => id) (fun _ _ => id) ?_ hfirst)
  intro error s' hframe
  cases hswept : s'.swept with
  | true => exact (Does.of_swept _ hswept).rebase hframe
  | false => exact (h error s' hswept hframe).rebase hframe

theorem Does.mono {p : Action α} {post' : α → Watched → Prop}
    (h : Does codec directory touched p s post)
    (hpost : ∀ value s', s'.swept = false → Frame directory touched s s' →
      post value s' → post' value s') :
    Does codec directory touched p s post' :=
  Prog.wp_mono (fun _ => id)
    (fun value s' h => ⟨h.1, fun hswept => hpost value s' hswept h.1 (h.2 hswept)⟩)
    (fun _ _ => id) h

theorem Does.widen {p : Action α} (h : Does codec directory touched p s post)
    (hsub : ∀ path, touched path → touched' path) :
    Does codec directory touched' p s post :=
  Prog.wp_mono (fun _ h => h.widen hsub) (fun _ _ h => ⟨h.1.widen hsub, h.2⟩)
    (fun _ _ h => h.widen hsub) h

theorem Does.of_uses {p : Action α}
    (h : p.uses (Confined directory touched)) :
    Does codec directory touched p s fun _ _ => True :=
  Prog.wp_mono (fun _ => id) (fun _ _ h => ⟨h, fun _ => trivial⟩) (fun _ _ => id)
    (Prog.wp_of_uses (fun _ _ _ _ hop hframe heffect =>
      hframe.trans (WorkerEffect.frame heffect hop)) h (Frame.refl s))

theorem Does.of_uses_inv {p : Action α} {allowed : FsOp → Prop}
    {inv : Watched → Prop}
    (hinv : ∀ s op r s', allowed op → inv s →
      WorkerEffect codec directory s op r s' → inv s')
    (h : p.uses (Confined directory touched)) (hallowed : p.uses allowed)
    (hs : inv s) : Does codec directory touched p s fun _ => inv := by
  have hframed : Does codec directory touched p s fun _ _ => True :=
    Does.of_uses h
  have hwp := Prog.wp_and hframed (Prog.wp_of_uses hinv hallowed hs)
  exact Prog.wp_mono (fun _ h => h.1) (fun _ _ h => ⟨h.1.1, fun _ => h.2⟩)
    (fun _ _ h => h.1) hwp

end Rules

end DataCache.Storage
