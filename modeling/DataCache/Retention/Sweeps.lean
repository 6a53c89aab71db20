import DataCache.Storage.Footprint
import DataCache.Retention.Promises

/-!
# A sweep beside the other threads

The scan accepts only directories that may be deleted.  The others keep what the
scan saw, so each deletion still finds it, unless an earlier deletion of the
same directory failed half-way.
-/

namespace DataCache.Retention

open DataCache.Foundation DataCache.Storage

/-! ## The scan -/

section Scan

variable {codec : Codec} {policy : Policy} {s : Store} {name : Text}

/-- The scan runs undisturbed and changes nothing. -/
abbrev Scans {α : Type} (codec : Codec) (s : Store) (p : Action α)
    (post : α → Prop) : Prop :=
  Prog.wp (Accurate codec) (fun s' => s' = s)
    (fun value s' => s' = s ∧ post value) (fun _ _ => True) p s

theorem Scans.bind {α β : Type} {p : Action α} {f : α → Action β}
    {mid : α → Prop} {post : β → Prop} (h : Scans codec s p mid)
    (hf : ∀ value, mid value → Scans codec s (f value) post) :
    Scans codec s (p.bind f) post := by
  refine Prog.wp_bind (Prog.wp_mono (fun _ => id) ?_ (fun _ _ => id) h)
  rintro value _ ⟨rfl, hmid⟩
  exact hf value hmid

theorem Scans.ret {α : Type} {value : α} {post : α → Prop} (h : post value) :
    Scans codec s (.ret value) post :=
  ⟨rfl, h⟩

theorem pathExists_scans (s : Store) (directory name : Text) :
    Scans codec s (pathExists [directory, name])
      fun found => found = present s directory name := by
  rintro (found : Option Bool) s' ⟨⟨rfl, hfound⟩, haccurate⟩
  refine ⟨rfl, rfl, ?_⟩
  rw [pathExists_marker] at hfound haccurate
  cases found with
  | none => exact (haccurate rfl).symm
  | some found =>
      rcases hfound with hfound | hfound
      · cases hfound
        rfl
      · cases hfound

theorem alsoExists_scans (found : Bool) (directory name : Text) :
    Scans codec s (alsoExists found [directory, name])
      fun result => result = (found || present s directory name) := by
  cases found with
  | true => exact .ret rfl
  | false => exact pathExists_scans s directory name

theorem isBusy_scans : Scans codec s (isBusy name) fun busy =>
    busy = false → present s name ".pending" = false ∧
      present s name ".uploading" = false := by
  refine .bind (pathExists_scans s name _) fun pending hpending => ?_
  refine .bind (alsoExists_scans pending name _) fun uploading huploading => ?_
  refine Prog.wp_mono (fun _ => id) ?_ (fun _ _ => id)
    (alsoExists_scans uploading name ".uploading.tmp")
  rintro busy s' ⟨rfl, rfl⟩
  refine ⟨rfl, fun hbusy => ?_⟩
  rw [huploading, hpending] at hbusy
  simp only [Bool.or_eq_false_iff] at hbusy
  exact hbusy.1

theorem isRemovable_scans : Scans codec s (isRemovable policy name)
    fun removable => removable = true → Disposable policy s name := by
  refine .bind isBusy_scans fun busy hbusy => ?_
  cases busy with
  | true => exact .ret nofun
  | false =>
      obtain ⟨hsettled, hidle⟩ := hbusy rfl
      refine .bind (pathExists_scans s name _) fun complete hcomplete => ?_
      refine .bind (pathExists_scans s name _) fun failed hfailed => ?_
      split
      · exact .ret nofun
      · next hverdict =>
        have hfinished : present s name ".complete" = true ∨
            present s name ".failed" = true := by
          rw [← hcomplete, ← hfailed]
          cases complete <;> cases failed <;> simp_all
        split
        · refine Prog.wp_mono (fun _ => id) ?_ (fun _ _ => id)
            (pathExists_scans s name ".uploaded")
          rintro uploaded s' ⟨rfl, rfl⟩
          exact ⟨rfl, fun huploaded =>
            ⟨hfinished, hsettled, hidle, fun _ _ => huploaded⟩⟩
        · next hopen =>
          refine .ret fun _ => ⟨hfinished, hsettled, hidle, ?_⟩
          intro hprotect hdone
          rw [hprotect, hcomplete, hdone] at hopen
          exact absurd rfl hopen

/-- Directories that may be deleted, each once. -/
structure Doomed (policy : Policy) (s : Store) (names : List Text) : Prop where
  nodup : names.Nodup
  disposable : ∀ name ∈ names, Disposable policy s name
  named : ∀ name ∈ names, 0 ≤ parseEventTimestamp name

theorem collectFrom_scans : ∀ names : List Text,
    Scans codec s (collectFrom policy names) fun dirs =>
      (dirs.map EventDir.name).Sublist names ∧
      ∀ dir ∈ dirs, Disposable policy s dir.name ∧
        0 ≤ parseEventTimestamp dir.name
  | [] => .ret ⟨.slnil, nofun⟩
  | name :: rest => by
      refine .bind isRemovable_scans fun removable hremovable => ?_
      refine .bind (collectFrom_scans rest) fun dirs hdirs => ?_
      dsimp only
      split
      next hkept =>
        rw [Bool.and_eq_true, decide_eq_true_eq] at hkept
        refine .ret ⟨hdirs.1.cons_cons name, fun dir hdir => ?_⟩
        rcases List.mem_cons.mp hdir with rfl | hdir
        · exact ⟨hremovable hkept.1, hkept.2⟩
        · exact hdirs.2 dir hdir
      · exact .ret ⟨hdirs.1.cons name, hdirs.2⟩

theorem collectEventDirs_scans : Scans codec s (collectEventDirs policy)
    fun dirs => Doomed policy s (dirs.map EventDir.name) := by
  rintro listing s' ⟨rfl, hnodup, -, -⟩
  refine ⟨rfl, ?_⟩
  change Scans codec s' ((collectFrom policy listing.1).bind _) _
  refine .bind (collectFrom_scans listing.1) fun dirs hdirs => ?_
  have hperm := (dirs.perm_insertionSort EventDir.Older).map EventDir.name
  have hmem : ∀ name ∈ (dirs.insertionSort EventDir.Older).map EventDir.name,
      Disposable policy s' name ∧ 0 ≤ parseEventTimestamp name := by
    intro name hname
    obtain ⟨dir, hdir, rfl⟩ := List.mem_map.mp (hperm.mem_iff.mp hname)
    exact hdirs.2 dir hdir
  exact .ret ⟨hperm.nodup_iff.mpr (hdirs.1.nodup hnodup),
    fun name hname => (hmem name hname).1, fun name hname => (hmem name hname).2⟩

end Scan

/-! ## Operations of a sweep -/

section Operations

variable {codec : Codec} {policy : Policy} {s s' : Store} {names : List Text}

/-- A sweep's operation under the conditions on scans and deletions. -/
def CarefulEffect (codec : Codec) (policy : Policy) :
    Prog.Effect SweepOp.Res Store := fun s op r s' =>
  SweepEffect codec policy s op r s' ∧ CarefulSweep codec policy s op r s'

/-- What is deleted may be deleted. -/
def Deletes (policy : Policy) (s : Store) : SweepOp → Prop
  | .deleteDir dir _ => Disposable policy s dir.name ∧
      0 ≤ parseEventTimestamp dir.name
  | _ => True

theorem Doomed.kept (h : Doomed policy s names)
    (hkeeps : KeepsDisposable policy s s') : Doomed policy s' names :=
  ⟨h.nodup, fun name hname => hkeeps name (h.disposable name hname), h.named⟩

theorem Doomed.sublist {fewer : List Text} (h : Doomed policy s names)
    (hsub : fewer.Sublist names) : Doomed policy s fewer :=
  ⟨h.nodup.sublist hsub, fun name hname => h.disposable name (hsub.subset hname),
    fun name hname => h.named name (hsub.subset hname)⟩

theorem Doomed.same (h : Doomed policy s names)
    (hsame : ∀ name ∈ names, SameMarkers name s s') : Doomed policy s' names :=
  ⟨h.nodup, fun name hname => (hsame name hname).disposable
    (h.disposable name hname), h.named⟩

theorem reading_same {α : Type} {p p' : Action α} (huses : p.uses Reading)
    (hexec : Prog.Exec (Effect codec) s p s' p') (directory : Text) :
    SameMarkers directory s s' := by
  have hwp : Prog.wp (Effect codec) (SameMarkers directory s)
      (fun _ => SameMarkers directory s) (fun _ => SameMarkers directory s) p s :=
    Prog.wp_of_uses (fun _ _ _ _ hop hsame heffect name hname =>
      (present_eq heffect (hop.1 _)).trans (hsame name hname)) huses
      fun _ _ => rfl
  exact (Prog.wp_exec hexec (fun _ _ => rfl) hwp).1

theorem SweepEffect.same {op : SweepOp} {r : op.Res}
    (h : SweepEffect codec policy s op r s')
    (hop : ∀ dir reason, op ≠ .deleteDir dir reason) (directory : Text) :
    SameMarkers directory s s' := by
  have huses : (op.implement policy).uses Reading := by
    cases op with
    | collectEventDirs => exact collectEventDirs_uses policy
    | directorySize dir => exact directorySize_uses dir.name
    | deleteDir dir reason => exact absurd rfl (hop dir reason)
    | _ => exact ⟨⟨fun _ => id, nofun⟩, fun _ => trivial⟩
  exact reading_same huses h directory

theorem SweepEffect.deleted {dir : EventDir} {reason : Text} {r : Bool}
    (h : SweepEffect codec policy s (.deleteDir dir reason) r s') :
    Effect codec s (.removeAll [dir.name]) r s' := by
  cases h with
  | step heffect hrest =>
      cases hrest with
      | refl => exact heffect

theorem removeAll_same {name other : Text} {r : Bool}
    (h : Effect codec s (.removeAll [name]) r s') (hne : other ≠ name) :
    SameMarkers other s s' := by
  refine fun marker _ => present_eq h fun htouches => ?_
  exact hne (List.cons_prefix_cons.mp htouches).1.symm

theorem present_of_deleted {name directory marker : Text} {r : Bool}
    (h : Effect codec s (.removeAll [name]) r s')
    (habsent : present s directory marker = false) :
    present s' directory marker = false := by
  rw [← Bool.not_eq_true] at habsent ⊢
  exact fun hpresent => habsent (present_of_removeAll h hpresent)

/-- A failed deletion that leaves the markers leaves the directory disposable. -/
theorem Disposable.spared {name : Text} {r : Bool}
    (hdisposable : Disposable policy s name)
    (h : Effect codec s (.removeAll [name]) r s')
    (hspared : ∀ marker ∈ finishedMarkers,
      present s name marker = true → present s' name marker = true) :
    Disposable policy s' name := by
  refine ⟨hdisposable.finished.imp (hspared _ (by decide))
    (hspared _ (by decide)), present_of_deleted h hdisposable.settled,
    present_of_deleted h hdisposable.idle, fun hprotect hcomplete => ?_⟩
  exact hspared _ (by decide) (hdisposable.uploaded hprotect
    (present_of_removeAll h hcomplete))

/-- Deleting one directory leaves the others as they are. -/
theorem Doomed.others {name : Text} {before after : List Text} {r : Bool}
    (h : Doomed policy s (before ++ name :: after))
    (heffect : Effect codec s (.removeAll [name]) r s') :
    Doomed policy s' (before ++ after) := by
  refine (h.sublist ((List.sublist_cons_self name after).append_left
    before)).same fun other hother => removeAll_same heffect ?_
  rintro rfl
  have hnodup := h.nodup
  rw [List.nodup_middle, List.nodup_cons] at hnodup
  exact hnodup.1 hother

theorem Doomed.spared {name : Text} {before after : List Text} {r : Bool}
    (h : Doomed policy s (before ++ name :: after))
    (heffect : Effect codec s (.removeAll [name]) r s')
    (hspared : ∀ marker ∈ finishedMarkers,
      present s name marker = true → present s' name marker = true) :
    Doomed policy s' (before ++ name :: after) := by
  have hothers := h.others heffect
  refine ⟨h.nodup, fun other hother => ?_, h.named⟩
  by_cases heq : other = name
  · subst heq
    exact (h.disposable other (by simp)).spared heffect hspared
  · refine hothers.disposable other ?_
    simp only [List.mem_append, List.mem_cons] at hother ⊢
    exact hother.imp id fun hother => hother.resolve_left heq

end Operations

/-! ## Its programs -/

section Programs

variable {codec : Codec} {policy : Policy}

abbrev Spares {α : Type} (codec : Codec) (policy : Policy)
    (post : α → Store → Prop) (p : Sweep α) (s : Store) : Prop :=
  Prog.Safe (CarefulEffect codec policy) (KeepsDisposable policy)
    (Deletes policy) post p s

theorem keepsDisposable_refl (s : Store) : KeepsDisposable policy s s :=
  fun _ => id

theorem keepsDisposable_trans (s s' s'' : Store)
    (h : KeepsDisposable policy s s') (h' : KeepsDisposable policy s' s'') :
    KeepsDisposable policy s s'' :=
  fun directory => h' directory ∘ h directory

/-- What the age limit keeps matters only when a capacity limit follows. -/
theorem byAge_spares (cutoffNs : Int) :
    ∀ (dirs : List EventDir) (kept : List Text) (s : Store),
      Doomed policy s (dirs.map EventDir.name) →
      (0 < policy.maxCapacityBytes →
        Doomed policy s (kept ++ dirs.map EventDir.name)) →
      Spares codec policy
        (fun result s => 0 < policy.maxCapacityBytes →
          Doomed policy s (kept ++ result.map EventDir.name))
        (Sweep.byAge cutoffNs dirs) s
  | [], _, _, _, hkept => fun _ hs' hlimit => (hkept hlimit).kept hs'
  | dir :: rest, kept, s, hdoomed, hkept => by
      rw [Sweep.byAge]
      split
      · intro s₁ hs₁
        have h₁ := hdoomed.kept hs₁
        refine ⟨⟨h₁.disposable _ List.mem_cons_self,
          h₁.named _ List.mem_cons_self⟩, fun (deleted : Bool) s₂ heffect => ?_⟩
        have hremoved := heffect.1.deleted
        have hrest : Doomed policy s₂ (rest.map EventDir.name) :=
          @Doomed.others _ _ _ _ dir.name [] _ _ h₁ hremoved
        have hnext : 0 < policy.maxCapacityBytes → Doomed policy s₂
            ((if deleted then kept else kept ++ [dir.name]) ++
              rest.map EventDir.name) := by
          intro hlimit
          have hall : Doomed policy s₁
              (kept ++ dir.name :: rest.map EventDir.name) :=
            (hkept hlimit).kept hs₁
          cases deleted with
          | true => exact hall.others hremoved
          | false =>
              simpa using hall.spared hremoved (heffect.2 rfl hlimit rfl)
        change Spares codec policy _ ((Sweep.byAge cutoffNs rest).bind _) s₂
        refine Prog.Safe.bind keepsDisposable_refl
          ((byAge_spares cutoffNs rest _ s₂ hrest hnext).mono
            fun result s₃ h₃ s₄ hs₄ hlimit => ?_)
        have h₄ := (h₃ hlimit).kept hs₄
        cases deleted with
        | true => exact h₄
        | false => simpa using h₄
      · exact fun _ hs' hlimit => (hkept hlimit).kept hs'

theorem measure_spares :
    ∀ (dirs : List EventDir) (measured : List Text) (s : Store),
      Doomed policy s (measured ++ dirs.map EventDir.name) →
      Spares codec policy
        (fun result s => Doomed policy s (measured ++ result.map EventDir.name))
        (Sweep.measure dirs) s
  | [], _, _, hdoomed => fun _ hs' => hdoomed.kept hs'
  | dir :: rest, measured, s, hdoomed => by
      intro s₁ hs₁
      refine ⟨trivial, fun size s₂ heffect => ?_⟩
      have h₂ : Doomed policy s₂
          ((measured ++ [dir.name]) ++ rest.map EventDir.name) := by
        simpa using (hdoomed.kept hs₁).same
          fun name _ => heffect.1.same nofun name
      change Spares codec policy _ ((Sweep.measure rest).bind _) s₂
      refine Prog.Safe.bind keepsDisposable_refl
        ((measure_spares rest _ s₂ h₂).mono fun result s₃ h₃ s₄ hs₄ => ?_)
      simpa using h₃.kept hs₄

theorem byCapacity_spares (maxCapacityBytes : Nat) :
    ∀ (dirs : List EventDir) (totalBytes : Nat) (s : Store),
      Doomed policy s (dirs.map EventDir.name) →
      Spares codec policy (fun _ _ => True)
        (Sweep.byCapacity maxCapacityBytes totalBytes dirs) s
  | [], _, _, _ => fun _ _ => trivial
  | dir :: rest, totalBytes, s, hdoomed => by
      rw [Sweep.byCapacity]
      split
      · exact fun _ _ => trivial
      · intro s₁ hs₁
        have h₁ := hdoomed.kept hs₁
        refine ⟨⟨h₁.disposable _ List.mem_cons_self,
          h₁.named _ List.mem_cons_self⟩, fun (deleted : Bool) s₂ heffect => ?_⟩
        exact byCapacity_spares maxCapacityBytes rest _ s₂
          (@Doomed.others _ _ _ _ dir.name [] _ _ h₁ heffect.1.deleted)

theorem applyAgeLimit_spares {dirs : List EventDir} {s : Store}
    (hdoomed : Doomed policy s (dirs.map EventDir.name)) :
    Spares codec policy
      (fun result s => 0 < policy.maxCapacityBytes →
        Doomed policy s (result.map EventDir.name))
      (Sweep.applyAgeLimit policy dirs) s := by
  unfold Sweep.applyAgeLimit
  split
  · intro s₁ hs₁
    refine ⟨trivial, fun now s₂ heffect => ?_⟩
    have h₂ := (hdoomed.kept hs₁).same fun name _ => heffect.1.same nofun name
    exact byAge_spares _ dirs [] s₂ h₂ fun _ => h₂
  · exact fun s' hs' _ => hdoomed.kept hs'

theorem sweep_spares (s : Store) :
    Spares codec policy (fun _ _ => True) (Sweep.sweep policy) s := by
  intro s₁ hs₁
  refine ⟨trivial, fun (dirs : List EventDir) s₂ heffect => ?_⟩
  obtain ⟨-, rfl, hdoomed⟩ :=
    Prog.wp_exec heffect.2 (by exact rfl) collectEventDirs_scans
  change Spares codec policy _ ((Sweep.applyAgeLimit policy dirs).bind _) s₂
  refine Prog.Safe.bind keepsDisposable_refl
    ((applyAgeLimit_spares hdoomed).mono fun kept s₃ h₃ => ?_)
  unfold Sweep.applyCapacityLimit
  split
  next hlimit =>
    refine Prog.Safe.bind keepsDisposable_refl
      ((measure_spares kept [] s₃ (h₃ hlimit)).mono fun measured s₄ h₄ => ?_)
    exact byCapacity_spares _ measured _ s₄ h₄
  · exact fun _ _ => trivial

theorem enforceRetention_spares (force : Bool) (s : Store) :
    Spares codec policy (fun _ _ => True)
      (Sweep.enforceRetention policy force) s := by
  unfold Sweep.enforceRetention
  split
  · exact fun _ _ => trivial
  · refine fun s₁ _ => ⟨trivial, fun now s₂ _ s₃ _ => ⟨trivial, ?_⟩⟩
    intro lastSweep s₄ _
    change Spares codec policy _ (ite _ _ _) s₄
    split
    · exact fun _ _ => trivial
    · exact fun _ _ => ⟨trivial, fun _ s₅ _ => sweep_spares s₅⟩

end Programs

end DataCache.Retention
