import DataCache.Storage.Rounds

/-!
# The marker that publishes an event

While an event's final job is processed, `.complete` appears at one moment.
From then on the rest of the round leaves it and the event's files alone.
-/

namespace DataCache.Storage

open DataCache.Foundation DataCache.Capture
open EventState (MarkerOp)

/-- Others have acted, and the directory was not swept meanwhile. -/
def Apart (directory : Text) (s s' : Watched) : Prop :=
  Aside directory s.store s'.store ∧ s'.swept = s.swept

theorem Apart.refl {directory : Text} (s : Watched) : Apart directory s s :=
  ⟨.refl _ _, rfl⟩

theorem Apart.trans {directory : Text} (s s' s'' : Watched)
    (h : Apart directory s s') (h' : Apart directory s' s'') :
    Apart directory s s'' :=
  ⟨h.1.trans h'.1, h'.2.trans h.2⟩

theorem Apart.frame {directory : Text} {touched : Path → Prop} {s s' : Watched}
    (h : Apart directory s s') : Frame directory touched s s' :=
  ⟨fun hswept => h.2 ▸ hswept, fun _ path howned _ => h.1 path howned,
    fun _ path howned _ => h.1 path howned⟩

theorem absorbs_workerEffect {codec : Codec} {directory : Text} :
    Prog.Absorbs (WorkerEffect codec directory) (Apart directory) where
  before _ _ _ _ _ hapart heffect := by
    obtain ⟨before, during, hbefore, hop, hafter, hswept⟩ := heffect
    exact ⟨before, during, hapart.1.trans hbefore, hop, hafter,
      by rw [hswept, hapart.2]⟩
  after _ _ _ _ _ heffect hapart := by
    obtain ⟨before, during, hbefore, hop, hafter, hswept⟩ := heffect
    exact ⟨before, during, hbefore, hop, hafter.trans hapart.1,
      by rw [hapart.2, hswept]⟩

/-! ## Before and after -/

/-- There is no `.complete` yet, unless the directory has been swept. -/
def Unpublished (directory : Text) (s : Watched) : Prop :=
  s.swept = false → Absent (completePath directory) s.disk

/-- What may still be done to a published event. -/
def Late (directory : Text) (op : FsOp) : Prop :=
  MarkerOp directory op ∧ ¬op.Touches (completePath directory) ∨ Sweeping op

/-- Every operation finds the event unpublished, or comes late. -/
abbrev Publishes {α : Type} (codec : Codec) (directory : Text) (p : Action α)
    (s : Watched) (post : α → Watched → Prop) : Prop :=
  Prog.Safe (WorkerEffect codec directory) (Apart directory)
    (fun s op => Unpublished directory s ∨ Late directory op) post p s

section Rules

variable {α β : Type} {codec : Codec} {directory : Text} {s s' : Watched}

theorem Unpublished.apart (h : Unpublished directory s)
    (hapart : Apart directory s s') : Unpublished directory s' := fun hswept =>
  (h (hapart.2 ▸ hswept)).of_sameAt (hapart.1 _ (owned_complete directory))

theorem Unpublished.leaves {op : FsOp} {r : op.Res} (h : Unpublished directory s)
    (heffect : WorkerEffect codec directory s op r s')
    (hleaves : Leaves (completePath directory) op) :
    Unpublished directory s' := by
  intro hswept
  refine heffect.absent (owned_complete directory) hleaves (h ?_)
  obtain ⟨-, -, -, -, -, hnow⟩ := heffect
  rw [hnow, Bool.or_eq_false_iff] at hswept
  exact hswept.1

theorem Publishes.of_wp {p : Action α} {post : α → Watched → Prop}
    {fail : StorageError → Watched → Prop} (h : Unpublished directory s)
    (hwp : Prog.wp (WorkerEffect codec directory) (Unpublished directory) post fail
      p s) : Publishes codec directory p s fun value s' =>
        ∃ s, post value s ∧ Apart directory s s' :=
  Prog.Safe.of_wp absorbs_workerEffect (fun _ _ _ h hapart => .inl (h.apart hapart))
    (fun _ s _ hpost hapart => ⟨s, hpost, hapart⟩) h hwp

/-- A program that does not bring `.complete` about. -/
theorem Publishes.of_leaves {p : Action α}
    (huses : p.uses (Leaves (completePath directory)))
    (h : Unpublished directory s) :
    Publishes codec directory p s fun _ => Unpublished directory :=
  (Publishes.of_wp h (Prog.wp_of_uses (fun _ _ _ _ hleaves h heffect =>
    h.leaves heffect hleaves) huses h)).mono fun _ _ ⟨_, h, hapart⟩ => h.apart hapart

/-- A program that changes other paths only. -/
theorem Publishes.of_does {touched : Path → Prop} {p : Action α}
    {post : α → Watched → Prop} (h : Unpublished directory s)
    (hpath : ¬touched (completePath directory))
    (hdoes : Does codec directory touched p s post) :
    Publishes codec directory p s fun _ => Unpublished directory := by
  have hkept : ∀ {s'}, Frame directory touched s s' → Unpublished directory s' :=
    fun hframe hswept => absent_of_frame (h (hframe.swept hswept))
      (owned_complete directory) hpath hframe hswept
  exact (Publishes.of_wp h (Prog.wp_mono (fun _ => hkept) (fun _ _ h => hkept h.1)
    (fun _ _ => hkept) hdoes)).mono fun _ _ ⟨_, h, hapart⟩ => h.apart hapart

theorem Publishes.of_late {p : Action α} (huses : p.uses (Late directory)) :
    Publishes codec directory p s fun _ _ => True :=
  Prog.Safe.of_uses (fun _ _ _ _ => trivial)
    (fun _ _ hop _ => ⟨.inr hop, fun _ _ _ => trivial⟩) huses trivial

theorem Publishes.bind {p : Action β} {next : β → Action α}
    {post : α → Watched → Prop} {mid : β → Watched → Prop}
    (hfirst : Publishes codec directory p s mid)
    (h : ∀ value s', mid value s' → Publishes codec directory (next value) s' post) :
    Publishes codec directory (p >>= next) s post :=
  Prog.Safe.bind Apart.refl (hfirst.mono h)

theorem Publishes.pure {value : α} {post : α → Watched → Prop}
    (h : ∀ s', Apart directory s s' → post value s') :
    Publishes codec directory (Pure.pure value) s post := h

/-- One more operation while the event is not published. -/
theorem Publishes.perform {op : FsOp} {next : op.Res → Action α}
    {post : α → Watched → Prop} (h : Unpublished directory s)
    (hnext : ∀ r s₁ s', Unpublished directory s₁ →
      WorkerEffect codec directory s₁ op r s' →
      Publishes codec directory (next r) s' post) :
    Publishes codec directory (Storage.perform op >>= next) s post :=
  fun s₁ hapart => ⟨.inl (h.apart hapart), fun r s' heffect =>
    hnext r s₁ s' (h.apart hapart) heffect⟩

theorem Publishes.late {op : FsOp} {next : op.Res → Action α}
    {post : α → Watched → Prop} (hop : Late directory op)
    (hnext : ∀ r s', Publishes codec directory (next r) s' post) :
    Publishes codec directory (Storage.perform op >>= next) s post :=
  fun _ _ => ⟨.inr hop, fun r s' _ => hnext r s'⟩

end Rules

/-! ## The last round of an event -/

section Rounds

variable {codec : Codec} {directory : Text} {s : Watched}

/-- What is left when the marker could not be written. -/
def Withheld (directory : Text) (ok : Bool) (s : Watched) : Prop :=
  ok = false → Unpublished directory s

theorem withheld_pure {ok : Bool} (h : ok = false → Unpublished directory s) :
    Publishes codec directory (Pure.pure ok : Action Bool) s (Withheld directory) :=
  .pure fun _ hapart hno => (h hno).apart hapart

theorem late_syncDirectory : Late directory (.syncDirectory [directory]) :=
  .inl ⟨.inr (.inl rfl), id⟩

theorem replaceTarget_publishes (h : Unpublished directory s) :
    Publishes codec directory (EventState.replaceTarget (completePath directory)) s
      (Withheld directory) := by
  have hsynced : ∀ s, Publishes codec directory (do
      Storage.perform (.syncDirectory (completePath directory).dropLast)
      return true) s (Withheld directory) := fun s =>
    .late late_syncDirectory fun _ _ => withheld_pure nofun
  have hkept : ∀ {s s' : Watched} {source : Path}, Unpublished directory s →
      WorkerEffect codec directory s (.rename source (completePath directory)) false
        s' → Unpublished directory s' := by
    intro s s' source h heffect hswept
    refine (h ?_).of_sameAt (heffect.rename_failed (owned_complete directory))
    obtain ⟨-, -, -, -, -, hnow⟩ := heffect
    rw [hnow, Bool.or_eq_false_iff] at hswept
    exact hswept.1
  refine .perform h fun renamed s₁ s₂ h₁ hrename => ?_
  cases renamed with
  | true => exact hsynced s₂
  | false =>
      refine .perform (hkept h₁ hrename) fun _ s₃ s₄ h₃ hremove => ?_
      refine .perform (h₃.leaves hremove (.inl rfl)) fun renamed s₅ s₆ h₅ hrename => ?_
      cases renamed with
      | true => exact hsynced s₆
      | false =>
          refine .perform (hkept h₅ hrename) fun _ s₇ s₈ h₇ hremove => ?_
          exact withheld_pure fun _ => h₇.leaves hremove
            (.inr (tempPath_ne_marker directory .complete))

theorem writeComplete_publishes (content : Bytes) (h : Unpublished directory s) :
    Publishes codec directory
      (EventState.writeAtomically (completePath directory) content) s
      (Withheld directory) := by
  have htemp : completePath directory ≠ tempPath (completePath directory) :=
    tempPath_ne_marker directory .complete
  refine .perform h fun created s₁ s₂ h₁ hcreate => ?_
  have h₂ := h₁.leaves hcreate (.inr fun hstart =>
    absurd hstart.length_le (by simp [completePath, EventState.markerPath]))
  cases created with
  | false => exact withheld_pure fun _ => h₂
  | true =>
      refine .perform h₂ fun opened s₃ s₄ h₃ hopen => ?_
      have h₄ := h₃.leaves hopen (.inr htemp)
      cases opened with
      | false => exact withheld_pure fun _ => h₄
      | true =>
          refine .perform h₄ fun written s₅ s₆ h₅ happend => ?_
          have h₆ := h₅.leaves happend (.inr htemp)
          cases written with
          | false => exact .perform h₆ fun _ _ _ h₇ hremove =>
              withheld_pure fun _ => h₇.leaves hremove (.inr htemp)
          | true => exact .perform h₆ fun _ _ _ h₇ hsync =>
              replaceTarget_publishes (h₇.leaves hsync (.inr htemp))

theorem complete_publishes (recordCount : Nat) (h : Unpublished directory s) :
    Publishes codec directory (EventState.complete directory recordCount) s
      (Withheld directory) := by
  have hremove : ∀ marker : EventState.Marker, marker ≠ .complete →
      Late directory (.remove (marker.path directory)) := by
    refine fun marker hne => .inl ⟨?_, fun heq => ?_⟩
    · cases marker <;> exact EventState.removeMarker_mem _ (by decide)
    · exact hne (@EventState.Marker.path_inj .complete _ _ _ heq).1.symm
  refine .bind (writeComplete_publishes _ h) fun written s₁ hwithheld => ?_
  cases written with
  | false => exact withheld_pure hwithheld
  | true =>
      exact .late (hremove .pending nofun) fun _ _ =>
        .late (hremove .failed nofun) fun _ _ =>
          .late late_syncDirectory fun _ _ => withheld_pure nofun

theorem completeOrFail_publishes (recordCount : Nat) (reason : Text)
    (h : Unpublished directory s) :
    Publishes codec directory (EventState.completeOrFail directory recordCount reason)
      s fun _ _ => True := by
  refine .bind (complete_publishes _ h) fun completed s₁ hwithheld => ?_
  cases completed with
  | true => exact .pure fun _ _ => trivial
  | false =>
      exact .bind (.of_leaves (fail_leaves _ _) (hwithheld rfl)) fun _ _ _ =>
        .pure fun _ _ => trivial

theorem concludeChecked_publishes (progress : EventProgress) (checksums : Bool)
    (h : Unpublished directory s) :
    Publishes codec directory (concludeChecked directory progress checksums) s
      fun _ _ => True := by
  unfold concludeChecked
  split
  · exact .bind (.of_leaves (fail_leaves _ _) h) fun _ _ _ => .pure fun _ _ => trivial
  · exact .bind (completeOrFail_publishes _ _ h) fun _ _ _ => .pure fun _ _ => trivial

variable (worker : Worker)

theorem conclude_publishes (progress : EventProgress) (h : Unpublished directory s) :
    Publishes codec directory (conclude worker directory progress) s
      fun _ _ => True := by
  unfold conclude
  split
  · exact concludeChecked_publishes _ _ h
  · refine .bind (Publishes.of_does h (not_checksums_child (by decide) (by decide))
      (writeChecksumManifest_does worker.sha256)) fun checksums s₁ h₁ => ?_
    exact concludeChecked_publishes _ _ h₁

theorem processJob_publishes {table : EventTable} {job : Job}
    (h : Unpublished job.directory s) :
    Publishes codec job.directory (processJob worker table job) s fun _ _ => True := by
  refine .bind (Publishes.of_does h (not_jobPath_complete job.directory job.records)
    (writeGuarded_touches worker job)) fun outcome s₁ h₁ => ?_
  dsimp only [finishJob]
  split
  · exact .pure fun _ _ => trivial
  · refine .bind (conclude_publishes worker _ h₁) fun conclusion s₂ _ => ?_
    exact .bind (.of_late (Prog.uses_mono (fun _ => .inr) (sweepAfterEvent_uses worker)))
      fun _ _ _ => .pure fun _ _ => trivial

end Rounds

/-! ## Published events -/

/-- What may still change of an event that is published. -/
def Loose (directory : Text) (path : Path) : Prop :=
  MarkerPath directory path ∧ path ≠ completePath directory

theorem Late.confined {directory : Text} {op : FsOp} (h : Late directory op) :
    Confined directory (Loose directory) op := by
  rcases h with ⟨hmarker, hspared⟩ | hsweeping
  · refine (markerOp_confined hmarker).imp_right fun ⟨hspares, htouched⟩ =>
      ⟨hspares, fun path howned htouches => ⟨htouched path howned htouches, ?_⟩⟩
    rintro rfl
    exact hspared htouches
  · exact (hsweeping.confined directory).imp_right fun ⟨hspares, htouched⟩ =>
      ⟨hspares, fun path howned htouches =>
        (htouched path howned htouches).elim⟩

end DataCache.Storage
