import DataCache.EventState.Marks

/-!
# Every accepted capture ends with a verdict

What holds of the markers after every single operation, and the rules that run
the marker programs over the view.
-/

namespace DataCache.EventState

open DataCache.Foundation DataCache.Storage

/-! ## The markers between any two operations -/

structure Marks.Ok (m : Marks) : Prop where
  verdict : m.published = m.present .complete
  exclusive : m.present .complete = true → m.present .failed = false
  marked : m.begun = true → ∃ marker, m.present marker = true
  unmarked : m.begun = false → ∀ marker, m.present marker = false
  directory : m.begun = true → m.directory = true

def Marks.install (m : Marks) (marker : Marker) : Marks where
  present other := decide (other = marker) || m.present other
  directory := true
  begun := m.begun || decide (marker = .pending)
  published := m.published || decide (marker = .complete)
  clean := m.clean

def Marks.remove (m : Marks) (marker : Marker) : Marks where
  present other := m.present other && !decide (other = marker)
  directory := m.directory
  begun := m.begun
  published := m.published
  clean := m.clean

@[simp] theorem Marks.present_install (m : Marks) (marker other : Marker) :
    (m.install marker).present other =
      (decide (other = marker) || m.present other) := rfl

@[simp] theorem Marks.present_remove (m : Marks) (marker other : Marker) :
    (m.remove marker).present other =
      (m.present other && !decide (other = marker)) := rfl

/-- No marker changed; a temporary file may have failed. -/
structure Same (m m' : Marks) : Prop where
  present : m'.present = m.present
  directory : m.directory = true → m'.directory = true
  begun : m'.begun = m.begun
  published : m'.published = m.published
  clean : m'.clean = true → m.clean = true

theorem Same.refl (m : Marks) : Same m m := ⟨rfl, id, rfl, rfl, id⟩

theorem Same.trans {m m' m'' : Marks} (h : Same m m') (h' : Same m' m'') :
    Same m m'' :=
  ⟨h'.present.trans h.present, h'.directory ∘ h.directory,
    h'.begun.trans h.begun, h'.published.trans h.published,
    h.clean ∘ h'.clean⟩

theorem Same.ok {m m' : Marks} (h : Same m m') (hok : m.Ok) : m'.Ok where
  verdict := by rw [h.published, h.present, hok.verdict]
  exclusive := by rw [h.present]; exact hok.exclusive
  marked := by rw [h.begun, h.present]; exact hok.marked
  unmarked := by rw [h.begun, h.present]; exact hok.unmarked
  directory := by
    rw [h.begun]
    exact fun hbegun => h.directory (hok.directory hbegun)

theorem Same.remove {m m' : Marks} (h : Same m m') (marker : Marker) :
    Same (m.remove marker) (m'.remove marker) :=
  ⟨by simp only [Marks.remove, h.present], h.directory, h.begun, h.published,
    h.clean⟩

/-! ## Operations over the view -/

theorem Next.same {directory : Text} {m m' : Marks} {op : FsOp} {r : op.Res}
    (h : Next directory m op r m')
    (hinstalls : ∀ marker, installs directory marker op = false)
    (hremoves : ∀ marker, removes directory marker op = false) : Same m m' where
  present := by
    funext marker
    rw [h.present, hinstalls, hremoves, Bool.not_false, Bool.and_true,
      Bool.or_false]
  directory := h.kept
  begun := by rw [h.begun, hinstalls, Bool.or_false]
  published := by rw [h.published, hinstalls, Bool.or_false]
  clean hclean := by
    rw [h.clean, Bool.and_eq_true] at hclean
    exact hclean.1

theorem Next.install {directory : Text} {m m' : Marks} {marker : Marker}
    {source : Path} {r : Bool}
    (h : Next directory m (.rename source (marker.path directory)) r m') :
    Same (m.install marker) m' ∧ r = true := by
  have hinstalls : ∀ other, installs directory other
      (.rename source (marker.path directory)) = decide (other = marker) := by
    intro other
    by_cases heq : other = marker
    · subst heq
      simp [installs]
    · simp only [installs, decide_eq_false heq, decide_eq_false_iff_not]
      exact fun hpath => heq (Marker.path_inj hpath).1.symm
  refine ⟨⟨?_, fun _ => h.kept (h.parent marker ?_), ?_, ?_, fun hclean => ?_⟩,
    h.answers⟩
  · funext other
    rw [h.present, hinstalls, Bool.or_comm]
    simp [Marks.install, removes]
  · rw [hinstalls, decide_eq_true rfl]
  · rw [h.begun, hinstalls]
    simp [Marks.install, eq_comm]
  · rw [h.published, hinstalls]
    simp [Marks.install, eq_comm]
  · rw [h.clean, Bool.and_eq_true] at hclean
    exact hclean.1

theorem Next.remove {directory : Text} {m m' : Marks} {marker : Marker} {r : Bool}
    (h : Next directory m (.remove (marker.path directory)) r m') :
    Same (m.remove marker) m' := by
  have hremoves : ∀ other, removes directory other
      (.remove (marker.path directory)) = decide (other = marker) := by
    intro other
    by_cases heq : other = marker
    · subst heq
      simp [removes]
    · simp only [removes, decide_eq_false heq, decide_eq_false_iff_not]
      exact fun hpath => heq (Marker.path_inj hpath).1.symm
  refine ⟨?_, h.kept, ?_, ?_, fun hclean => ?_⟩
  · funext other
    rw [h.present, hremoves]
    simp [Marks.remove, installs]
  · rw [h.begun]
    simp [Marks.remove, installs]
  · rw [h.published]
    simp [Marks.remove, installs]
  · rw [h.clean, Bool.and_eq_true] at hclean
    exact hclean.1

/-! ## Running marker programs -/

/-- Every execution from these markers keeps them `Ok` and returns with `post`. -/
def Runs {α : Type} (codec : Codec) (directory : Text) (p : Action α) (m : Marks)
    (post : α → Marks → Prop) : Prop :=
  ∀ s, view directory s = m →
    Prog.wp (TrackedEffect codec directory) (fun s => (view directory s).Ok)
      (fun value s => post value (view directory s)) (fun _ _ => True) p s

section Rules

variable {α β : Type} {codec : Codec} {directory : Text} {m : Marks}
  {post : α → Marks → Prop}

theorem Runs.pure {value : α} (h : post value m) :
    Runs codec directory (Pure.pure value) m post := by
  rintro s rfl
  exact h

theorem Runs.perform {op : FsOp} {next : op.Res → Action α}
    (hplaced : Placed directory op)
    (h : ∀ r m', Next directory m op r m' →
      m'.Ok ∧ Runs codec directory (next r) m' post) :
    Runs codec directory (Storage.perform op >>= next) m post := by
  rintro s rfl r s' heffect
  obtain ⟨hok, hruns⟩ := h r _ (heffect.next hplaced)
  exact ⟨hok, hruns s' rfl⟩

theorem Runs.bind {p : Action β} {next : β → Action α}
    (h : Runs codec directory p m fun value m' =>
      Runs codec directory (next value) m' post) :
    Runs codec directory (p >>= next) m post := by
  rintro s rfl
  refine Prog.wp_bind (Prog.wp_mono (fun _ => id) ?_ (fun _ _ => id) (h s rfl))
  exact fun value s' hpost => hpost s' rfl

theorem Runs.mono {p : Action α} {post' : α → Marks → Prop}
    (h : Runs codec directory p m post)
    (hpost : ∀ value m', post value m' → post' value m') :
    Runs codec directory p m post' := by
  rintro s rfl
  exact Prog.wp_mono (fun _ => id) (fun value s' => hpost value _)
    (fun _ _ => id) (h s rfl)

/-- An operation that neither installs nor removes a marker. -/
theorem Runs.quiet {op : FsOp} {next : op.Res → Action α} (hok : m.Ok)
    (hplaced : Placed directory op)
    (hinstalls : ∀ marker, installs directory marker op = false)
    (hremoves : ∀ marker, removes directory marker op = false)
    (h : ∀ r m', Same m m' → (m'.clean = true → wroteTemp op r = true) →
      Answers directory m op r → Runs codec directory (next r) m' post) :
    Runs codec directory (Storage.perform op >>= next) m post := by
  refine Runs.perform hplaced fun r m' hnext => ?_
  have hsame := hnext.same hinstalls hremoves
  refine ⟨hsame.ok hok, h r m' hsame (fun hclean => ?_) hnext.answers⟩
  rw [hnext.clean, Bool.and_eq_true] at hclean
  exact hclean.2

theorem Runs.remove {marker : Marker} {next : Bool → Action α}
    (hok : (m.remove marker).Ok)
    (h : ∀ r m', Same (m.remove marker) m' →
      Runs codec directory (next r) m' post) :
    Runs codec directory (Storage.perform (.remove (marker.path directory)) >>=
      next) m post := by
  refine Runs.perform (path_length marker directory) fun r m' hnext => ?_
  have hsame := hnext.remove
  exact ⟨hsame.ok hok, h r m' hsame⟩

end Rules

/-! ## The operations of one marker -/

section Marker

variable {codec : Codec} {directory : Text} {m : Marks}

theorem placed_tempPath (marker : Marker) (directory : Text) :
    (tempPath (marker.path directory)).length = 2 ∧
      ∀ other : Marker, tempPath (marker.path directory) ≠ other.path directory :=
  ⟨rfl, fun other => tempPath_ne_path marker other directory directory⟩

theorem removes_tempPath (marker other : Marker) (directory : Text) :
    removes directory other (.remove (tempPath (marker.path directory))) =
      false :=
  decide_eq_false (tempPath_ne_path marker other directory directory)

theorem replaceTarget_runs {marker : Marker} {post : Bool → Marks → Prop}
    (hok : (m.install marker).Ok)
    (h : ∀ m', Same (m.install marker) m' → post true m') :
    Runs codec directory (replaceTarget (marker.path directory)) m post := by
  have hplaced : Placed directory (.rename (tempPath (marker.path directory))
      (marker.path directory)) :=
    ⟨rfl, rfl, (placed_tempPath marker directory).2⟩
  refine Runs.perform hplaced fun r m' hnext => ?_
  obtain ⟨hsame, rfl⟩ := hnext.install
  refine ⟨hsame.ok hok, ?_⟩
  refine Runs.quiet (hsame.ok hok) trivial (fun _ => rfl) (fun _ => rfl)
    fun _ m'' hsame' _ _ => Runs.pure (h m'' (hsame.trans hsame'))

theorem writeAtomically_runs {marker : Marker} {content : Bytes}
    {post : Bool → Marks → Prop} (hok : m.Ok) (hinstall : (m.install marker).Ok)
    (hfalse : ∀ m', Same m m' → m'.clean = false → post false m')
    (htrue : ∀ m', Same (m.install marker) m' → post true m') :
    Runs codec directory (writeAtomically (marker.path directory) content) m
      post := by
  have hclean : ∀ {m' : Marks} {b : Bool}, b = false →
      (m'.clean = true → b = true) → m'.clean = false := by
    intro m' b hb himp
    cases hm : m'.clean with
    | false => rfl
    | true => rw [himp hm] at hb; cases hb
  have hinstall' : ∀ {m' : Marks}, Same m m' →
      (m'.install marker).Ok ∧ Same (m.install marker) (m'.install marker) := by
    intro m' hsame
    have hsame' : Same (m.install marker) (m'.install marker) :=
      ⟨by simp only [Marks.install, hsame.present], fun _ => rfl,
        by simp only [Marks.install, hsame.begun],
        by simp only [Marks.install, hsame.published], hsame.clean⟩
    exact ⟨hsame'.ok hinstall, hsame'⟩
  refine Runs.quiet hok (show _ ≤ 1 by simp [Marker.path, markerPath])
    (fun _ => rfl) (fun _ => rfl) ?_
  rintro (_ | _) m₁ hsame₁ hclean₁ -
  · exact Runs.pure (hfalse m₁ hsame₁ (hclean rfl hclean₁))
  refine Runs.quiet (hsame₁.ok hok) (placed_tempPath marker directory)
    (fun _ => rfl) (fun _ => rfl) ?_
  rintro (_ | _) m₂ hsame₂ hclean₂ -
  · exact Runs.pure (hfalse m₂ (hsame₁.trans hsame₂) (hclean rfl hclean₂))
  have hsame₁₂ := hsame₁.trans hsame₂
  refine Runs.quiet (hsame₁₂.ok hok) (placed_tempPath marker directory)
    (fun _ => rfl) (fun _ => rfl) ?_
  rintro (_ | _) m₃ hsame₃ hclean₃ -
  · refine Runs.quiet ((hsame₁₂.trans hsame₃).ok hok)
      (placed_tempPath marker directory).1 (fun _ => rfl)
      (fun other => removes_tempPath marker other directory) ?_
    intro _ m₄ hsame₄ _ _
    refine Runs.pure (hfalse m₄ ((hsame₁₂.trans hsame₃).trans hsame₄) ?_)
    cases hm : m₄.clean with
    | false => rfl
    | true => exact (hclean₃ (hsame₄.clean hm)).symm
  have hsame₁₃ := hsame₁₂.trans hsame₃
  refine Runs.quiet (hsame₁₃.ok hok) (placed_tempPath marker directory)
    (fun _ => rfl) (fun _ => rfl) ?_
  intro _ m₄ hsame₄ _ _
  obtain ⟨hok₄, hsame⟩ := hinstall' (hsame₁₃.trans hsame₄)
  exact replaceTarget_runs hok₄ fun m' hsame' => htrue m' (hsame.trans hsame')

theorem Marks.Ok.install (h : m.Ok) {marker : Marker}
    (hbegun : marker = .pending ∨ m.begun = true)
    (hcomplete : marker = .complete → m.present .failed = false)
    (hfailed : marker = .failed → m.present .complete = false) :
    (m.install marker).Ok where
  verdict := by
    cases marker <;> simp [Marks.install, h.verdict]
  exclusive := by
    cases marker <;> simp
    · exact h.exclusive
    · exact hcomplete rfl
    · exact hfailed rfl
  marked _ := ⟨marker, by simp⟩
  unmarked hbegun' := by
    rcases hbegun with rfl | hbegun
    · simp [Marks.install] at hbegun'
    · simp [Marks.install, hbegun] at hbegun'
  directory _ := rfl

theorem Marks.Ok.remove (h : m.Ok) {marker other : Marker}
    (hcomplete : marker = .complete → m.present .complete = false)
    (hother : m.present other = true) (hne : other ≠ marker) :
    (m.remove marker).Ok where
  verdict := by
    have hkept : (m.remove marker).present .complete = m.present .complete := by
      by_cases hmarker : marker = .complete
      · simp [hcomplete hmarker]
      · simp [Ne.symm hmarker]
    rw [hkept, ← h.verdict]
    rfl
  exclusive hpresent := by
    simp only [Marks.present_remove, Bool.and_eq_true] at hpresent ⊢
    rw [h.exclusive hpresent.1, Bool.false_and]
  marked _ := ⟨other, by simp [hother, hne]⟩
  unmarked hbegun marker' := by
    simp [h.unmarked hbegun marker']
  directory := h.directory

/-! ## The marker programs -/

theorem begin_runs {eventName : Text} {acceptedAtNs : Int} (hok : m.Ok) :
    Runs codec directory (begin directory eventName acceptedAtNs) m
      fun accepted m' => accepted = true → Same (m.install .pending) m' :=
  writeAtomically_runs hok (hok.install (.inl rfl) nofun nofun)
    (fun _ _ _ => nofun) (fun _ hsame _ => hsame)

/-- `fail` clears `.pending`, or a temporary file could not be written. -/
theorem fail_runs {reason : Text} {post : Bool → Marks → Prop} (hok : m.Ok)
    (hbegun : m.begun = true) (hcomplete : m.present .complete = false)
    (hfalse : ∀ m', m'.Ok → m'.clean = false → post false m')
    (htrue : ∀ m', m'.Ok → m'.present .pending = false → post true m') :
    Runs codec directory (fail directory reason) m post := by
  refine Runs.quiet hok trivial (fun _ => rfl) (fun _ => rfl)
    fun now m₁ hsame₁ _ _ => ?_
  have hok₁ := hsame₁.ok hok
  have hcomplete₁ : m₁.present .complete = false := by
    rw [hsame₁.present, hcomplete]
  have hinstall : (m₁.install .failed).Ok :=
    hok₁.install (.inr (hsame₁.begun.trans hbegun)) nofun fun _ => hcomplete₁
  refine Runs.bind (writeAtomically_runs hok₁ hinstall ?_ ?_)
  · exact fun m' hsame hclean => Runs.pure (hfalse m' (hsame.ok hok₁) hclean)
  intro m₂ hsame₂
  have hfailed₂ : m₂.present .failed = true := by
    simp [hsame₂.present]
  have hpending : (m₂.remove .pending).Ok :=
    (hsame₂.ok hinstall).remove nofun hfailed₂ nofun
  refine Runs.remove hpending fun _ m₃ hsame₃ => ?_
  have hcomplete₃ : m₃.present .complete = false := by
    simp [hsame₃.present, hsame₂.present, hcomplete₁]
  have hfailed₃ : m₃.present .failed = true := by
    simp [hsame₃.present, hfailed₂]
  have hlast : (m₃.remove .complete).Ok :=
    (hsame₃.ok hpending).remove (fun _ => hcomplete₃) hfailed₃ nofun
  refine Runs.remove hlast fun _ m₄ hsame₄ =>
    Runs.pure (htrue m₄ (hsame₄.ok hlast) ?_)
  simp [hsame₄.present, hsame₃.present]

theorem complete_runs {recordCount : Nat} {post : Bool → Marks → Prop}
    (hok : m.Ok) (hbegun : m.begun = true) (hfailed : m.present .failed = false)
    (hfalse : ∀ m', Same m m' → post false m')
    (htrue : ∀ m', m'.Ok → post true m') :
    Runs codec directory (complete directory recordCount) m post := by
  have hinstall : (m.install .complete).Ok :=
    hok.install (.inr hbegun) (fun _ => hfailed) nofun
  refine Runs.bind (writeAtomically_runs hok hinstall ?_ ?_)
  · exact fun m' hsame _ => Runs.pure (hfalse m' hsame)
  intro m₁ hsame₁
  have hcomplete₁ : m₁.present .complete = true := by
    simp [hsame₁.present]
  have hpending : (m₁.remove .pending).Ok :=
    (hsame₁.ok hinstall).remove nofun hcomplete₁ nofun
  refine Runs.remove hpending fun _ m₂ hsame₂ => ?_
  have hcomplete₂ : m₂.present .complete = true := by
    simp [hsame₂.present, hcomplete₁]
  have hlast : (m₂.remove .failed).Ok :=
    (hsame₂.ok hpending).remove nofun hcomplete₂ nofun
  refine Runs.remove hlast fun _ m₃ hsame₃ => ?_
  exact Runs.quiet (hsame₃.ok hlast) trivial (fun _ => rfl) (fun _ => rfl)
    fun _ m₄ hsame₄ _ _ =>
      Runs.pure (htrue m₄ (hsame₄.ok (hsame₃.ok hlast)))

theorem completeOrFail_runs {recordCount : Nat} {reason : Text} (hok : m.Ok)
    (hbegun : m.begun = true) (hcomplete : m.present .complete = false)
    (hfailed : m.present .failed = false) :
    Runs codec directory (completeOrFail directory recordCount reason) m
      fun _ m' => m'.Ok := by
  refine Runs.bind (complete_runs hok hbegun hfailed ?_ fun _ hok' =>
    Runs.pure hok')
  intro m' hsame
  exact Runs.bind (fail_runs (hsame.ok hok) (hsame.begun.trans hbegun)
    (by rw [hsame.present, hcomplete]) (fun _ h _ => Runs.pure h)
    (fun _ h _ => Runs.pure h))

/-! ## Recovery -/

/-- `.pending` is gone, or a temporary file could not be written. -/
def Marks.Cleared (m : Marks) : Prop :=
  m.clean = true → m.present .pending = false

theorem Same.cleared {m m' : Marks} (h : Same m m') (hcleared : m.Cleared) :
    m'.Cleared := fun hclean => by
  rw [h.present]
  exact hcleared (h.clean hclean)

theorem markerExists_runs {marker : Marker} {post : Bool → Marks → Prop}
    (hok : m.Ok) (h : ∀ m', Same m m' → post (m.present marker) m') :
    Runs codec directory (markerExists directory marker.name) m post := by
  refine Runs.quiet hok trivial (fun _ => rfl) (fun _ => rfl)
    fun r m' hsame _ hanswers => Runs.pure ?_
  rw [hanswers marker rfl, Option.getD_some]
  exact h m' hsame

theorem reconcileDirectory_runs {result : ReconcileResult} (hok : m.Ok) :
    Runs codec directory (reconcileDirectory directory result) m
      fun _ m' => m'.Ok ∧ m'.Cleared := by
  refine Runs.bind (@markerExists_runs _ _ _ .pending _ hok fun m₁ hsame₁ => ?_)
  have hok₁ := hsame₁.ok hok
  cases hpending : m.present .pending with
  | false =>
      refine Runs.pure ⟨hok₁, fun _ => ?_⟩
      rw [hsame₁.present, hpending]
  | true =>
      have hbegun : m.begun = true := by
        by_contra hbegun
        rw [Bool.not_eq_true] at hbegun
        rw [hok.unmarked hbegun .pending] at hpending
        cases hpending
      -- A verdict stands: only `.pending` is removed.
      have hremove : ∀ (marker : Marker) {m' : Marks}, marker ≠ .pending →
          m.present marker = true → Same m m' →
          Runs codec directory (do
            let _ ← perform (.remove (markerPath directory ".pending"))
            return { result with clearedPending := result.clearedPending + 1 })
            m' fun _ m' => m'.Ok ∧ m'.Cleared := by
        intro marker m' hne hpresent hsame
        have hok' : (m'.remove .pending).Ok :=
          (hsame.ok hok).remove nofun (hsame.present ▸ hpresent) hne
        refine Runs.remove hok' fun _ m'' hsame'' =>
          Runs.pure ⟨hsame''.ok hok', fun _ => ?_⟩
        simp [hsame''.present]
      refine Runs.bind (Runs.bind
        (@markerExists_runs _ _ _ .complete _ hok₁ fun m₂ hsame₂ => ?_))
      have hsame₁₂ := hsame₁.trans hsame₂
      rw [hsame₁.present]
      cases hcomplete : m.present .complete with
      | true => exact Runs.pure (hremove .complete nofun hcomplete hsame₁₂)
      | false =>
          refine @markerExists_runs _ _ _ .failed _ (hsame₁₂.ok hok)
            fun m₃ hsame₃ => ?_
          have hsame := hsame₁₂.trans hsame₃
          rw [hsame₁₂.present]
          cases hfailed : m.present .failed with
          | true => exact hremove .failed nofun hfailed hsame
          | false =>
              refine Runs.bind (fail_runs (hsame.ok hok)
                (hsame.begun.trans hbegun) (by rw [hsame.present, hcomplete])
                (fun m' hok' hclean => Runs.pure ⟨hok', fun h => ?_⟩)
                (fun m' hok' hgone => Runs.pure ⟨hok', fun _ => hgone⟩))
              rw [hclean] at h
              cases h

/-- Work on the markers of another directory. -/
theorem MarkerOp.quiet {other : Text} (hne : other ≠ directory) {op : FsOp}
    (h : MarkerOp other op) : Placed directory op ∧
      (∀ marker, installs directory marker op = false) ∧
      ∀ marker, removes directory marker op = false := by
  have hpath : ∀ {name : Text} (marker : Marker),
      markerPath other name ≠ marker.path directory := by
    intro name marker heq
    simp only [Marker.path, markerPath, List.cons.injEq] at heq
    exact hne heq.1
  have htemp : ∀ {name : Text} (marker : Marker),
      tempPath (markerPath other name) ≠ marker.path directory := by
    intro name marker heq
    simp only [Marker.path, markerPath, tempPath, List.dropLast_cons_cons,
      List.dropLast_singleton, List.cons_append, List.cons.injEq] at heq
    exact hne heq.1
  rcases h with rfl | rfl | ⟨name, -, rfl⟩ | ⟨name, -, rfl⟩ | ⟨name, -, hreplace⟩
  · exact ⟨trivial, fun _ => rfl, fun _ => rfl⟩
  · exact ⟨trivial, fun _ => rfl, fun _ => rfl⟩
  · exact ⟨trivial, fun _ => rfl, fun _ => rfl⟩
  · exact ⟨rfl, fun _ => rfl, fun marker => decide_eq_false (hpath marker)⟩
  · cases op with
    | createDirectories path =>
        obtain rfl : path = _ := hreplace
        exact ⟨show _ ≤ 1 by simp [markerPath], fun _ => rfl, fun _ => rfl⟩
    | openTrunc path =>
        obtain rfl : path = _ := hreplace
        exact ⟨⟨rfl, htemp⟩, fun _ => rfl, fun _ => rfl⟩
    | append path data =>
        obtain rfl : path = _ := hreplace
        exact ⟨⟨rfl, htemp⟩, fun _ => rfl, fun _ => rfl⟩
    | syncFile path =>
        obtain rfl : path = _ := hreplace
        exact ⟨⟨rfl, htemp⟩, fun _ => rfl, fun _ => rfl⟩
    | syncDirectory path => exact ⟨trivial, fun _ => rfl, fun _ => rfl⟩
    | rename source target =>
        obtain ⟨rfl, rfl⟩ := hreplace
        exact ⟨⟨rfl, rfl, htemp⟩, fun marker => decide_eq_false (hpath marker),
          fun _ => rfl⟩
    | remove path =>
        rcases hreplace with rfl | rfl
        · exact ⟨rfl, fun _ => rfl, fun marker => decide_eq_false (htemp marker)⟩
        · exact ⟨rfl, fun _ => rfl, fun marker => decide_eq_false (hpath marker)⟩
    | _ => exact absurd hreplace id

theorem reconcileDirectory_other_runs {other : Text} (hne : other ≠ directory)
    {result : ReconcileResult} (hok : m.Ok) :
    Runs codec directory (reconcileDirectory other result) m
      fun _ m' => Same m m' := by
  rintro s rfl
  refine Prog.wp_mono (fun s' hsame => Same.ok hsame hok) (fun _ _ => id)
    (fun _ _ _ => trivial)
    (Prog.wp_of_uses (fun s' op r s'' hop hsame heffect => ?_)
      (reconcileDirectory_uses other result) (Same.refl _))
  obtain ⟨hplaced, hinstalls, hremoves⟩ := hop.quiet hne
  exact Same.trans hsame ((heffect.next hplaced).same hinstalls hremoves)

theorem reconcileDirectories_runs {directories : List Text}
    {result : ReconcileResult} (hok : m.Ok)
    (h : directory ∈ directories ∨ m.Cleared) :
    Runs codec directory (reconcileDirectories directories result) m
      fun _ m' => m'.Ok ∧ m'.Cleared := by
  induction directories generalizing m result with
  | nil => exact Runs.pure ⟨hok, h.resolve_left List.not_mem_nil⟩
  | cons head rest ih =>
      by_cases heq : head = directory
      · subst heq
        refine Runs.bind ((reconcileDirectory_runs hok).mono ?_)
        exact fun result' m' hm' => ih hm'.1 (.inr hm'.2)
      · refine Runs.bind ((reconcileDirectory_other_runs heq hok).mono ?_)
        intro result' m' hsame
        refine ih (hsame.ok hok) (h.imp (fun hmem => ?_) hsame.cleared)
        exact (List.mem_cons.mp hmem).resolve_left (Ne.symm heq)

/-- A recovery pass that runs to its end clears `.pending`. -/
theorem reconcile_runs (hok : m.Ok) :
    Runs codec directory reconcile m fun _ m' => m'.Ok ∧ m'.Cleared := by
  refine Runs.quiet hok trivial (fun _ => rfl) (fun _ => rfl)
    fun listing m' hsame _ hanswers => ?_
  refine reconcileDirectories_runs (hsame.ok hok) ?_
  cases hbegun : m.begun with
  | true => exact .inl (hanswers (hok.directory hbegun))
  | false =>
      refine .inr fun _ => ?_
      rw [hsame.present, hok.unmarked hbegun .pending]

end Marker

end DataCache.EventState
