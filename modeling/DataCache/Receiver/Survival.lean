import DataCache.Receiver.Steps

/-!
# The published copy survives

Between any two calls of a publication or of a recovery, an event that was
published has a complete copy under its own name, or nothing there and a
complete copy under the backup name; when they are over, the former.
-/

namespace DataCache.Receiver

open DataCache.Foundation

theorem Shelf.get?_move (s : Shelf) (source target : Text) (tree : Tree)
    (name : Text) :
    (s.move source target tree).inbox.get? name =
      if target = name then some tree
      else if source = name then none else s.inbox.get? name := by
  rw [Shelf.move, Dict.get?_set, Dict.get?_erase]

theorem finalDir_ne_backupName {event : Text}
    (h : validateEventName event = some event) (other : Text) :
    backupName other ≠ event :=
  backupName_ne_of_matchesEventName (validateEventName_eq_some h).2.2 other

theorem stagingDir_ne {event : Text}
    (h : validateEventName event = some event) (state : TransferState) :
    state.stagingDir ≠ event :=
  stagingName_ne_of_matchesEventName (validateEventName_eq_some h).2.2 _ _

/-! ## Copies -/

section Copies

variable (passed : List (TransferState × Tree))

/-- The tree was staged by an END of the event that passed all checks. -/
def Copy (event : Text) (tree : Tree) : Prop :=
  ∃ state, (state, tree) ∈ passed ∧ state.event = event

def Held (s : Shelf) (event : Text) : Prop :=
  ∃ tree, s.inbox.get? event = some tree ∧ Copy passed event tree

def InBackup (s : Shelf) (event : Text) : Prop :=
  s.inbox.get? event = none ∧
    ∃ tree, s.inbox.get? (backupName event) = some tree ∧ Copy passed event tree

def Safe (s : Shelf) (event : Text) : Prop :=
  Held passed s event ∨ InBackup passed s event

/-- Every published event has a proper name and satisfies the predicate. -/
def Published.All (P : Shelf → Text → Prop) (s : Shelf) : Prop :=
  ∀ event ∈ s.published, validateEventName event = some event ∧ P s event

end Copies

variable {passed : List (TransferState × Tree)} {s s' : Shelf}

theorem Held.congr {event : Text} (h : Held passed s event)
    (hsame : s'.inbox.get? event = s.inbox.get? event) : Held passed s' event := by
  obtain ⟨tree, htree, hcopy⟩ := h
  exact ⟨tree, hsame.trans htree, hcopy⟩

theorem all_safe_of_held (h : Published.All (Held passed) s) :
    Published.All (Safe passed) s :=
  fun event hevent => ⟨(h event hevent).1, .inl (h event hevent).2⟩

theorem removeTree_cases {name : Text} {r : Unit}
    (h : InboxEffect s (.removeTree name) r s') :
    s'.published = s.published ∧ ∀ other, name ≠ other →
      s'.inbox.get? other = s.inbox.get? other := by
  rcases h with rfl | ⟨tree, rest, -, -, rfl⟩
  · exact ⟨rfl, fun other hne => Dict.get?_erase_ne _ hne⟩
  · exact ⟨rfl, fun other hne => Dict.get?_set_ne _ _ hne⟩

/-- Removing a backup leaves the copies under the events' own names. -/
theorem all_held_removeTree {event : Text} {r : Unit}
    (h : InboxEffect s (.removeTree (backupName event)) r s')
    (hheld : Published.All (Held passed) s) : Published.All (Held passed) s' := by
  obtain ⟨hpublished, hsame⟩ := removeTree_cases h
  intro other hother
  rw [hpublished] at hother
  obtain ⟨hvalid, hheld⟩ := hheld other hother
  exact ⟨hvalid, hheld.congr (hsame _ (finalDir_ne_backupName hvalid _))⟩

/-! ## Programs -/

/-- No call leaves an event without a copy, wherever the program is cut off. -/
def Survives {α : Type} (passed : List (TransferState × Tree)) (p : Steps α)
    (s : Shelf) (post fail : Shelf → Prop) : Prop :=
  Prog.wp InboxEffect (Published.All (Safe passed)) (fun _ s => post s)
    (fun _ s => fail s) p s

section Rules

variable {α β : Type} {post fail : Shelf → Prop}

theorem Survives.bind {p : Steps α} {next : α → Steps β}
    (h : Prog.wp InboxEffect (Published.All (Safe passed))
      (fun value s => Survives passed (next value) s post fail)
      (fun _ s => fail s) p s) :
    Survives passed (p.bind next) s post fail := Prog.wp_bind h

theorem Survives.syncDirectory {name : Option Text}
    {next : Unit → Steps α} (hsafe : Published.All (Safe passed) s)
    (hfail : fail s) (h : Survives passed (next ()) s post fail) :
    Survives passed ((orRaise (perform (.syncDirectory name))).bind next) s post
      fail := by
  rintro synced _ rfl
  refine ⟨hsafe, ?_⟩
  cases synced with
  | true => exact h
  | false => exact hfail

theorem Survives.exists {name : Text} {next : Bool → Steps α}
    (hsafe : Published.All (Safe passed) s)
    (h : Survives passed (next (s.inbox.get? name).isSome) s post fail) :
    Survives passed ((perform (.exists name)).bind next) s post fail := by
  rintro found _ ⟨rfl, rfl⟩
  exact ⟨hsafe, h⟩

theorem Survives.removeBackup {event : Text} {next : Unit → Steps α}
    (hheld : Published.All (Held passed) s)
    (h : ∀ s', Published.All (Held passed) s' →
      (∀ other, backupName event ≠ other →
        s'.inbox.get? other = s.inbox.get? other) →
      Survives passed (next ()) s' post fail) :
    Survives passed ((perform (.removeTree (backupName event))).bind next) s post
      fail := by
  intro r s' heffect
  have hheld' := all_held_removeTree heffect hheld
  exact ⟨all_safe_of_held hheld', h s' hheld' (removeTree_cases heffect).2⟩

end Rules

/-! ## The publication -/

section Publication

variable {state : TransferState} {tree : Tree}

/-- Everything is held, and the staged tree is a copy. -/
structure Ready (passed : List (TransferState × Tree)) (state : TransferState)
    (tree : Tree) (s : Shelf) : Prop where
  held : Published.All (Held passed) s
  staged : s.inbox.get? state.stagingDir = some tree

/-- The final name is free, and the last copy, if any, is in the backup. -/
structure MovedAside (passed : List (TransferState × Tree))
    (state : TransferState) (tree : Tree) (s : Shelf) : Prop where
  safe : Published.All (Safe passed) s
  others : ∀ event ∈ s.published, event ≠ state.event → Held passed s event
  vacant : s.inbox.get? state.finalDir = none
  staged : s.inbox.get? state.stagingDir = some tree

theorem MovedAside.inBackup (h : MovedAside passed state tree s)
    (hpublished : state.event ∈ s.published) :
    InBackup passed s state.event := by
  rcases (h.safe state.event hpublished).2 with ⟨found, hfound, -⟩ | hbackup
  · exact absurd (hfound.symm.trans h.vacant) nofun
  · exact hbackup

theorem Ready.movedAside_of_vacant (h : Ready passed state tree s)
    (hvacant : s.inbox.get? state.finalDir = none) :
    MovedAside passed state tree s :=
  ⟨all_safe_of_held h.held, fun event hevent _ => (h.held event hevent).2,
    hvacant, h.staged⟩

/-- The previous copy becomes the backup. -/
theorem Ready.move (h : Ready passed state tree s)
    (hvalid : validateEventName state.event = some state.event) {previous : Tree}
    (hprevious : s.inbox.get? state.finalDir = some previous) :
    MovedAside passed state tree
      (s.move state.finalDir (backupName state.event) previous) := by
  have hpublished : (s.move state.finalDir (backupName state.event)
      previous).published = s.published := by
    have hnot := not_isStaging_of_matchesEventName
      (validateEventName_eq_some hvalid).2.2
    simp only [Shelf.move, TransferState.finalDir, hnot, Bool.false_eq_true,
      if_false]
  have hothers : ∀ event ∈ s.published, event ≠ state.event →
      Held passed (s.move state.finalDir (backupName state.event) previous)
        event := by
    intro event hevent hne
    obtain ⟨hvalid', hheld⟩ := h.held event hevent
    refine hheld.congr ?_
    have hfinal : state.finalDir ≠ event := Ne.symm hne
    rw [Shelf.get?_move, if_neg (finalDir_ne_backupName hvalid' _),
      if_neg hfinal]
  have hvacant : (s.move state.finalDir (backupName state.event)
      previous).inbox.get? state.finalDir = none := by
    have hbackup : backupName state.event ≠ state.finalDir :=
      finalDir_ne_backupName hvalid _
    rw [Shelf.get?_move, if_neg hbackup, if_pos rfl]
  refine ⟨fun event hevent => ?_, ?_, hvacant, ?_⟩
  · rw [hpublished] at hevent
    obtain ⟨hvalid', hheld⟩ := h.held event hevent
    refine ⟨hvalid', ?_⟩
    by_cases hne : event = state.event
    · subst hne
      obtain ⟨found, hfound, hcopy⟩ := hheld
      refine .inr ⟨hvacant, previous, ?_, ?_⟩
      · rw [Shelf.get?_move, if_pos rfl]
      · exact Option.some.inj (hfound.symm.trans hprevious) ▸ hcopy
    · exact .inl (hothers event hevent hne)
  · rw [hpublished]
    exact hothers
  · have hbackup : backupName state.event ≠ state.stagingDir :=
      Ne.symm (stagingName_ne_backupName _ _ _)
    have hfinal : state.finalDir ≠ state.stagingDir :=
      Ne.symm (stagingDir_ne hvalid state)
    rw [Shelf.get?_move, if_neg hbackup, if_neg hfinal]
    exact h.staged

theorem moveAside_survives {next : Unit → Steps Unit} {post : Shelf → Prop}
    (h : Ready passed state tree s)
    (hvalid : validateEventName state.event = some state.event)
    (hnext : ∀ s', MovedAside passed state tree s' →
      Survives passed (next ()) s' post (Published.All (Held passed))) :
    Survives passed ((moveAside state).bind next) s post
      (Published.All (Held passed)) := by
  have hsafe := all_safe_of_held h.held
  refine Survives.exists hsafe ?_
  cases hprevious : s.inbox.get? state.finalDir with
  | none => exact hnext s (h.movedAside_of_vacant hprevious)
  | some previous =>
      intro replaced s' heffect
      rcases heffect with ⟨rfl, found, hfound, -, rfl⟩ | ⟨rfl, rfl, -⟩
      · cases hfound.symm.trans hprevious
        have hmoved := h.move hvalid hprevious
        exact ⟨hmoved.safe, hnext _ hmoved⟩
      · exact ⟨hsafe, h.held⟩

/-- The staged tree takes the free name. -/
theorem MovedAside.place (h : MovedAside passed state tree s)
    (hvalid : validateEventName state.event = some state.event)
    (hcopy : (state, tree) ∈ passed) :
    Published.All (Held passed) (s.move state.stagingDir state.finalDir tree) := by
  have hpublished : (s.move state.stagingDir state.finalDir tree).published =
      s.published ++ [state.finalDir] := by
    have hstaging : isStaging state.stagingDir = true :=
      isStaging_stagingName state.event state.transferId
    simp only [Shelf.move, hstaging, if_true]
  have hown : Held passed (s.move state.stagingDir state.finalDir tree)
      state.event := by
    refine ⟨tree, ?_, state, hcopy, rfl⟩
    rw [Shelf.get?_move]
    exact if_pos rfl
  intro event hevent
  rw [hpublished] at hevent
  by_cases hne : event = state.event
  · subst hne
    exact ⟨hvalid, hown⟩
  · rcases List.mem_append.mp hevent with hold | hnew
    · have hvalid' := (h.safe event hold).1
      refine ⟨hvalid', (h.others event hold hne).congr ?_⟩
      have hfinal : state.finalDir ≠ event := Ne.symm hne
      rw [Shelf.get?_move, if_neg hfinal, if_neg (stagingDir_ne hvalid' state)]
    · exact absurd (List.mem_singleton.mp hnew) hne

/-- The backup goes back to the free name. -/
theorem MovedAside.restore (h : MovedAside passed state tree s) {backup : Tree}
    (hbackup : s.inbox.get? (backupName state.event) = some backup) :
    Published.All (Held passed)
      (s.move (backupName state.event) state.finalDir backup) := by
  have hpublished : (s.move (backupName state.event) state.finalDir
      backup).published = s.published := by
    simp only [Shelf.move, not_isStaging_backupName, Bool.false_eq_true, if_false]
  intro event hevent
  rw [hpublished] at hevent
  have hvalid' := (h.safe event hevent).1
  refine ⟨hvalid', ?_⟩
  by_cases hne : event = state.event
  · subst hne
    obtain ⟨-, found, hfound, hcopy⟩ := h.inBackup hevent
    refine ⟨backup, ?_, Option.some.inj (hfound.symm.trans hbackup) ▸ hcopy⟩
    rw [Shelf.get?_move]
    exact if_pos rfl
  · refine (h.others event hevent hne).congr ?_
    have hfinal : state.finalDir ≠ event := Ne.symm hne
    rw [Shelf.get?_move, if_neg hfinal,
      if_neg (finalDir_ne_backupName hvalid' _)]

/-- Without a backup nothing of this event was published. -/
theorem MovedAside.held_of_no_backup (h : MovedAside passed state tree s)
    (hnone : s.inbox.get? (backupName state.event) = none) :
    Published.All (Held passed) s := by
  intro event hevent
  refine ⟨(h.safe event hevent).1, h.others event hevent ?_⟩
  rintro rfl
  obtain ⟨-, found, hfound, -⟩ := h.inBackup hevent
  exact absurd (hfound.symm.trans hnone) nofun

theorem rollBack_survives {post : Shelf → Prop}
    (h : MovedAside passed state tree s) :
    Survives passed (rollBack state) s post (Published.All (Held passed)) := by
  refine Survives.exists h.safe ?_
  cases hbackup : s.inbox.get? (backupName state.event) with
  | none => exact h.held_of_no_backup hbackup
  | some backup =>
      refine Survives.exists h.safe ?_
      rw [h.vacant]
      intro replaced s' heffect
      rcases heffect with ⟨rfl, found, hfound, -, rfl⟩ | ⟨rfl, rfl, hnot⟩
      · cases hfound.symm.trans hbackup
        have hheld := h.restore hbackup
        exact ⟨all_safe_of_held hheld, hheld⟩
      · refine absurd ⟨rfl, ?_, h.vacant⟩ hnot
        rw [hbackup]
        nofun

/-- Once everything is moved aside, the rest of the publication survives. -/
theorem putInPlace_survives {next : Unit → Steps Unit} {post : Shelf → Prop}
    (h : MovedAside passed state tree s)
    (hvalid : validateEventName state.event = some state.event)
    (hcopy : (state, tree) ∈ passed)
    (hnext : ∀ s', Published.All (Held passed) s' →
      Survives passed (next ()) s' post (Published.All (Held passed))) :
    Survives passed ((putInPlace state).bind next) s post
      (Published.All (Held passed)) := by
  intro replaced s' heffect
  rcases heffect with ⟨rfl, found, hfound, -, rfl⟩ | ⟨rfl, rfl, -⟩
  · cases hfound.symm.trans h.staged
    have hheld := h.place hvalid hcopy
    exact ⟨all_safe_of_held hheld, hnext _ hheld⟩
  · refine ⟨h.safe, Prog.wp_bind (Prog.wp_mono (fun _ => id) ?_ (fun _ _ => id)
      (@rollBack_survives _ _ _ _ (fun _ => False) h))⟩
    exact fun _ _ => False.elim

theorem publishSteps_survives (h : Ready passed state tree s)
    (hvalid : validateEventName state.event = some state.event)
    (hcopy : (state, tree) ∈ passed) :
    Survives passed (publishSteps state) s (Published.All (Held passed))
      (Published.All (Held passed)) := by
  have hsafe := all_safe_of_held h.held
  refine .syncDirectory hsafe h.held (.removeBackup h.held fun s₁ hheld₁ hsame => ?_)
  have hstaged : s₁.inbox.get? state.stagingDir = some tree :=
    (hsame _ (Ne.symm (stagingName_ne_backupName _ _ _))).trans h.staged
  refine .syncDirectory (all_safe_of_held hheld₁) hheld₁
    (moveAside_survives ⟨hheld₁, hstaged⟩ hvalid fun s₂ hmoved => ?_)
  refine putInPlace_survives hmoved hvalid hcopy fun s₃ hheld₃ => ?_
  refine .removeBackup hheld₃ fun s₄ hheld₄ _ => ?_
  rintro synced _ rfl
  refine ⟨all_safe_of_held hheld₄, ?_⟩
  cases synced <;> exact hheld₄

end Publication

/-! ## The recovery -/

section Recovery

/-- Every copy that is not in place is in a backup that is still to come. -/
structure Recovering (passed : List (TransferState × Tree)) (names : List Text)
    (s : Shelf) : Prop where
  safe : Published.All (Safe passed) s
  listed : ∀ event ∈ s.published,
    Held passed s event ∨ backupName event ∈ names
  backups : ∀ name ∈ names, name = backupName (backupEvent name)

theorem Recovering.rest {name : Text} {names : List Text}
    (h : Recovering passed (name :: names) s)
    (hheld : ∀ event ∈ s.published, backupName event = name →
      Held passed s event) : Recovering passed names s := by
  refine ⟨h.safe, fun event hevent => ?_, fun other hother =>
    h.backups other (List.mem_cons_of_mem _ hother)⟩
  rcases h.listed event hevent with hdone | hlisted
  · exact .inl hdone
  · rcases List.mem_cons.mp hlisted with heq | hlater
    · exact .inl (hheld event hevent heq)
    · exact .inr hlater

theorem Recovering.removeTree {event : Text} {names : List Text} {r : Unit}
    (h : Recovering passed (backupName event :: names) s)
    (hthere : s.inbox.get? event ≠ none)
    (heffect : InboxEffect s (.removeTree (backupName event)) r s') :
    Recovering passed names s' := by
  obtain ⟨hpublished, hsame⟩ := removeTree_cases heffect
  have hheld : ∀ other ∈ s.published, backupName other = backupName event →
      Held passed s other := by
    intro other hother heq
    obtain rfl := backupName_injective heq
    exact (h.safe other hother).2.resolve_right fun hbackup =>
      hthere hbackup.1
  obtain ⟨hsafe, hlisted, hbackups⟩ := h.rest hheld
  have hkept : ∀ other ∈ s.published, Held passed s other →
      Held passed s' other := fun other hother hheld =>
    hheld.congr (hsame _ (finalDir_ne_backupName (hsafe other hother).1 _))
  refine ⟨fun other hother => ?_, fun other hother => ?_, hbackups⟩
  · rw [hpublished] at hother
    obtain ⟨hvalid, hheld' | ⟨hnone, tree, htree, hcopy⟩⟩ := hsafe other hother
    · exact ⟨hvalid, .inl (hkept other hother hheld')⟩
    · have hne : backupName event ≠ backupName other := fun heq => by
        obtain ⟨found, hfound, -⟩ := hheld other hother heq.symm
        exact absurd (hfound.symm.trans hnone) nofun
      refine ⟨hvalid, .inr ⟨?_, tree, (hsame _ hne).trans htree, hcopy⟩⟩
      exact (hsame _ (finalDir_ne_backupName hvalid _)).trans hnone
  · rw [hpublished] at hother
    exact (hlisted other hother).imp (hkept other hother) id

theorem Recovering.restore {event : Text} {names : List Text} {tree : Tree}
    (h : Recovering passed (backupName event :: names) s)
    (hevent : validateEventName event = some event)
    (hnone : s.inbox.get? event = none)
    (htree : s.inbox.get? (backupName event) = some tree) :
    Recovering passed names (s.move (backupName event) event tree) := by
  have hpublished : (s.move (backupName event) event tree).published =
      s.published := by
    simp only [Shelf.move, not_isStaging_backupName, Bool.false_eq_true, if_false]
  have hown : event ∈ s.published →
      Held passed (s.move (backupName event) event tree) event := by
    intro hmem
    rcases (h.safe event hmem).2 with ⟨found, hfound, -⟩ |
      ⟨-, found, hfound, hcopy⟩
    · exact absurd (hfound.symm.trans hnone) nofun
    · refine ⟨tree, ?_, Option.some.inj (hfound.symm.trans htree) ▸ hcopy⟩
      rw [Shelf.get?_move]
      exact if_pos rfl
  have hsame : ∀ other, other ≠ event → other ≠ backupName event →
      (s.move (backupName event) event tree).inbox.get? other =
        s.inbox.get? other := by
    intro other hne hbackup
    rw [Shelf.get?_move, if_neg (Ne.symm hne), if_neg (Ne.symm hbackup)]
  refine ⟨fun other hother => ?_, fun other hother => ?_, fun name hname =>
    h.backups name (List.mem_cons_of_mem _ hname)⟩
  · rw [hpublished] at hother
    obtain ⟨hvalid, hsafe⟩ := h.safe other hother
    refine ⟨hvalid, ?_⟩
    by_cases heq : other = event
    · subst heq
      exact .inl (hown hother)
    · have hfinal := hsame other heq (Ne.symm (finalDir_ne_backupName hvalid _))
      rcases hsafe with hheld | ⟨hvacant, found, hfound, hcopy⟩
      · exact .inl (hheld.congr hfinal)
      · refine .inr ⟨hfinal.trans hvacant, found, ?_, hcopy⟩
        refine (hsame _ (finalDir_ne_backupName hevent _) ?_).trans hfound
        exact fun heqs => heq (backupName_injective heqs)
  · rw [hpublished] at hother
    by_cases heq : other = event
    · subst heq
      exact .inl (hown hother)
    · rcases h.listed other hother with hheld | hlisted
      · refine .inl (hheld.congr (hsame other heq ?_))
        exact Ne.symm (finalDir_ne_backupName (h.safe other hother).1 _)
      · rcases List.mem_cons.mp hlisted with hbackup | hlater
        · exact absurd (backupName_injective hbackup) heq
        · exact .inr hlater

theorem recoverBackup_survives {name : Text} {names : List Text}
    {next : Unit → Steps Unit} {post fail : Shelf → Prop}
    (hfail : ∀ s, Published.All (Safe passed) s → fail s)
    (h : Recovering passed (name :: names) s)
    (hnext : ∀ s', Recovering passed names s' →
      Survives passed (next ()) s' post fail) :
    Survives passed ((recoverBackup name).bind next) s post fail := by
  have hname := h.backups name List.mem_cons_self
  unfold recoverBackup
  split
  next hinvalid =>
    refine hnext s (h.rest fun event hevent heq => ?_)
    rw [← heq, backupEvent_backupName, (h.safe event hevent).1] at hinvalid
    cases hinvalid
  next hsome =>
    obtain ⟨event, hevent⟩ := Option.ne_none_iff_exists'.mp fun hnone =>
      hsome (Option.isNone_iff_eq_none.mpr hnone)
    obtain rfl := (validateEventName_eq_some hevent).1
    rw [hname] at h
    refine Survives.exists h.safe ?_
    cases hfinal : s.inbox.get? (backupEvent name) with
    | some tree =>
        intro r s' heffect
        rw [hname] at heffect
        have hrest := h.removeTree (by rw [hfinal]; nofun) heffect
        exact ⟨hrest.safe, hnext s' hrest⟩
    | none =>
        intro replaced s' heffect
        rcases heffect with ⟨rfl, tree, htree, -, rfl⟩ | ⟨rfl, rfl, -⟩
        · rw [hname] at htree
          have hrest := h.restore hevent hfinal htree
          rw [← hname] at hrest
          exact ⟨hrest.safe, hnext _ hrest⟩
        · exact ⟨h.safe, hfail _ h.safe⟩

theorem recoverAll_survives {fail : Shelf → Prop}
    (hfail : ∀ s, Published.All (Safe passed) s → fail s) :
    ∀ {names : List Text} {s : Shelf}, Recovering passed names s →
      Survives passed (recoverAll names) s (Published.All (Held passed)) fail := by
  intro names
  induction names with
  | nil =>
      intro s h event hevent
      exact ⟨(h.safe event hevent).1,
        (h.listed event hevent).resolve_right nofun⟩
  | cons name names ih =>
      exact fun h => recoverBackup_survives hfail h fun s' hrest => ih hrest

theorem recoverBackups_survives (h : Published.All (Safe passed) s) :
    Survives passed recoverBackups s (Published.All (Held passed))
      (fun _ => True) := by
  rintro names _ ⟨rfl, hlists⟩
  refine ⟨h, recoverAll_survives (fun _ _ => trivial) ⟨h, ?_, fun name hname =>
    eq_backupName_of_isBackup ((hlists name).mp hname).2⟩⟩
  intro event hevent
  rcases (h event hevent).2 with hheld | ⟨-, tree, htree, -⟩
  · exact .inl hheld
  · refine .inr ((hlists _).mpr ⟨?_, isBackup_backupName event⟩)
    rw [htree]
    nofun

end Recovery

end DataCache.Receiver
