import Mathlib.Logic.Relation
import DataCache.Receiver.Published
import DataCache.Receiver.Survival

/-!
# A receiver that crashes

Requests are handled one at a time.  An END that passes all checks publishes
call by call; the process may crash between any two calls, and every restart
runs the recovery pass, which may be cut off as well.
-/

namespace DataCache.Receiver

open DataCache.Foundation

/-! ## Without faults -/

section Reliable

variable {state : TransferState} {s : Shelf}

theorem runWith_moveAside_of_vacant
    (hvacant : s.inbox.get? state.finalDir = none) :
    Prog.runWith Shelf.respond (moveAside state) s = (.ok (), s) := by
  change Prog.runWith Shelf.respond
    (if (s.inbox.get? state.finalDir).isSome then _ else .ret ()) s = _
  rw [hvacant]
  rfl

/-- A rename onto a free name succeeds. -/
theorem runWith_replace {source target : Text} {tree : Tree}
    (htree : s.inbox.get? source = some tree)
    (hvacant : s.inbox.get? target = none) :
    Prog.runWith Shelf.respond (perform (.replace source target)) s =
      (.ok true, s.move source target tree) := by
  change (Except.ok (s.respond (.replace source target)).1,
    (s.respond (.replace source target)).2) = _
  simp only [Shelf.respond, htree, hvacant, Option.all_none, if_true]

theorem runWith_moveAside {previous : Tree}
    (hprevious : s.inbox.get? state.finalDir = some previous)
    (hvacant : s.inbox.get? (backupName state.event) = none) :
    Prog.runWith Shelf.respond (moveAside state) s =
      (.ok (), s.move state.finalDir (backupName state.event) previous) := by
  change Prog.runWith Shelf.respond
    (if (s.inbox.get? state.finalDir).isSome then _ else .ret ()) s = _
  rw [hprevious]
  exact Prog.runWith_bind (runWith_replace hprevious hvacant)

theorem runWith_putInPlace {tree : Tree}
    (hstaged : s.inbox.get? state.stagingDir = some tree)
    (hvacant : s.inbox.get? state.finalDir = none) :
    Prog.runWith Shelf.respond (putInPlace state) s =
      (.ok (), s.move state.stagingDir state.finalDir tree) :=
  Prog.runWith_bind (runWith_replace hstaged hvacant)

/-- The calls of a publication come to what `publish` does at once. -/
theorem publishSteps_refines {node : Node} {tree : Tree}
    (hvalid : validateEventName state.event = some state.event)
    (hstaged : node.inbox.get? state.stagingDir = some tree)
    (published : List Text) :
    Prog.runWith Shelf.respond (publishSteps state) ⟨node.inbox, published⟩ =
      (.ok (), ⟨(publish node state tree).inbox,
        published ++ [state.finalDir]⟩) := by
  have hfinal : backupName state.event ≠ state.finalDir :=
    finalDir_ne_backupName hvalid _
  have hbackup : backupName state.event ≠ state.stagingDir :=
    Ne.symm (stagingName_ne_backupName _ _ _)
  have hdirs : state.finalDir ≠ state.stagingDir :=
    Ne.symm (stagingDir_ne hvalid state)
  have hstaging : isStaging state.stagingDir = true := isStaging_stagingName _ _
  have hown : isStaging state.finalDir = false :=
    not_isStaging_of_matchesEventName (validateEventName_eq_some hvalid).2.2
  let s₁ : Shelf := ⟨node.inbox.erase (backupName state.event), published⟩
  have hstaged₁ : s₁.inbox.get? state.stagingDir = some tree :=
    (Dict.get?_erase_ne _ hbackup).trans hstaged
  have hend : ∀ s₂ : Shelf,
      Prog.runWith Shelf.respond (moveAside state) s₁ = (.ok (), s₂) →
      s₂.inbox.get? state.stagingDir = some tree →
      s₂.inbox.get? state.finalDir = none →
      Prog.runWith Shelf.respond (publishSteps state) ⟨node.inbox, published⟩ =
        (.ok (), ⟨((s₂.inbox.erase state.stagingDir).set state.finalDir
          tree).erase (backupName state.event),
          s₂.published ++ [state.finalDir]⟩) := by
    intro s₂ hmove hstaged₂ hvacant
    refine (Prog.runWith_bind hmove).trans
      ((Prog.runWith_bind (runWith_putInPlace hstaged₂ hvacant)).trans ?_)
    simp only [Shelf.move, hstaging, if_true]
    rfl
  unfold publish
  cases hprevious : s₁.inbox.get? state.finalDir with
  | none =>
      rw [hend s₁ (runWith_moveAside_of_vacant hprevious) hstaged₁ hprevious]
      simp only [show (node.inbox.erase (backupName state.event)).get?
        state.finalDir = none from hprevious]
      rfl
  | some previous =>
      have hmove := runWith_moveAside hprevious (Dict.get?_erase_self _ _)
      rw [hend _ hmove]
      · simp only [show (node.inbox.erase (backupName state.event)).get?
          state.finalDir = some previous from hprevious, Shelf.move, hown,
          Bool.false_eq_true, if_false]
        rfl
      · rw [Shelf.get?_move, if_neg hbackup, if_neg hdirs]
        exact hstaged₁
      · rw [Shelf.get?_move, if_neg hfinal, if_pos rfl]

end Reliable

/-! ## Runs -/

inductive Phase where
  | serving
  | publishing (state : TransferState) (rest : Steps Unit)
  | recovering (rest : Steps Unit)

/-- `passed` are the transfers whose END passed all checks, with their trees. -/
structure Server where
  shelf : Shelf
  transfers : Dict (Text × Text) TransferState
  phase : Phase
  passed : List (TransferState × Tree)

def Server.node (s : Server) : Node := ⟨s.shelf.inbox, s.transfers⟩

/-- The process starts with whatever is in the inbox. -/
def Server.start (inbox : Dict Text Tree) : Server :=
  ⟨⟨inbox, []⟩, .empty, .recovering recoverBackups, []⟩

/-- An END that passes all checks, so that the publication begins. -/
structure EndPasses (runtime : Runtime) (clock : Clock) (node : Node)
    (request : Request) (state : TransferState) (tree : Tree) : Prop where
  opcode : request.opcode = opEnd
  eventName : (validateEventName request.eventName).isSome = true
  transferId : (validateEventName request.transferId).isSome = true
  active : ∃ idle, (pruneIdleTransfers clock.pruneAt node).transfers.get?
    (request.eventName, request.transferId) = some idle ∧
      state = touch idle clock.touchAt
  staged : (pruneIdleTransfers clock.pruneAt node).inbox.get?
    state.stagingDir = some tree
  passes : (finish runtime
    (putTransfer (pruneIdleTransfers clock.pruneAt node) state) state).1 =
      .answer true "transfer complete" (receivedTotal state)

/-- A crash may tear whatever was being staged. -/
def SameCopies (inbox inbox' : Dict Text Tree) : Prop :=
  ∀ name, isStaging name = false → inbox'.get? name = inbox.get? name

inductive Server.Step (runtime : Runtime) (s : Server) : Server → Prop
  | request (clock : Clock) (fault : WriteFault) (request : Request)
      (hphase : s.phase = .serving)
      (hrequest : ∀ state tree,
        ¬EndPasses runtime clock s.node request state tree) :
      Step runtime s
        { s with
          shelf := { s.shelf with
            inbox := (dispatch runtime clock fault s.node request).2.inbox }
          transfers := (dispatch runtime clock fault s.node request).2.transfers }
  | finish (clock : Clock) (request : Request) (state : TransferState)
      (tree : Tree) (hphase : s.phase = .serving)
      (hrequest : EndPasses runtime clock s.node request state tree) :
      Step runtime s
        { shelf := { s.shelf with
            inbox := (pruneIdleTransfers clock.pruneAt s.node).inbox }
          transfers := (putTransfer (pruneIdleTransfers clock.pruneAt s.node)
            state).transfers
          phase := .publishing state (publishSteps state)
          passed := s.passed ++ [(state, tree)] }
  | publishing {state : TransferState} {op : InboxOp}
      {next : op.Res → Steps Unit} {r : op.Res} {shelf : Shelf}
      (hphase : s.phase = .publishing state (.call op next))
      (heffect : InboxEffect s.shelf op r shelf) :
      Step runtime s { s with shelf := shelf, phase := .publishing state (next r) }
  | published {state : TransferState}
      (hphase : s.phase = .publishing state (.ret ())) :
      Step runtime s
        { s with transfers := s.transfers.erase state.key, phase := .serving }
  | raised {state : TransferState} {error : OSError}
      (hphase : s.phase = .publishing state (.raise error)) :
      Step runtime s { s with phase := .serving }
  | crash (inbox : Dict Text Tree) (hinbox : SameCopies s.shelf.inbox inbox) :
      Step runtime s
        { s with
          shelf := { s.shelf with inbox }
          transfers := .empty
          phase := .recovering recoverBackups }
  | recovering {op : InboxOp} {next : op.Res → Steps Unit} {r : op.Res}
      {shelf : Shelf} (hphase : s.phase = .recovering (.call op next))
      (heffect : InboxEffect s.shelf op r shelf) :
      Step runtime s { s with shelf := shelf, phase := .recovering (next r) }
  | recovered (hphase : s.phase = .recovering (.ret ())) :
      Step runtime s { s with phase := .serving }

abbrev Server.Reaches (runtime : Runtime) : Server → Server → Prop :=
  Relation.ReflTransGen (Server.Step runtime)

/-! ## Requests that publish nothing -/

/-- Every transfer is filed under its own names, and they are proper. -/
def Keyed (node : Node) : Prop :=
  ∀ key state, node.transfers.get? key = some state →
    state.key = key ∧ validateEventName state.event = some state.event

/-- The transfers are in order, and nothing but staging directories changed. -/
structure OnlyStaged (inbox : Dict Text Tree) (node : Node) : Prop where
  keyed : Keyed node
  same : SameCopies inbox node.inbox

theorem Keyed.set {node : Node} (h : Keyed node) {state : TransferState}
    (hvalid : validateEventName state.event = some state.event)
    (inbox : Dict Text Tree) :
    Keyed ⟨inbox, node.transfers.set state.key state⟩ := by
  intro key found hfound
  rw [Dict.get?_set] at hfound
  split at hfound
  next hkey =>
    cases hfound
    exact ⟨hkey, hvalid⟩
  · exact h key found hfound

theorem Keyed.erase {node : Node} (h : Keyed node) (gone : Text × Text)
    (inbox : Dict Text Tree) : Keyed ⟨inbox, node.transfers.erase gone⟩ := by
  intro key found hfound
  rw [Dict.get?_erase] at hfound
  split at hfound
  · cases hfound
  · exact h key found hfound

theorem stagingDir_ne_of_not_isStaging {state : TransferState} {name : Text}
    (h : isStaging name = false) : state.stagingDir ≠ name := by
  rintro rfl
  rw [TransferState.stagingDir, isStaging_stagingName] at h
  cases h

theorem OnlyStaged.prune {node : Node} (h : Keyed node) (now : Time) :
    OnlyStaged node.inbox (pruneIdleTransfers now node) := by
  refine @pruneIdleTransfers_preserves (OnlyStaged node.inbox) now ?_ node
    ⟨h, fun _ _ => rfl⟩
  intro pruned key state hpruned _ _
  refine ⟨hpruned.keyed.erase key _, fun name hname => ?_⟩
  rw [discard, Dict.get?_erase_ne _ (stagingDir_ne_of_not_isStaging hname)]
  exact hpruned.same name hname

theorem OnlyStaged.begin {inbox : Dict Text Tree} {node : Node}
    (h : OnlyStaged inbox node) {event transferId : Text}
    (hvalid : validateEventName event = some event) (files bytes : Nat)
    (now : Time) :
    OnlyStaged inbox (Receiver.begin node event transferId files bytes now).2 := by
  cases hbegin : Receiver.begin node event transferId files bytes now with
  | mk reply node' =>
      rcases begin_cases hbegin with ⟨rfl, -⟩ | ⟨-, rfl, -⟩
      · exact h
      · have hkeyed : Keyed (startTransfer node event transferId files bytes now) :=
          @Keyed.set node h.keyed
            ⟨event, transferId, files, bytes, .empty, .empty, now⟩ hvalid _
        refine ⟨hkeyed, fun name hname => ?_⟩
        have hne : stagingName event transferId ≠ name := by
          rintro rfl
          rw [isStaging_stagingName] at hname
          cases hname
        change ((node.inbox.erase _).set _ _).get? name = _
        rw [Dict.get?_set_ne _ _ hne, Dict.get?_erase_ne _ hne]
        exact h.same name hname

theorem OnlyStaged.chunk {inbox : Dict Text Tree} {node : Node}
    (h : OnlyStaged inbox node) {runtime : Runtime} {fault : WriteFault}
    {state : TransferState}
    (hvalid : validateEventName state.event = some state.event)
    (request : Request) :
    OnlyStaged inbox (handleChunk runtime fault node state request).2 := by
  obtain ⟨hevent, hkey⟩ := @storeChunk_key runtime fault state
    (node.inbox.get? state.stagingDir) request
  constructor
  · have hset := h.keyed.set (hevent ▸ hvalid) (setStaging node.inbox
      state.stagingDir (storeChunk runtime fault state
        (node.inbox.get? state.stagingDir) request).2.2)
    rw [hkey] at hset
    exact hset
  · intro name hname
    have hsame : ∀ tree?, (setStaging node.inbox state.stagingDir
        tree?).get? name = node.inbox.get? name := by
      intro tree?
      cases tree? with
      | none => rfl
      | some tree =>
          exact Dict.get?_set_ne _ _ (stagingDir_ne_of_not_isStaging hname)
    exact (hsame _).trans (h.same name hname)

/-- A request that publishes nothing only stages. -/
theorem OnlyStaged.dispatch {runtime : Runtime} {clock : Clock}
    {fault : WriteFault} {node : Node} {request : Request} (h : Keyed node)
    (hrequest : ∀ state tree, ¬EndPasses runtime clock node request state tree) :
    OnlyStaged node.inbox (Receiver.dispatch runtime clock fault node request).2 := by
  have hpruned := OnlyStaged.prune h clock.pruneAt
  unfold Receiver.dispatch
  dsimp only
  split
  next event transferId hevent htransfer =>
    obtain ⟨rfl, -, -⟩ := validateEventName_eq_some hevent
    obtain ⟨rfl, -, -⟩ := validateEventName_eq_some htransfer
    unfold dispatchPruned
    split
    · exact hpruned.begin hevent _ _ _
    · split
      · exact hpruned
      next idle hidle =>
        obtain ⟨hkey, hvalid⟩ := hpruned.keyed _ idle hidle
        have htouched : OnlyStaged node.inbox (putTransfer
            (pruneIdleTransfers clock.pruneAt node) (touch idle clock.touchAt)) :=
          ⟨@Keyed.set _ hpruned.keyed (touch idle clock.touchAt) hvalid _,
            hpruned.same⟩
        split
        · exact @OnlyStaged.chunk _ _ hpruned runtime fault
            (touch idle clock.touchAt) hvalid request
        · split
          next hopcode =>
            cases hfinish : finish runtime (putTransfer
                (pruneIdleTransfers clock.pruneAt node)
                (touch idle clock.touchAt)) (touch idle clock.touchAt) with
            | mk reply node' =>
                rcases finish_cases hfinish with ⟨rfl, -⟩ | ⟨tree, htree, rfl, -, -⟩
                · exact htouched
                · refine absurd ?_ (hrequest (touch idle clock.touchAt) tree)
                  exact ⟨hopcode, by rw [hevent]; rfl, by rw [htransfer]; rfl,
                    ⟨idle, hidle, rfl⟩, htree, by rw [hfinish]⟩
          · exact hpruned
  · exact hpruned

/-! ## The invariant -/

theorem Held.mono {passed passed' : List (TransferState × Tree)} {s : Shelf}
    {event : Text} (h : Held passed s event) (hsubset : passed ⊆ passed') :
    Held passed' s event := by
  obtain ⟨tree, htree, state, hstate, hevent⟩ := h
  exact ⟨tree, htree, state, hsubset hstate, hevent⟩

theorem isStaging_of_valid {event : Text}
    (h : validateEventName event = some event) : isStaging event = false :=
  not_isStaging_of_matchesEventName (validateEventName_eq_some h).2.2

theorem all_held_sameCopies {passed : List (TransferState × Tree)} {s : Shelf}
    {inbox : Dict Text Tree} (h : Published.All (Held passed) s)
    (hinbox : SameCopies s.inbox inbox) :
    Published.All (Held passed) { s with inbox } := by
  intro event hevent
  obtain ⟨hvalid, hheld⟩ := h event hevent
  exact ⟨hvalid, hheld.congr (hinbox event (isStaging_of_valid hvalid))⟩

theorem all_safe_sameCopies {passed : List (TransferState × Tree)} {s : Shelf}
    {inbox : Dict Text Tree} (h : Published.All (Safe passed) s)
    (hinbox : SameCopies s.inbox inbox) :
    Published.All (Safe passed) { s with inbox } := by
  intro event hevent
  obtain ⟨hvalid, hheld | ⟨hnone, tree, htree, hcopy⟩⟩ := h event hevent
  · exact ⟨hvalid, .inl (hheld.congr (hinbox event (isStaging_of_valid hvalid)))⟩
  · refine ⟨hvalid, .inr ⟨?_, tree, ?_, hcopy⟩⟩
    · exact (hinbox event (isStaging_of_valid hvalid)).trans hnone
    · exact (hinbox _ (not_isStaging_backupName event)).trans htree

def Phase.Ok (passed : List (TransferState × Tree)) (s : Shelf) : Phase → Prop
  | .serving => Published.All (Held passed) s
  | .publishing _ rest => Survives passed rest s (Published.All (Held passed))
      (Published.All (Held passed))
  | .recovering rest => Survives passed rest s (Published.All (Held passed))
      fun _ => True

structure Server.Ok (runtime : Runtime) (s : Server) : Prop where
  keyed : Keyed s.node
  passed : ∀ entry ∈ s.passed, Passed runtime entry.2 entry.1
  safe : Published.All (Safe s.passed) s.shelf
  phase : s.phase.Ok s.passed s.shelf

theorem Server.Ok.start (runtime : Runtime) (inbox : Dict Text Tree) :
    (Server.start inbox).Ok runtime := by
  have hsafe : Published.All (Safe []) (Server.start inbox).shelf := nofun
  exact ⟨nofun, nofun, hsafe, recoverBackups_survives hsafe⟩

/-- A checked END is ready to be published. -/
theorem Server.Ok.finish {runtime : Runtime} {clock : Clock} {s : Server}
    {request : Request} {state : TransferState} {tree : Tree}
    (h : s.Ok runtime) (hphase : s.phase = .serving)
    (hrequest : EndPasses runtime clock s.node request state tree) :
    Server.Ok runtime
      { shelf := { s.shelf with
          inbox := (pruneIdleTransfers clock.pruneAt s.node).inbox }
        transfers := (putTransfer (pruneIdleTransfers clock.pruneAt s.node)
          state).transfers
        phase := .publishing state (publishSteps state)
        passed := s.passed ++ [(state, tree)] } := by
  have hpruned := OnlyStaged.prune h.keyed clock.pruneAt
  obtain ⟨idle, hidle, rfl⟩ := hrequest.active
  have hvalid := (hpruned.keyed _ idle hidle).2
  have hserving := h.phase
  rw [hphase] at hserving
  have hheld : Published.All (Held (s.passed ++ [(touch idle clock.touchAt, tree)]))
      { s.shelf with inbox := (pruneIdleTransfers clock.pruneAt s.node).inbox } :=
    fun event hevent =>
      have hold := all_held_sameCopies hserving hpruned.same event hevent
      ⟨hold.1, hold.2.mono (List.subset_append_left _ _)⟩
  have hchecked : Passed runtime tree (touch idle clock.touchAt) := by
    have hpasses := hrequest.passes
    cases hfinish : Receiver.finish runtime (putTransfer
        (pruneIdleTransfers clock.pruneAt s.node) (touch idle clock.touchAt))
        (touch idle clock.touchAt) with
    | mk reply node' =>
        rw [hfinish] at hpasses
        rcases finish_cases hfinish with ⟨-, hfail⟩ | ⟨found, hfound, -, -, hok⟩
        · exact absurd hpasses (hfail _ _)
        · cases (hfound.symm.trans hrequest.staged)
          exact hok
  refine ⟨@Keyed.set _ hpruned.keyed (touch idle clock.touchAt) hvalid _,
    fun entry hentry => ?_, all_safe_of_held hheld, ?_⟩
  · rcases List.mem_append.mp hentry with hold | hnew
    · exact h.passed entry hold
    · rw [List.mem_singleton.mp hnew]
      exact hchecked
  · exact publishSteps_survives ⟨hheld, hrequest.staged⟩ hvalid
      (List.mem_append_right _ List.mem_cons_self)

theorem Server.Ok.step {runtime : Runtime} {s s' : Server} (h : s.Ok runtime)
    (hstep : Server.Step runtime s s') : s'.Ok runtime := by
  have hphase := h.phase
  cases hstep with
  | request clock fault request hserving hrequest =>
      rw [hserving] at hphase
      have honly := @OnlyStaged.dispatch runtime clock fault _ request h.keyed
        hrequest
      have hheld := all_held_sameCopies hphase honly.same
      refine ⟨honly.keyed, h.passed, all_safe_of_held hheld, ?_⟩
      rw [hserving]
      exact hheld
  | finish clock request state tree hserving hrequest =>
      exact h.finish hserving hrequest
  | publishing hpublishing heffect =>
      rw [hpublishing] at hphase
      obtain ⟨hsafe, hrest⟩ := hphase _ _ heffect
      exact ⟨h.keyed, h.passed, hsafe, hrest⟩
  | published hpublishing =>
      rw [hpublishing] at hphase
      exact ⟨h.keyed.erase _ _, h.passed, h.safe, hphase⟩
  | raised hpublishing =>
      rw [hpublishing] at hphase
      exact ⟨h.keyed, h.passed, h.safe, hphase⟩
  | crash inbox hinbox =>
      have hsafe := all_safe_sameCopies h.safe hinbox
      exact ⟨nofun, h.passed, hsafe, recoverBackups_survives hsafe⟩
  | recovering hrecovering heffect =>
      rw [hrecovering] at hphase
      obtain ⟨hsafe, hrest⟩ := hphase _ _ heffect
      exact ⟨h.keyed, h.passed, hsafe, hrest⟩
  | recovered hrecovering =>
      rw [hrecovering] at hphase
      exact ⟨h.keyed, h.passed, h.safe, hphase⟩

theorem Server.Reaches.ok {runtime : Runtime} {s s' : Server}
    (h : Server.Reaches runtime s s') (hok : s.Ok runtime) : s'.Ok runtime := by
  induction h with
  | refl => exact hok
  | tail _ hstep ih => exact ih.step hstep

/-- In the middle of a publication or of a recovery. -/
def Phase.Busy : Phase → Prop
  | .serving => False
  | .publishing _ _ => True
  | .recovering (.ret _) => False
  | .recovering _ => True

/--
A published event has a complete copy that passed all checks: under its own name
after every restart and while requests are served, and at worst in the backup
while a publication or a recovery is going on.
-/
theorem published_survives {runtime : Runtime} {inbox : Dict Text Tree}
    {s : Server} (h : Server.Reaches runtime (.start inbox) s) {event : Text}
    (hpublished : event ∈ s.shelf.published) :
    ∃ state tree, (state, tree) ∈ s.passed ∧ state.event = event ∧
      Passed runtime tree state ∧
      (s.shelf.inbox.get? event = some tree ∨
        s.phase.Busy ∧ s.shelf.inbox.get? event = none ∧
          s.shelf.inbox.get? (backupName event) = some tree) := by
  have hok := Server.Reaches.ok h (.start runtime inbox)
  have hphase := hok.phase
  by_cases hbusy : s.phase.Busy
  · obtain ⟨tree, htree, state, hstate, hevent⟩ |
      ⟨hnone, tree, htree, state, hstate, hevent⟩ := (hok.safe event hpublished).2
    · exact ⟨state, tree, hstate, hevent, hok.passed _ hstate, .inl htree⟩
    · exact ⟨state, tree, hstate, hevent, hok.passed _ hstate,
        .inr ⟨hbusy, hnone, htree⟩⟩
  · have hheld : Published.All (Held s.passed) s.shelf := by
      cases hcase : s.phase with
      | serving =>
          rw [hcase] at hphase
          exact hphase
      | publishing state rest =>
          rw [hcase] at hbusy
          exact absurd trivial hbusy
      | recovering rest =>
          rw [hcase] at hbusy hphase
          cases rest with
          | ret value => exact hphase
          | raise error => exact absurd trivial hbusy
          | call op next => exact absurd trivial hbusy
    obtain ⟨tree, htree, state, hstate, hevent⟩ := (hheld event hpublished).2
    exact ⟨state, tree, hstate, hevent, hok.passed _ hstate, .inl htree⟩

/-! ## A crash between the two renames -/

theorem exec_of_runWith {α : Type} {p : Steps α} {s s' : Shelf} {value : α}
    (h : Prog.runWith Shelf.respond p s = (.ok value, s')) :
    Prog.Exec InboxEffect s p s' (.ret value) := by
  have hexec := Prog.exec_runWith inboxEffect_respond p s
  rw [h] at hexec
  exact hexec

theorem exec_of_runWith_fst {α : Type} {p : Steps α} {s : Shelf} {value : α}
    (h : (Prog.runWith Shelf.respond p s).1 = .ok value) :
    Prog.Exec InboxEffect s p (Prog.runWith Shelf.respond p s).2 (.ret value) :=
  exec_of_runWith (Prod.ext h rfl)

/-- A publication that was cut off when the previous copy had been moved aside. -/
theorem exec_movedAside {state : TransferState} {s : Shelf} {previous : Tree}
    (hvalid : validateEventName state.event = some state.event)
    (hprevious : s.inbox.get? state.finalDir = some previous) :
    ∃ rest, Prog.Exec InboxEffect s (publishSteps state)
      (Shelf.move ⟨s.inbox.erase (backupName state.event), s.published⟩
        state.finalDir (backupName state.event) previous) rest := by
  let s₁ : Shelf := ⟨s.inbox.erase (backupName state.event), s.published⟩
  have hfinal : backupName state.event ≠ state.finalDir :=
    finalDir_ne_backupName hvalid _
  have hprevious₁ : s₁.inbox.get? state.finalDir = some previous :=
    (Dict.get?_erase_ne _ hfinal).trans hprevious
  have hsync : ∀ (name : Option Text) (s : Shelf), Prog.Exec InboxEffect s
      (orRaise (perform (.syncDirectory name))) s (.ret ()) :=
    fun _ _ => exec_of_runWith rfl
  have hremove : Prog.Exec InboxEffect s
      (perform (.removeTree (backupName state.event))) s₁ (.ret ()) :=
    exec_of_runWith rfl
  have hmove := exec_of_runWith
    (runWith_moveAside hprevious₁ (Dict.get?_erase_self _ _))
  exact ⟨_, ((hsync _ _).bind _).trans ((hremove.bind _).trans
    (((hsync _ _).bind _).trans (hmove.bind _)))⟩

theorem Server.Reaches.publishing {runtime : Runtime} {s : Server}
    {state : TransferState} {p p' : Steps Unit} {shelf shelf' : Shelf}
    (h : Prog.Exec InboxEffect shelf p shelf' p') :
    Server.Reaches runtime
      { s with shelf := shelf, phase := .publishing state p }
      { s with shelf := shelf', phase := .publishing state p' } := by
  induction h with
  | refl => exact .refl
  | step heffect _ ih => exact ih.head (.publishing rfl heffect)

theorem Server.Reaches.recovering {runtime : Runtime} {s : Server}
    {p p' : Steps Unit} {shelf shelf' : Shelf}
    (h : Prog.Exec InboxEffect shelf p shelf' p') :
    Server.Reaches runtime { s with shelf := shelf, phase := .recovering p }
      { s with shelf := shelf', phase := .recovering p' } := by
  induction h with
  | refl => exact .refl
  | step heffect _ ih => exact ih.head (.recovering rfl heffect)

def Server.handle (s : Server) (request : Request) : Server :=
  let node := (dispatch sampleRuntime ⟨0, 0⟩ .none s.node request).2
  { s with shelf := { s.shelf with inbox := node.inbox }
           transfers := node.transfers }

/-- BEGIN and the two chunks of the example transfer. -/
def Server.stage (s : Server) : Server :=
  ((s.handle (sampleRequest opBegin "" 71 2 [])).handle
    (sampleRequest opFileChunk "a" 3 0 (encodeUtf8 "abc"))).handle
    (sampleRequest opFileChunk manifestName 68 0 sampleManifest)

theorem Server.Reaches.handle {s : Server} (hphase : s.phase = .serving)
    {request : Request} (hopcode : request.opcode ≠ opEnd) :
    Server.Reaches sampleRuntime s (s.handle request) :=
  .single (.request ⟨0, 0⟩ .none request hphase
    fun _ _ hpasses => hopcode hpasses.opcode)

theorem Server.Reaches.stage {s : Server} (hphase : s.phase = .serving) :
    Server.Reaches sampleRuntime s s.stage := by
  have hbegin : Server.Reaches sampleRuntime s
      (s.handle (sampleRequest opBegin "" 71 2 [])) :=
    Server.Reaches.handle hphase (by decide)
  refine hbegin.trans (Relation.ReflTransGen.trans
    (Server.Reaches.handle ?_ ?_) (Server.Reaches.handle ?_ ?_))
  · exact hphase
  · exact (by decide : opFileChunk ≠ opEnd)
  · exact hphase
  · exact (by decide : opFileChunk ≠ opEnd)

def Server.staged (s : Server) : TransferState :=
  ((s.transfers.get? ("e1", "t1")).getD
    ⟨"e1", "t1", 0, 0, .empty, .empty, 0⟩)

def Server.stagedTree (s : Server) : Tree :=
  (s.shelf.inbox.get? s.staged.stagingDir).getD .empty

def sampleEnd : Request := sampleRequest opEnd "" 0 0 []

/-- The server whose publication of the staged transfer begins. -/
def Server.end (s : Server) : Server where
  shelf := { s.shelf with inbox := (pruneIdleTransfers 0 s.node).inbox }
  transfers := (putTransfer (pruneIdleTransfers 0 s.node) s.staged).transfers
  phase := .publishing s.staged (publishSteps s.staged)
  passed := s.passed ++ [(s.staged, s.stagedTree)]

/-- Without faults the steps of a publication end as `publish` does. -/
theorem Server.Reaches.publish {runtime : Runtime} {s : Server}
    {state : TransferState} {tree : Tree}
    (hphase : s.phase = .publishing state (publishSteps state))
    (hvalid : validateEventName state.event = some state.event)
    (hstaged : s.shelf.inbox.get? state.stagingDir = some tree) :
    Server.Reaches runtime s
      { s with
        shelf := ⟨(Receiver.publish s.node state tree).inbox,
          s.shelf.published ++ [state.finalDir]⟩
        transfers := s.transfers.erase state.key
        phase := .serving } := by
  have hrun := @publishSteps_refines state s.node tree hvalid hstaged
    s.shelf.published
  have hreaches : Server.Reaches runtime
      { s with phase := .publishing state (publishSteps state) } _ :=
    @Server.Reaches.publishing runtime s state _ _ s.shelf _
      (exec_of_runWith hrun)
  rw [← hphase] at hreaches
  exact hreaches.tail (.published rfl)

theorem Server.Reaches.end {s : Server} (hphase : s.phase = .serving)
    (hactive : (pruneIdleTransfers 0 s.node).transfers.get? ("e1", "t1") =
      some s.staged)
    (htouch : s.staged = touch s.staged 0)
    (hstaged : (pruneIdleTransfers 0 s.node).inbox.get? s.staged.stagingDir =
      some s.stagedTree)
    (hpasses : (finish sampleRuntime (putTransfer (pruneIdleTransfers 0 s.node)
      s.staged) s.staged).1 =
        .answer true "transfer complete" (receivedTotal s.staged)) :
    Server.Reaches sampleRuntime s s.end :=
  .single (.finish ⟨0, 0⟩ sampleEnd s.staged s.stagedTree hphase
    ⟨rfl, by decide, by decide, ⟨s.staged, hactive, htouch⟩, hstaged, hpasses⟩)

/-- An empty inbox after the first recovery. -/
def sampleServer : Server := ⟨⟨.empty, []⟩, .empty, .serving, []⟩

def sampleFirst : Server := sampleServer.stage.end

def samplePublished : Server :=
  { sampleFirst with
    shelf := ⟨(publish sampleFirst.node sampleServer.stage.staged
      sampleServer.stage.stagedTree).inbox, ["e1"]⟩
    transfers := sampleFirst.transfers.erase ("e1", "t1")
    phase := .serving }

def sampleSecond : Server := samplePublished.stage.end

theorem sampleSecond_reachable :
    Server.Reaches sampleRuntime (.start .empty) sampleSecond := by
  have hstart : Server.Reaches sampleRuntime (.start .empty) sampleServer :=
    (@Server.Reaches.recovering sampleRuntime (.start .empty) _ _ ⟨.empty, []⟩ _
      (exec_of_runWith rfl)).tail (.recovered rfl)
  have hfirst : Server.Reaches sampleRuntime sampleServer.stage sampleFirst :=
    Server.Reaches.end rfl (by decide +kernel) (by decide +kernel)
      (by decide +kernel) (by decide +kernel)
  have hpublish : Server.Reaches sampleRuntime sampleFirst samplePublished :=
    Server.Reaches.publish rfl (by decide +kernel) (by decide +kernel)
  have hsecond : Server.Reaches sampleRuntime samplePublished.stage
      sampleSecond :=
    Server.Reaches.end rfl (by decide +kernel) (by decide +kernel)
      (by decide +kernel) (by decide +kernel)
  exact ((hstart.trans (Server.Reaches.stage rfl)).trans (hfirst.trans
    hpublish)).trans ((Server.Reaches.stage rfl).trans hsecond)

def sampleCrashed : Server where
  shelf := Shelf.move
    ⟨sampleSecond.shelf.inbox.erase (backupName "e1"), ["e1"]⟩ "e1"
    (backupName "e1") sampleServer.stage.stagedTree
  transfers := .empty
  phase := .recovering recoverBackups
  passed := sampleSecond.passed

theorem sampleCrashed_reachable :
    Server.Reaches sampleRuntime (.start .empty) sampleCrashed := by
  obtain ⟨rest, hmoved⟩ := @exec_movedAside samplePublished.stage.staged
    sampleSecond.shelf sampleServer.stage.stagedTree (by decide +kernel)
    (by decide +kernel)
  have hpublishing := @Server.Reaches.publishing sampleRuntime sampleSecond
    samplePublished.stage.staged _ _ _ _ hmoved
  have hcrash := (sampleSecond_reachable.trans hpublishing).tail
    (.crash _ fun _ _ => rfl)
  have hsame : samplePublished.stage.staged.event = "e1" ∧
      samplePublished.stage.staged.finalDir = "e1" := by
    decide +kernel
  rw [hsame.1, hsame.2] at hcrash
  exact hcrash

def sampleRecovered : Server :=
  { sampleCrashed with
    shelf := (Prog.runWith Shelf.respond recoverBackups sampleCrashed.shelf).2
    phase := .recovering (.ret ()) }

theorem sampleRecovered_reachable :
    Server.Reaches sampleRuntime sampleCrashed sampleRecovered := by
  have hok : (Prog.runWith Shelf.respond recoverBackups
      sampleCrashed.shelf).1 = .ok () := by
    decide +kernel
  exact @Server.Reaches.recovering sampleRuntime sampleCrashed _ _ _ _
    (exec_of_runWith_fst hok)

theorem published_survives_between_renames :
    sampleCrashed.shelf.inbox.get? "e1" = none ∧
    ∃ state tree, (state, tree) ∈ sampleRecovered.passed ∧
      state.event = "e1" ∧ Passed sampleRuntime tree state ∧
      sampleRecovered.shelf.inbox.get? "e1" = some tree := by
  refine ⟨by decide +kernel, ?_⟩
  have hpublished : ("e1" : Text) ∈ sampleRecovered.shelf.published := by
    decide +kernel
  obtain ⟨state, tree, hstate, hevent, hpassed, hkept | ⟨hbusy, -⟩⟩ :=
    published_survives
      (sampleCrashed_reachable.trans sampleRecovered_reachable) hpublished
  · exact ⟨state, tree, hstate, hevent, hpassed, hkept⟩
  · exact absurd hbusy id

end DataCache.Receiver
