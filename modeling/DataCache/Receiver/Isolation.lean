import DataCache.Receiver.Published

/-!
# Isolation of transfers

A transfer owns its staging directory only while no accepted `BEGIN` gives the
directory's name to another one.  In runs without such a `BEGIN` the active
transfers are pairwise apart and each request leaves the others' staged bytes
alone; an accepted overlapping `BEGIN` breaks this at once.
-/

namespace DataCache.Receiver

open DataCache.Foundation

/-! ## Frame lemmas -/

/-- Different active transfers have different staging directories. -/
def Apart (node : Node) : Prop :=
  ∀ key₁ state₁ key₂ state₂, node.transfers.get? key₁ = some state₁ →
    node.transfers.get? key₂ = some state₂ → key₁ ≠ key₂ →
    state₁.stagingDir ≠ state₂.stagingDir

/-- Pruning removes no staged byte of a transfer it leaves active. -/
theorem pruneIdleTransfers_frame {node : Node} (hok : NodeOk node) {now : Time}
    {key : Text × Text} {state : TransferState}
    (h : (pruneIdleTransfers now node).transfers.get? key = some state) :
    (pruneIdleTransfers now node).inbox.get? state.stagingDir =
      node.inbox.get? state.stagingDir := by
  have hkept : NodeOk (pruneIdleTransfers now node) ∧
      ∀ other found,
        (pruneIdleTransfers now node).transfers.get? other = some found →
        (pruneIdleTransfers now node).inbox.get? found.stagingDir =
          node.inbox.get? found.stagingDir := by
    refine pruneIdleTransfers_preserves (P := fun node' => NodeOk node' ∧
      ∀ other found, node'.transfers.get? other = some found →
        node'.inbox.get? found.stagingDir = node.inbox.get? found.stagingDir)
      now ?_ ⟨hok, fun _ _ _ => rfl⟩
    rintro node' victim discarded ⟨hok', hframe⟩ hvictim -
    refine ⟨hok'.discard hvictim, fun other found hfound => ?_⟩
    rw [discard, Dict.get?_erase] at hfound
    split at hfound
    · cases hfound
    next hne =>
      rw [discard, Dict.get?_erase_ne _ (hok'.apart _ _ _ _ hvictim hfound hne)]
      exact hframe other found hfound
  exact hkept.2 key state h

/-- A request of one transfer leaves another's staging directory as it is. -/
theorem handled_frame {runtime : Runtime} {node node' : Node}
    {key other : Text × Text} {request : Request} {reply : Reply}
    {state : TransferState} (hok : NodeOk node)
    (hapart : request.opcode = opBegin →
      Admitted node key.1 key.2 request.fileCount request.totalBytes →
      ∀ key' state, node.transfers.get? key' = some state → key' ≠ key →
        ¬Overlaps key' key)
    (h : Handled runtime node key request reply node')
    (hget : node.transfers.get? other = some state) (hne : other ≠ key) :
    node'.inbox.get? state.stagingDir = node.inbox.get? state.stagingDir := by
  cases h with
  | unchanged => rfl
  | begun now hopcode hadmitted =>
      have hkey := hok.keyed _ _ hget
      have hname : stagingName key.1 key.2 ≠ state.stagingDir := fun heq =>
        hapart hopcode hadmitted other state hget hne
          ((stagingName_eq_iff hne).mp (by rw [hkey]; exact heq.symm))
      rw [startTransfer, Dict.get?_set_ne _ _ hname, Dict.get?_erase_ne _ hname]
  | @chunk own state' reply tree? now fault _ hown hchunk =>
      have hname := hok.apart _ _ _ _ hown hget (Ne.symm hne)
      cases tree? with
      | none => rfl
      | some tree => rw [setStaging, Dict.get?_set_ne _ _ hname]
  | @ended own _ _ now _ hown hfinish =>
      have hname := hok.apart _ _ _ _ hown hget (Ne.symm hne)
      rcases finish_cases hfinish with ⟨rfl, -⟩ | ⟨tree, -, -, rfl, -⟩
      · rfl
      · have hbackup : backupName (touch own now).event ≠ state.stagingDir :=
          (stagingName_ne_backupName _ _ _).symm
        have hfinal : (touch own now).finalDir ≠ state.stagingDir :=
          (stagingName_ne_of_matchesEventName (hok.named _ _ hown) _ _).symm
        have hstaging : (touch own now).stagingDir ≠ state.stagingDir := hname
        rw [get?_inbox_publish, if_neg hbackup, if_neg hfinal, if_neg hstaging]
        rfl

theorem noOverlap_handled {node : Node} {request : Request}
    (h : NoOverlap node request)
    (hevent : validateEventName request.eventName = some request.eventName)
    (htransfer : validateEventName request.transferId = some request.transferId) :
    request.opcode = opBegin →
      Admitted node request.eventName request.transferId request.fileCount
        request.totalBytes →
      ∀ key state, node.transfers.get? key = some state →
        key ≠ (request.eventName, request.transferId) →
        ¬Overlaps key (request.eventName, request.transferId) := fun hopcode =>
  h hopcode (by simp [hevent]) (by simp [htransfer])

theorem dispatch_frame {runtime : Runtime} {node : Node} (hok : NodeOk node)
    {clock : Clock} {fault : WriteFault} {request : Request}
    (happart : NoOverlap (pruneIdleTransfers clock.pruneAt node) request)
    {other : Text × Text} {state : TransferState}
    (hne : other ≠ (request.eventName, request.transferId))
    (hget : (pruneIdleTransfers clock.pruneAt node).transfers.get? other =
      some state) :
    (dispatch runtime clock fault node request).2.inbox.get? state.stagingDir =
      node.inbox.get? state.stagingDir := by
  rw [← pruneIdleTransfers_frame hok hget]
  cases hdispatch : dispatch runtime clock fault node request with
  | mk reply node' =>
  rcases dispatch_cases hdispatch with ⟨rfl, -⟩ | ⟨hevent, htransfer, h⟩
  · rfl
  · exact handled_frame (hok.prune _)
      (noOverlap_handled happart hevent htransfer) h hget hne

/-! ## The overlapping BEGIN -/

/-- An accepted `BEGIN` makes its transfer active and leaves the others so. -/
theorem dispatch_begin {runtime : Runtime} {node : Node} {clock : Clock}
    {fault : WriteFault} {request : Request}
    (hopcode : request.opcode = opBegin)
    (hevent : (validateEventName request.eventName).isSome = true)
    (htransfer : (validateEventName request.transferId).isSome = true)
    (hadmitted : Admitted (pruneIdleTransfers clock.pruneAt node)
      request.eventName request.transferId request.fileCount
      request.totalBytes) :
    dispatch runtime clock fault node request =
      (.answer true "transfer started" 0,
        startTransfer (pruneIdleTransfers clock.pruneAt node) request.eventName
          request.transferId request.fileCount request.totalBytes
          clock.touchAt) := by
  obtain ⟨event, hevent⟩ := Option.isSome_iff_exists.mp hevent
  obtain ⟨transferId, htransfer⟩ := Option.isSome_iff_exists.mp htransfer
  have heq := (validateEventName_eq_some hevent).1
  have heq' := (validateEventName_eq_some htransfer).1
  subst heq heq'
  rw [dispatch]
  simp only [hevent, htransfer, dispatchPruned, if_pos hopcode]
  exact begin_of_admitted hadmitted clock.touchAt

theorem NodeOk.noOverlap_of_apart {runtime : Runtime} {node : Node}
    (hok : NodeOk node) {clock : Clock} {fault : WriteFault} {request : Request}
    (happart : Apart (Receiver.dispatch runtime clock fault node request).2) :
    NoOverlap (pruneIdleTransfers clock.pruneAt node) request := by
  intro hopcode hevent htransfer hadmitted key state hget hne hoverlaps
  rw [dispatch_begin hopcode hevent htransfer hadmitted] at happart
  have hkept : (Receiver.startTransfer (pruneIdleTransfers clock.pruneAt node)
      request.eventName request.transferId request.fileCount request.totalBytes
      clock.touchAt).transfers.get? key = some state := by
    rw [Receiver.startTransfer, Dict.get?_set_ne _ _ (Ne.symm hne)]
    exact hget
  refine happart _ _ _ _ hkept (Dict.get?_set_self _ _ _) hne ?_
  have hkey := (hok.prune _).keyed _ _ hget
  have hname := (stagingName_eq_iff hne).mpr hoverlaps
  rw [hkey] at hname
  exact hname

/--
In every run without an accepted overlapping `BEGIN` the active transfers are
apart and no request touches a staged byte of another transfer; the request
after such a run keeps them apart exactly when it is no such `BEGIN` either.
-/
theorem reachable_isolated {runtime : Runtime} {node : Node}
    (h : Reachable runtime NoOverlap node) :
    Apart node ∧
    (∀ clock fault request other state,
      NoOverlap (pruneIdleTransfers clock.pruneAt node) request →
      other ≠ (request.eventName, request.transferId) →
      (pruneIdleTransfers clock.pruneAt node).transfers.get? other =
        some state →
      (dispatch runtime clock fault node request).2.inbox.get?
        state.stagingDir = node.inbox.get? state.stagingDir) ∧
    ∀ clock fault request,
      Apart (dispatch runtime clock fault node request).2 ↔
        NoOverlap (pruneIdleTransfers clock.pruneAt node) request := by
  have hok := h.nodeOk
  refine ⟨hok.apart, fun clock fault request other state happart hne hget =>
      dispatch_frame hok happart hne hget,
    fun clock fault request => ⟨hok.noOverlap_of_apart, fun happart => ?_⟩⟩
  exact (hok.dispatch clock fault request happart).apart

def sampleBegin (event transferId : Text) : Request :=
  ⟨event, transferId, opBegin, [], 0, 3, 2, []⟩

def sampleBegun : Node :=
  (dispatch sampleRuntime ⟨0, 0⟩ .none ⟨Dict.empty, Dict.empty⟩
    (sampleBegin "e1" "t1")).2

/-- Two transfers begun one after the other on an empty inbox. -/
def twoTransfers (first second : Text × Text) : Node :=
  (dispatch sampleRuntime ⟨0, 0⟩ .none
    (dispatch sampleRuntime ⟨0, 0⟩ .none ⟨Dict.empty, Dict.empty⟩
      (sampleBegin first.1 first.2)).2 (sampleBegin second.1 second.2)).2

theorem reachable_isolated_two :
    (dispatch sampleRuntime ⟨0, 0⟩ .none
      (twoTransfers ("e2", "t2") ("e1", "t1"))
      (sampleRequest opFileChunk "a" 3 0 (encodeUtf8 "abc"))).2.inbox.get?
        (stagingName "e2" "t2") =
      (twoTransfers ("e2", "t2") ("e1", "t1")).inbox.get?
        (stagingName "e2" "t2") := by
  have hreachable : Reachable sampleRuntime DotFree
      (twoTransfers ("e2", "t2") ("e1", "t1")) := by
    refine .request _ _ _ (.request _ _ _ (.start _) ?_) ?_
    · exact (by decide : '.' ∉ ("t2" : Text))
    · exact (by decide : '.' ∉ ("t1" : Text))
  exact (reachable_isolated hreachable.noOverlap.1).2.1 ⟨0, 0⟩ .none
    (sampleRequest opFileChunk "a" 3 0 (encodeUtf8 "abc")) ("e2", "t2")
    ⟨"e2", "t2", 2, 3, Dict.empty, Dict.empty, 0⟩
    (fun hopcode => absurd hopcode (by decide)) (by decide) (by decide +kernel)

/-- Two accepted transfers with one staging directory. -/
theorem not_apart_of_dotted_ids :
    ¬∀ (runtime : Runtime) (node : Node),
      Reachable runtime (fun _ _ => True) node → Apart node := by
  intro h
  have hreachable : Reachable sampleRuntime (fun _ _ => True)
      (twoTransfers ("a.b", "c") ("a", "b.c")) :=
    .request _ _ _ (.request _ _ _ (.start _) trivial) trivial
  refine h _ _ hreachable ("a.b", "c")
    ⟨"a.b", "c", 2, 3, Dict.empty, Dict.empty, 0⟩ ("a", "b.c")
    ⟨"a", "b.c", 2, 3, Dict.empty, Dict.empty, 0⟩ ?_ ?_ ?_ ?_ <;>
    decide +kernel

end DataCache.Receiver
