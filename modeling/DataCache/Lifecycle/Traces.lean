import DataCache.Foundation.Traces
import DataCache.Lifecycle.Poll

/-!
# What a capture's polls publish

Polls that each find the markers as they are at that moment.  Whatever becomes
of the markers in between, the statuses of one capture come in a fixed order.
-/

namespace DataCache.Lifecycle

open DataCache.Foundation
open DataCache.Capture (CaptureResult)
open DataCache.Trigger (DataCacheNode EventLifecycle EventStatus Readings
  StatusKind TriggerRequest)

abbrev Markers := Text → Text → Bool

/-- The markers stay as they are during the poll; what it publishes is logged. -/
def Steady (present : Markers) : Prog.Effect PollOp.Res (List EventStatus)
  | log, .steadyNow, _, log' => log' = log
  | log, .exists directory name, found, log' =>
      log' = log ∧ found = present directory name
  | log, .publish update, _, log' => log' = log ++ [update]

def statusesFor (triggerId : Text) (updates : List EventStatus) :
    List StatusKind :=
  (updates.filter fun update => decide (update.triggerId = triggerId)).map
    EventStatus.status

/-! ## One lifecycle -/

/-- A lifecycle publishes these statuses. -/
def Publishes (triggerId : Text) (statuses : List StatusKind)
    (log log' : List EventStatus) : Prop :=
  ∃ updates, log' = log ++ updates ∧
    (∀ update ∈ updates, update.triggerId = triggerId) ∧
    updates.map EventStatus.status = statuses

theorem Publishes.refl (triggerId : Text) (log : List EventStatus) :
    Publishes triggerId [] log log :=
  ⟨[], by simp⟩

theorem Publishes.trans {triggerId : Text} {first second : List StatusKind}
    {log log' log'' : List EventStatus} (h : Publishes triggerId first log log')
    (h' : Publishes triggerId second log' log'') :
    Publishes triggerId (first ++ second) log log'' := by
  obtain ⟨updates, rfl, hown, rfl⟩ := h
  obtain ⟨updates', rfl, hown', rfl⟩ := h'
  refine ⟨updates ++ updates', by simp, fun update hupdate => ?_, by simp⟩
  exact (List.mem_append.mp hupdate).elim (hown update) (hown' update)

theorem Publishes.statusesFor_self {triggerId : Text}
    {statuses : List StatusKind} {log log' : List EventStatus}
    (h : Publishes triggerId statuses log log') :
    statusesFor triggerId log' = statusesFor triggerId log ++ statuses := by
  obtain ⟨updates, rfl, hown, rfl⟩ := h
  have hall : updates.filter (fun update =>
      decide (update.triggerId = triggerId)) = updates :=
    List.filter_eq_self.mpr fun update hupdate =>
      decide_eq_true (hown update hupdate)
  simp [statusesFor, hall]

theorem Publishes.statusesFor_other {triggerId other : Text}
    {statuses : List StatusKind} {log log' : List EventStatus}
    (h : Publishes other statuses log log') (hne : other ≠ triggerId) :
    statusesFor triggerId log' = statusesFor triggerId log := by
  obtain ⟨updates, rfl, hown, -⟩ := h
  have hnone : updates.filter (fun update =>
      decide (update.triggerId = triggerId)) = [] :=
    List.filter_eq_nil_iff.mpr fun update hupdate => by
      simpa [hown update hupdate] using hne
  simp [statusesFor, hnone]

def storedStatus (lifecycle : EventLifecycle) (stored : Bool) :
    List StatusKind :=
  if stored && !lifecycle.storedPublished then [.stored] else []

def withStored (lifecycle : EventLifecycle) (stored : Bool) : EventLifecycle :=
  { lifecycle with storedPublished := lifecycle.storedPublished || stored }

/-- What follows `STORED` in a poll, and what becomes of the lifecycle. -/
structure Outcome (lifecycle : EventLifecycle) (uploaded uploadFailed : Bool)
    (retry ending : List StatusKind) (polled : Option EventLifecycle) :
    Prop where
  retried : retry = [] ∨ retry = [.uploadRetrying] ∧ uploadFailed = true ∧
    lifecycle.uploadFailurePublished = false
  ended : ending = [] ∨ polled = none ∧ (ending = [.recordFailed] ∨
    ending = [.uploaded] ∧ uploaded = true ∨
    ending = [.uploadFailed] ∧ uploadFailed = true)
  kept : ∀ kept, polled = some kept → ending = [] ∧
    kept = { lifecycle with uploadFailurePublished := uploadFailed }

section Poll

variable {present : Markers}

/-- Every execution from here ends with `post`. -/
abbrev Logs {α : Type} (present : Markers) (post : α → List EventStatus → Prop)
    (p : Poll α) (log : List EventStatus) : Prop :=
  Prog.wp (Steady present) (fun _ => True) post (fun _ _ => True) p log

theorem Logs.bind {α β : Type} {p : Poll α} {f : α → Poll β}
    {middle : α → List EventStatus → Prop} {post : β → List EventStatus → Prop}
    {log : List EventStatus} (hp : Logs present middle p log)
    (hf : ∀ value log', middle value log' → Logs present post (f value) log') :
    Logs present post (p.bind f) log :=
  Prog.wp_bind (Prog.wp_mono (fun _ h => h) hf (fun _ _ h => h) hp)

theorem publishStatus_logs (lifecycle : EventLifecycle) (status : StatusKind)
    (message : Text) (log : List EventStatus) :
    Logs present (fun _ => Publishes lifecycle.triggerId [status] log)
      (publishStatus lifecycle status message) log := by
  intro _ log' hlog
  exact ⟨trivial, _, hlog, by simp, rfl⟩

theorem publishStored_logs (lifecycle : EventLifecycle) (stored : Bool)
    (log : List EventStatus) :
    Logs present (fun polled log' =>
      Publishes lifecycle.triggerId (storedStatus lifecycle stored) log log' ∧
      polled = withStored lifecycle stored)
      (publishStored lifecycle stored) log := by
  unfold publishStored storedStatus withStored
  split
  next hnew =>
    rw [Bool.and_eq_true, Bool.not_eq_true'] at hnew
    refine Logs.bind (publishStatus_logs lifecycle _ _ log) fun _ log' hlog => ?_
    exact ⟨hlog, by rw [hnew.1, Bool.or_true]⟩
  next hold =>
    refine ⟨.refl _ _, ?_⟩
    cases lifecycle with
    | mk eventName triggerId source captureId directory acceptedAt
        storedPublished uploadFailurePublished =>
        cases stored <;> cases storedPublished <;> simp_all

theorem expireLifecycle_logs (node : DataCacheNode) (now : Int) (stored : Bool)
    (lifecycle : EventLifecycle) (log : List EventStatus) :
    Logs present (fun polled log' =>
      (Publishes lifecycle.triggerId [] log log' ∧
        (polled = none ∨ polled = some lifecycle)) ∨
      Publishes lifecycle.triggerId [.recordFailed] log log' ∧ polled = none)
      (expireLifecycle node now stored lifecycle) log := by
  unfold expireLifecycle
  split
  · exact .inl ⟨.refl _ _, .inl rfl⟩
  split
  · exact Logs.bind (publishStatus_logs lifecycle _ _ log) fun _ log' hlog =>
      .inr ⟨hlog, rfl⟩
  · exact .inl ⟨.refl _ _, .inr rfl⟩

theorem publishUploadFailed_logs (node : DataCacheNode)
    (lifecycle : EventLifecycle) (log : List EventStatus) :
    Logs present (fun _ => Publishes lifecycle.triggerId
      [if node.uploadFailureAutoRetry then .uploadRetrying else .uploadFailed]
      log) (publishUploadFailed node lifecycle) log := by
  unfold publishUploadFailed
  split
  next hretry => exact publishStatus_logs lifecycle _ _ log
  next hretry => exact publishStatus_logs lifecycle _ _ log

theorem followUpload_logs (node : DataCacheNode) (now : Int)
    (stored uploaded uploadFailed : Bool) (lifecycle : EventLifecycle)
    (log : List EventStatus) :
    Logs present (fun polled log' => ∃ retry ending,
      Publishes lifecycle.triggerId (retry ++ ending) log log' ∧
      Outcome lifecycle uploaded uploadFailed retry ending polled)
      (followUpload node now stored uploadFailed lifecycle) log := by
  -- What is left after the upload has been looked at.
  have hexpire : ∀ (retry : List StatusKind) (current : EventLifecycle)
      (log' : List EventStatus),
      Publishes lifecycle.triggerId retry log log' →
      current = { lifecycle with uploadFailurePublished := uploadFailed } →
      (retry = [] ∨ retry = [.uploadRetrying] ∧ uploadFailed = true ∧
        lifecycle.uploadFailurePublished = false) →
      Logs present (fun polled log'' => ∃ retry ending,
        Publishes lifecycle.triggerId (retry ++ ending) log log'' ∧
        Outcome lifecycle uploaded uploadFailed retry ending polled)
        (expireLifecycle node now stored current) log' := by
    rintro retry current log' hlog rfl hretry
    refine Prog.wp_mono (fun _ h => h) ?_ (fun _ _ h => h)
      (expireLifecycle_logs node now stored _ log')
    rintro polled log'' (⟨hnone, hpolled⟩ | ⟨hfailed, rfl⟩)
    · refine ⟨retry, [], hlog.trans hnone, hretry, .inl rfl, fun kept hkept => ?_⟩
      rcases hpolled with rfl | rfl
      · cases hkept
      · exact ⟨rfl, (Option.some.inj hkept).symm⟩
    · exact ⟨retry, [.recordFailed], hlog.trans hfailed, hretry,
        .inr ⟨rfl, .inl rfl⟩, fun kept hkept => by cases hkept⟩
  unfold followUpload
  split
  next hnew =>
    rw [Bool.and_eq_true, Bool.not_eq_true'] at hnew
    obtain ⟨rfl, hunpublished⟩ := hnew
    refine Logs.bind (publishUploadFailed_logs node lifecycle log)
      fun _ log' hlog => ?_
    split
    next hfinal =>
      rw [Bool.not_eq_true'] at hfinal
      rw [hfinal] at hlog
      exact ⟨[], [.uploadFailed], hlog, .inl rfl,
        .inr ⟨rfl, .inr (.inr ⟨rfl, rfl⟩)⟩, fun kept hkept => by cases hkept⟩
    next hretry =>
      rw [Bool.not_eq_true', Bool.not_eq_false] at hretry
      rw [hretry] at hlog
      exact hexpire _ _ log' hlog rfl (.inr ⟨rfl, rfl, hunpublished⟩)
  split
  next hgone =>
    rw [Bool.not_eq_true'] at hgone
    subst hgone
    exact hexpire [] _ log (.refl _ _) rfl (.inl rfl)
  next hsame hstill =>
    have hfailed : uploadFailed = true := by simpa using hstill
    subst hfailed
    have hpublished : lifecycle.uploadFailurePublished = true := by
      simpa using hsame
    exact hexpire [] lifecycle log (.refl _ _) (by rw [← hpublished]) (.inl rfl)

theorem pollLifecycle_logs (node : DataCacheNode) (now : Int)
    (lifecycle : EventLifecycle) (log : List EventStatus) :
    Logs present (fun polled log' => ∃ retry ending,
      Publishes lifecycle.triggerId
        (storedStatus lifecycle (present lifecycle.directory ".complete") ++
          (retry ++ ending)) log log' ∧
      Outcome (withStored lifecycle (present lifecycle.directory ".complete"))
        (present lifecycle.directory ".uploaded")
        (present lifecycle.directory ".upload_failed") retry ending polled)
      (pollLifecycle node now lifecycle) log := by
  intro stored log₁ hstored
  obtain ⟨rfl, rfl⟩ := hstored
  refine ⟨trivial, fun recordFailed log₂ hrecord => ⟨trivial, ?_⟩⟩
  obtain ⟨rfl, rfl⟩ := hrecord
  refine fun uploaded log₃ huploaded => ⟨trivial, ?_⟩
  obtain ⟨rfl, rfl⟩ := huploaded
  refine fun uploadFailed log₄ hfailed => ⟨trivial, ?_⟩
  obtain ⟨rfl, rfl⟩ := hfailed
  change Logs present _ ((publishStored lifecycle _).bind _) _
  refine Logs.bind (publishStored_logs lifecycle _ _) ?_
  rintro _ log₅ ⟨hlog, rfl⟩
  split
  · refine Logs.bind (publishStatus_logs _ _ _ log₅) fun _ log₆ hpublished => ?_
    exact ⟨[], [.recordFailed], hlog.trans hpublished, .inl rfl,
      .inr ⟨rfl, .inl rfl⟩, fun kept hkept => by cases hkept⟩
  split
  next huploaded =>
    refine Logs.bind (publishStatus_logs _ _ _ log₅) fun _ log₆ hpublished => ?_
    exact ⟨[], [.uploaded], hlog.trans hpublished, .inl rfl,
      .inr ⟨rfl, .inr (.inl ⟨rfl, huploaded⟩)⟩, fun kept hkept => by cases hkept⟩
  · refine Prog.wp_mono (fun _ h => h) ?_ (fun _ _ h => h)
      (followUpload_logs node now _ (present lifecycle.directory ".uploaded") _
        _ log₅)
    rintro polled log₆ ⟨retry, ending, hpublished, houtcome⟩
    exact ⟨retry, ending, hlog.trans hpublished, houtcome⟩

end Poll

/-! ## The whole table -/

/-- Every lifecycle is followed under its own trigger id. -/
def Keyed (lifecycles : Dict Text EventLifecycle) : Prop :=
  ∀ key lifecycle, lifecycles.get? key = some lifecycle →
    lifecycle.triggerId = key

theorem keyed_empty : Keyed .empty := fun _ _ h => by cases h

theorem Keyed.set {lifecycles : Dict Text EventLifecycle}
    (h : Keyed lifecycles) (lifecycle : EventLifecycle) :
    Keyed (lifecycles.set lifecycle.triggerId lifecycle) := by
  intro key other hget
  rw [Dict.get?_set] at hget
  split at hget
  next heq =>
    cases hget
    exact heq
  · exact h key other hget

theorem Keyed.erase {lifecycles : Dict Text EventLifecycle}
    (h : Keyed lifecycles) (triggerId : Text) :
    Keyed (lifecycles.erase triggerId) := by
  intro key other hget
  rw [Dict.get?_erase] at hget
  split at hget
  · cases hget
  · exact h key other hget

theorem Outcome.triggerId {lifecycle kept : EventLifecycle}
    {uploaded uploadFailed : Bool} {retry ending : List StatusKind}
    {polled : Option EventLifecycle}
    (h : Outcome lifecycle uploaded uploadFailed retry ending polled)
    (hkept : polled = some kept) : kept.triggerId = lifecycle.triggerId := by
  rw [(h.kept kept hkept).2]

theorem Keyed.update {lifecycles : Dict Text EventLifecycle}
    (h : Keyed lifecycles) {triggerId : Text} {polled : Option EventLifecycle}
    (hpolled : ∀ kept, polled = some kept → kept.triggerId = triggerId) :
    Keyed (updateLifecycle lifecycles triggerId polled) := by
  cases polled with
  | none => exact h.erase triggerId
  | some kept =>
      rw [updateLifecycle, ← hpolled kept rfl]
      exact h.set kept

theorem get?_updateLifecycle (lifecycles : Dict Text EventLifecycle)
    (triggerId other : Text) (polled : Option EventLifecycle) :
    (updateLifecycle lifecycles triggerId polled).get? other =
      if triggerId = other then polled else lifecycles.get? other := by
  cases polled with
  | none => exact lifecycles.get?_erase triggerId other
  | some kept => exact lifecycles.get?_set triggerId other kept

/-- What a poll publishes for one lifecycle, and what becomes of it. -/
def PolledTo (present : Markers) (lifecycle : EventLifecycle)
    (statuses : List StatusKind) (polled : Option EventLifecycle) : Prop :=
  ∃ retry ending, statuses =
      storedStatus lifecycle (present lifecycle.directory ".complete") ++
        (retry ++ ending) ∧
    Outcome (withStored lifecycle (present lifecycle.directory ".complete"))
      (present lifecycle.directory ".uploaded")
      (present lifecycle.directory ".upload_failed") retry ending polled

/-- The part of a poll that concerns one trigger id. -/
structure Concerns (present : Markers) (triggerId : Text) (order : List Text)
    (before after : Dict Text EventLifecycle) (log log' : List EventStatus) :
    Prop where
  keyed : Keyed after
  idle : triggerId ∉ order ∨ before.get? triggerId = none →
    statusesFor triggerId log' = statusesFor triggerId log ∧
      after.get? triggerId = before.get? triggerId
  polled : triggerId ∈ order → ∀ lifecycle,
    before.get? triggerId = some lifecycle → ∃ statuses,
      statusesFor triggerId log' = statusesFor triggerId log ++ statuses ∧
      PolledTo present lifecycle statuses (after.get? triggerId)

section Table

variable {present : Markers} {node : DataCacheNode} {now : Int}
  {triggerId : Text}

theorem pollLifecycles_logs {order : List Text} (hnodup : order.Nodup) :
    ∀ {lifecycles : Dict Text EventLifecycle} (log : List EventStatus),
      Keyed lifecycles →
      Logs present (fun polled log' =>
        Concerns present triggerId order lifecycles polled log log')
        (pollLifecycles node now order lifecycles) log := by
  induction order with
  | nil =>
      exact fun log hkeyed => ⟨hkeyed, fun _ => ⟨rfl, rfl⟩,
        fun h => absurd h List.not_mem_nil⟩
  | cons first rest ih =>
      intro lifecycles log hkeyed
      obtain ⟨hfirst, hrest⟩ := List.nodup_cons.mp hnodup
      unfold pollLifecycles
      split
      next hnone =>
        refine Prog.wp_mono (fun _ h => h) ?_ (fun _ _ h => h)
          (ih hrest log hkeyed)
        intro polled log' h
        refine ⟨h.keyed, fun hidle => h.idle ?_, fun hmem lifecycle hget => ?_⟩
        · exact hidle.imp_left fun hnot hmem => hnot (List.mem_cons_of_mem _ hmem)
        · rcases List.mem_cons.mp hmem with rfl | hmem
          · rw [hnone] at hget
            cases hget
          · exact h.polled hmem lifecycle hget
      next lifecycle hlifecycle =>
        have hown := hkeyed first lifecycle hlifecycle
        refine Logs.bind (pollLifecycle_logs node now lifecycle log) ?_
        rintro polled log' ⟨retry, ending, hpublished, houtcome⟩
        have hkeyed' := hkeyed.update fun kept hkept =>
          (houtcome.triggerId hkept).trans hown
        refine Prog.wp_mono (fun _ h => h) ?_ (fun _ _ h => h)
          (ih hrest log' hkeyed')
        intro after log'' h
        have hget := get?_updateLifecycle lifecycles first triggerId polled
        by_cases hsame : first = triggerId
        · subst hsame
          rw [if_pos rfl] at hget
          obtain ⟨hquiet, hafter⟩ := h.idle (.inl hfirst)
          refine ⟨h.keyed, fun hidle => ?_, fun _ other hother => ?_⟩
          · rw [hlifecycle] at hidle
            exact absurd hidle (by simp)
          · rw [hlifecycle, Option.some.injEq] at hother
            subst hother
            rw [hown] at hpublished
            refine ⟨_, hquiet.trans hpublished.statusesFor_self, ?_⟩
            rw [hafter, hget]
            exact ⟨retry, ending, rfl, houtcome⟩
        · rw [if_neg hsame] at hget
          have hother := hpublished.statusesFor_other
            (fun heq => hsame (hown.symm.trans heq))
          refine ⟨h.keyed, fun hidle => ?_, fun hmem other hother' => ?_⟩
          · obtain ⟨hquiet, hafter⟩ := h.idle (by
              rw [hget]
              exact hidle.imp_left fun hnot hmem =>
                hnot (List.mem_cons_of_mem _ hmem))
            exact ⟨hquiet.trans hother, hafter.trans hget⟩
          · have hmem := (List.mem_cons.mp hmem).resolve_left (Ne.symm hsame)
            obtain ⟨statuses, hstatuses, hpolls⟩ :=
              h.polled hmem other (hget.trans hother')
            exact ⟨statuses, by rw [hstatuses, hother], hpolls⟩

theorem pollEventLifecycles_logs {order : List Text}
    (horder : order.Perm node.eventLifecycles.keys)
    (hkeyed : Keyed node.eventLifecycles) :
    Logs present (fun polled log' => Concerns present triggerId order
      node.eventLifecycles polled [] log') (pollEventLifecycles node order)
      [] := by
  intro reading log hlog
  obtain rfl : log = [] := hlog
  exact ⟨trivial, pollLifecycles_logs
    (horder.nodup_iff.mpr node.eventLifecycles.keys_nodup) [] hkeyed⟩

end Table

/-! ## Runs -/

def afterPoll (node : DataCacheNode) (published : List EventStatus)
    (lifecycles : Dict Text EventLifecycle) : DataCacheNode :=
  { node with
    published := node.published ++ published
    eventLifecycles := lifecycles }

/-- A node after any requests and polls. -/
inductive NodeReached : DataCacheNode → Prop
  | create (triggerDedupeTtl : Int) (uploadEnabled uploadFailureAutoRetry : Bool)
      (eventNames : List Text) :
      NodeReached (.create triggerDedupeTtl uploadEnabled uploadFailureAutoRetry
        eventNames)
  | serve {node : DataCacheNode} (h : NodeReached node) (request : TriggerRequest)
      (readings : Readings) (capture : CaptureResult) :
      NodeReached (node.handleTrigger request readings capture).node
  | poll {node : DataCacheNode} (h : NodeReached node) {present : Markers}
      {order : List Text} {published : List EventStatus}
      {lifecycles : Dict Text EventLifecycle}
      (horder : order.Perm node.eventLifecycles.keys)
      (hexec : Prog.Exec (Steady present) [] (pollEventLifecycles node order)
        published (.ret lifecycles)) :
      NodeReached (afterPoll node published lifecycles)

/-- What a poll found of the failed upload, and what it published. -/
structure PollRecord where
  uploadFailed : Bool
  statuses : List StatusKind

/--
A capture since it was accepted: whether the last poll found `.complete`, and
the polls so far.
-/
structure Watch where
  node : DataCacheNode
  complete : Bool
  history : List PollRecord

def traceOf (history : List PollRecord) : List StatusKind :=
  history.flatMap PollRecord.statuses

/-- The request whose answer accepts the capture. -/
structure Accepts (triggerId directory : Text) (w : Watch) : Prop where
  accepted : ∃ node request readings capture, NodeReached node ∧
    (node.handleTrigger request readings capture).captured = some capture ∧
    capture.accepted = true ∧ capture.directory = directory ∧
    (node.handleTrigger request readings capture).triggerId = triggerId ∧
    w.node = (node.handleTrigger request readings capture).node
  complete : w.complete = false
  history : w.history = []

/-- Other captures have other trigger ids. -/
inductive WatchStep (triggerId directory : Text) (w : Watch) : Watch → Prop
  | serve (request : TriggerRequest) (readings : Readings)
      (capture : CaptureResult)
      (hother : (w.node.handleTrigger request readings capture).captured =
          some capture → capture.accepted = true →
        (w.node.handleTrigger request readings capture).triggerId ≠ triggerId) :
      WatchStep triggerId directory w
        { w with node := (w.node.handleTrigger request readings capture).node }
  | poll {present : Markers} {order : List Text} {published : List EventStatus}
      {lifecycles : Dict Text EventLifecycle}
      (hkept : w.complete = true → present directory ".complete" = true)
      (huploaded : present directory ".uploaded" = true →
        present directory ".complete" = true)
      (hfailed : present directory ".upload_failed" = true →
        present directory ".complete" = true)
      (horder : order.Perm w.node.eventLifecycles.keys)
      (hexec : Prog.Exec (Steady present) [] (pollEventLifecycles w.node order)
        published (.ret lifecycles)) :
      WatchStep triggerId directory w
        { node := afterPoll w.node published lifecycles
          complete := present directory ".complete"
          history := w.history ++ [⟨present directory ".upload_failed",
            statusesFor triggerId published⟩] }

abbrev Watched (triggerId directory : Text) : Watch → Watch → Prop :=
  Relation.ReflTransGen (WatchStep triggerId directory)

/-! ## The law -/

def IsUpload (status : StatusKind) : Prop :=
  status = .uploaded ∨ status = .uploadRetrying ∨ status = .uploadFailed

def IsFinal (status : StatusKind) : Prop :=
  status = .uploaded ∨ status = .recordFailed ∨ status = .uploadFailed

def Retries (poll : PollRecord) : Prop := .uploadRetrying ∈ poll.statuses

/-- The order of the statuses. -/
structure Ordered (trace : List StatusKind) : Prop where
  storedOnce : trace.count .stored ≤ 1
  storedFirst : PrecededBy IsUpload (· = .stored) trace
  finalLast : LastOnly IsFinal trace

structure WellFormed (history : List PollRecord) : Prop where
  ordered : Ordered (traceOf history)
  retriedOnce : ∀ poll ∈ history, poll.statuses.count .uploadRetrying ≤ 1
  separated : Separated Retries (fun poll => poll.uploadFailed = false) history

/-- What holds while the capture is still followed. -/
structure Open (triggerId directory : Text) (w : Watch)
    (lifecycle : EventLifecycle) : Prop where
  own : lifecycle.triggerId = triggerId
  directory : lifecycle.directory = directory
  unfinished : ∀ status ∈ traceOf w.history, ¬IsFinal status
  stored : .stored ∈ traceOf w.history ↔ lifecycle.storedPublished = true
  complete : lifecycle.storedPublished = true → w.complete = true
  cleared : lifecycle.uploadFailurePublished = false →
    Cleared Retries (fun poll => poll.uploadFailed = false) w.history

structure Inv (triggerId directory : Text) (w : Watch) : Prop where
  keyed : Keyed w.node.eventLifecycles
  wellFormed : WellFormed w.history
  followed : ∀ lifecycle, w.node.eventLifecycles.get? triggerId =
    some lifecycle → Open triggerId directory w lifecycle

/-- An accepted capture is entered under the trigger id of its request. -/
structure Enters (before : Dict Text EventLifecycle) (readings : Readings)
    (capture : CaptureResult) (handled : Trigger.Handled) : Prop where
  accepted : handled.captured = some capture → capture.accepted = true →
    ∃ eventName source captureId, handled.node.eventLifecycles =
      before.set handled.triggerId
        ⟨eventName, handled.triggerId, source, captureId, capture.directory,
          readings.acceptedAt, false, false⟩
  otherwise : ¬(handled.captured = some capture ∧ capture.accepted = true) →
    handled.node.eventLifecycles = before

theorem handleTrigger_enters (node : DataCacheNode) (request : TriggerRequest)
    (readings : Readings) (capture : CaptureResult) :
    Enters node.eventLifecycles readings capture
      (node.handleTrigger request readings capture) := by
  have htake : ((node.takeTriggerId request readings.rosNow).2).eventLifecycles =
      node.eventLifecycles := by
    unfold DataCacheNode.takeTriggerId
    split <;> rfl
  unfold DataCacheNode.handleTrigger
  generalize node.takeTriggerId request readings.rosNow = taken at htake
  obtain ⟨triggerId, named⟩ := taken
  dsimp only at htake ⊢
  split
  · exact ⟨fun h => (by cases h), fun _ => htake⟩
  split
  · exact ⟨fun h => (by cases h), fun _ => htake⟩
  split
  · exact ⟨fun h => (by cases h), fun _ => htake⟩
  · unfold DataCacheNode.answerCapture
    cases haccepted : capture.accepted with
    | false =>
        simp only [Bool.false_eq_true, if_false]
        exact ⟨fun _ h => absurd (haccepted.symm.trans h) Bool.false_ne_true,
          fun _ => htake⟩
    | true =>
        simp only [if_true]
        refine ⟨fun _ _ => ⟨request.eventName, DataCacheNode.sourceOf request,
          Capture.filename capture.directory, ?_⟩,
          fun h => absurd ⟨rfl, haccepted⟩ h⟩
        rw [← htake]
        rfl

theorem Keyed.handleTrigger {node : DataCacheNode}
    (h : Keyed node.eventLifecycles) (request : TriggerRequest)
    (readings : Readings) (capture : CaptureResult) :
    Keyed (node.handleTrigger request readings capture).node.eventLifecycles := by
  have henters := handleTrigger_enters node request readings capture
  by_cases haccepted : (node.handleTrigger request readings capture).captured =
      some capture ∧ capture.accepted = true
  · obtain ⟨eventName, source, captureId, hset⟩ :=
      henters.accepted haccepted.1 haccepted.2
    rw [hset]
    exact h.set ⟨eventName, (node.handleTrigger request readings
      capture).triggerId, source, captureId, capture.directory,
      readings.acceptedAt, false, false⟩
  · rw [henters.otherwise haccepted]
    exact h

theorem concerns_of_exec {node : DataCacheNode} {present : Markers}
    {order : List Text} {published : List EventStatus}
    {lifecycles : Dict Text EventLifecycle} {triggerId : Text}
    (hkeyed : Keyed node.eventLifecycles)
    (horder : order.Perm node.eventLifecycles.keys)
    (hexec : Prog.Exec (Steady present) [] (pollEventLifecycles node order)
      published (.ret lifecycles)) :
    Concerns present triggerId order node.eventLifecycles lifecycles []
      published :=
  (Prog.wp_exec hexec trivial (pollEventLifecycles_logs horder hkeyed)).2

theorem NodeReached.keyed {node : DataCacheNode} (h : NodeReached node) :
    Keyed node.eventLifecycles := by
  induction h with
  | create => exact keyed_empty
  | serve _ request readings capture ih =>
      exact ih.handleTrigger request readings capture
  | poll _ horder hexec ih =>
      exact (@concerns_of_exec _ _ _ _ _ [] ih horder hexec).keyed

/-! ### One poll -/

theorem Ordered.concat {trace : List StatusKind} {status : StatusKind}
    (h : Ordered trace) (hopen : ∀ other ∈ trace, ¬IsFinal other)
    (hstored : status = .stored → .stored ∉ trace)
    (hupload : IsUpload status → .stored ∈ trace) :
    Ordered (trace ++ [status]) := by
  refine ⟨?_, h.storedFirst.concat fun his => ⟨_, hupload his, rfl⟩,
    .concat hopen⟩
  rw [List.count_append, List.count_singleton]
  split
  next heq =>
    rw [List.count_eq_zero_of_not_mem (hstored (by simpa using heq))]
  · exact h.storedOnce

/-- A trace to which nothing final has been added. -/
structure Growing (trace : List StatusKind) (storedPublished : Bool) : Prop where
  ordered : Ordered trace
  unfinished : ∀ status ∈ trace, ¬IsFinal status
  stored : .stored ∈ trace ↔ storedPublished = true

theorem Growing.store {trace : List StatusKind} {lifecycle : EventLifecycle}
    (h : Growing trace lifecycle.storedPublished) (stored : Bool) :
    Growing (trace ++ storedStatus lifecycle stored)
      (withStored lifecycle stored).storedPublished := by
  unfold storedStatus withStored
  split
  next hnew =>
    rw [Bool.and_eq_true, Bool.not_eq_true'] at hnew
    have hnot : .stored ∉ trace := by
      rw [h.stored, hnew.2]
      exact Bool.false_ne_true
    refine ⟨h.ordered.concat h.unfinished (fun _ => hnot) ?_, ?_, by simp [hnew.1]⟩
    · rintro (his | his | his) <;> cases his
    · intro status hstatus
      rcases List.mem_append.mp hstatus with hstatus | hstatus
      · exact h.unfinished status hstatus
      · rw [List.mem_singleton.mp hstatus]
        rintro (his | his | his) <;> cases his
  next hold =>
    rw [List.append_nil]
    refine ⟨h.ordered, h.unfinished, h.stored.trans ?_⟩
    cases stored <;> simp_all

theorem Growing.retry {trace retry : List StatusKind}
    (h : Growing trace true)
    (hretry : retry = [] ∨ retry = [.uploadRetrying]) :
    Growing (trace ++ retry) true := by
  rcases hretry with rfl | rfl
  · rwa [List.append_nil]
  · refine ⟨h.ordered.concat h.unfinished (fun heq => by cases heq)
      fun _ => h.stored.mpr rfl, fun status hstatus => ?_, by simp [h.stored]⟩
    rcases List.mem_append.mp hstatus with hstatus | hstatus
    · exact h.unfinished status hstatus
    · rw [List.mem_singleton.mp hstatus]
      rintro (his | his | his) <;> cases his

/-- The markers at a poll: an upload is only marked beside `.complete`. -/
structure UploadsComplete (present : Markers) (directory : Text) : Prop where
  uploaded : present directory ".uploaded" = true →
    present directory ".complete" = true
  failed : present directory ".upload_failed" = true →
    present directory ".complete" = true

theorem Growing.polls {trace statuses : List StatusKind}
    {lifecycle : EventLifecycle} {present : Markers}
    {polled : Option EventLifecycle}
    (h : Growing trace lifecycle.storedPublished)
    (hmarkers : UploadsComplete present lifecycle.directory)
    (hpolls : PolledTo present lifecycle statuses polled) :
    Ordered (trace ++ statuses) ∧
      (∀ kept, polled = some kept →
        Growing (trace ++ statuses) kept.storedPublished) ∧
      statuses.count .uploadRetrying ≤ 1 ∧
      (.uploadRetrying ∈ statuses →
        present lifecycle.directory ".upload_failed" = true ∧
        lifecycle.uploadFailurePublished = false) := by
  obtain ⟨retry, ending, rfl, houtcome⟩ := hpolls
  have hstored := h.store (present lifecycle.directory ".complete")
  have hnotStored : .uploadRetrying ∉ storedStatus lifecycle
      (present lifecycle.directory ".complete") := by
    unfold storedStatus
    split <;> simp
  have hnotEnding : .uploadRetrying ∉ ending := by
    rcases houtcome.ended with rfl | ⟨-, rfl | ⟨rfl, -⟩ | ⟨rfl, -⟩⟩ <;> simp
  -- An upload status needs `.complete`, so `STORED` is in the trace by then.
  have hpublished : ∀ {marked : Bool},
      (marked = true → present lifecycle.directory ".complete" = true) →
      marked = true → (withStored lifecycle
        (present lifecycle.directory ".complete")).storedPublished = true := by
    intro marked hcomplete hmarked
    rw [withStored, hcomplete hmarked, Bool.or_true]
  have hretried : Growing (trace ++ storedStatus lifecycle
      (present lifecycle.directory ".complete") ++ retry)
      (withStored lifecycle
        (present lifecycle.directory ".complete")).storedPublished := by
    rcases houtcome.retried with rfl | ⟨rfl, hfailed, -⟩
    · rwa [List.append_nil]
    · rw [hpublished hmarkers.failed hfailed] at hstored ⊢
      exact hstored.retry (.inr rfl)
  rw [← List.append_assoc, ← List.append_assoc]
  refine ⟨?_, fun kept hkept => ?_, ?_, fun hmem => ?_⟩
  · rcases houtcome.ended with rfl | ⟨-, rfl | ⟨rfl, huploaded⟩ | ⟨rfl, hfailed⟩⟩
    · rw [List.append_nil]
      exact hretried.ordered
    · refine hretried.ordered.concat hretried.unfinished
        (fun heq => by cases heq) ?_
      rintro (his | his | his) <;> cases his
    · exact hretried.ordered.concat hretried.unfinished (fun heq => by cases heq)
        fun _ => hretried.stored.mpr (hpublished hmarkers.uploaded huploaded)
    · exact hretried.ordered.concat hretried.unfinished (fun heq => by cases heq)
        fun _ => hretried.stored.mpr (hpublished hmarkers.failed hfailed)
  · obtain ⟨rfl, rfl⟩ := houtcome.kept kept hkept
    rwa [List.append_nil]
  · rw [List.count_append, List.count_append,
      List.count_eq_zero_of_not_mem hnotStored,
      List.count_eq_zero_of_not_mem hnotEnding]
    rcases houtcome.retried with rfl | ⟨rfl, -, -⟩ <;> simp
  · rcases houtcome.retried with rfl | ⟨rfl, hfailed, hflag⟩
    · simp only [List.nil_append, List.mem_append] at hmem
      exact absurd hmem (not_or.mpr ⟨hnotStored, hnotEnding⟩)
    · exact ⟨hfailed, hflag⟩

/-! ### Every run -/

theorem traceOf_concat (history : List PollRecord) (poll : PollRecord) :
    traceOf (history ++ [poll]) = traceOf history ++ poll.statuses := by
  simp [traceOf]

theorem Accepts.inv {triggerId directory : Text} {w : Watch}
    (h : Accepts triggerId directory w) : Inv triggerId directory w := by
  obtain ⟨node, request, readings, capture, hnode, hcaptured, haccepted,
    hdirectory, rfl, hw⟩ := h.accepted
  have hkeyed := hnode.keyed.handleTrigger request readings capture
  obtain ⟨eventName, source, captureId, hset⟩ := (handleTrigger_enters node
    request readings capture).accepted hcaptured haccepted
  rw [← hw] at hkeyed hset
  constructor
  case keyed => exact hkeyed
  case wellFormed =>
    rw [h.history]
    constructor
    case ordered => exact ⟨by simp [traceOf],
      fun before x after hsplit => by simp [traceOf] at hsplit,
      fun before x after hsplit => by simp [traceOf] at hsplit⟩
    case retriedOnce => simp
    case separated => exact fun before x between y after hsplit => by simp at hsplit
  case followed =>
    intro lifecycle hget
    rw [hset, Dict.get?_set_self, Option.some.injEq] at hget
    subst hget
    refine ⟨rfl, hdirectory, ?_, ?_, fun hstored => (by cases hstored), ?_⟩ <;>
      rw [h.history]
    · simp [traceOf]
    · simp [traceOf]
    · exact fun _ before x after hsplit => by simp at hsplit

theorem Inv.serve {triggerId directory : Text} {w : Watch}
    (h : Inv triggerId directory w) (request : TriggerRequest)
    (readings : Readings) (capture : CaptureResult)
    (hother : (w.node.handleTrigger request readings capture).captured =
        some capture → capture.accepted = true →
      (w.node.handleTrigger request readings capture).triggerId ≠ triggerId) :
    Inv triggerId directory
      { w with node := (w.node.handleTrigger request readings capture).node } := by
  refine ⟨h.keyed.handleTrigger request readings capture, h.wellFormed, ?_⟩
  intro lifecycle hget
  have henters := handleTrigger_enters w.node request readings capture
  have hbefore : w.node.eventLifecycles.get? triggerId = some lifecycle := by
    by_cases haccepted : (w.node.handleTrigger request readings
        capture).captured = some capture ∧ capture.accepted = true
    · obtain ⟨eventName, source, captureId, hset⟩ :=
        henters.accepted haccepted.1 haccepted.2
      rwa [hset, Dict.get?_set_ne _ _ (hother haccepted.1 haccepted.2)] at hget
    · rwa [henters.otherwise haccepted] at hget
  have hopen := h.followed lifecycle hbefore
  exact ⟨hopen.own, hopen.directory, hopen.unfinished, hopen.stored,
    hopen.complete, hopen.cleared⟩

theorem Inv.poll {triggerId directory : Text} {w : Watch}
    (h : Inv triggerId directory w) {present : Markers} {order : List Text}
    {published : List EventStatus} {lifecycles : Dict Text EventLifecycle}
    (hkept : w.complete = true → present directory ".complete" = true)
    (hmarkers : UploadsComplete present directory)
    (horder : order.Perm w.node.eventLifecycles.keys)
    (hexec : Prog.Exec (Steady present) [] (pollEventLifecycles w.node order)
      published (.ret lifecycles)) :
    Inv triggerId directory
      { node := afterPoll w.node published lifecycles
        complete := present directory ".complete"
        history := w.history ++ [⟨present directory ".upload_failed",
          statusesFor triggerId published⟩] } := by
  have hconcerns := @concerns_of_exec _ _ _ _ _ triggerId h.keyed horder hexec
  cases hentry : w.node.eventLifecycles.get? triggerId with
  | none =>
      obtain ⟨hquiet, hafter⟩ := hconcerns.idle (.inr hentry)
      have hquiet : statusesFor triggerId published = [] := hquiet
      rw [hquiet]
      refine ⟨hconcerns.keyed, ⟨?_, ?_, ?_⟩, fun lifecycle hget => ?_⟩
      · rw [traceOf_concat, List.append_nil]
        exact h.wellFormed.ordered
      · intro poll hpoll
        rcases List.mem_append.mp hpoll with hpoll | hpoll
        · exact h.wellFormed.retriedOnce poll hpoll
        · rw [List.mem_singleton.mp hpoll]
          exact Nat.zero_le _
      · exact h.wellFormed.separated.concat fun hretries =>
          absurd hretries List.not_mem_nil
      · have hget : lifecycles.get? triggerId = some lifecycle := hget
        rw [hafter, hentry] at hget
        cases hget
  | some lifecycle =>
      have hopen := h.followed lifecycle hentry
      have hmem : triggerId ∈ order := by
        rw [horder.mem_iff, Dict.mem_keys_iff]
        exact ⟨lifecycle, hentry⟩
      obtain ⟨statuses, hstatuses, hpolls⟩ :=
        hconcerns.polled hmem lifecycle hentry
      have hstatuses : statusesFor triggerId published = statuses := hstatuses
      obtain ⟨hordered, hgrowing, honce, hretried⟩ := Growing.polls
        ⟨h.wellFormed.ordered, hopen.unfinished, hopen.stored⟩
        (by rw [hopen.directory]; exact hmarkers) hpolls
      rw [hopen.directory] at hretried
      rw [hstatuses]
      refine ⟨hconcerns.keyed, ⟨?_, ?_, ?_⟩, fun kept hget => ?_⟩
      · rw [traceOf_concat]
        exact hordered
      · intro poll hpoll
        rcases List.mem_append.mp hpoll with hpoll | hpoll
        · exact h.wellFormed.retriedOnce poll hpoll
        · rw [List.mem_singleton.mp hpoll]
          exact honce
      · exact h.wellFormed.separated.concat fun hretries =>
          hopen.cleared (hretried hretries).2
      · have hget : lifecycles.get? triggerId = some kept := hget
        have hgrown := hgrowing kept hget
        obtain ⟨retry, ending, hsplit, houtcome⟩ := hpolls
        obtain ⟨rfl, rfl⟩ := houtcome.kept kept hget
        refine ⟨hopen.own, hopen.directory, ?_, ?_, ?_, ?_⟩
        · rw [traceOf_concat]
          exact hgrown.unfinished
        · rw [traceOf_concat]
          exact hgrown.stored
        · intro hstored
          rcases Bool.or_eq_true _ _ ▸ hstored with hbefore | hnow
          · exact hkept (hopen.complete hbefore)
          · rwa [hopen.directory] at hnow
        · intro hflag
          have hflag : present lifecycle.directory ".upload_failed" = false := hflag
          rw [hopen.directory] at hflag
          refine Cleared.concat hflag fun hretries => ?_
          rw [(hretried hretries).1] at hflag
          cases hflag

theorem Watched.inv {triggerId directory : Text} {start w : Watch}
    (hstart : Accepts triggerId directory start)
    (h : Watched triggerId directory start w) : Inv triggerId directory w := by
  induction h with
  | refl => exact hstart.inv
  | tail _ hstep ih =>
      cases hstep with
      | serve request readings capture hother =>
          exact ih.serve request readings capture hother
      | poll hkept huploaded hfailed horder hexec =>
          exact ih.poll hkept ⟨huploaded, hfailed⟩ horder hexec

/-- Whatever the markers do between the polls, the statuses come in order. -/
theorem polled_statuses_wellFormed {triggerId directory : Text}
    {start w : Watch} (hstart : Accepts triggerId directory start)
    (h : Watched triggerId directory start w) : WellFormed w.history :=
  (Watched.inv hstart h).wellFormed

def respondSteady (present : Markers) (log : List EventStatus) :
    (op : PollOp) → Option (op.Res × List EventStatus)
  | .steadyNow => some ((0 : Int), log)
  | .exists directory name => some (present directory name, log)
  | .publish update => some ((), log ++ [update])

theorem steady_respondSteady {present : Markers} :
    ∀ log op r log', respondSteady present log op = some (r, log') →
      Steady present log op r log' := by
  intro log op r log' h
  cases op with
  | steadyNow =>
      cases h
      rfl
  | «exists» directory name =>
      cases h
      exact ⟨rfl, rfl⟩
  | publish update =>
      cases h
      rfl

/-- A capture's next poll when its directory holds these markers. -/
def pollMarked (names : List Text) (w : Watch) : Watch :=
  match Prog.tryRun (respondSteady fun _ name => names.contains name)
      (pollEventLifecycles w.node w.node.eventLifecycles.keys) [] with
  | some (.ok lifecycles, published) =>
      { node := afterPoll w.node published lifecycles
        complete := names.contains ".complete"
        history := w.history ++ [⟨names.contains ".upload_failed",
          statusesFor "1" published⟩] }
  | _ => w

theorem Watched.pollMarked {start w : Watch}
    (h : Watched "1" "brake_0_7" start w) {names : List Text}
    (hcomplete : names.contains ".complete" = true) :
    Watched "1" "brake_0_7" start (pollMarked names w) := by
  unfold Lifecycle.pollMarked
  split
  next lifecycles published hrun =>
    have hexec := @Prog.exec_tryRun _ _ _ _ _ (Steady _) _
      steady_respondSteady _ _ _ _ hrun
    exact h.tail (.poll (fun _ => hcomplete) (fun _ => hcomplete)
      (fun _ => hcomplete) (.refl _) hexec)
  · exact h

def acceptedWatch : Watch :=
  ⟨((DataCacheNode.create 0 true true ["brake"]).handleTrigger
    ⟨"brake", "1", "button"⟩ ⟨0, 0, 0, 0, none⟩ ⟨true, "brake_0_7", []⟩).node,
    false, []⟩

theorem accepts_acceptedWatch : Accepts "1" "brake_0_7" acceptedWatch :=
  ⟨⟨_, _, _, _, .create 0 true true ["brake"], rfl, rfl, rfl, rfl, rfl⟩,
    rfl, rfl⟩

/-- The upload is put off twice before it succeeds. -/
def retriedTwice : Watch :=
  pollMarked [".complete", ".uploaded"] <|
  pollMarked [".complete", ".upload_failed"] <|
  pollMarked [".complete"] <|
  pollMarked [".complete", ".upload_failed"] acceptedWatch

theorem polled_statuses_wellFormed_retriedTwice :
    traceOf retriedTwice.history =
      [.stored, .uploadRetrying, .uploadRetrying, .uploaded] ∧
    WellFormed retriedTwice.history := by
  have hwatched : Watched "1" "brake_0_7" acceptedWatch retriedTwice :=
    .pollMarked (.pollMarked (.pollMarked (.pollMarked .refl rfl) rfl) rfl) rfl
  exact ⟨by decide +kernel,
    polled_statuses_wellFormed accepts_acceptedWatch hwatched⟩

end DataCache.Lifecycle
