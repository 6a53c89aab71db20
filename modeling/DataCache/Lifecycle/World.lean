import DataCache.Capture.Created
import DataCache.EventState.Verdict
import DataCache.Lifecycle.Poll

/-!
# One event directory among the node's threads

The trigger service, the scheduler and the poll are callbacks of one node and
never overlap; the storage worker, the uploader and the retention sweep run at
any moment, also in the middle of a poll.  One directory's markers are followed
through `begin`, the verdict and whatever removes them.
-/

namespace DataCache.Lifecycle

open DataCache.Foundation DataCache.Storage DataCache.EventState
open DataCache.Capture (CaptureResult Clock Creating Job SensorData Settings
  System PairIndex recordDataAroundEventDetailed processExpiredCaptures)
open DataCache.Trigger (DataCacheNode EventLifecycle EventStatus Readings
  TriggerRequest)

/-- What is being written to the markers. -/
inductive Marking where
  | beginning (rest : Action Bool)
  | judging (rest : Action Bool)
  | judged

/-- `begin` has returned true. -/
def Marking.Begun : Marking → Prop
  | .beginning rest => rest = .ret true
  | _ => True

/--
`acceptances` are the times at which a capture in the directory was accepted,
and `overdue` whether a poll more than five minutes after one of them found no
`.complete`; no step of the program reads either.
-/
structure State where
  node : DataCacheNode
  monitor : System × List Text
  store : Store
  marking : Marking
  clock : Int
  acceptances : List Int
  overdue : Bool

structure World where
  state : State
  polling : Option (Poll (Dict Text EventLifecycle))

def State.present (directory : Text) (s : State) (marker : Marker) : Bool :=
  (s.store.disk.node? (marker.path directory)).isSome

/-- More than five minutes have passed since one of these times. -/
def isLate (acceptances : List Int) (now : Int) : Bool :=
  acceptances.any fun acceptedAt => decide (now - acceptedAt > fiveMinutes)

/-! ## The threads beside the callbacks -/

/-- Other activity never writes a verdict into the directory. -/
def Vanishing (directory : Text) (s s' : Store) : Prop :=
  ∀ marker ∈ [Marker.complete, Marker.failed],
    (s'.disk.node? (marker.path directory)).isSome = true →
    (s.disk.node? (marker.path directory)).isSome = true

/-- An operation on the markers, with other activity before and after it. -/
def Disturbed (codec : Codec) (directory : Text) :
    Prog.Effect FsOp.Res Store := fun s op r s' =>
  ∃ before during, Vanishing directory s before ∧
    Effect codec before op r during ∧ Vanishing directory during s'

/--
A `.complete` is written for the final job of the capture.  While the trigger
is still being answered, what its jobs came to is not in the state yet.
-/
def FinalJobTaken (directory : Text) (s : State) : Prop :=
  s.acceptances = [] ∨ ∃ job ∈ s.monitor.1.consumed,
    job.directory = directory ∧ job.finalJob = true

inductive Threads (codec : Codec) (directory : Text) (s : State) : State → Prop
  | beginning {op : FsOp} {next : op.Res → Action Bool} {r : op.Res}
      {store : Store} (hmarking : s.marking = .beginning (.call op next))
      (heffect : Disturbed codec directory s.store op r store) :
      Threads codec directory s
        { s with store := store, marking := .beginning (next r) }
  | refused (hmarking : s.marking = .beginning (.ret false)) :
      Threads codec directory s { s with marking := .judged }
  | judge {judgement : Action Bool}
      (hmarking : s.marking = .beginning (.ret true))
      (hjudgement : Judgement directory judgement)
      (hfinal : ∀ recordCount reason,
        judgement = completeOrFail directory recordCount reason →
          FinalJobTaken directory s) :
      Threads codec directory s { s with marking := .judging judgement }
  | judging {op : FsOp} {next : op.Res → Action Bool} {r : op.Res}
      {store : Store} (hmarking : s.marking = .judging (.call op next))
      (heffect : Disturbed codec directory s.store op r store) :
      Threads codec directory s
        { s with store := store, marking := .judging (next r) }
  | judged {written : Bool} (hmarking : s.marking = .judging (.ret written)) :
      Threads codec directory s { s with marking := .judged }
  | elsewhere {store : Store} (hstore : Vanishing directory s.store store) :
      Threads codec directory s { s with store }
  | consume (count : Nat) :
      Threads codec directory s
        { s with monitor := (s.monitor.1.pop count, s.monitor.2) }

/-! ## The callbacks -/

/-- What an operation of a poll answers and leaves. -/
def Performs (codec : Codec) (directory : Text) :
    Prog.Effect PollOp.Res State
  | s, .steadyNow, now, s' => s.clock ≤ now ∧ s' = { s with clock := now }
  | s, .exists target name, found, s' =>
      (∃ answer : Option Bool,
        Effect codec s.store (.exists (markerPath target name)) answer s.store ∧
          found = answer.getD false) ∧
      s' = { s with
        overdue := s.overdue ||
          (decide (target = directory ∧ name = ".complete") && !found &&
            isLate s.acceptances s.clock) }
  | s, .publish update, _, s' =>
      s' = { s with node := s.node.publishEventStatus update }

/-- The monitor, asked in this state, could answer so and leave `after`. -/
def Answers (settings : Settings) (s : State) (request : TriggerRequest)
    (readings : Readings) (result : CaptureResult)
    (after : System × List Text) : Prop :=
  ∃ clock : Clock, readings.arrival ≤ clock.steadyNow ∧
    clock.steadyNow ≤ readings.acceptedAt ∧
    Prog.Exec Creating s.monitor
      (recordDataAroundEventDetailed settings clock request.eventName) after
      (.ret result)

/-- The node answers a request; `after` is the monitor if it was asked. -/
def State.serve (directory : Text) (s : State) (request : TriggerRequest)
    (readings : Readings) (result : CaptureResult)
    (after : System × List Text) : State :=
  let handled := s.node.handleTrigger request readings result
  let accepted := handled.captured.any fun capture =>
    capture.accepted && decide (capture.directory = directory)
  { s with
    node := handled.node
    monitor := if handled.captured.isSome then after else s.monitor
    clock := readings.answered
    acceptances := if accepted then s.acceptances ++ [readings.acceptedAt]
      else s.acceptances }

def State.frame (s : State) (data : SensorData) : State :=
  { s with
    monitor := ({ s.monitor.1 with
      buffer := s.monitor.1.buffer.addData data
      arrivals := s.monitor.1.arrivals ++ [data] }, s.monitor.2) }

def State.endPoll (s : State) (lifecycles : Dict Text EventLifecycle) : State :=
  { s with node := { s.node with eventLifecycles := lifecycles } }

inductive Step (settings : Settings) (codec : Codec) (directory : Text) :
    World → World → Prop
  | threads {s s' : State} {polling : Option (Poll (Dict Text EventLifecycle))}
      (h : Threads codec directory s s') :
      Step settings codec directory ⟨s, polling⟩ ⟨s', polling⟩
  | serve {s : State} (request : TriggerRequest) (readings : Readings)
      (result : CaptureResult) (after : System × List Text)
      (hclock : s.clock ≤ readings.arrival)
      (hanswered : readings.acceptedAt ≤ readings.answered)
      (hanswers : Answers settings s request readings result after)
      (hbegun : result.accepted = true → result.directory = directory →
        s.marking.Begun) :
      Step settings codec directory ⟨s, none⟩
        ⟨s.serve directory request readings result after, none⟩
  | frame {s : State} (data : SensorData) :
      Step settings codec directory ⟨s, none⟩ ⟨s.frame data, none⟩
  | ledger {s : State} (pairIndex : PairIndex) :
      Step settings codec directory ⟨s, none⟩
        ⟨{ s with monitor := ({ s.monitor.1 with pairIndex }, s.monitor.2) },
          none⟩
  | schedule {s : State} (clock : Clock) {after : System × List Text}
      (hclock : s.clock ≤ clock.steadyNow)
      (hexec : Prog.Exec Creating s.monitor
        (processExpiredCaptures settings clock) after (.ret ())) :
      Step settings codec directory ⟨s, none⟩
        ⟨{ s with monitor := after, clock := clock.steadyNow }, none⟩
  | startPoll {s : State} (order : List Text)
      (horder : order.Perm s.node.eventLifecycles.keys) :
      Step settings codec directory ⟨s, none⟩
        ⟨s, some (pollEventLifecycles s.node order)⟩
  | poll {s s' : State} {op : PollOp}
      {next : op.Res → Poll (Dict Text EventLifecycle)} {r : op.Res}
      (h : Performs codec directory s op r s') :
      Step settings codec directory ⟨s, some (.call op next)⟩
        ⟨s', some (next r)⟩
  | endPoll {s : State} {lifecycles : Dict Text EventLifecycle} :
      Step settings codec directory ⟨s, some (.ret lifecycles)⟩
        ⟨s.endPoll lifecycles, none⟩

abbrev Reaches (settings : Settings) (codec : Codec) (directory : Text) :
    World → World → Prop :=
  Relation.ReflTransGen (Step settings codec directory)

/-- A node that has just started, before the directory is created. -/
structure Starts (settings : Settings) (directory : Text) (w : World) : Prop where
  node : ∃ triggerDedupeTtl uploadEnabled uploadFailureAutoRetry eventNames,
    w.state.node = .create triggerDedupeTtl uploadEnabled uploadFailureAutoRetry
      eventNames
  monitor : ∃ maxSize maxAge maxBytes,
    w.state.monitor = (Capture.initial settings maxSize maxAge maxBytes, [])
  fresh : ∀ marker, w.state.present directory marker = false
  marking : ∃ eventName acceptedAtNs,
    w.state.marking = .beginning (begin directory eventName acceptedAtNs)
  acceptances : w.state.acceptances = []
  overdue : w.state.overdue = false
  polling : w.polling = none

end DataCache.Lifecycle
