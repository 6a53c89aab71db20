import DataCache.Trigger.Node
import DataCache.Trigger.Policy

/-!
# The event router

A signal that the policy accepts is sent to the trigger service.  A call that
fails, or is answered without success, releases the trigger id.
-/

namespace DataCache.Trigger

open DataCache.Foundation

structure EventSignal where
  eventName : Text
  triggerId : Text
  source : Text
  deriving DecidableEq

structure EventRouterNode where
  policy : EventRouterPolicy
  nextTriggerId : Nat
  published : List EventStatus

def validEventName (name : Text) : Bool :=
  match name with
  | [] => false
  | first :: _ =>
      decide (name.length ≤ 96) && first.isAlphanum &&
        name.all fun c => c.isAlphanum || c == '_' || c == '-' || c == '.'

namespace EventRouterNode

def nanosPerMillisecond : Int := 1000000

def create (dedupeTtlMs cooldownMs : Int) : EventRouterNode :=
  ⟨.create (max 1 dedupeTtlMs * nanosPerMillisecond)
    (max 0 cooldownMs * nanosPerMillisecond), 0, []⟩

def publishStatus (router : EventRouterNode) (request : TriggerRequest)
    (status : StatusKind) (message : Text) : EventRouterNode :=
  { router with
    published := router.published ++
      [⟨status, request.eventName, request.triggerId, request.source, [], [],
        message⟩] }

/-- Fill in the source and the trigger id. -/
def complete (router : EventRouterNode) (signal : EventSignal) (rosNow : Int) :
    TriggerRequest × EventRouterNode :=
  let source : Text := if signal.source.isEmpty then "unknown" else signal.source
  if signal.triggerId.isEmpty then
    (⟨signal.eventName, source ++ "-" ++ showInt rosNow ++ "-" ++
        showNat router.nextTriggerId, source⟩,
      { router with nextTriggerId := router.nextTriggerId + 1 })
  else (⟨signal.eventName, signal.triggerId, source⟩, router)

/-- The request that is sent to the service, if any. -/
def route (router : EventRouterNode) (signal : EventSignal) (rosNow : Int)
    (serviceReady : Bool) (steadyNow : Int) :
    Option TriggerRequest × EventRouterNode :=
  if !validEventName signal.eventName then
    (none, router.publishStatus ⟨signal.eventName, signal.triggerId, signal.source⟩
      .rejected "invalid event name")
  else
    let (request, router) := router.complete signal rosNow
    let router := router.publishStatus request .received "event received"
    if !serviceReady then
      (none, router.publishStatus request .rejected "trigger service unavailable")
    else
      let (decision, policy) :=
        router.policy.evaluate request.eventName request.triggerId steadyNow
      let router := { router with policy }
      match decision with
      | .duplicate =>
          (none, router.publishStatus request .rejected "duplicate trigger_id")
      | .coolingDown =>
          (none, router.publishStatus request .rejected "event is cooling down")
      | .accept => (some request, router)

/-- The callback of the service call: its answer, or what went wrong with it. -/
def finishCall (router : EventRouterNode) (request : TriggerRequest)
    (outcome : Except Text TriggerResponse) : EventRouterNode :=
  match outcome with
  | .ok response =>
      if response.success then router
      else { router with policy := router.policy.release request.triggerId }
  | .error what =>
      { router with policy := router.policy.release request.triggerId }.publishStatus
        request .rejected ("trigger RPC failed: " ++ what)

/-! ## What is sent -/

theorem complete_named (router : EventRouterNode) (signal : EventSignal)
    (rosNow : Int) :
    (router.complete signal rosNow).1.eventName = signal.eventName ∧
      (router.complete signal rosNow).1.triggerId ≠ [] := by
  unfold complete
  dsimp only
  split
  next =>
    refine ⟨rfl, fun hempty => ?_⟩
    have hdash := (List.append_eq_nil_iff.mp hempty).1
    have hdash := (List.append_eq_nil_iff.mp hdash).2
    exact absurd hdash (by decide)
  next hnamed => exact ⟨rfl, by simpa using hnamed⟩

/-- A request that is sent names its event and its trigger. -/
theorem named_of_route {router : EventRouterNode} {signal : EventSignal}
    {rosNow : Int} {serviceReady : Bool} {steadyNow : Int}
    {request : TriggerRequest}
    (h : (router.route signal rosNow serviceReady steadyNow).1 = some request) :
    request.eventName ≠ [] ∧ request.triggerId ≠ [] := by
  obtain ⟨hname, hid⟩ := router.complete_named signal rosNow
  unfold route at h
  dsimp only at h
  split at h
  next => cases h
  next hvalid =>
    have hnonempty : signal.eventName ≠ [] := by
      intro hempty
      rw [hempty] at hvalid
      exact hvalid rfl
    split at h
    next => cases h
    next =>
      split at h
      next => cases h
      next => cases h
      next =>
        obtain rfl := Option.some.inj h
        exact ⟨hname ▸ hnonempty, hid⟩

end EventRouterNode

end DataCache.Trigger
