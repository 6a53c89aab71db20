import DataCache.Trigger.Node

/-!
# Polling the event lifecycles

The node follows every accepted capture by the markers in its directory.  A
poll reads the clock once, looks at the markers of each capture and publishes
what changed; other threads may change the markers between any two looks.
-/

namespace DataCache.Lifecycle

open DataCache.Foundation DataCache.Capture DataCache.Trigger

inductive PollOp where
  | steadyNow
  | exists (directory name : Text)
  | publish (update : EventStatus)

def PollOp.Res : PollOp → Type
  | steadyNow => Int
  | «exists» _ _ => Bool
  | publish _ => Unit

abbrev Poll (α : Type) : Type := Prog PollOp.Res Empty α

def perform (op : PollOp) : Poll op.Res := .call op .ret

/-- `std::filesystem::exists` with an error code that is not looked at. -/
def markerExists (directory name : Text) : Poll Bool :=
  perform (.exists directory name)

def fiveMinutes : Int := 5 * 60 * nanosPerSecond

def publishStatus (lifecycle : EventLifecycle) (status : StatusKind)
    (message : Text) : Poll Unit :=
  perform (.publish ⟨status, lifecycle.eventName, lifecycle.triggerId,
    lifecycle.source, lifecycle.captureId, lifecycle.directory, message⟩)

def publishStored (lifecycle : EventLifecycle) (stored : Bool) :
    Poll EventLifecycle :=
  if stored && !lifecycle.storedPublished then do
    publishStatus lifecycle .stored "recording complete"
    return { lifecycle with storedPublished := true }
  else return lifecycle

def publishUploadFailed (node : DataCacheNode) (lifecycle : EventLifecycle) :
    Poll Unit :=
  if node.uploadFailureAutoRetry then
    publishStatus lifecycle .uploadRetrying
      "RPC upload delayed; automatic retry scheduled"
  else publishStatus lifecycle .uploadFailed "RPC upload retries exhausted"

/-- The last two rules: nothing left to follow, and the timeout. -/
def expireLifecycle (node : DataCacheNode) (now : Int) (stored : Bool)
    (lifecycle : EventLifecycle) : Poll (Option EventLifecycle) :=
  if !node.uploadEnabled && lifecycle.storedPublished then return none
  else if !stored && decide (now - lifecycle.acceptedAt > fiveMinutes) then do
    publishStatus lifecycle .recordFailed
      "recording did not complete before timeout"
    return none
  else return some lifecycle

def followUpload (node : DataCacheNode) (now : Int)
    (stored uploadFailed : Bool) (lifecycle : EventLifecycle) :
    Poll (Option EventLifecycle) :=
  if uploadFailed && !lifecycle.uploadFailurePublished then do
    publishUploadFailed node lifecycle
    if !node.uploadFailureAutoRetry then return none
    else
      expireLifecycle node now stored
        { lifecycle with uploadFailurePublished := true }
  else if !uploadFailed then
    expireLifecycle node now stored
      { lifecycle with uploadFailurePublished := false }
  else expireLifecycle node now stored lifecycle

/-- One round of the loop: the lifecycle afterwards, `none` once it is erased. -/
def pollLifecycle (node : DataCacheNode) (now : Int)
    (lifecycle : EventLifecycle) : Poll (Option EventLifecycle) := do
  let stored ← markerExists lifecycle.directory ".complete"
  let recordFailed ← markerExists lifecycle.directory ".failed"
  let uploaded ← markerExists lifecycle.directory ".uploaded"
  let uploadFailed ← markerExists lifecycle.directory ".upload_failed"
  let lifecycle ← publishStored lifecycle stored
  if recordFailed then
    publishStatus lifecycle .recordFailed "recording failed during persistence"
    return none
  else if uploaded then
    publishStatus lifecycle .uploaded "RPC upload complete"
    return none
  else followUpload node now stored uploadFailed lifecycle

def updateLifecycle (lifecycles : Dict Text EventLifecycle) (triggerId : Text) :
    Option EventLifecycle → Dict Text EventLifecycle
  | some lifecycle => lifecycles.set triggerId lifecycle
  | none => lifecycles.erase triggerId

def pollLifecycles (node : DataCacheNode) (now : Int) :
    List Text → Dict Text EventLifecycle → Poll (Dict Text EventLifecycle)
  | [], lifecycles => return lifecycles
  | triggerId :: rest, lifecycles =>
      match lifecycles.get? triggerId with
      | none => pollLifecycles node now rest lifecycles
      | some lifecycle => do
          let polled ← pollLifecycle node now lifecycle
          pollLifecycles node now rest
            (updateLifecycle lifecycles triggerId polled)

/-- `order` is the order in which the hash table is walked. -/
def pollEventLifecycles (node : DataCacheNode) (order : List Text) :
    Poll (Dict Text EventLifecycle) := do
  let now ← perform .steadyNow
  pollLifecycles node now order node.eventLifecycles

end DataCache.Lifecycle
