import DataCache.Capture.EventMonitor

/-!
# The trigger service of the cache node

A request is answered from the responses that are still remembered, and
otherwise by a capture.  Every new answer is remembered under its trigger id,
with an expiry that an answer from memory does not move.
-/

namespace DataCache.Trigger

open DataCache.Foundation DataCache.Capture

structure TriggerRequest where
  eventName : Text
  triggerId : Text
  source : Text
  deriving DecidableEq

structure TriggerResponse where
  success : Bool
  message : Text
  captureId : Text
  recordDirectory : Text
  deriving DecidableEq

inductive StatusKind where
  | received
  | accepted
  | rejected
  | stored
  | uploaded
  | recordFailed
  | uploadFailed
  | uploadRetrying
  deriving DecidableEq

structure EventStatus where
  status : StatusKind
  eventName : Text
  triggerId : Text
  source : Text
  captureId : Text
  recordDirectory : Text
  message : Text
  deriving DecidableEq

structure EventLifecycle where
  eventName : Text
  triggerId : Text
  source : Text
  captureId : Text
  directory : Text
  acceptedAt : Int
  storedPublished : Bool
  uploadFailurePublished : Bool
  deriving DecidableEq

structure CachedTriggerResponse where
  response : TriggerResponse
  expiresAt : Int
  deriving DecidableEq

structure DataCacheNode where
  triggerDedupeTtl : Int
  uploadEnabled : Bool
  uploadFailureAutoRetry : Bool
  eventNames : List Text
  triggerResponses : Dict Text CachedTriggerResponse
  eventLifecycles : Dict Text EventLifecycle
  nextDirectTriggerId : Nat
  published : List EventStatus

/-- What the clocks and the watchdog say while a request is handled. -/
structure Readings where
  rosNow : Int
  arrival : Int
  acceptedAt : Int
  answered : Int
  sensorStatus : Option Text
  deriving DecidableEq

/-- An answer, and the capture that was started for it. -/
structure Handled where
  triggerId : Text
  response : TriggerResponse
  captured : Option CaptureResult
  fromMemory : Bool
  node : DataCacheNode

namespace DataCacheNode

def create (triggerDedupeTtl : Int) (uploadEnabled uploadFailureAutoRetry : Bool)
    (eventNames : List Text) : DataCacheNode :=
  ⟨triggerDedupeTtl, uploadEnabled, uploadFailureAutoRetry, eventNames, .empty,
    .empty, 0, []⟩

def hasEvent (node : DataCacheNode) (eventName : Text) : Bool :=
  node.eventNames.contains eventName

def publishEventStatus (node : DataCacheNode) (update : EventStatus) :
    DataCacheNode :=
  { node with published := node.published ++ [update] }

/-- Forget the responses whose time is over. -/
def pruneResponses (node : DataCacheNode) (now : Int) : DataCacheNode :=
  { node with
    triggerResponses := node.triggerResponses.filterKeys fun triggerId =>
      !(node.triggerResponses.get? triggerId).any fun cached =>
        decide (cached.expiresAt ≤ now) }

def cacheResponse (node : DataCacheNode) (triggerId : Text)
    (response : TriggerResponse) (answered : Int) : DataCacheNode :=
  { node with
    triggerResponses := node.triggerResponses.set triggerId
      ⟨response, answered + node.triggerDedupeTtl⟩ }

def sourceOf (request : TriggerRequest) : Text :=
  if request.source.isEmpty then "direct_rpc" else request.source

/-- The request's own id, or one made up from the source, the clock and a count. -/
def takeTriggerId (node : DataCacheNode) (request : TriggerRequest) (rosNow : Int) :
    Text × DataCacheNode :=
  if request.triggerId.isEmpty then
    (sourceOf request ++ "-" ++ showInt rosNow ++ "-" ++
        showNat node.nextDirectTriggerId,
      { node with nextDirectTriggerId := node.nextDirectTriggerId + 1 })
  else (request.triggerId, node)

def reject (node : DataCacheNode) (request : TriggerRequest) (triggerId : Text)
    (readings : Readings) (message : Text) : Handled :=
  let response : TriggerResponse := ⟨false, message, [], []⟩
  let node := node.publishEventStatus
    ⟨.rejected, request.eventName, triggerId, sourceOf request, [], [], message⟩
  ⟨triggerId, response, none, false,
    node.cacheResponse triggerId response readings.answered⟩

def captureMessage (eventName : Text) (readings : Readings)
    (capture : CaptureResult) : Text :=
  let sensorStatus : Text :=
    match readings.sensorStatus with
    | some status => " [" ++ status ++ "]"
    | none => []
  if capture.accepted then
    "Event '" ++ eventName ++ "' accepted for storage" ++ sensorStatus
  else
    "Event '" ++ eventName ++ "' rejected: " ++ capture.message ++ sensorStatus

/-- Answer with what the capture came to, and follow it if it was accepted. -/
def answerCapture (node : DataCacheNode) (request : TriggerRequest)
    (triggerId : Text) (readings : Readings) (capture : CaptureResult) : Handled :=
  let message := captureMessage request.eventName readings capture
  let captureId := filename capture.directory
  let response : TriggerResponse :=
    ⟨capture.accepted, message, captureId, capture.directory⟩
  let node := node.publishEventStatus
    ⟨if capture.accepted then .accepted else .rejected, request.eventName,
      triggerId, sourceOf request, captureId, capture.directory, message⟩
  let node :=
    if capture.accepted then
      { node with
        eventLifecycles := node.eventLifecycles.set triggerId
          ⟨request.eventName, triggerId, sourceOf request, captureId,
            capture.directory, readings.acceptedAt, false, false⟩ }
    else node
  ⟨triggerId, response, some capture, false,
    node.cacheResponse triggerId response readings.answered⟩

/-- `capture` is what the event monitor answers if it is asked. -/
def handleTrigger (node : DataCacheNode) (request : TriggerRequest)
    (readings : Readings) (capture : CaptureResult) : Handled :=
  let (triggerId, node) := node.takeTriggerId request readings.rosNow
  let node := node.pruneResponses readings.arrival
  match node.triggerResponses.get? triggerId with
  | some cached => ⟨triggerId, cached.response, none, true, node⟩
  | none =>
      if request.eventName.isEmpty then
        node.reject request triggerId readings "Event name must not be empty"
      else if !node.hasEvent request.eventName then
        node.reject request triggerId readings
          ("Event '" ++ request.eventName ++ "' is not registered")
      else node.answerCapture request triggerId readings capture

/-! ## One request -/

theorem pruned_get? (node : DataCacheNode) (now : Int) (triggerId : Text) :
    (node.pruneResponses now).triggerResponses.get? triggerId =
      if (node.triggerResponses.get? triggerId).any fun cached =>
          decide (cached.expiresAt ≤ now) then none
      else node.triggerResponses.get? triggerId := by
  rw [pruneResponses, Dict.get?_filterKeys]
  cases (node.triggerResponses.get? triggerId).any fun cached =>
    decide (cached.expiresAt ≤ now) <;> rfl

theorem pruned_of_fresh {node : DataCacheNode} {now : Int} {triggerId : Text}
    {cached : CachedTriggerResponse}
    (h : node.triggerResponses.get? triggerId = some cached)
    (hfresh : now < cached.expiresAt) :
    (node.pruneResponses now).triggerResponses.get? triggerId = some cached := by
  rw [pruned_get?, h, Option.any_some, decide_eq_false (not_le.mpr hfresh)]
  rfl

/-- What survives pruning was there before and has not expired. -/
theorem of_pruned {node : DataCacheNode} {now : Int} {triggerId : Text}
    {cached : CachedTriggerResponse}
    (h : (node.pruneResponses now).triggerResponses.get? triggerId = some cached) :
    node.triggerResponses.get? triggerId = some cached ∧ now < cached.expiresAt := by
  rw [pruned_get?] at h
  split at h
  next => cases h
  next hfresh =>
    rw [h, Option.any_some, decide_eq_true_eq] at hfresh
    exact ⟨h, not_le.mp hfresh⟩

theorem takeTriggerId_of_named (node : DataCacheNode) {request : TriggerRequest}
    (h : request.triggerId ≠ []) (rosNow : Int) :
    node.takeTriggerId request rosNow = (request.triggerId, node) :=
  if_neg (by simpa using h)

theorem takeTriggerId_responses (node : DataCacheNode) (request : TriggerRequest)
    (rosNow : Int) :
    (node.takeTriggerId request rosNow).2.triggerResponses =
        node.triggerResponses ∧
      (node.takeTriggerId request rosNow).2.triggerDedupeTtl =
        node.triggerDedupeTtl ∧
      (node.takeTriggerId request rosNow).2.eventNames = node.eventNames := by
  rw [takeTriggerId]
  split <;> exact ⟨rfl, rfl, rfl⟩

/-- An answer that was not in memory is computed and remembered. -/
structure Computed (pruned : DataCacheNode) (request : TriggerRequest)
    (readings : Readings) (capture : CaptureResult) (handled : Handled) : Prop where
  new : handled.fromMemory = false
  remembered : handled.node.triggerResponses =
    pruned.triggerResponses.set handled.triggerId
      ⟨handled.response, readings.answered + pruned.triggerDedupeTtl⟩
  ttl_eq : handled.node.triggerDedupeTtl = pruned.triggerDedupeTtl
  eventNames_eq : handled.node.eventNames = pruned.eventNames
  captured_eq : handled.captured =
    if request.eventName ≠ [] ∧ pruned.hasEvent request.eventName = true then
      some capture
    else none
  success_eq : handled.response.success = handled.captured.any CaptureResult.accepted

theorem computed_reject {node : DataCacheNode} {request : TriggerRequest}
    {readings : Readings} {capture : CaptureResult} (triggerId message : Text)
    (h : ¬(request.eventName ≠ [] ∧ node.hasEvent request.eventName = true)) :
    Computed node request readings capture
      (node.reject request triggerId readings message) where
  new := rfl
  remembered := rfl
  ttl_eq := rfl
  eventNames_eq := rfl
  captured_eq := (if_neg h).symm
  success_eq := rfl

theorem computed_answerCapture {node : DataCacheNode} {request : TriggerRequest}
    {readings : Readings} {capture : CaptureResult} (triggerId : Text)
    (h : request.eventName ≠ [] ∧ node.hasEvent request.eventName = true) :
    Computed node request readings capture
      (node.answerCapture request triggerId readings capture) := by
  refine ⟨rfl, ?_, ?_, ?_, (if_pos h).symm, rfl⟩
  · rw [answerCapture]
    dsimp only
    split <;> rfl
  · rw [answerCapture]
    dsimp only
    split <;> rfl
  · rw [answerCapture]
    dsimp only
    split <;> rfl

/-- Either the answer is in memory, and nothing else changes, or it is computed. -/
theorem handleTrigger_cases (node : DataCacheNode) (request : TriggerRequest)
    (readings : Readings) (capture : CaptureResult) :
    let taken := node.takeTriggerId request readings.rosNow
    let pruned := taken.2.pruneResponses readings.arrival
    let handled := node.handleTrigger request readings capture
    handled.triggerId = taken.1 ∧
    ((∃ cached, pruned.triggerResponses.get? taken.1 = some cached ∧
        handled = ⟨taken.1, cached.response, none, true, pruned⟩) ∨
      (pruned.triggerResponses.get? taken.1 = none ∧
        Computed pruned request readings capture handled)) := by
  intro taken pruned handled
  have hhandled : handled = node.handleTrigger request readings capture := rfl
  rw [handleTrigger] at hhandled
  dsimp only at hhandled
  split at hhandled
  next cached hcached =>
    rw [hhandled]
    exact ⟨rfl, .inl ⟨cached, hcached, rfl⟩⟩
  next hnone =>
    split at hhandled
    next hempty =>
      rw [hhandled]
      refine ⟨rfl, .inr ⟨hnone, computed_reject _ _ fun h => h.1 ?_⟩⟩
      simpa using hempty
    next hnamed =>
      split at hhandled
      next hunknown =>
        rw [hhandled]
        refine ⟨rfl, .inr ⟨hnone, computed_reject _ _ fun h => ?_⟩⟩
        rw [Bool.not_eq_true'] at hunknown
        exact absurd (h.2.symm.trans hunknown) (by decide)
      next hknown =>
        rw [hhandled]
        refine ⟨rfl, .inr ⟨hnone, computed_answerCapture _ ⟨?_, ?_⟩⟩⟩
        · simpa using hnamed
        · simpa using hknown

/-- A request publishes only that it was accepted or rejected. -/
theorem handleTrigger_publishes {node : DataCacheNode} {request : TriggerRequest}
    {readings : Readings} {capture : CaptureResult} {status : EventStatus}
    (h : status ∈ (node.handleTrigger request readings capture).node.published) :
    status ∈ node.published ∨ status.status = .accepted ∨
      status.status = .rejected := by
  have htaken : (node.takeTriggerId request readings.rosNow).2.published =
      node.published := by
    rw [takeTriggerId]
    split <;> rfl
  have hnew : ∀ update : EventStatus,
      update.status = .accepted ∨ update.status = .rejected →
      status ∈ (node.takeTriggerId request readings.rosNow).2.published ++ [update] →
      status ∈ node.published ∨ status.status = .accepted ∨
        status.status = .rejected := by
    intro update hupdate hmem
    rcases List.mem_append.mp hmem with hold | hlast
    · exact .inl (htaken ▸ hold)
    · exact .inr (List.mem_singleton.mp hlast ▸ hupdate)
  rw [handleTrigger] at h
  dsimp only at h
  split at h
  · exact .inl (htaken ▸ h)
  · split at h
    · exact hnew _ (.inr rfl) h
    · split at h
      · exact hnew _ (.inr rfl) h
      · rw [answerCapture] at h
        cases haccepted : capture.accepted with
        | true =>
            simp only [haccepted, if_true] at h
            exact hnew _ (.inl rfl) h
        | false =>
            simp only [haccepted] at h
            exact hnew _ (.inr rfl) h

/-- A lifecycle is either an old one or that of the capture just accepted. -/
theorem handleTrigger_follows {node : DataCacheNode} {request : TriggerRequest}
    {readings : Readings} {capture : CaptureResult} {triggerId : Text}
    {lifecycle : EventLifecycle}
    (h : (node.handleTrigger request readings
      capture).node.eventLifecycles.get? triggerId = some lifecycle) :
    node.eventLifecycles.get? triggerId = some lifecycle ∨
      (node.handleTrigger request readings capture).captured = some capture ∧
        capture.accepted = true ∧ lifecycle.directory = capture.directory ∧
        lifecycle.acceptedAt = readings.acceptedAt := by
  have htaken :
      (node.takeTriggerId request readings.rosNow).2.eventLifecycles =
        node.eventLifecycles := by
    rw [takeTriggerId]
    split <;> rfl
  generalize hhandled : node.handleTrigger request readings capture = handled
    at h ⊢
  rw [handleTrigger] at hhandled
  dsimp only at hhandled
  split at hhandled
  · subst hhandled
    exact .inl (htaken ▸ h)
  · split at hhandled
    · subst hhandled
      exact .inl (htaken ▸ h)
    · split at hhandled
      · subst hhandled
        exact .inl (htaken ▸ h)
      · subst hhandled
        rw [answerCapture] at h
        cases haccepted : capture.accepted with
        | true =>
            simp only [haccepted, if_true] at h
            change Dict.get? (Dict.set _ _ _) triggerId = _ at h
            rw [Dict.get?_set] at h
            split at h
            · cases h
              exact .inr ⟨rfl, rfl, rfl, rfl⟩
            · exact .inl (htaken ▸ h)
        | false =>
            simp only [haccepted] at h
            exact .inl (htaken ▸ h)

/-! ## Runs -/

/-- A request, what was read while it was handled, and the monitor's answer. -/
structure Served where
  request : TriggerRequest
  readings : Readings
  capture : CaptureResult
  deriving DecidableEq

def serve (node : DataCacheNode) (served : Served) : Handled :=
  node.handleTrigger served.request served.readings served.capture

def serveAll (node : DataCacheNode) (requests : List Served) : DataCacheNode :=
  requests.foldl (fun node served => (node.serve served).node) node

/-- One request after the other, on a clock that never goes back. -/
def Sequential (requests : List Served) : Prop :=
  (requests.flatMap fun served => [served.readings.arrival,
    served.readings.acceptedAt, served.readings.answered]).Pairwise (· ≤ ·)

instance (requests : List Served) : Decidable (Sequential requests) :=
  inferInstanceAs (Decidable (List.Pairwise _ _))

/-- A remembered answer stays until it expires. -/
theorem serve_remembers {node : DataCacheNode} {triggerId : Text}
    {cached : CachedTriggerResponse}
    (h : node.triggerResponses.get? triggerId = some cached) (served : Served)
    (hnamed : served.request.triggerId ≠ [])
    (hfresh : served.readings.arrival < cached.expiresAt) :
    (node.serve served).node.triggerResponses.get? triggerId = some cached ∧
      (served.request.triggerId = triggerId →
        (node.serve served).response = cached.response ∧
          (node.serve served).captured = none) := by
  have hkept := pruned_of_fresh h hfresh
  obtain ⟨hid, hcases⟩ := node.handleTrigger_cases served.request served.readings
    served.capture
  rw [takeTriggerId_of_named node hnamed] at hid hcases
  rcases hcases with ⟨other, hother, hhandled⟩ | ⟨hnone, hcomputed⟩
  · rw [serve, hhandled]
    refine ⟨hkept, fun hsame => ?_⟩
    rw [hsame, hkept] at hother
    exact ⟨congrArg CachedTriggerResponse.response (Option.some.inj hother).symm,
      rfl⟩
  · have hne : served.request.triggerId ≠ triggerId := by
      rintro rfl
      rw [hkept] at hnone
      cases hnone
    refine ⟨?_, fun hsame => absurd hsame hne⟩
    rw [serve, hcomputed.remembered, hid, Dict.get?_set_ne _ _ hne]
    exact hkept

theorem serveAll_remembers {triggerId : Text} {cached : CachedTriggerResponse}
    (requests : List Served)
    (hnamed : ∀ served ∈ requests, served.request.triggerId ≠ [])
    (hfresh : ∀ served ∈ requests, served.readings.arrival < cached.expiresAt) :
    ∀ {node : DataCacheNode},
      node.triggerResponses.get? triggerId = some cached →
      (node.serveAll requests).triggerResponses.get? triggerId = some cached := by
  induction requests with
  | nil => exact fun h => h
  | cons served requests ih =>
      intro node h
      refine ih (fun other hother => hnamed other (List.mem_cons_of_mem _ hother))
        (fun other hother => hfresh other (List.mem_cons_of_mem _ hother)) ?_
      exact (serve_remembers h served (hnamed served List.mem_cons_self)
        (hfresh served List.mem_cons_self)).1

/-- The answer of a capture is remembered from the moment it was given. -/
theorem remembered_of_captured {node : DataCacheNode} {served : Served}
    (h : (node.serve served).captured ≠ none) :
    (node.serve served).node.triggerResponses.get? (node.serve served).triggerId =
      some ⟨(node.serve served).response,
        served.readings.answered + node.triggerDedupeTtl⟩ := by
  obtain ⟨hid, hcases⟩ := node.handleTrigger_cases served.request served.readings
    served.capture
  rcases hcases with ⟨other, hother, hhandled⟩ | ⟨hnone, hcomputed⟩
  · rw [serve, hhandled] at h
    exact absurd rfl h
  · rw [serve, hcomputed.remembered, Dict.get?_set_self]
    exact congrArg (fun ttl => some (CachedTriggerResponse.mk
      (node.serve served).response (served.readings.answered + ttl)))
      (takeTriggerId_responses node served.request served.readings.rosNow).2.1

theorem serve_ttl (node : DataCacheNode) (served : Served) :
    (node.serve served).node.triggerDedupeTtl = node.triggerDedupeTtl := by
  obtain ⟨-, hcases⟩ := node.handleTrigger_cases served.request served.readings
    served.capture
  have htaken := (takeTriggerId_responses node served.request
    served.readings.rosNow).2.1
  rcases hcases with ⟨other, hother, hhandled⟩ | ⟨hnone, hcomputed⟩
  · rw [serve, hhandled]
    exact htaken
  · exact hcomputed.ttl_eq.trans htaken

theorem serveAll_ttl (requests : List Served) :
    ∀ node : DataCacheNode,
      (node.serveAll requests).triggerDedupeTtl = node.triggerDedupeTtl := by
  induction requests with
  | nil => exact fun _ => rfl
  | cons served requests ih =>
      exact fun node => (ih (node.serve served).node).trans (node.serve_ttl served)

theorem arrival_le_of_sequential {before between : List Served}
    {first last : Served}
    (h : Sequential (before ++ first :: (between ++ [last]))) :
    ∀ served ∈ between, served.readings.arrival ≤ last.readings.arrival := by
  intro served hserved
  have hrest : Sequential (between ++ [last]) := by
    rw [Sequential, List.flatMap_append, List.flatMap_cons] at h
    exact (List.pairwise_append.mp (List.pairwise_append.mp h).2.1).2.1
  rw [Sequential, List.flatMap_append] at hrest
  refine (List.pairwise_append.mp hrest).2.2 _
    (List.mem_flatMap.mpr ⟨served, hserved, List.mem_cons_self⟩) _ ?_
  exact List.mem_flatMap.mpr ⟨last, List.mem_cons_self, List.mem_cons_self⟩

/-- An accepted answer to `first` is given again to `last`, without a capture. -/
def RepeatsAccepted (start : DataCacheNode) (before : List Served) (first : Served)
    (between : List Served) (last : Served) : Prop :=
  let answered := (start.serveAll before).serve first
  let again := (start.serveAll (before ++ first :: between)).serve last
  Sequential (before ++ first :: (between ++ [last])) →
  (∀ served ∈ before ++ first :: (between ++ [last]),
    served.request.triggerId ≠ []) →
  answered.response.success = true →
  last.request.triggerId = first.request.triggerId →
  last.readings.arrival < first.readings.answered + start.triggerDedupeTtl →
  again.response = answered.response ∧ again.captured = none

/-- What a capture was answered with is repeated for the whole TTL. -/
theorem repeatsAccepted_of_captured (start : DataCacheNode) (before : List Served)
    (first : Served) (between : List Served) (last : Served)
    (hcaptured : ((start.serveAll before).serve first).captured ≠ none) :
    RepeatsAccepted start before first between last := by
  intro hsequential hnamed _ hsame hwithin
  have hid : ((start.serveAll before).serve first).triggerId =
      first.request.triggerId := by
    have hnonempty := hnamed first (List.mem_append_right _ List.mem_cons_self)
    have hhandled := ((start.serveAll before).handleTrigger_cases first.request
      first.readings first.capture).1
    rw [takeTriggerId_of_named _ hnonempty] at hhandled
    exact hhandled
  have hstart := remembered_of_captured hcaptured
  rw [serveAll_ttl] at hstart
  have hkept := serveAll_remembers between
    (fun served hserved => hnamed served (List.mem_append_right _
      (List.mem_cons_of_mem _ (List.mem_append_left _ hserved))))
    (fun served hserved =>
      (arrival_le_of_sequential hsequential served hserved).trans_lt hwithin)
    hstart
  have hreached : ((start.serveAll before).serve first).node.serveAll between =
      start.serveAll (before ++ first :: between) := by
    simp only [serveAll, List.foldl_append, List.foldl_cons]
  rw [hreached] at hkept
  exact (serve_remembers hkept last
    (hnamed last (List.mem_append_right _ (List.mem_cons_of_mem _
      (List.mem_append_right _ List.mem_cons_self))))
    hwithin).2 (hsame.trans hid.symm)

/-! ### The TTL counts from the capture -/

def brakeNode : DataCacheNode :=
  create 60 false true ["brake"]

def brakeAt (time : Int) (directory : Text) : Served :=
  ⟨⟨"brake", "x", "button"⟩, ⟨0, time, time, time, none⟩,
    ⟨true, directory, "accepted for storage"⟩⟩

theorem repeatsAccepted_brake :
    let answered := brakeNode.serve (brakeAt 0 "brake_0_1")
    let again := (brakeNode.serveAll [brakeAt 0 "brake_0_1"]).serve
      (brakeAt 50 "brake_1_2")
    again.response = answered.response ∧ again.captured = none :=
  repeatsAccepted_of_captured brakeNode [] (brakeAt 0 "brake_0_1") []
    (brakeAt 50 "brake_1_2") (by decide +kernel) (by decide +kernel)
    (by decide +kernel) (by decide +kernel) (by decide +kernel) (by decide +kernel)

/-- The second answer is a repeated one, and its 60 are not over at 70. -/
theorem not_repeatsAccepted_of_repeated :
    ¬RepeatsAccepted brakeNode [brakeAt 0 "brake_0_1"] (brakeAt 50 "brake_1_2") []
      (brakeAt 70 "brake_2_3") := by
  intro h
  have hrepeated := h (by decide +kernel) (by decide +kernel) (by decide +kernel)
    (by decide +kernel) (by decide +kernel)
  exact absurd hrepeated.2 (by decide +kernel)

end DataCacheNode

end DataCache.Trigger
