import DataCache.Capture.Created
import DataCache.Trigger.Router

/-!
# Retrying a trigger

The router, the cache node and its event monitor run together: signals arrive,
requests and answers are under way, and sensors, the scheduler and the storage
worker go on in between.  The history fields record what was sent, answered and
released; no step reads them.
-/

namespace DataCache.Trigger

open DataCache.Foundation DataCache.Capture

/-- An answer of the trigger service. -/
structure Answer where
  eventName : Text
  triggerId : Text
  answered : Int
  captured : Option CaptureResult
  fromMemory : Bool
  deriving DecidableEq

structure World where
  router : EventRouterNode
  node : DataCacheNode
  system : System
  created : List Text
  requests : List TriggerRequest
  replies : List (TriggerRequest × TriggerResponse)
  clock : Int
  sent : List TriggerRequest
  answers : List Answer
  released : List Text

/-- What goes on in the monitor between two triggers. -/
inductive Background (settings : Settings) : System → System → Prop
  | frame (s : System) (data : SensorData) :
      Background settings s { s with
        buffer := s.buffer.addData data
        arrivals := s.arrivals ++ [data] }
  | ledger (s : System) (pairIndex : PairIndex) :
      Background settings s { s with pairIndex }
  | consume (s : System) (count : Nat) : Background settings s (s.pop count)
  | scheduler {s s' : System} (clock : Clock)
      (hexec : Prog.Exec Interleaved s (processExpiredCaptures settings clock) s'
        (.ret ())) :
      Background settings s s'

namespace World

def initial (router : EventRouterNode) (node : DataCacheNode) (system : System)
    (clock : Int) : World :=
  ⟨router, node, system, [], [], [], clock, [], [], []⟩

/-- A signal reaches the router. -/
def signal (w : World) (signal : EventSignal) (rosNow : Int) (serviceReady : Bool)
    (steadyNow : Int) : World :=
  let (request, router) := w.router.route signal rosNow serviceReady steadyNow
  { w with
    router
    requests := w.requests ++ request.toList
    sent := w.sent ++ request.toList }

/-- The node answers a request; `after` is the monitor if it was asked. -/
def serve (w : World) (request : TriggerRequest) (readings : Readings)
    (result : CaptureResult) (after : System × List Text) : World :=
  let handled := w.node.handleTrigger request readings result
  let asked := handled.captured.isSome
  { w with
    node := handled.node
    system := if asked then after.1 else w.system
    created := if asked then after.2 else w.created
    clock := readings.answered
    answers := w.answers ++ [⟨request.eventName, handled.triggerId,
      readings.answered, handled.captured, handled.fromMemory⟩] }

/-- The answer to a request of the router is on its way. -/
def serveRouted (w : World) (request : TriggerRequest) (readings : Readings)
    (result : CaptureResult) (after : System × List Text) : World :=
  let handled := w.node.handleTrigger request readings result
  { w.serve request readings result after with
    requests := w.requests.erase request
    replies := w.replies ++ [(request, handled.response)] }

/-- An answer, or the failure of the call, reaches the router. -/
def finishCall (w : World) (request : TriggerRequest)
    (outcome : Except Text TriggerResponse) : World :=
  let failed := match outcome with
    | .ok response => !response.success
    | .error _ => true
  { w with
    router := w.router.finishCall request outcome
    replies := match outcome with
      | .ok response => w.replies.erase (request, response)
      | .error _ => w.replies
    released := if failed then w.released ++ [request.triggerId] else w.released }

end World

/-- The monitor, asked in this world, could answer so and leave `after`. -/
def Answers (settings : Settings) (w : World) (eventName : Text)
    (result : CaptureResult) (after : System × List Text) : Prop :=
  ∃ clock, Prog.Exec Creating (w.system, w.created)
    (recordDataAroundEventDetailed settings clock eventName) after (.ret result)

/-- The readings of one request, on a clock that never goes back. -/
def Follows (w : World) (readings : Readings) : Prop :=
  w.clock ≤ readings.arrival ∧ readings.arrival ≤ readings.acceptedAt ∧
    readings.acceptedAt ≤ readings.answered

inductive Step (settings : Settings) (w : World) : World → Prop
  | signal (signal : EventSignal) (rosNow : Int) (serviceReady : Bool)
      (steadyNow : Int) :
      Step settings w (w.signal signal rosNow serviceReady steadyNow)
  | serve (request : TriggerRequest) (readings : Readings) (result : CaptureResult)
      (after : System × List Text) (hrequest : request ∈ w.requests)
      (hreadings : Follows w readings)
      (hanswers : Answers settings w request.eventName result after) :
      Step settings w (w.serveRouted request readings result after)
  | direct (request : TriggerRequest) (readings : Readings)
      (result : CaptureResult) (after : System × List Text)
      (hreadings : Follows w readings)
      (hanswers : Answers settings w request.eventName result after) :
      Step settings w (w.serve request readings result after)
  | reply (request : TriggerRequest) (response : TriggerResponse)
      (hreply : (request, response) ∈ w.replies) :
      Step settings w (w.finishCall request (.ok response))
  | fail (request : TriggerRequest) (what : Text) (hsent : request ∈ w.sent) :
      Step settings w (w.finishCall request (.error what))
  | background (system : System) (h : Background settings w.system system) :
      Step settings w { w with system }

/-- The worlds a run can reach. -/
inductive Runs (settings : Settings) : World → Prop
  | start (dedupeTtlMs cooldownMs triggerDedupeTtl : Int)
      (uploadEnabled uploadFailureAutoRetry : Bool) (eventNames : List Text)
      (maxSize : Nat) (maxAge : Int) (maxBytes : Nat) (clock : Int)
      (httl : 0 < triggerDedupeTtl) :
      Runs settings (.initial (.create dedupeTtlMs cooldownMs)
        (.create triggerDedupeTtl uploadEnabled uploadFailureAutoRetry eventNames)
        (Capture.initial settings maxSize maxAge maxBytes) clock)
  | step {w w' : World} (h : Runs settings w) (hstep : Step settings w w') :
      Runs settings w'

/-! ## What the node remembers -/

/-- The remembered responses are the computed answers that have not expired. -/
structure Remembers (w : World) : Prop where
  named : ∀ request ∈ w.requests, request.eventName ≠ [] ∧ request.triggerId ≠ []
  past : ∀ answer ∈ w.answers, answer.answered ≤ w.clock
  given : ∀ triggerId cached,
    w.node.triggerResponses.get? triggerId = some cached →
      ∃ answer ∈ w.answers, answer.triggerId = triggerId ∧
        answer.fromMemory = false ∧
        cached.expiresAt = answer.answered + w.node.triggerDedupeTtl
  kept : ∀ answer ∈ w.answers, answer.fromMemory = false →
    answer.answered + w.node.triggerDedupeTtl ≤ w.clock ∨
      ∃ cached, w.node.triggerResponses.get? answer.triggerId = some cached ∧
        answer.answered + w.node.triggerDedupeTtl ≤ cached.expiresAt

theorem Remembers.initial {router : EventRouterNode} {node : DataCacheNode}
    (hnode : node.triggerResponses = .empty) (system : System) (clock : Int) :
    Remembers (.initial router node system clock) := by
  refine ⟨nofun, nofun, fun triggerId cached h => ?_, nofun⟩
  rw [World.initial, hnode] at h
  cases h

/-- What one request leaves in memory. -/
theorem remembered_after (node : DataCacheNode) (request : TriggerRequest)
    (readings : Readings) (capture : CaptureResult) (triggerId : Text) :
    let handled := node.handleTrigger request readings capture
    handled.node.triggerDedupeTtl = node.triggerDedupeTtl ∧
    (∀ cached, handled.node.triggerResponses.get? triggerId = some cached →
      node.triggerResponses.get? triggerId = some cached ∨
        handled.triggerId = triggerId ∧ handled.fromMemory = false ∧
          cached.expiresAt = readings.answered + node.triggerDedupeTtl) ∧
    (∀ cached, node.triggerResponses.get? triggerId = some cached →
      readings.arrival < cached.expiresAt →
        handled.node.triggerResponses.get? triggerId = some cached) ∧
    (handled.fromMemory = false → ∃ response,
      handled.node.triggerResponses.get? handled.triggerId =
        some ⟨response, readings.answered + node.triggerDedupeTtl⟩) := by
  intro handled
  obtain ⟨hresponses, httl, -⟩ := node.takeTriggerId_responses request
    readings.rosNow
  obtain ⟨hid, hcases⟩ := node.handleTrigger_cases request readings capture
  have hkeeps : ∀ cached, node.triggerResponses.get? triggerId = some cached →
      readings.arrival < cached.expiresAt →
      ((node.takeTriggerId request readings.rosNow).2.pruneResponses
        readings.arrival).triggerResponses.get? triggerId = some cached :=
    fun cached hcached hfresh =>
      DataCacheNode.pruned_of_fresh (hresponses ▸ hcached) hfresh
  have hof : ∀ cached, ((node.takeTriggerId request readings.rosNow).2.pruneResponses
        readings.arrival).triggerResponses.get? triggerId = some cached →
      node.triggerResponses.get? triggerId = some cached :=
    fun cached hcached => hresponses ▸ (DataCacheNode.of_pruned hcached).1
  rcases hcases with ⟨found, hfound, hhandled⟩ | ⟨hnone, hcomputed⟩
  · have heq : handled = _ := hhandled
    rw [heq]
    exact ⟨httl, fun cached hcached => .inl (hof cached hcached), hkeeps, nofun⟩
  · have hremembered : handled.node.triggerResponses = _ := hcomputed.remembered
    have hpruned : ((node.takeTriggerId request readings.rosNow).2.pruneResponses
        readings.arrival).triggerDedupeTtl = node.triggerDedupeTtl := httl
    rw [hpruned] at hremembered
    refine ⟨hcomputed.ttl_eq.trans httl, fun cached hcached => ?_,
      fun cached hcached hfresh => ?_, fun _ => ⟨handled.response, ?_⟩⟩
    · rw [hremembered, Dict.get?_set] at hcached
      split at hcached
      next hsame =>
        exact .inr ⟨hsame, hcomputed.new, by rw [← Option.some.inj hcached]⟩
      next => exact .inl (hof cached hcached)
    · have hne : handled.triggerId ≠ triggerId := by
        intro hsame
        rw [← hid, show (node.handleTrigger request readings capture).triggerId =
          triggerId from hsame, hkeeps cached hcached hfresh] at hnone
        cases hnone
      rw [hremembered, Dict.get?_set_ne _ _ hne]
      exact hkeeps cached hcached hfresh
    · rw [hremembered, Dict.get?_set_self]

/-- Answering a request keeps the account of the remembered responses. -/
theorem Remembers.serve {w : World} (h : Remembers w) (request : TriggerRequest)
    {readings : Readings} (hreadings : Follows w readings) (result : CaptureResult)
    (after : System × List Text) :
    Remembers (w.serve request readings result after) := by
  obtain ⟨harrival, haccepted, hanswered⟩ := hreadings
  have harrived : readings.arrival ≤ readings.answered := haccepted.trans hanswered
  have hclock : w.clock ≤ readings.answered := harrival.trans harrived
  have hafter := remembered_after w.node request readings result
  have httl := (hafter []).1
  refine ⟨h.named, fun answer hanswer => ?_, fun triggerId cached hcached => ?_,
    fun answer hanswer hcomputed => ?_⟩
  · rcases List.mem_append.mp hanswer with hold | hnew
    · exact (h.past answer hold).trans hclock
    · rw [List.mem_singleton.mp hnew]
      exact le_refl _
  · rcases (hafter triggerId).2.1 cached hcached with hold | ⟨hid, hnew, hexpires⟩
    · obtain ⟨answer, hanswer, hsame, hcomputed, hexpires⟩ :=
        h.given triggerId cached hold
      exact ⟨answer, List.mem_append_left _ hanswer, hsame, hcomputed,
        hexpires.trans (congrArg _ httl.symm)⟩
    · exact ⟨_, List.mem_append_right _ List.mem_cons_self, hid, hnew,
        hexpires.trans (congrArg _ httl.symm)⟩
  · have hgoal : answer.answered + w.node.triggerDedupeTtl ≤ readings.answered ∨
        ∃ cached, (w.node.handleTrigger request readings
          result).node.triggerResponses.get? answer.triggerId = some cached ∧
          answer.answered + w.node.triggerDedupeTtl ≤ cached.expiresAt := by
      rcases List.mem_append.mp hanswer with hold | hnew
      · rcases h.kept answer hold hcomputed with hexpired | ⟨cached, hcached, hle⟩
        · exact .inl (hexpired.trans hclock)
        · by_cases hfresh : readings.arrival < cached.expiresAt
          · exact .inr ⟨cached, (hafter _).2.2.1 cached hcached hfresh, hle⟩
          · exact .inl ((hle.trans (not_lt.mp hfresh)).trans harrived)
      · rw [List.mem_singleton.mp hnew] at hcomputed ⊢
        obtain ⟨response, hresponse⟩ := (hafter []).2.2.2 hcomputed
        exact .inr ⟨_, hresponse, le_refl _⟩
    rw [← httl] at hgoal
    exact hgoal

/-- A step that leaves the node alone, and sends only named requests. -/
theorem Remembers.of_same {w w' : World} (h : Remembers w) (hnode : w'.node = w.node)
    (hclock : w'.clock = w.clock) (hanswers : w'.answers = w.answers)
    (hnamed : ∀ request ∈ w'.requests, request ∈ w.requests ∨
      request.eventName ≠ [] ∧ request.triggerId ≠ []) : Remembers w' := by
  refine ⟨fun request hrequest => (hnamed request hrequest).elim
    (h.named request) id, ?_, ?_, ?_⟩
  · rw [hanswers, hclock]
    exact h.past
  · rw [hanswers, hnode]
    exact h.given
  · rw [hanswers, hnode, hclock]
    exact h.kept

theorem Remembers.step {settings : Settings} {w w' : World} (h : Remembers w)
    (hstep : Step settings w w') : Remembers w' := by
  cases hstep with
  | signal signal rosNow serviceReady steadyNow =>
      refine h.of_same rfl rfl rfl fun request hrequest => ?_
      rcases List.mem_append.mp hrequest with hold | hnew
      · exact .inl hold
      · exact .inr (EventRouterNode.named_of_route (Option.mem_toList.mp hnew))
  | serve request readings result after hrequest hreadings hanswers =>
      refine (h.serve request hreadings result after).of_same rfl rfl rfl
        fun other hother => .inl (List.mem_of_mem_erase hother)
  | direct request readings result after hreadings hanswers =>
      exact h.serve request hreadings result after
  | reply request response hreply =>
      exact h.of_same rfl rfl rfl fun _ => .inl
  | fail request what hsent =>
      exact h.of_same rfl rfl rfl fun _ => .inl
  | background system hbackground =>
      exact h.of_same rfl rfl rfl fun _ => .inl

theorem Runs.remembers {settings : Settings} {w : World} (h : Runs settings w) :
    Remembers w := by
  induction h with
  | start => exact .initial rfl _ _
  | step _ hstep ih => exact ih.step hstep

/-! ## The retry -/

def transientReasons : List Text :=
  ["storage queue unavailable", "maximum active captures reached",
    "no synchronized data in pre-event window"]

def refusedTransiently (result : CaptureResult) : Bool :=
  !result.accepted && transientReasons.contains result.message

/-- A signal with this id was sent, refused for a transient reason, and released. -/
structure Refused (w : World) (triggerId eventName : Text) : Prop where
  sent : ∃ request ∈ w.sent,
    request.triggerId = triggerId ∧ request.eventName = eventName
  refused : ∃ answer ∈ w.answers, answer.triggerId = triggerId ∧
    answer.eventName = eventName ∧ answer.captured.any refusedTransiently = true
  released : triggerId ∈ w.released

/-- A request that reaches the node again, while the monitor would accept it. -/
structure Retry (settings : Settings) (w : World) (request : TriggerRequest)
    (readings : Readings) (result : CaptureResult) (after : System × List Text) :
    Prop where
  runs : Runs settings w
  arrives : request ∈ w.requests
  refused : Refused w request.triggerId request.eventName
  follows : Follows w readings
  registered : w.node.hasEvent request.eventName = true
  answers : Answers settings w request.eventName result after
  accepts : result.accepted = true

/-- The request is accepted, and the directory of its capture is there. -/
def Captures (w : World) (request : TriggerRequest) (readings : Readings)
    (result : CaptureResult) (after : System × List Text) : Prop :=
  (w.node.handleTrigger request readings result).response.success = true ∧
    (w.node.handleTrigger request readings result).captured = some result ∧
    result.directory ∈ (w.serveRouted request readings result after).created

/-- No answer to this id was computed less than a TTL before the request. -/
def Forgotten (w : World) (triggerId : Text) (arrival : Int) : Prop :=
  ∀ answer ∈ w.answers, answer.triggerId = triggerId → answer.fromMemory = false →
    answer.answered + w.node.triggerDedupeTtl ≤ arrival

instance (w : World) (triggerId : Text) (arrival : Int) :
    Decidable (Forgotten w triggerId arrival) :=
  inferInstanceAs (Decidable (∀ answer ∈ w.answers, _))

/-- In a run the node has a response in memory unless it is forgotten. -/
theorem pruned_eq_none_iff {w : World} (h : Remembers w) {arrival : Int}
    (hclock : w.clock ≤ arrival) (triggerId : Text) :
    (w.node.pruneResponses arrival).triggerResponses.get? triggerId = none ↔
      Forgotten w triggerId arrival := by
  constructor
  · rintro hnone answer hanswer rfl hcomputed
    rcases h.kept answer hanswer hcomputed with hexpired | ⟨cached, hcached, hle⟩
    · exact hexpired.trans hclock
    · by_contra hfresh
      have hkept := DataCacheNode.pruned_of_fresh hcached
        ((not_le.mp hfresh).trans_le hle)
      rw [hkept] at hnone
      cases hnone
  · intro hforgotten
    cases hget : (w.node.pruneResponses arrival).triggerResponses.get? triggerId with
    | none => rfl
    | some cached =>
        obtain ⟨hcached, hfresh⟩ := DataCacheNode.of_pruned hget
        obtain ⟨answer, hanswer, hsame, hcomputed, hexpires⟩ :=
          h.given triggerId cached hcached
        have hle := hforgotten answer hanswer hsame hcomputed
        rw [hexpires] at hfresh
        exact absurd hle (not_le.mpr hfresh)

/-- A retry is captured exactly when every earlier answer is forgotten. -/
theorem captures_iff_forgotten {settings : Settings} {w : World}
    {request : TriggerRequest} {readings : Readings} {result : CaptureResult}
    {after : System × List Text}
    (h : Retry settings w request readings result after) :
    Captures w request readings result after ↔
      Forgotten w request.triggerId readings.arrival := by
  have hremembers := h.runs.remembers
  obtain ⟨hname, hid⟩ := hremembers.named request h.arrives
  rw [← pruned_eq_none_iff hremembers h.follows.1]
  obtain ⟨-, hcases⟩ := w.node.handleTrigger_cases request readings result
  rw [DataCacheNode.takeTriggerId_of_named _ hid] at hcases
  constructor
  · rintro ⟨-, hcaptured, -⟩
    rcases hcases with ⟨cached, -, hhandled⟩ | ⟨hnone, -⟩
    · rw [hhandled] at hcaptured
      cases hcaptured
    · exact hnone
  · intro hnone
    rcases hcases with ⟨cached, hcached, -⟩ | ⟨-, hcomputed⟩
    · exact absurd (hcached.symm.trans hnone) nofun
    · have hcaptured := hcomputed.captured_eq.trans (if_pos ⟨hname, h.registered⟩)
      refine ⟨?_, hcaptured, ?_⟩
      · rw [hcomputed.success_eq, hcaptured]
        exact h.accepts
      · obtain ⟨clock, hexec⟩ := h.answers
        have hcreated := mem_created_of_accepted hexec h.accepts
        simp only [World.serveRouted, World.serve, hcaptured]
        exact hcreated

/-! ### A run -/

def strictSettings : Settings where
  config := ⟨fun _ => [], fun _ value => value, fun _ value => value⟩
  requireSyncedData := true

def strictClock : Clock := ⟨10 * nanosPerSecond, 1700000000000000000, 0⟩

def brakeSignal : EventSignal := ⟨"brake", "x", "button"⟩

def brakeRequest : TriggerRequest := ⟨"brake", "x", "button"⟩

def readAt (time : Int) : Readings := ⟨0, time, time, time, none⟩

/-- A request is sent while the ledger has no pairs. -/
def sentWorld : World :=
  (World.initial (.create 60000 1000)
    (.create (60 * nanosPerSecond) false true ["brake"])
    (Capture.initial strictSettings 100 0 0) 0).signal brakeSignal 0 true 0

def monitorOf (w : World) : CaptureResult × (System × List Text) :=
  record strictSettings strictClock "brake" (w.system, w.created)

def answeredWorld : World :=
  sentWorld.serveRouted brakeRequest (readAt 0) (monitorOf sentWorld).1
    (monitorOf sentWorld).2

def refusal : TriggerResponse :=
  (sentWorld.node.handleTrigger brakeRequest (readAt 0)
    (monitorOf sentWorld).1).response

def pairedSystem (s : System) : System :=
  let stamp := 9 * nanosPerSecond
  { s with pairIndex := s.pairIndex.addMatched stamp stamp 0 }

/-- The refusal reached the router, a pair arrived, and the signal came again. -/
def retryWorld (w : World) : World :=
  let released := w.finishCall brakeRequest (.ok refusal)
  { released with system := pairedSystem released.system }.signal brakeSignal 0 true
    nanosPerSecond

theorem runs_answeredWorld : Runs strictSettings answeredWorld := by
  refine .step (.step (.start 60000 1000 (60 * nanosPerSecond) false true ["brake"]
    100 0 0 0 (by decide)) (.signal brakeSignal 0 true 0)) ?_
  exact .serve brakeRequest (readAt 0) _ _ (by decide +kernel)
    ⟨by decide, by decide, by decide⟩ ⟨strictClock, exec_record _ _ _ _⟩

theorem runs_retryWorld : Runs strictSettings (retryWorld answeredWorld) := by
  refine .step (.step (.step runs_answeredWorld
    (.reply brakeRequest refusal (by decide +kernel)))
    (.background _ (.ledger _ _))) (.signal brakeSignal 0 true nanosPerSecond)

theorem retry_retryWorld (time : Int) (htime : 0 ≤ time) :
    Retry strictSettings (retryWorld answeredWorld) brakeRequest (readAt time)
      (monitorOf (retryWorld answeredWorld)).1
      (monitorOf (retryWorld answeredWorld)).2 where
  runs := runs_retryWorld
  arrives := by decide +kernel
  refused := ⟨by decide +kernel, by decide +kernel, by decide +kernel⟩
  follows := by
    have hclock : (retryWorld answeredWorld).clock = 0 := by decide +kernel
    exact ⟨hclock.trans_le htime, le_refl _, le_refl _⟩
  registered := by decide +kernel
  answers := ⟨strictClock, exec_record _ _ _ _⟩
  accepts := by decide +kernel

/-- A minute later the refusal is forgotten, and the retry is captured. -/
theorem captures_iff_forgotten_brake :
    Captures (retryWorld answeredWorld) brakeRequest (readAt (60 * nanosPerSecond))
      (monitorOf (retryWorld answeredWorld)).1
      (monitorOf (retryWorld answeredWorld)).2 :=
  (captures_iff_forgotten (retry_retryWorld (60 * nanosPerSecond) (by decide))).mpr
    (by decide +kernel)

/-- A second later the refusal is repeated from memory. -/
theorem not_captures_of_remembered_refusal :
    ¬∀ (settings : Settings) (w : World) (request : TriggerRequest)
      (readings : Readings) (result : CaptureResult) (after : System × List Text),
      Retry settings w request readings result after →
      Captures w request readings result after := by
  intro h
  have hcaptures := h _ _ _ _ _ _ (retry_retryWorld nanosPerSecond (by decide))
  exact absurd hcaptures.1 (by decide +kernel)

end DataCache.Trigger
