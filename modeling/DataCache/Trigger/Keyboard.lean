import DataCache.Foundation.Changes
import DataCache.Foundation.Traces
import DataCache.Trigger.Registration

/-!
# The keyboard trigger

A key with a binding publishes a signal, unless the key is only repeating.  The
node keeps every signal until a status concludes it or its time is over.
-/

namespace DataCache.Trigger

open DataCache.Foundation

/-! ## Bindings -/

/-- A `char` of the terminal. -/
abbrev Key := UInt8

def parseKeyBinding (bindings : Dict Key Text) (entry : Text) : Dict Key Text :=
  match entry.dropWhile fun c => decide (c ≠ '=') with
  | [] => bindings
  | _ :: value =>
      let event := trim value
      match encodeUtf8 (trim (entry.takeWhile fun c => decide (c ≠ '='))) with
      | [key] => if validEventName event then bindings.set key event else bindings
      | _ => bindings

def parseKeyBindings (configured : List Text) : Dict Key Text :=
  configured.foldl parseKeyBinding Dict.empty

/-! ## The debouncer -/

structure QuietPeriodDebouncer where
  quietPeriod : Int
  lastInput : Dict Key Int

def QuietPeriodDebouncer.accept (debouncer : QuietPeriodDebouncer) (key : Key)
    (now : Int) : Bool × QuietPeriodDebouncer :=
  ((debouncer.lastInput.get? key).all fun last =>
      decide (now - last ≥ debouncer.quietPeriod),
    { debouncer with lastInput := debouncer.lastInput.set key now })

/-! ## The node -/

structure PendingEntry where
  key : Key
  eventName : Text
  createdAt : Int
  deriving DecidableEq

structure KeyboardTriggerNode where
  bindings : Dict Key Text
  debouncer : QuietPeriodDebouncer
  quitKey : Option Key
  waitForUpload : Bool
  pendingTimeout : Int
  pending : Dict Text PendingEntry
  nextTriggerId : Nat
  published : List EventSignal
  shutdown : Bool

/-- What the clocks say while a key is handled. -/
structure KeyReadings where
  pressed : Int
  rosNow : Int
  createdAt : Int

namespace KeyboardTriggerNode

def nanosPerMillisecond : Int := 1000000

/-- The constructor, which throws when nothing is bound. -/
def create (keyBindings : List Text) (releaseQuietMs : Int) (quitKey : Text)
    (waitForUpload : Bool) (pendingTimeoutMs : Int) : Option KeyboardTriggerNode :=
  let bindings := parseKeyBindings keyBindings
  let quit := (encodeUtf8 quitKey).headD 0
  if bindings.entries.isEmpty then none
  else some ⟨bindings, ⟨max 1 releaseQuietMs * nanosPerMillisecond, Dict.empty⟩,
    if quit = 0 then none else some quit, waitForUpload,
    max 1000 pendingTimeoutMs * nanosPerMillisecond, Dict.empty, 0, [], false⟩

/-- The count is a 64-bit one. -/
def triggerIdOf (rosNow : Int) (count : Nat) : Text :=
  "keyboard-" ++ showInt rosNow ++ "-" ++ showNat (count % 2 ^ 64)

def sendTrigger (node : KeyboardTriggerNode) (key : Key) (eventName : Text)
    (readings : KeyReadings) : KeyboardTriggerNode :=
  let triggerId := triggerIdOf readings.rosNow node.nextTriggerId
  { node with
    pending := node.pending.set triggerId ⟨key, eventName, readings.createdAt⟩
    nextTriggerId := node.nextTriggerId + 1
    published := node.published ++ [⟨eventName, triggerId, "keyboard"⟩] }

def handleKey (node : KeyboardTriggerNode) (key : Key) (readings : KeyReadings) :
    KeyboardTriggerNode :=
  if node.quitKey = some key then { node with shutdown := true }
  else
    match node.bindings.get? key with
    | none => node
    | some eventName =>
        let (accepted, debouncer) := node.debouncer.accept key readings.pressed
        let node := { node with debouncer }
        if accepted then node.sendTrigger key eventName readings else node

def erasePending (node : KeyboardTriggerNode) (triggerId : Text) :
    KeyboardTriggerNode :=
  { node with pending := node.pending.erase triggerId }

def handleStatus (node : KeyboardTriggerNode) (update : EventStatus) :
    KeyboardTriggerNode :=
  match node.pending.get? update.triggerId with
  | none => node
  | some _ =>
      match update.status with
      | .accepted => node
      | .stored =>
          if !node.waitForUpload then node.erasePending update.triggerId else node
      | .uploaded => node.erasePending update.triggerId
      | .uploadRetrying => node
      | .rejected => node.erasePending update.triggerId
      | .recordFailed => node.erasePending update.triggerId
      | .uploadFailed => node.erasePending update.triggerId
      | .received => node

def prunePending (node : KeyboardTriggerNode) (now : Int) : KeyboardTriggerNode :=
  let cutoff := now - node.pendingTimeout
  { node with
    pending := node.pending.filterKeys fun triggerId =>
      !(node.pending.get? triggerId).any fun entry => decide (entry.createdAt < cutoff) }

end KeyboardTriggerNode

/-! ## Runs -/

inductive KeyboardInput where
  | key (key : Key) (readings : KeyReadings)
  | status (update : EventStatus)
  | prune (now : Int)

namespace KeyboardTriggerNode

def handle (node : KeyboardTriggerNode) : KeyboardInput → KeyboardTriggerNode
  | .key key readings => node.handleKey key readings
  | .status update => node.handleStatus update
  | .prune now => node.prunePending now

def run (node : KeyboardTriggerNode) (inputs : List KeyboardInput) :
    KeyboardTriggerNode :=
  inputs.foldl handle node

theorem run_concat (node : KeyboardTriggerNode) (inputs : List KeyboardInput)
    (input : KeyboardInput) :
    node.run (inputs ++ [input]) = (node.run inputs).handle input := by
  rw [run, run, List.foldl_concat]

/-! ## Presses -/

/-- When a key was pressed. -/
def presses (key : Key) (inputs : List KeyboardInput) : List Int :=
  inputs.filterMap fun
    | .key other readings => if other = key then some readings.pressed else none
    | _ => none

/-- Every reading of the steady clock at a press. -/
def pressTimes (inputs : List KeyboardInput) : List Int :=
  inputs.filterMap fun
    | .key _ readings => some readings.pressed
    | _ => none

/-- The event of a key that does not end the program. -/
def eventOf (node : KeyboardTriggerNode) (key : Key) : Option Text :=
  if node.quitKey = some key then none else node.bindings.get? key

/-- The event of a press of a key that has been left alone for a quiet period. -/
def triggering (node : KeyboardTriggerNode) (before : List KeyboardInput) (key : Key)
    (now : Int) : Option Text :=
  (node.eventOf key).filter fun _ =>
    (presses key before).all fun earlier =>
      decide (now - earlier ≥ node.debouncer.quietPeriod)

/-- The presses that send a signal, each with its event and its key. -/
def sends (node : KeyboardTriggerNode) (inputs : List KeyboardInput) :
    List (Text × Key × KeyReadings) :=
  yields (fun before input =>
    match input with
    | .key key readings =>
        ((node.triggering before key readings.pressed).map (·, key, readings)).toList
    | _ => []) [] inputs

def signals (node : KeyboardTriggerNode) (inputs : List KeyboardInput) :
    List EventSignal :=
  (node.sends inputs).mapIdx fun count (eventName, _, readings) =>
    ⟨eventName, triggerIdOf readings.rosNow count, "keyboard"⟩

/-- What `create` makes: nothing has been pressed or sent. -/
structure Idle (node : KeyboardTriggerNode) : Prop where
  lastInput : node.debouncer.lastInput = Dict.empty
  pending : node.pending = Dict.empty
  nextTriggerId : node.nextTriggerId = 0
  published : node.published = []

theorem idle_create {keyBindings : List Text} {releaseQuietMs pendingTimeoutMs : Int}
    {quitKey : Text} {waitForUpload : Bool} {node : KeyboardTriggerNode}
    (h : create keyBindings releaseQuietMs quitKey waitForUpload pendingTimeoutMs =
      some node) : node.Idle := by
  unfold create at h
  dsimp only at h
  split at h
  · cases h
  · cases h
    exact ⟨rfl, rfl, rfl, rfl⟩

section Sending

variable {start node : KeyboardTriggerNode} {inputs : List KeyboardInput} {key : Key}
  {readings : KeyReadings} {input : KeyboardInput}

theorem sends_key : start.sends (inputs ++ [.key key readings]) = start.sends inputs ++
    ((start.triggering inputs key readings.pressed).map (·, key, readings)).toList :=
  yields_concat _ _ _ _

theorem sends_other (h : ∀ key readings, input ≠ .key key readings) :
    start.sends (inputs ++ [input]) = start.sends inputs := by
  rw [sends, yields_concat]
  cases input with
  | key key readings => exact absurd rfl (h key readings)
  | _ => exact List.append_nil _

/-- Everything a node does not change while it runs. -/
structure SameSettings (start node : KeyboardTriggerNode) : Prop where
  bindings : node.bindings = start.bindings
  quietPeriod : node.debouncer.quietPeriod = start.debouncer.quietPeriod
  quitKey : node.quitKey = start.quitKey
  waitForUpload : node.waitForUpload = start.waitForUpload
  pendingTimeout : node.pendingTimeout = start.pendingTimeout

/-- The node has sent what the inputs so far ask for. -/
structure Sends (start : KeyboardTriggerNode) (inputs : List KeyboardInput)
    (node : KeyboardTriggerNode) : Prop where
  settings : SameSettings start node
  lastInput : ∀ key eventName, start.eventOf key = some eventName →
    node.debouncer.lastInput.get? key = (presses key inputs).getLast?
  count : node.nextTriggerId = (start.sends inputs).length
  published : node.published = start.signals inputs

/-- The node has at most forgotten something, or been shut down. -/
structure Alike (node node' : KeyboardTriggerNode) : Prop where
  bindings : node'.bindings = node.bindings
  debouncer : node'.debouncer = node.debouncer
  quitKey : node'.quitKey = node.quitKey
  waitForUpload : node'.waitForUpload = node.waitForUpload
  pendingTimeout : node'.pendingTimeout = node.pendingTimeout
  nextTriggerId : node'.nextTriggerId = node.nextTriggerId
  published : node'.published = node.published

/-- An input that is neither sent nor noted by the debouncer. -/
theorem Sends.silent (h : Sends start inputs node) {node' : KeyboardTriggerNode}
    (halike : Alike node node')
    (hsends : start.sends (inputs ++ [input]) = start.sends inputs)
    (hpresses : ∀ key eventName, start.eventOf key = some eventName →
      presses key (inputs ++ [input]) = presses key inputs) :
    Sends start (inputs ++ [input]) node' where
  settings := ⟨halike.bindings.trans h.settings.bindings,
    (congrArg _ halike.debouncer).trans h.settings.quietPeriod,
    halike.quitKey.trans h.settings.quitKey,
    halike.waitForUpload.trans h.settings.waitForUpload,
    halike.pendingTimeout.trans h.settings.pendingTimeout⟩
  lastInput key eventName hevent := by
    rw [halike.debouncer, hpresses key eventName hevent]
    exact h.lastInput key eventName hevent
  count := by
    rw [halike.nextTriggerId, hsends]
    exact h.count
  published := by
    rw [halike.published, signals, hsends]
    exact h.published

theorem Sends.quiet (h : Sends start inputs node) {node' : KeyboardTriggerNode}
    (hother : ∀ key readings, input ≠ .key key readings) (halike : Alike node node') :
    Sends start (inputs ++ [input]) node' := by
  refine h.silent halike (sends_other hother) fun key _ _ => ?_
  rw [presses, List.filterMap_append]
  cases input with
  | key key readings => exact absurd rfl (hother key readings)
  | _ => exact List.append_nil _

theorem presses_self (inputs : List KeyboardInput) (key : Key) (readings : KeyReadings) :
    presses key (inputs ++ [.key key readings]) =
      presses key inputs ++ [readings.pressed] := by
  rw [presses, List.filterMap_append]
  simp [presses]

theorem presses_other {other : Key} (hne : key ≠ other) :
    presses other (inputs ++ [.key key readings]) = presses other inputs := by
  rw [presses, List.filterMap_append]
  simp [presses, hne]

theorem presses_sublist (key : Key) (inputs : List KeyboardInput) :
    (presses key inputs).Sublist (pressTimes inputs) := by
  induction inputs with
  | nil => exact List.Sublist.slnil
  | cons input rest ih =>
      cases input with
      | key other readings =>
          by_cases hkey : other = key
          · have hpress : presses key (.key other readings :: rest) =
                readings.pressed :: presses key rest := by
              simp [presses, hkey]
            rw [hpress]
            exact ih.cons_cons _
          · have hpress : presses key (.key other readings :: rest) =
                presses key rest := by
              simp [presses, hkey]
            rw [hpress]
            exact ih.cons _
      | _ => exact ih

/-- Of ordered presses the last one decides. -/
theorem all_getLast?_eq {times : List Int} (hordered : times.Pairwise (· ≤ ·))
    (now quietPeriod : Int) :
    (times.getLast?.all fun last => decide (now - last ≥ quietPeriod)) =
      times.all fun earlier => decide (now - earlier ≥ quietPeriod) := by
  induction times using List.reverseRecOn with
  | nil => rfl
  | append_singleton rest last ih =>
      rw [List.getLast?_concat, Option.all_some, List.all_append, Bool.eq_iff_iff]
      simp only [List.all_cons, List.all_nil, Bool.and_true, Bool.and_eq_true,
        List.all_eq_true, decide_eq_true_eq]
      refine ⟨fun h => ⟨fun earlier hearlier => ?_, h⟩, And.right⟩
      have hle := (List.pairwise_append.mp hordered).2.2 earlier hearlier last (by simp)
      omega

/-- A press of a key that has no event. -/
theorem Sends.unbound (h : Sends start inputs node)
    (hevent : start.eventOf key = none) {node' : KeyboardTriggerNode}
    (halike : Alike node node') :
    Sends start (inputs ++ [.key key readings]) node' := by
  refine h.silent halike ?_ fun other eventName hother => presses_other ?_
  · rw [sends_key, triggering, hevent]
    exact List.append_nil _
  · rintro rfl
    rw [hevent] at hother
    cases hother

theorem Sends.bound (h : Sends start inputs node) {eventName : Text}
    (hevent : start.eventOf key = some eventName) :
    node.quitKey ≠ some key ∧ node.bindings.get? key = some eventName := by
  rw [h.settings.quitKey, h.settings.bindings]
  unfold eventOf at hevent
  split at hevent
  · cases hevent
  next hquit => exact ⟨hquit, hevent⟩

/-- The debouncer knows the last press only, and that is enough. -/
theorem Sends.accept (h : Sends start inputs node) {eventName : Text}
    (hevent : start.eventOf key = some eventName)
    (hordered : (pressTimes inputs).Pairwise (· ≤ ·)) (now : Int) :
    (node.debouncer.accept key now).1 = (presses key inputs).all fun earlier =>
      decide (now - earlier ≥ start.debouncer.quietPeriod) := by
  rw [QuietPeriodDebouncer.accept, h.lastInput key eventName hevent,
    h.settings.quietPeriod]
  exact all_getLast?_eq (hordered.sublist (presses_sublist key inputs)) _ _

/-- A press of a key with an event. -/
theorem Sends.press (h : Sends start inputs node) {eventName : Text}
    (hevent : start.eventOf key = some eventName)
    (hordered : (pressTimes inputs).Pairwise (· ≤ ·)) :
    Sends start (inputs ++ [.key key readings]) (node.handleKey key readings) := by
  obtain ⟨hquit, hbinding⟩ := h.bound hevent
  have hlast : ∀ other event, start.eventOf other = some event →
      (node.debouncer.accept key readings.pressed).2.lastInput.get? other =
        (presses other (inputs ++ [.key key readings])).getLast? := by
    intro other event hother
    rw [QuietPeriodDebouncer.accept]
    by_cases hkey : key = other
    · subst hkey
      rw [Dict.get?_set_self, presses_self, List.getLast?_concat]
    · rw [Dict.get?_set_ne _ _ hkey, presses_other hkey]
      exact h.lastInput other event hother
  have hsends := @sends_key start inputs key readings
  rw [triggering, hevent] at hsends
  unfold handleKey
  rw [if_neg hquit, hbinding]
  dsimp only
  rw [h.accept hevent hordered]
  split
  next hquiet =>
    rw [Option.filter_some, if_pos hquiet, Option.map_some, Option.toList_some] at hsends
    refine ⟨⟨h.settings.bindings, h.settings.quietPeriod, h.settings.quitKey,
      h.settings.waitForUpload, h.settings.pendingTimeout⟩, hlast, ?_, ?_⟩
    · rw [hsends, List.length_append, List.length_singleton, ← h.count]
      rfl
    · rw [signals, hsends, List.mapIdx_concat, ← h.count]
      exact congrArg (· ++ _) h.published
  next hquiet =>
    rw [Option.filter_some, if_neg hquiet, Option.map_none, Option.toList_none,
      List.append_nil] at hsends
    refine ⟨⟨h.settings.bindings, h.settings.quietPeriod, h.settings.quitKey,
      h.settings.waitForUpload, h.settings.pendingTimeout⟩, hlast, ?_, ?_⟩
    · rw [hsends]
      exact h.count
    · rw [signals, hsends]
      exact h.published

theorem alike_handleStatus (node : KeyboardTriggerNode) (update : EventStatus) :
    Alike node (node.handleStatus update) := by
  have hsame : Alike node node := ⟨rfl, rfl, rfl, rfl, rfl, rfl, rfl⟩
  have herased : Alike node (node.erasePending update.triggerId) :=
    ⟨rfl, rfl, rfl, rfl, rfl, rfl, rfl⟩
  unfold handleStatus
  cases node.pending.get? update.triggerId with
  | none => exact hsame
  | some entry =>
      cases update.status with
      | stored =>
          dsimp only
          split
          · exact herased
          · exact hsame
      | accepted | uploadRetrying | received => exact hsame
      | uploaded | rejected | recordFailed | uploadFailed => exact herased

theorem Sends.handle (h : Sends start inputs node)
    (hordered : (pressTimes inputs).Pairwise (· ≤ ·)) (input : KeyboardInput) :
    Sends start (inputs ++ [input]) (node.handle input) := by
  cases input with
  | status update => exact h.quiet nofun (alike_handleStatus node update)
  | prune now => exact h.quiet nofun ⟨rfl, rfl, rfl, rfl, rfl, rfl, rfl⟩
  | key key readings =>
      cases hevent : start.eventOf key with
      | some eventName => exact h.press hevent hordered
      | none =>
          refine h.unbound hevent ?_
          unfold eventOf at hevent
          rw [← h.settings.quitKey, ← h.settings.bindings] at hevent
          change Alike node (node.handleKey key readings)
          unfold handleKey
          split at hevent
          next hquit =>
            rw [if_pos hquit]
            exact ⟨rfl, rfl, rfl, rfl, rfl, rfl, rfl⟩
          next hquit =>
            rw [if_neg hquit, hevent]
            exact ⟨rfl, rfl, rfl, rfl, rfl, rfl, rfl⟩

theorem sends_run (hidle : start.Idle)
    (hordered : (pressTimes inputs).Pairwise (· ≤ ·)) :
    Sends start inputs (start.run inputs) := by
  induction inputs using List.reverseRecOn with
  | nil =>
      exact ⟨⟨rfl, rfl, rfl, rfl, rfl⟩,
        fun key _ _ => by rw [run, List.foldl_nil, hidle.lastInput]; rfl,
        hidle.nextTriggerId, hidle.published⟩
  | append_singleton inputs last ih =>
      rw [run_concat]
      rw [pressTimes, List.filterMap_append] at hordered
      have hbefore := (List.pairwise_append.mp hordered).1
      exact (ih hbefore).handle hbefore last

/-! ## Signals -/

theorem triggerIdOf_inj {rosNow rosNow' : Int} {count count' : Nat}
    (hcount : count < 2 ^ 64) (hcount' : count' < 2 ^ 64)
    (h : triggerIdOf rosNow count = triggerIdOf rosNow' count') : count = count' := by
  have hdash : ∀ n, '-' ∉ showNat n := fun n hmem => by
    exact absurd (isDigit_of_mem_showNat hmem) (by decide)
  have hsplit : ∀ rosNow count, triggerIdOf rosNow count =
      ("keyboard-" ++ showInt rosNow : Text) ++ '-' :: showNat (count % 2 ^ 64) := by
    intro rosNow count
    unfold triggerIdOf
    generalize showNat (count % 2 ^ 64) = digits
    rw [List.append_assoc]
    rfl
  rw [hsplit, hsplit] at h
  have hdigits := showNat_injective (append_cons_inj_last (hdash _) (hdash _) h).2
  rwa [Nat.mod_eq_of_lt hcount, Nat.mod_eq_of_lt hcount'] at hdigits

/-- Whether the node waits no longer after a status. -/
def concludes (node : KeyboardTriggerNode) : StatusKind → Bool
  | .stored => !node.waitForUpload
  | .uploaded | .rejected | .recordFailed | .uploadFailed => true
  | .received | .accepted | .uploadRetrying => false

/-- The input ends the waiting for a signal. -/
def Drops (node : KeyboardTriggerNode) (triggerId : Text) (entry : PendingEntry) :
    KeyboardInput → Prop
  | .key _ _ => False
  | .status update => update.triggerId = triggerId ∧ node.concludes update.status = true
  | .prune now => entry.createdAt < now - node.pendingTimeout

/-- A press that sends the signal of the entry. -/
structure SentBy (node : KeyboardTriggerNode) (before : List KeyboardInput)
    (triggerId : Text) (entry : PendingEntry) (readings : KeyReadings) : Prop where
  triggering : node.triggering before entry.key readings.pressed = some entry.eventName
  triggerId : triggerId = triggerIdOf readings.rosNow (node.sends before).length
  createdAt : entry.createdAt = readings.createdAt

/-- It has been sent, and nothing has ended the waiting. -/
def Outstanding (node : KeyboardTriggerNode) (inputs : List KeyboardInput)
    (triggerId : Text) (entry : PendingEntry) : Prop :=
  ∃ before readings after, inputs = before ++ .key entry.key readings :: after ∧
    node.SentBy before triggerId entry readings ∧
    ∀ input ∈ after, ¬node.Drops triggerId entry input

variable {triggerId : Text} {entry : PendingEntry}

theorem outstanding_concat : start.Outstanding (inputs ++ [input]) triggerId entry ↔
    (start.Outstanding inputs triggerId entry ∧ ¬start.Drops triggerId entry input) ∨
      ∃ readings, input = .key entry.key readings ∧
        start.SentBy inputs triggerId entry readings := by
  constructor
  · rintro ⟨before, readings, after, hinputs, hsent, hafter⟩
    rcases concat_eq_append_cons hinputs with ⟨rfl, rfl, hlast⟩ | ⟨rest, rfl, rfl⟩
    · exact .inr ⟨readings, hlast.symm, hsent⟩
    · exact .inl ⟨⟨before, readings, rest, rfl, hsent, fun other hother =>
        hafter other (List.mem_append_left _ hother)⟩, hafter input (by simp)⟩
  · rintro (⟨⟨before, readings, after, rfl, hsent, hafter⟩, hkept⟩ | ⟨readings, rfl, hsent⟩)
    · refine ⟨before, readings, after ++ [input], by simp, hsent, fun other hother => ?_⟩
      rcases List.mem_append.mp hother with hother | hother
      · exact hafter other hother
      · rw [List.mem_singleton.mp hother]
        exact hkept
    · exact ⟨inputs, readings, [], rfl, hsent, nofun⟩

theorem sends_lt {before after : List KeyboardInput}
    (h : inputs = before ++ .key key readings :: after)
    (htriggering : start.triggering before key readings.pressed ≠ none) :
    (start.sends before).length < (start.sends inputs).length := by
  obtain ⟨eventName, hevent⟩ := Option.ne_none_iff_exists'.mp htriggering
  rw [h, sends, sends, yields_append, yields, List.length_append, List.length_append]
  simp only [List.nil_append, hevent, Option.map_some, Option.toList_some,
    List.length_singleton]
  omega

theorem Sends.pending_handleKey (h : Sends start inputs node)
    (hordered : (pressTimes inputs).Pairwise (· ≤ ·)) :
    (node.handleKey key readings).pending =
      match start.triggering inputs key readings.pressed with
      | some eventName => node.pending.set
          (triggerIdOf readings.rosNow (start.sends inputs).length)
          ⟨key, eventName, readings.createdAt⟩
      | none => node.pending := by
  rw [triggering]
  cases hevent : start.eventOf key with
  | some eventName =>
      obtain ⟨hquit, hbinding⟩ := h.bound hevent
      unfold handleKey
      rw [if_neg hquit, hbinding, Option.filter_some]
      dsimp only
      rw [h.accept hevent hordered]
      split
      · rw [← h.count]
        rfl
      · rfl
  | none =>
      unfold eventOf at hevent
      rw [← h.settings.quitKey, ← h.settings.bindings] at hevent
      unfold handleKey
      split at hevent
      next hquit =>
        rw [if_pos hquit]
        rfl
      next hquit =>
        rw [if_neg hquit, hevent]
        rfl

theorem get?_erasePending (node : KeyboardTriggerNode) (concluded : Text) :
    (node.erasePending concluded).pending.get? triggerId = some entry ↔
      node.pending.get? triggerId = some entry ∧ ¬concluded = triggerId := by
  rw [erasePending, Dict.get?_erase]
  by_cases h : concluded = triggerId <;> simp [h]

theorem get?_handleStatus (node : KeyboardTriggerNode) (update : EventStatus) :
    (node.handleStatus update).pending.get? triggerId = some entry ↔
      node.pending.get? triggerId = some entry ∧
        ¬(update.triggerId = triggerId ∧ node.concludes update.status = true) := by
  unfold handleStatus
  cases hpending : node.pending.get? update.triggerId with
  | none =>
      refine (and_iff_left_of_imp fun hget => ?_).symm
      rintro ⟨rfl, -⟩
      rw [hpending] at hget
      cases hget
  | some _ =>
      cases hstatus : update.status with
      | received | accepted | uploadRetrying => simp [concludes]
      | uploaded | rejected | recordFailed | uploadFailed =>
          simp [concludes, get?_erasePending]
      | stored =>
          cases hwait : node.waitForUpload <;> simp [concludes, hwait, get?_erasePending]

theorem get?_prunePending (node : KeyboardTriggerNode) (now : Int) :
    (node.prunePending now).pending.get? triggerId = some entry ↔
      node.pending.get? triggerId = some entry ∧
        ¬entry.createdAt < now - node.pendingTimeout := by
  rw [prunePending, Dict.get?_filterKeys]
  cases hget : node.pending.get? triggerId with
  | none => simp
  | some other =>
      by_cases hold : other.createdAt < now - node.pendingTimeout
      · simp only [Option.any_some, hold, decide_true, Bool.not_true, Bool.false_eq_true,
          if_false, reduceCtorEq, false_iff, Option.some.injEq]
        rintro ⟨rfl, hkept⟩
        exact hkept hold
      · simp only [Option.any_some, hold, decide_false, Bool.not_false, if_true,
          Option.some.injEq]
        refine (and_iff_left_of_imp ?_).symm
        rintro rfl
        exact hold

theorem outstanding_quiet (hother : ∀ key readings, input ≠ .key key readings) :
    start.Outstanding (inputs ++ [input]) triggerId entry ↔
      start.Outstanding inputs triggerId entry ∧ ¬start.Drops triggerId entry input := by
  rw [outstanding_concat]
  refine or_iff_left ?_
  rintro ⟨readings, rfl, -⟩
  exact hother _ _ rfl

theorem outstanding_key : start.Outstanding (inputs ++ [.key key readings]) triggerId entry ↔
    start.Outstanding inputs triggerId entry ∨
      entry.key = key ∧ start.SentBy inputs triggerId entry readings := by
  rw [outstanding_concat]
  refine or_congr (and_iff_left fun h => h) ⟨?_, ?_⟩
  · rintro ⟨other, heq, hsent⟩
    cases heq
    exact ⟨rfl, hsent⟩
  · rintro ⟨rfl, hsent⟩
    exact ⟨readings, rfl, hsent⟩

/-- No signal that is still waited for has the id of the next one. -/
theorem Outstanding.triggerId_ne (h : start.Outstanding inputs triggerId entry)
    (hcount : (start.sends inputs).length < 2 ^ 64) (rosNow : Int) :
    triggerIdOf rosNow (start.sends inputs).length ≠ triggerId := by
  obtain ⟨before, readings, after, hinputs, hsent, -⟩ := h
  rw [hsent.triggerId]
  intro heq
  have hlt := sends_lt hinputs (by rw [hsent.triggering]; exact Option.some_ne_none _)
  exact hlt.ne' (triggerIdOf_inj hcount (hlt.trans hcount) heq)

theorem pending_run (hidle : start.Idle)
    (hordered : (pressTimes inputs).Pairwise (· ≤ ·))
    (hcount : (start.sends inputs).length ≤ 2 ^ 64) :
    (start.run inputs).pending.get? triggerId = some entry ↔
      start.Outstanding inputs triggerId entry := by
  induction inputs using List.reverseRecOn generalizing triggerId entry with
  | nil =>
      rw [run, List.foldl_nil, hidle.pending]
      refine ⟨nofun, ?_⟩
      rintro ⟨before, readings, after, hinputs, -⟩
      simp at hinputs
  | append_singleton inputs last ih =>
      rw [pressTimes, List.filterMap_append] at hordered
      have hbefore := (List.pairwise_append.mp hordered).1
      have hfewer : (start.sends inputs).length ≤ (start.sends (inputs ++ [last])).length := by
        rw [sends, sends, yields_append, List.length_append]
        omega
      have hsends := sends_run hidle hbefore
      have hpending := fun {triggerId entry} =>
        @ih triggerId entry hbefore (hfewer.trans hcount)
      rw [run_concat]
      cases last with
      | status update =>
          have hsame : start.concludes = (start.run inputs).concludes := by
            funext status
            unfold concludes
            rw [hsends.settings.waitForUpload]
          have hquiet : ∀ key readings, KeyboardInput.status update ≠ .key key readings :=
            nofun
          rw [outstanding_quiet hquiet, Drops, hsame, ← hpending]
          exact get?_handleStatus _ update
      | prune now =>
          have hquiet : ∀ key readings, KeyboardInput.prune now ≠ .key key readings := nofun
          rw [outstanding_quiet hquiet, Drops, ← hsends.settings.pendingTimeout, ← hpending]
          exact get?_prunePending _ now
      | key key readings =>
          have hkey := @Sends.pending_handleKey start _ inputs key readings hsends hbefore
          rw [outstanding_key]
          change ((start.run inputs).handleKey key readings).pending.get? triggerId = _ ↔ _
          rw [hkey]
          cases htriggering : start.triggering inputs key readings.pressed with
          | none =>
              refine hpending.trans (or_iff_left ?_).symm
              rintro ⟨rfl, hsent⟩
              rw [hsent.triggering] at htriggering
              cases htriggering
          | some eventName =>
              have hlast : inputs ++ [.key key readings] = inputs ++ .key key readings :: [] :=
                rfl
              have hlt : (start.sends inputs).length < 2 ^ 64 :=
                (sends_lt hlast (by rw [htriggering]; nofun)).trans_le hcount
              rw [Dict.get?_set]
              split
              next hid =>
                constructor
                · intro heq
                  cases heq
                  exact .inr ⟨rfl, htriggering, hid.symm, rfl⟩
                · rintro (hold | ⟨rfl, hsent⟩)
                  · exact absurd hid (hold.triggerId_ne hlt _)
                  · have hevent := htriggering.symm.trans hsent.triggering
                    rw [Option.some.inj hevent, ← hsent.createdAt]
              next hid =>
                refine hpending.trans (or_iff_left ?_).symm
                rintro ⟨-, hsent⟩
                exact hid hsent.triggerId.symm

/--
The node waits for a signal exactly if a press has sent it, no later status has
concluded it and no later sweep has found it too old.
-/
theorem keyboard_pending {keyBindings : List Text} {releaseQuietMs pendingTimeoutMs : Int}
    {quitKey : Text} {waitForUpload : Bool}
    (hcreate : create keyBindings releaseQuietMs quitKey waitForUpload pendingTimeoutMs =
      some start)
    (hordered : (pressTimes inputs).Pairwise (· ≤ ·))
    (hcount : (start.sends inputs).length ≤ 2 ^ 64) (triggerId : Text)
    (entry : PendingEntry) :
    (start.run inputs).pending.get? triggerId = some entry ↔
      start.Outstanding inputs triggerId entry :=
  pending_run (idle_create hcreate) hordered hcount

end Sending

/-! ### One key held down, another pressed, and a status -/

/-- Key `c` at 0, 0.5, 0.9 and 1.7 seconds, key `b` and a status in between. -/
def heldKey : List KeyboardInput :=
  [.key 99 ⟨0, 10, 0⟩, .key 99 ⟨500000000, 20, 500000000⟩,
    .key 98 ⟨600000000, 30, 600000000⟩, .key 99 ⟨900000000, 40, 900000000⟩,
    .status ⟨.rejected, "collision", "keyboard-10-0", "keyboard", [], [], []⟩,
    .key 99 ⟨1700000000, 50, 1700000000⟩]

def twoKeys : KeyboardTriggerNode where
  bindings := parseKeyBindings ["c=collision", " b = hard_brake "]
  debouncer := ⟨700000000, Dict.empty⟩
  quitKey := some 113
  waitForUpload := false
  pendingTimeout := 600000000000
  pending := Dict.empty
  nextTriggerId := 0
  published := []
  shutdown := false

theorem create_twoKeys :
    create ["c=collision", " b = hard_brake "] 700 "q" false 600000 = some twoKeys := by
  have hbound : (parseKeyBindings ["c=collision", " b = hard_brake "]).entries.isEmpty =
      false := by decide +kernel
  have hquit : (encodeUtf8 "q").headD 0 = 113 := by decide +kernel
  unfold create
  simp only [hbound, hquit]
  rfl

theorem ordered_heldKey : (pressTimes heldKey).Pairwise (· ≤ ·) := by decide

theorem keyboard_pending_held :
    (twoKeys.run heldKey).pending.get? "keyboard-30-1" =
        some ⟨98, "hard_brake", 600000000⟩ ∧
      twoKeys.Outstanding heldKey "keyboard-30-1" ⟨98, "hard_brake", 600000000⟩ ∧
      ∀ entry, ¬twoKeys.Outstanding heldKey "keyboard-10-0" entry := by
  have hpending := keyboard_pending create_twoKeys ordered_heldKey (by decide +kernel)
  have hkept : (twoKeys.run heldKey).pending.get? "keyboard-30-1" =
      some ⟨98, "hard_brake", 600000000⟩ := by decide +kernel
  have hrejected : (twoKeys.run heldKey).pending.get? "keyboard-10-0" = none := by
    decide +kernel
  refine ⟨hkept, (hpending _ _).mp hkept, fun entry houtstanding => ?_⟩
  rw [(hpending _ _).mpr houtstanding] at hrejected
  cases hrejected

end KeyboardTriggerNode

end DataCache.Trigger
