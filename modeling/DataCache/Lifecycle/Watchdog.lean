import DataCache.Foundation.Changes
import DataCache.Foundation.Dict
import DataCache.Foundation.Text
import Mathlib.Data.Char
import Mathlib.Data.List.Lex
import Mathlib.Data.List.Sort

/-!
# The sensor watchdog

A sensor is stale when its messages have stayed out for longer than its timeout.
The watchdog looks at every poll and calls back when that changes.
-/

namespace DataCache.Lifecycle

open DataCache.Foundation

/-! ## The watchdog -/

def nanosPerMillisecond : Int := 1000000

/-- `duration_cast`, which rounds towards zero. -/
def toMilliseconds (duration : Int) : Int := duration.tdiv nanosPerMillisecond

/-- The timeout in milliseconds, the readings of the steady clock in nanoseconds. -/
structure SensorState where
  staleTimeout : Int
  lastReceive : Int
  staleSince : Int
  stale : Bool
  deriving DecidableEq

structure Transition where
  sensor : Text
  stale : Bool
  elapsed : Int
  deriving DecidableEq

abbrev SensorWatchdog := Dict Text SensorState

/-- The order of `std::map`. -/
def KeyBefore (first second : Text × SensorState) : Prop := first.1 ≤ second.1

instance : DecidableRel KeyBefore := fun first second =>
  inferInstanceAs (Decidable (first.1 ≤ second.1))

def isStaleAt (state : SensorState) (now : Int) : Bool :=
  decide (now - state.lastReceive > state.staleTimeout * nanosPerMillisecond)

/-- The body of the loop in `poll`. -/
def pollSensor (now : Int) (name : Text) (state : SensorState) :
    SensorState × Option Transition :=
  let stale := isStaleAt state now
  if stale = state.stale then (state, none)
  else
    let elapsed := if stale then now - state.lastReceive else now - state.staleSince
    ({ state with
        stale
        staleSince := if stale then now else state.staleSince },
      some ⟨name, stale, toMilliseconds elapsed⟩)

namespace SensorWatchdog

/-- `emplace`: a sensor that is registered already stays as it is. -/
def registerSensor (watchdog : SensorWatchdog) (name : Text) (staleTimeout now : Int) :
    SensorWatchdog :=
  if watchdog.contains name then watchdog
  else watchdog.set name ⟨staleTimeout, now, 0, false⟩

def noteData (watchdog : SensorWatchdog) (name : Text) (now : Int) : SensorWatchdog :=
  match watchdog.get? name with
  | none => watchdog
  | some state => watchdog.set name { state with lastReceive := now }

def sensors (watchdog : SensorWatchdog) : List (Text × SensorState) :=
  watchdog.entries.insertionSort KeyBefore

def poll (watchdog : SensorWatchdog) (now : Int) : SensorWatchdog × List Transition :=
  (watchdog.mapValues fun name state => (pollSensor now name state).1,
    watchdog.sensors.filterMap fun (name, state) => (pollSensor now name state).2)

def isStale (watchdog : SensorWatchdog) (name : Text) : Bool :=
  (watchdog.get? name).any SensorState.stale

def formatSeconds (milliseconds : Int) : Text :=
  let tenths := milliseconds.tdiv 100
  showInt (tenths.tdiv 10) ++ "." ++ showInt (tenths.tmod 10) ++ "s"

def describeSensor (now : Int) (name : Text) (state : SensorState) : Text :=
  name ++ ": " ++ if !state.stale then ("ok" : Text)
    else "STALE " ++ formatSeconds (toMilliseconds (now - state.lastReceive))

/-- Human-readable snapshot such as "camera: ok, lidar: STALE 2.3s". -/
def describeStatus (watchdog : SensorWatchdog) (now : Int) : Text :=
  watchdog.sensors.foldl (fun description (name, state) =>
    (if description.isEmpty then description else description ++ ", ") ++
      describeSensor now name state) []

end SensorWatchdog

/-! ## Runs -/

inductive WatchdogOp where
  | registerSensor (name : Text) (staleTimeout : Int)
  | noteData (name : Text)
  | poll

/-- A call and the reading of the clock in it. -/
abbrev WatchdogCall := Int × WatchdogOp

namespace SensorWatchdog

def call (watchdog : SensorWatchdog) :
    WatchdogCall → SensorWatchdog × List Transition
  | (now, .registerSensor name staleTimeout) =>
      (watchdog.registerSensor name staleTimeout now, [])
  | (now, .noteData name) => (watchdog.noteData name now, [])
  | (now, .poll) => watchdog.poll now

/-- The watchdog after some calls, and all the transitions it has called back. -/
def run (calls : List WatchdogCall) : SensorWatchdog × List Transition :=
  calls.foldl (fun (watchdog, reported) call =>
    ((watchdog.call call).1, reported ++ (watchdog.call call).2)) (Dict.empty, [])

def reportsOf (name : Text) (reported : List Transition) : List Transition :=
  reported.filter fun transition => decide (transition.sensor = name)

end SensorWatchdog

/-! ## What the calls say about a sensor -/

/-- The timeout that a sensor was first registered with, and its last sign of life. -/
def hear (name : Text) : Option (Int × Int) → WatchdogCall → Option (Int × Int)
  | none, (now, .registerSensor other staleTimeout) =>
      if other = name then some (staleTimeout, now) else none
  | some (staleTimeout, last), (now, .noteData other) =>
      if other = name then some (staleTimeout, now) else some (staleTimeout, last)
  | heard, _ => heard

def heard (name : Text) (calls : List WatchdogCall) : Option (Int × Int) :=
  calls.foldl (hear name) none

/-- What a poll finds: its time, how long the sensor has been silent, the verdict. -/
structure Observation where
  time : Int
  silence : Int
  stale : Bool

def observation (name : Text) (before : List WatchdogCall) (now : Int) :
    Option Observation :=
  (heard name before).map fun (staleTimeout, last) =>
    ⟨now, now - last, decide (now - last > staleTimeout * nanosPerMillisecond)⟩

/-- The observations of a sensor, one for each poll since its registration. -/
def observations (name : Text) (calls : List WatchdogCall) : List Observation :=
  yields (fun before call =>
    match call with
    | (now, .poll) => (observation name before now).toList
    | _ => []) [] calls

def Differs (first second : Observation) : Prop := first.stale ≠ second.stale

instance : DecidableRel Differs := fun first second =>
  inferInstanceAs (Decidable (first.stale ≠ second.stale))

/-- A sensor is taken to be fresh at first; then each observation that differs. -/
def changes (name : Text) (calls : List WatchdogCall) : List Observation :=
  (observations name calls).destutter' Differs ⟨0, 0, false⟩

/-- A change and the one before it, in milliseconds. -/
def reportOf (name : Text) (previous current : Observation) : Transition :=
  ⟨name, current.stale, toMilliseconds
    (if current.stale then current.silence else current.time - previous.time)⟩

/-- The verdict of the last poll. -/
def lastVerdict (name : Text) (calls : List WatchdogCall) : Bool :=
  ((observations name calls).getLast?).any Observation.stale

section Growth

variable {name : Text} {calls : List WatchdogCall} {now : Int}

theorem heard_concat (calls : List WatchdogCall) (call : WatchdogCall) :
    heard name (calls ++ [call]) = hear name (heard name calls) call := by
  rw [heard, heard, List.foldl_concat]

theorem observations_poll : observations name (calls ++ [(now, .poll)]) =
    observations name calls ++ (observation name calls now).toList :=
  yields_concat _ _ _ _

theorem observations_other {op : WatchdogOp} (h : op ≠ .poll) :
    observations name (calls ++ [(now, op)]) = observations name calls := by
  rw [observations, yields_concat]
  cases op with
  | poll => exact absurd rfl h
  | _ => exact List.append_nil _

theorem changes_ne_nil : changes name calls ≠ [] := List.destutter'_ne_nil _ _

/-- The last change has the verdict of the last observation. -/
theorem stale_getLast_destutter' (observed : List Observation) (start : Observation) :
    ((observed.destutter' Differs start).getLast (List.destutter'_ne_nil _ _)).stale =
      (observed.getLast?.elim start.stale Observation.stale) := by
  induction observed using List.reverseRecOn with
  | nil => rfl
  | append_singleton rest last ih =>
      rw [List.getLast?_concat, Option.elim_some]
      by_cases h : Differs ((rest.destutter' Differs start).getLast
          (List.destutter'_ne_nil _ _)) last
      · simp [destutter'_concat, h]
      · simp only [destutter'_concat, if_neg h, List.append_nil]
        exact not_ne_iff.mp h

theorem stale_getLast_changes :
    ((changes name calls).getLast changes_ne_nil).stale = lastVerdict name calls := by
  have h := stale_getLast_destutter' (observations name calls) ⟨0, 0, false⟩
  refine h.trans ?_
  rw [lastVerdict]
  cases (observations name calls).getLast? with
  | none => rfl
  | some observed => rfl

theorem changes_poll {observed : Observation}
    (h : observation name calls now = some observed) :
    changes name (calls ++ [(now, .poll)]) = changes name calls ++
      if observed.stale = lastVerdict name calls then [] else [observed] := by
  have hlast := @stale_getLast_changes name calls
  rw [changes, observations_poll, h, Option.toList_some, destutter'_concat]
  refine congrArg (changes name calls ++ ·) ?_
  rw [← hlast]
  by_cases hsame : observed.stale = ((changes name calls).getLast changes_ne_nil).stale
  · rw [if_pos hsame]
    exact if_neg (not_ne_iff.mpr hsame.symm)
  · rw [if_neg hsame]
    exact if_pos (Ne.symm hsame)

theorem lastVerdict_poll {observed : Observation}
    (h : observation name calls now = some observed) :
    lastVerdict name (calls ++ [(now, .poll)]) = observed.stale := by
  rw [lastVerdict, observations_poll, h, Option.toList_some, List.getLast?_concat]
  rfl

end Growth

/-! ## The watchdog reports the changes -/

namespace SensorWatchdog

variable {watchdog : SensorWatchdog} {name other : Text} {now : Int}

theorem sensors_perm (watchdog : SensorWatchdog) :
    watchdog.sensors.Perm watchdog.entries :=
  List.perm_insertionSort _ _

theorem pollSensor_sensor {state : SensorState} {transition : Transition}
    (h : (pollSensor now name state).2 = some transition) : transition.sensor = name := by
  unfold pollSensor at h
  dsimp only at h
  split at h
  · cases h
  · cases h
    rfl

theorem get?_poll : (watchdog.poll now).1.get? name =
    (watchdog.get? name).map fun state => (pollSensor now name state).1 :=
  Dict.get?_mapValues _ _ _

theorem reportsOf_poll : reportsOf name (watchdog.poll now).2 =
    ((watchdog.get? name).bind fun state => (pollSensor now name state).2).toList := by
  have hperm := watchdog.sensors_perm
  have hnodup := (hperm.map Prod.fst).nodup_iff.mpr watchdog.nodupKeys
  have hfilter := Assoc.filter_filterMap (fun key state transition h =>
    @pollSensor_sensor key now state transition h) hnodup name
  rw [Assoc.lookup_perm hperm hnodup] at hfilter
  exact hfilter

/-- The watchdog knows of a sensor what the calls so far say. -/
structure Follows (name : Text) (calls : List WatchdogCall) (watchdog : SensorWatchdog)
    (reported : List Transition) : Prop where
  state : ∃ since, watchdog.get? name = (heard name calls).map (fun (staleTimeout, last) =>
      ⟨staleTimeout, last, since, lastVerdict name calls⟩) ∧
    (lastVerdict name calls = true →
      since = ((changes name calls).getLast changes_ne_nil).time)
  unheard : heard name calls = none → observations name calls = []
  reports : reportsOf name reported = successive (reportOf name) (changes name calls)

variable {calls : List WatchdogCall} {reported : List Transition}

/-- Calls that are not polls report nothing. -/
theorem Follows.quiet (h : Follows name calls watchdog reported)
    {watchdog' : SensorWatchdog} {op : WatchdogOp} (hop : op ≠ .poll)
    (hunheard : heard name (calls ++ [(now, op)]) = none → heard name calls = none)
    (hstate : ∀ since, watchdog.get? name = (heard name calls).map (fun (timeout, last) =>
        ⟨timeout, last, since, lastVerdict name calls⟩) →
      ∃ since', (heard name calls ≠ none → since' = since) ∧
        watchdog'.get? name = (heard name (calls ++ [(now, op)])).map
          fun (timeout, last) => ⟨timeout, last, since', lastVerdict name calls⟩) :
    Follows name (calls ++ [(now, op)]) watchdog' (reported ++ []) := by
  have hsame := @observations_other name calls now op hop
  have hchanges : changes name (calls ++ [(now, op)]) = changes name calls := by
    rw [changes, hsame, changes]
  have hverdict : lastVerdict name (calls ++ [(now, op)]) = lastVerdict name calls := by
    rw [lastVerdict, hsame, lastVerdict]
  obtain ⟨since, hget, hsince⟩ := h.state
  obtain ⟨since', heq, hget'⟩ := hstate since hget
  refine ⟨⟨since', ?_, fun hstale => ?_⟩, fun hnone => ?_, ?_⟩
  · rw [hverdict]
    exact hget'
  · rw [hverdict] at hstale
    have hheard : heard name calls ≠ none := by
      intro hnone
      rw [lastVerdict, h.unheard hnone] at hstale
      cases hstale
    rw [heq hheard, hsince hstale]
    exact congrArg Observation.time (List.getLast_congr _ _ hchanges.symm)
  · rw [hsame]
    exact h.unheard (hunheard hnone)
  · rw [List.append_nil, hchanges]
    exact h.reports

theorem follows_registerSensor (h : Follows name calls watchdog reported)
    (other : Text) (staleTimeout : Int) :
    Follows name (calls ++ [(now, .registerSensor other staleTimeout)])
      (watchdog.registerSensor other staleTimeout now) (reported ++ []) := by
  refine h.quiet nofun ?_ fun since hget => ?_
  · rw [heard_concat]
    cases heard name calls with
    | none => exact fun _ => rfl
    | some sign => exact nofun
  · rw [heard_concat, registerSensor]
    cases hheard : heard name calls with
    | none =>
        rw [hheard] at hget
        have hverdict : lastVerdict name calls = false := by
          rw [lastVerdict, h.unheard hheard]
          rfl
        refine ⟨0, fun hne => absurd rfl hne, ?_⟩
        by_cases hname : other = name
        · subst hname
          have habsent : watchdog.contains other = false := by
            rw [Dict.contains, hget]
            rfl
          rw [habsent, if_neg Bool.false_ne_true, Dict.get?_set_self, hverdict]
          simp [hear]
        · have hhear : hear name none (now, .registerSensor other staleTimeout) = none := by
            simp [hear, hname]
          rw [hhear]
          split
          · exact hget
          · rw [Dict.get?_set_ne _ _ hname]
            exact hget
    | some sign =>
        obtain ⟨timeout, last⟩ := sign
        rw [hheard] at hget
        refine ⟨since, fun _ => rfl, ?_⟩
        by_cases hname : other = name
        · subst hname
          have hpresent : watchdog.contains other = true := by
            rw [Dict.contains, hget]
            rfl
          rw [if_pos hpresent, hget]
          rfl
        · split
          · exact hget
          · rw [Dict.get?_set_ne _ _ hname, hget]
            rfl

theorem follows_noteData (h : Follows name calls watchdog reported) (other : Text) :
    Follows name (calls ++ [(now, .noteData other)])
      (watchdog.noteData other now) (reported ++ []) := by
  have hothers : other ≠ name →
      (watchdog.noteData other now).get? name = watchdog.get? name := by
    intro hname
    unfold noteData
    split
    · rfl
    · exact Dict.get?_set_ne _ _ hname
  refine h.quiet nofun ?_ fun since hget => ⟨since, fun _ => rfl, ?_⟩
  · rw [heard_concat]
    cases heard name calls with
    | none => exact fun _ => rfl
    | some sign =>
        obtain ⟨timeout, last⟩ := sign
        simp only [hear]
        split <;> exact nofun
  · rw [heard_concat]
    by_cases hname : other = name
    · subst hname
      unfold noteData
      cases hheard : heard other calls with
      | none =>
          rw [hheard] at hget
          simp [hget, hear]
      | some sign =>
          obtain ⟨timeout, last⟩ := sign
          rw [hheard] at hget
          simp [hget, hear]
    · rw [hothers hname, hget]
      cases heard name calls with
      | none => rfl
      | some sign => simp [hear, hname]

/-- A poll on the state of a registered sensor, and what there is to observe. -/
theorem pollSensor_eq {state : SensorState} {observed : Observation}
    (hstale : observed.stale = isStaleAt state now) :
    pollSensor now name state = if observed.stale = state.stale then (state, none)
      else (⟨state.staleTimeout, state.lastReceive,
          if observed.stale then now else state.staleSince, observed.stale⟩,
        some ⟨name, observed.stale, toMilliseconds (if observed.stale
          then now - state.lastReceive else now - state.staleSince)⟩) := by
  rw [hstale]
  rfl

/-- A poll adds one observation of a registered sensor. -/
structure Observes (name : Text) (calls : List WatchdogCall) (now : Int)
    (observed : Observation) : Prop where
  heard : heard name (calls ++ [(now, .poll)]) = heard name calls
  verdict : lastVerdict name (calls ++ [(now, .poll)]) = observed.stale
  changes : changes name (calls ++ [(now, .poll)]) = changes name calls ++
    if observed.stale = lastVerdict name calls then [] else [observed]

/-- The verdict is the one of the poll before: nothing is reported. -/
theorem Follows.steady (h : Follows name calls watchdog reported)
    {observed : Observation} (hobserves : Observes name calls now observed)
    (hheard : heard name calls ≠ none)
    (hsame : observed.stale = lastVerdict name calls) {watchdog' : SensorWatchdog}
    (hget : watchdog'.get? name = watchdog.get? name) {transitions : List Transition}
    (hreports : reportsOf name transitions = []) :
    Follows name (calls ++ [(now, .poll)]) watchdog' (reported ++ transitions) := by
  have hverdict := hobserves.verdict.trans hsame
  have hchanges := hobserves.changes
  rw [if_pos hsame, List.append_nil] at hchanges
  obtain ⟨since, hstate, hsince⟩ := h.state
  refine ⟨⟨since, ?_, fun hstale => ?_⟩, fun hnone => ?_, ?_⟩
  · rw [hget, hstate, hobserves.heard, hverdict]
  · rw [hverdict] at hstale
    rw [hsince hstale]
    exact congrArg Observation.time (List.getLast_congr _ _ hchanges.symm)
  · exact absurd (hobserves.heard.symm.trans hnone) hheard
  · rw [reportsOf, List.filter_append, hchanges, ← h.reports]
    exact (congrArg (reportsOf name reported ++ ·) hreports).trans (List.append_nil _)

/-- The verdict is another one: the change is reported, and its time kept. -/
theorem Follows.flips (h : Follows name calls watchdog reported)
    {observed : Observation} (hobserves : Observes name calls now observed)
    {staleTimeout last since : Int} (hheard : heard name calls = some (staleTimeout, last))
    (hflips : observed.stale ≠ lastVerdict name calls) {watchdog' : SensorWatchdog}
    (hget : watchdog'.get? name = some ⟨staleTimeout, last, since, observed.stale⟩)
    (hsince : observed.stale = true → since = observed.time)
    {transitions : List Transition} (hreports : reportsOf name transitions =
      [reportOf name ((changes name calls).getLast changes_ne_nil) observed]) :
    Follows name (calls ++ [(now, .poll)]) watchdog' (reported ++ transitions) := by
  have hchanges := hobserves.changes
  rw [if_neg hflips] at hchanges
  have hlast : (changes name (calls ++ [(now, .poll)])).getLast changes_ne_nil =
      observed := by
    rw [List.getLast_congr _ (List.concat_ne_nil _ _) hchanges, List.getLast_concat]
  refine ⟨⟨since, ?_, fun hstale => ?_⟩, fun hnone => ?_, ?_⟩
  · rw [hget, hobserves.heard, hheard, hobserves.verdict]
    rfl
  · rw [hobserves.verdict] at hstale
    rw [hlast, hsince hstale]
  · rw [hobserves.heard, hheard] at hnone
    cases hnone
  · rw [reportsOf, List.filter_append, hchanges, successive_concat _ changes_ne_nil,
      ← h.reports]
    exact congrArg (reportsOf name reported ++ ·) hreports

theorem follows_poll (h : Follows name calls watchdog reported) :
    Follows name (calls ++ [(now, .poll)]) (watchdog.poll now).1
      (reported ++ (watchdog.poll now).2) := by
  obtain ⟨since, hget, hsince⟩ := h.state
  have hheard : heard name (calls ++ [(now, .poll)]) = heard name calls := by
    rw [heard_concat]
    cases heard name calls <;> rfl
  have hget' := @get?_poll watchdog name now
  have hreports := @reportsOf_poll watchdog name now
  cases hsign : heard name calls with
  | none =>
      rw [hsign, Option.map_none] at hget
      rw [hget] at hget' hreports
      have hsame : observations name (calls ++ [(now, .poll)]) =
          observations name calls := by
        rw [observations_poll, observation, hsign]
        exact List.append_nil _
      have hempty := hsame.trans (h.unheard hsign)
      refine ⟨⟨since, ?_, ?_⟩, fun _ => hempty, ?_⟩
      · rw [hget', hheard, hsign]
        rfl
      · rw [lastVerdict, hempty]
        exact nofun
      · rw [reportsOf, List.filter_append, changes, hsame]
        exact (congrArg (reportsOf name reported ++ ·) hreports).trans
          ((List.append_nil _).trans h.reports)
  | some sign =>
      obtain ⟨timeout, last⟩ := sign
      rw [hsign, Option.map_some] at hget
      have hobserved : observation name calls now = some ⟨now, now - last,
          decide (now - last > timeout * nanosPerMillisecond)⟩ := by
        rw [observation, hsign]
        rfl
      have hobserves : Observes name calls now _ :=
        ⟨hheard, lastVerdict_poll hobserved, changes_poll hobserved⟩
      have hpoll := @pollSensor_eq name now
        ⟨timeout, last, since, lastVerdict name calls⟩ ⟨now, now - last,
          decide (now - last > timeout * nanosPerMillisecond)⟩ rfl
      rw [hget, Option.map_some, hpoll] at hget'
      rw [hget, Option.bind_some, hpoll] at hreports
      by_cases hsame : decide (now - last > timeout * nanosPerMillisecond) =
          lastVerdict name calls
      · simp only [hsame, if_true] at hget' hreports
        exact h.steady hobserves (by simp [hsign]) hsame (hget'.trans hget.symm) hreports
      · simp only [if_neg hsame] at hget' hreports
        refine h.flips hobserves hsign hsame hget' (fun hstale => if_pos hstale) ?_
        rw [hreports, reportOf]
        cases hstale : decide (now - last > timeout * nanosPerMillisecond) with
        | true => rfl
        | false =>
            have hwas : lastVerdict name calls = true := by
              rw [hstale] at hsame
              exact Bool.eq_true_of_not_eq_false (Ne.symm hsame)
            rw [hsince hwas]
            rfl

theorem follows_run (name : Text) (calls : List WatchdogCall) :
    Follows name calls (run calls).1 (run calls).2 := by
  induction calls using List.reverseRecOn with
  | nil => exact ⟨⟨0, rfl, nofun⟩, fun _ => rfl, rfl⟩
  | append_singleton calls last ih =>
      obtain ⟨now, op⟩ := last
      rw [run, List.foldl_concat]
      change Follows name _ ((run calls).1.call (now, op)).1
        ((run calls).2 ++ ((run calls).1.call (now, op)).2)
      cases op with
      | registerSensor other timeout => exact follows_registerSensor ih other timeout
      | noteData other => exact follows_noteData ih other
      | poll => exact follows_poll ih

theorem isChain_reports (name : Text) (calls : List WatchdogCall) :
    (successive (reportOf name) (changes name calls)).IsChain
      (fun first second => second.stale = !first.stale) :=
  isChain_successive (List.isChain_destutter' Differs _ _) fun _ _ _ _ hbc =>
    Bool.eq_not.mpr (Ne.symm hbc)

theorem head_report {transition : Transition}
    (h : transition ∈ (successive (reportOf name) (changes name calls)).head?) :
    transition.stale = true := by
  obtain ⟨first, second, rest, hchanges, rfl⟩ := eq_cons_of_mem_head?_successive h
  have hhead := head?_destutter' (R := Differs) (observations name calls) ⟨0, 0, false⟩
  have hchain := List.isChain_destutter' Differs (observations name calls) ⟨0, 0, false⟩
  rw [changes] at hchanges
  rw [hchanges] at hhead hchain
  cases hhead
  exact Bool.eq_true_of_not_eq_false (Ne.symm (List.isChain_cons_cons.mp hchain).1)

theorem Follows.isStale_eq (h : Follows name calls watchdog reported) :
    watchdog.isStale name = lastVerdict name calls := by
  obtain ⟨since, hget, -⟩ := h.state
  rw [isStale, hget]
  cases hheard : heard name calls with
  | none =>
      rw [lastVerdict, h.unheard hheard]
      rfl
  | some sign => rfl

/--
The watchdog calls back for a sensor exactly when the verdict of a poll is another
one than that of the poll before: alternately stale and fresh, and stale first.
What it says in between is the verdict of the last poll.
-/
theorem watchdog_reports_changes (name : Text) (calls : List WatchdogCall) :
    reportsOf name (run calls).2 = successive (reportOf name) (changes name calls) ∧
      (run calls).1.isStale name = lastVerdict name calls ∧
      (reportsOf name (run calls).2).IsChain
        (fun first second => second.stale = !first.stale) ∧
      ∀ transition ∈ (reportsOf name (run calls).2).head?, transition.stale = true := by
  have h := follows_run name calls
  exact ⟨h.reports, h.isStale_eq, h.reports ▸ isChain_reports name calls,
    h.reports ▸ fun transition => head_report⟩

/-! ## The description -/

theorem describeSensor_ne_nil (now : Int) (name : Text) (state : SensorState) :
    describeSensor now name state ≠ [] := by
  intro h
  have hcolon : (": " : Text) = [] := (List.append_eq_nil_iff.mp (List.append_eq_nil_iff.mp h).1).2
  cases hcolon

/-- The snapshot lists the sensors in the order of their names. -/
theorem describeStatus_eq (watchdog : SensorWatchdog) (now : Int) :
    watchdog.describeStatus now = (", " : Text).intercalate
      (watchdog.sensors.map fun entry => describeSensor now entry.1 entry.2) := by
  have hrest : ∀ (entries : List (Text × SensorState)) (described : Text),
      described ≠ [] → entries.foldl (fun description (name, state) =>
        (if description.isEmpty then description else description ++ ", ") ++
          describeSensor now name state) described =
        (", " : Text).intercalate
          (described :: entries.map fun entry => describeSensor now entry.1 entry.2) := by
    intro entries
    induction entries with
    | nil => exact fun described _ => List.intercalate_singleton.symm
    | cons entry rest ih =>
        intro described hne
        have hempty : described.isEmpty = false := by simpa using hne
        rw [List.foldl_cons, hempty, if_neg Bool.false_ne_true,
          ih _ (fun h => describeSensor_ne_nil _ _ _ (List.append_eq_nil_iff.mp h).2),
          List.map_cons, List.intercalate_cons_cons]
        cases rest with
        | nil => simp [List.intercalate_singleton]
        | cons next rest => simp [List.intercalate_cons_cons]
  rw [describeStatus]
  cases watchdog.sensors with
  | nil => rfl
  | cons entry rest => exact hrest rest _ (describeSensor_ne_nil _ _ _)

/-- A sensor is described as stale when the last poll has found it so. -/
theorem describes_last_verdict {state : SensorState}
    (h : (name, state) ∈ (run calls).1.sensors) :
    state.stale = lastVerdict name calls := by
  have hget : (run calls).1.get? name = some state :=
    (Dict.mem_entries_iff _).mp ((sensors_perm _).mem_iff.mp h)
  rw [← (follows_run name calls).isStale_eq, isStale, hget]
  rfl

example : (run [(0, .registerSensor "lidar" 1000), (0, .registerSensor "camera" 1000),
    (1900000000, .noteData "camera"), (2000000000, .poll)]).1.describeStatus 2345678901 =
    "camera: ok, lidar: STALE 2.3s" := by
  decide +kernel

end SensorWatchdog

end DataCache.Lifecycle
