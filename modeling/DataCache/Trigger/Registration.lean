import DataCache.Config.Manager
import DataCache.Trigger.Router
import DataCache.Upload.EventNames

/-!
# Events and keys that are configured

The names of events come from one value of the configuration, the keys of the
keyboard from a list of bindings.  What is not a name is left out, and a name
that nothing else of the system could handle never gets in.
-/

namespace DataCache.Trigger

open DataCache.Foundation DataCache.Capture

/-! ## Lists of names -/

def isSpace (c : Char) : Bool := c ∈ [' ', '\t', '\n', '\x0b', '\x0c', '\r']

def trim (value : Text) : Text :=
  ((value.dropWhile isSpace).reverse.dropWhile isSpace).reverse

/-- The loop over the pieces between commas; `events` is also what has been seen. -/
def collectEventNames (events : List Text) : List Text → List Text
  | [] => events
  | piece :: rest =>
      let name := trim piece
      if validEventName name && !events.contains name then
        collectEventNames (events ++ [name]) rest
      else collectEventNames events rest

def parseEventNames (configured : Text) : List Text :=
  collectEventNames [] (configured.splitOn ',')

theorem mem_collectEventNames {name : Text} {pieces : List Text} :
    ∀ {events : List Text}, name ∈ collectEventNames events pieces ↔
      name ∈ events ∨ ∃ piece ∈ pieces, trim piece = name ∧ validEventName name = true := by
  induction pieces with
  | nil => simp [collectEventNames]
  | cons piece rest ih =>
      intro events
      rw [collectEventNames]
      split
      next hnew =>
        obtain ⟨hvalid, -⟩ := Bool.and_eq_true_iff.mp hnew
        rw [ih, List.mem_append, List.mem_singleton, List.exists_mem_cons_iff, or_assoc]
        refine or_congr_right (or_congr_left ⟨?_, fun h => h.1.symm⟩)
        rintro rfl
        exact ⟨rfl, hvalid⟩
      next hold =>
        rw [ih, List.exists_mem_cons_iff]
        refine ⟨Or.imp_right .inr, ?_⟩
        rintro (hmem | ⟨rfl, hvalid⟩ | hrest)
        · exact .inl hmem
        · refine .inl (List.contains_iff_mem.mp ?_)
          rw [hvalid, Bool.true_and, Bool.not_eq_true', Bool.not_eq_false] at hold
          exact hold
        · exact .inr hrest

theorem nodup_collectEventNames {pieces : List Text} :
    ∀ {events : List Text}, events.Nodup → (collectEventNames events pieces).Nodup := by
  induction pieces with
  | nil => exact id
  | cons piece rest ih =>
      intro events hnodup
      rw [collectEventNames]
      split
      next hnew =>
        refine ih (List.nodup_append.mpr ⟨hnodup, List.nodup_singleton _, ?_⟩)
        intro other hother name hname
        rw [List.mem_singleton.mp hname]
        rintro rfl
        obtain ⟨-, hfresh⟩ := Bool.and_eq_true_iff.mp hnew
        rw [List.contains_iff_mem.mpr hother] at hfresh
        cases hfresh
      next => exact ih hnodup

theorem mem_parseEventNames {configured name : Text} :
    name ∈ parseEventNames configured ↔ validEventName name = true ∧
      ∃ piece ∈ configured.splitOn ',', trim piece = name := by
  rw [parseEventNames, mem_collectEventNames]
  simp only [List.not_mem_nil, false_or]
  constructor
  · rintro ⟨piece, hpiece, htrim, hvalid⟩
    exact ⟨hvalid, piece, hpiece, htrim⟩
  · rintro ⟨hvalid, piece, hpiece, htrim⟩
    exact ⟨piece, hpiece, htrim, hvalid⟩

theorem nodup_parseEventNames (configured : Text) : (parseEventNames configured).Nodup :=
  nodup_collectEventNames List.nodup_nil

/-! ## What the node registers -/

def legacyEvents : List Text := ["collision", "hard_brake"]

def enableKey (eventName : Text) : Text := "enable_" ++ eventName ++ "_event"

/-- `registerEvents`: the names of the events that get a callback. -/
def registeredEvents (manager : Config.Manager) : List Text :=
  let eventNames := parseEventNames (manager.getConfig "event_names")
  let eventNames := if eventNames.isEmpty then legacyEvents else eventNames
  eventNames.filter fun eventName => manager.getBoolConfig (enableKey eventName) false

/-- A name in the list that the configuration file gives last. -/
def Listed (file eventName : Text) : Prop :=
  validEventName eventName = true ∧
    ∃ value, Config.LastAssigned (getLines '\n' file) "event_names" value ∧
      ∃ piece ∈ value.splitOn ',', trim piece = eventName

def Enabled (file eventName : Text) : Prop :=
  Config.LastAssigned (getLines '\n' file) (enableKey eventName) "true" ∨
    Config.LastAssigned (getLines '\n' file) (enableKey eventName) "1"

section Loaded

variable {file eventName : Text} {manager : Config.Manager}

theorem mem_configured_iff :
    eventName ∈ parseEventNames
        ((manager.loadConfig (some file)).1.getConfig "event_names") ↔
      Listed file eventName := by
  rw [mem_parseEventNames, Listed, Config.Manager.getConfig, Config.loadConfig_config]
  refine and_congr_right fun hvalid => ?_
  cases hget : (Config.readConfig file).get? "event_names" with
  | none =>
      constructor
      · -- An empty value has one piece, and that is no name.
        rintro ⟨piece, hpiece, rfl⟩
        rw [List.splitOn_nil, List.mem_singleton] at hpiece
        subst hpiece
        exact absurd hvalid (by decide)
      · rintro ⟨value, hlast, -⟩
        rw [Config.get?_readConfig.mpr hlast] at hget
        cases hget
  | some value =>
      constructor
      · exact fun h => ⟨value, Config.get?_readConfig.mp hget, h⟩
      · rintro ⟨other, hlast, h⟩
        rw [Config.get?_readConfig.mpr hlast] at hget
        exact Option.some.inj hget ▸ h

theorem getBoolConfig_iff :
    (manager.loadConfig (some file)).1.getBoolConfig (enableKey eventName) false = true ↔
      Enabled file eventName := by
  rw [Config.Manager.getBoolConfig, Config.loadConfig_config, Enabled,
    ← Config.get?_readConfig, ← Config.get?_readConfig]
  cases (Config.readConfig file).get? (enableKey eventName) with
  | none => simp
  | some value =>
      simp only [Option.some.injEq, Bool.or_eq_true, decide_eq_true_eq]
      constructor
      · intro h
        split at h
        · assumption
        · split at h <;> cases h
      · exact fun h => if_pos h

theorem validEventName_of_mem_legacyEvents (h : eventName ∈ legacyEvents) :
    validEventName eventName = true :=
  List.all_eq_true.mp (show legacyEvents.all validEventName = true by decide) _ h

/--
An event is known to the node exactly if it is enabled and a valid name of the list,
or one of the two old names where the list has no valid name.  Its captures get
directory names that the receiver takes.
-/
theorem registered_events_exact (file : Text) (manager : Config.Manager)
    (triggerDedupeTtl : Int) (uploadEnabled uploadFailureAutoRetry : Bool) :
    (registeredEvents (manager.loadConfig (some file)).1).Nodup ∧
    ∀ eventName,
      ((DataCacheNode.create triggerDedupeTtl uploadEnabled uploadFailureAutoRetry
          (registeredEvents (manager.loadConfig (some file)).1)).hasEvent eventName = true ↔
        (Listed file eventName ∨
          (∀ other, ¬Listed file other) ∧ eventName ∈ legacyEvents) ∧
          Enabled file eventName) ∧
      (eventName ∈ registeredEvents (manager.loadConfig (some file)).1 →
        ∀ captureId < 2 ^ 64, ∀ time < 2 ^ 63,
          Receiver.validateEventName (eventDirectoryName eventName captureId (time : Nat)) =
            some (eventDirectoryName eventName captureId (time : Nat))) := by
  have hlist : ∀ eventName, eventName ∈ registeredEvents (manager.loadConfig (some file)).1 ↔
      (Listed file eventName ∨
        (∀ other, ¬Listed file other) ∧ eventName ∈ legacyEvents) ∧
        Enabled file eventName := by
    intro eventName
    rw [registeredEvents, List.mem_filter, getBoolConfig_iff]
    refine and_congr_left fun _ => ?_
    by_cases hnone : ∀ other, ¬Listed file other
    · have hempty : parseEventNames
          ((manager.loadConfig (some file)).1.getConfig "event_names") = [] :=
        List.eq_nil_iff_forall_not_mem.mpr fun other =>
          mem_configured_iff.not.mpr (hnone other)
      rw [hempty]
      simp [hnone]
    · obtain ⟨other, hother⟩ := not_forall_not.mp hnone
      have hsome := (@mem_configured_iff file other manager).mpr hother
      rw [List.isEmpty_eq_false_iff.mpr (List.ne_nil_of_mem hsome),
        if_neg Bool.false_ne_true, mem_configured_iff]
      simp [hnone]
  refine ⟨?_, fun eventName => ⟨?_, fun hmem captureId hid time htime => ?_⟩⟩
  · refine List.Nodup.filter _ ?_
    split
    · decide
    · exact nodup_parseEventNames _
  · rw [← hlist, DataCacheNode.hasEvent, List.contains_iff_mem]
    rfl
  · have hvalid : validEventName eventName = true := by
      obtain ⟨hlisted | ⟨-, hlegacy⟩, -⟩ := (hlist eventName).mp hmem
      · exact hlisted.1
      · exact validEventName_of_mem_legacyEvents hlegacy
    exact Upload.validateEventName_eventDirectoryName hvalid hid htime

end Loaded

end DataCache.Trigger
