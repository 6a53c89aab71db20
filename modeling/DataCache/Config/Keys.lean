import DataCache.Foundation.Dict
import DataCache.Foundation.Text

/-!
# The declared configuration keys

A key is declared by the table of exact names or by one of six affix patterns,
and the declaration gives the type of its value.  Every name between the affixes
is allowed as long as it is not empty, underscores included.
-/

namespace DataCache.Config

open DataCache.Foundation

inductive KeyType where
  | string
  | int
  | bool
  deriving DecidableEq

def exactKeys : List (String × KeyType) := [
  ("buffer_size", .int),
  ("buffer_duration_seconds", .int),
  ("buffer_max_mb", .int),
  ("sync_enabled", .bool),
  ("sync_queue_size", .int),
  ("sync_tolerance_ms", .int),
  ("sync_required_for_recording", .bool),
  ("trigger_dedupe_ttl_ms", .int),
  ("max_pending_storage_jobs", .int),
  ("max_active_event_captures", .int),
  ("event_scheduler_period_ms", .int),
  ("sensor_stall_grace_ms", .int),
  ("watchdog_enabled", .bool),
  ("watchdog_check_period_ms", .int),
  ("watchdog_stale_timeout_ms", .int),
  ("compression_enabled", .bool),
  ("compression_level", .int),
  ("keep_raw_after_compression", .bool),
  ("conversion_enabled", .bool),
  ("image_format", .string),
  ("image_quality", .int),
  ("pointcloud_format", .string),
  ("disk_min_free_mb", .int),
  ("retention_days", .int),
  ("retention_max_capacity_mb", .int),
  ("disk_cleanup_interval_seconds", .int),
  ("upload_enabled", .bool),
  ("upload_service_name", .string),
  ("upload_scan_period_ms", .int),
  ("upload_timeout_s", .int),
  ("upload_max_retries", .int),
  ("upload_retry_backoff_ms", .int),
  ("upload_lease_timeout_s", .int),
  ("upload_failed_rescan_period_ms", .int),
  ("event_names", .string),
  ("event_pre_time", .int),
  ("event_post_time", .int),
  ("record_camera", .bool),
  ("record_lidar", .bool),
  ("record_directory", .string),
  ("config_strict", .bool)]

def hasAffixes (key front ending : Text) : Bool :=
  decide (front.length + ending.length < key.length) &&
    front.isPrefixOf key && ending.isSuffixOf key

def matchesPatternKey (key : Text) : Option KeyType :=
  if hasAffixes key "enable_" "_event" then some .bool
  else if hasAffixes key "event_" "_pre_time" || hasAffixes key "event_" "_post_time"
    then some .int
  else if hasAffixes key "event_" "_record_camera" ||
      hasAffixes key "event_" "_record_lidar" then some .bool
  else if hasAffixes key "watchdog_" "_stale_timeout_ms" then some .int
  else none

def lookupType (key : Text) : Option KeyType :=
  match exactKeys.find? fun entry => key == entry.1.toList with
  | some entry => some entry.2
  | none => matchesPatternKey key

/-! ## The table and the patterns -/

theorem hasAffixes_iff {key front ending : Text} :
    hasAffixes key front ending = true ↔
      ∃ name, name ≠ [] ∧ key = front ++ name ++ ending := by
  simp only [hasAffixes, Bool.and_eq_true, decide_eq_true_eq,
    List.isPrefixOf_iff_prefix, List.isSuffixOf_iff_suffix]
  constructor
  · rintro ⟨⟨hlength, tail, rfl⟩, hending⟩
    rw [List.length_append] at hlength
    obtain ⟨name, rfl⟩ : ending <:+ tail :=
      List.suffix_of_suffix_length_le hending (List.suffix_append front tail)
        (by omega)
    rw [List.length_append] at hlength
    refine ⟨name, List.ne_nil_of_length_pos (by omega), ?_⟩
    rw [List.append_assoc]
  · rintro ⟨name, hname, rfl⟩
    have hpos := List.length_pos_iff.mpr hname
    refine ⟨⟨?_, name ++ ending, (List.append_assoc _ _ _).symm⟩,
      front ++ name, rfl⟩
    simp only [List.length_append]
    omega

/-- No exact name matches a pattern: which of the two is tried first is the same. -/
theorem matchesPatternKey_exact :
    ∀ entry ∈ exactKeys, matchesPatternKey entry.1.toList = none := by
  decide +kernel

theorem lookupType_of_matches {key : Text} {keyType : KeyType}
    (h : matchesPatternKey key = some keyType) : lookupType key = some keyType := by
  unfold lookupType
  split
  · next entry hfound =>
      have hkey : key = entry.1.toList := by simpa using List.find?_some hfound
      have hnone := matchesPatternKey_exact entry (List.mem_of_find?_eq_some hfound)
      rw [← hkey, h] at hnone
      cases hnone
  · exact h

theorem not_enable_of_event (rest ending : Text) :
    hasAffixes ("event_" ++ rest) "enable_" ending = false := by
  have hevent : ("event_" : Text) = ['e', 'v', 'e', 'n', 't', '_'] := by
    decide +kernel
  have henable : ("enable_" : Text) = ['e', 'n', 'a', 'b', 'l', 'e', '_'] := by
    decide +kernel
  rw [hasAffixes, hevent, henable]
  simp [List.isPrefixOf]

/-- The capture window of an event can be set under any name of the event. -/
theorem lookupType_window {eventName ending : Text} (hname : eventName ≠ [])
    (hending : ending = "_pre_time" ∨ ending = "_post_time") :
    lookupType ("event_" ++ eventName ++ ending) = some .int := by
  have hwindow : hasAffixes ("event_" ++ eventName ++ ending) "event_" ending = true :=
    hasAffixes_iff.mpr ⟨eventName, hname, rfl⟩
  have hboth : (hasAffixes ("event_" ++ eventName ++ ending) "event_" "_pre_time" ||
      hasAffixes ("event_" ++ eventName ++ ending) "event_" "_post_time") = true := by
    rcases hending with rfl | rfl
    · rw [hwindow, Bool.true_or]
    · rw [hwindow, Bool.or_true]
  refine lookupType_of_matches ?_
  rw [List.append_assoc] at hboth ⊢
  rw [matchesPatternKey, not_enable_of_event, if_neg Bool.false_ne_true, if_pos hboth]

end DataCache.Config
