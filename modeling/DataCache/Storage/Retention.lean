import Mathlib.Data.List.Sort
import DataCache.Storage.Ops

/-!
# Disk space management

The check for free space before a job is written, and the retention sweep that
deletes event directories by age and by total size.
-/

namespace DataCache.Storage

open DataCache.Foundation DataCache.Capture

/-- Zero disables a limit. -/
structure Policy where
  minFreeBytes : Nat
  maxCapacityBytes : Nat
  retentionDays : Int
  cleanupSeconds : Int
  protectUnuploaded : Bool

def megabyte : Nat := 1024 * 1024

def loadDiskPolicy (config : ConfigManager) : Policy where
  minFreeBytes :=
    (max 0 (config.getIntConfig "disk_min_free_mb" 512)).toNat * megabyte
  maxCapacityBytes :=
    (max 0 (config.getIntConfig "retention_max_capacity_mb" 10240)).toNat *
      megabyte
  retentionDays := max 0 (config.getIntConfig "retention_days" 30)
  cleanupSeconds := max 1 (config.getIntConfig "disk_cleanup_interval_seconds" 60)
  protectUnuploaded := config.getBoolConfig "upload_enabled" false

structure EventDir where
  name : Text
  timestampNs : Int
  sizeBytes : Nat

def EventDir.Older (first second : EventDir) : Prop :=
  first.timestampNs ≤ second.timestampNs

instance : DecidableRel EventDir.Older := fun first second =>
  inferInstanceAs (Decidable (first.timestampNs ≤ second.timestampNs))

def maxInt64 : Int := 2 ^ 63 - 1

/-- `std::filesystem::exists` with an error code: an error reads as absent. -/
def pathExists (path : Path) : Action Bool := do
  let found : Option Bool ← perform (.exists path)
  return found.getD false

/-! ## Event directories -/

/-- The digits after the last underscore as a number, `-1` on overflow. -/
def parseDigits : Int → Text → Int
  | value, [] => value
  | value, c :: rest =>
      if !c.isDigit then -1
      else
        let digit : Int := (c.toNat - '0'.toNat : Nat)
        if value > (maxInt64 - digit) / 10 then -1
        else parseDigits (value * 10 + digit) rest

/-- The part after the last underscore, when there is an underscore. -/
def lastSegment (name : Text) : Option Text :=
  if name.contains '_' then
    some (name.reverse.takeWhile fun c => decide (c ≠ '_')).reverse
  else none

def parseEventTimestamp (name : Text) : Int :=
  match lastSegment name with
  | none => -1
  | some digits =>
      if digits.length + 1 = name.length || digits.length < 9 then -1
      else parseDigits 0 digits

/-- `found || exists(path)` -/
def alsoExists (found : Bool) (path : Path) : Action Bool :=
  if found then return true
  else pathExists path

def isBusy (name : Text) : Action Bool := do
  let pending ← pathExists [name, ".pending"]
  let uploading ← alsoExists pending [name, ".uploading"]
  alsoExists uploading [name, ".uploading.tmp"]

/-- Not being written or uploaded, and finished one way or the other. -/
def isRemovable (policy : Policy) (name : Text) : Action Bool := do
  let busy ← isBusy name
  if busy then return false
  else
    let complete ← pathExists [name, ".complete"]
    let failed ← pathExists [name, ".failed"]
    if !complete && !failed then return false
    else if policy.protectUnuploaded && complete then
      pathExists [name, ".uploaded"]
    else return true

def collectFrom (policy : Policy) : List Text → Action (List EventDir)
  | [] => return []
  | name :: rest => do
      let removable ← isRemovable policy name
      let dirs ← collectFrom policy rest
      let timestampNs := parseEventTimestamp name
      if removable && decide (timestampNs ≥ 0) then
        return ⟨name, timestampNs, 0⟩ :: dirs
      else return dirs

/-- Sorted by timestamp; equal stamps keep the order of the listing. -/
def collectEventDirs (policy : Policy) : Action (List EventDir) := do
  let (listing : List Text × Bool) ← perform .listDirectories
  let dirs ← collectFrom policy listing.1
  return dirs.insertionSort EventDir.Older

/-! ## The sweep -/

def deleteDir (dir : EventDir) : Action Bool := perform (.removeAll [dir.name])

/-- Delete up to the first directory that is young enough. -/
def sweepByAge (cutoffNs : Int) : List EventDir → Action (List EventDir)
  | [] => return []
  | dir :: rest =>
      if dir.timestampNs < cutoffNs then do
        let deleted ← deleteDir dir
        let kept ← sweepByAge cutoffNs rest
        return if deleted then kept else dir :: kept
      else return dir :: rest

def sumSizes (directory : Path) : List Path → Action Nat
  | [] => return 0
  | path :: rest => do
      let size : Option Nat ← perform (.fileSize (directory ++ path))
      let total ← sumSizes directory rest
      return size.getD 0 + total

def directorySize (name : Text) : Action Nat := do
  let (listing : List Path × Bool) ← perform (.listFiles [name])
  sumSizes [name] listing.1

def measure : List EventDir → Action (List EventDir)
  | [] => return []
  | dir :: rest => do
      let size ← directorySize dir.name
      let dirs ← measure rest
      return { dir with sizeBytes := size } :: dirs

/-- Delete the oldest directories until the rest fits. -/
def sweepByCapacity (maxCapacityBytes : Nat) : Nat → List EventDir → Action Unit
  | _, [] => return
  | totalBytes, dir :: rest =>
      if totalBytes ≤ maxCapacityBytes then return
      else do
        let deleted ← deleteDir dir
        sweepByCapacity maxCapacityBytes
          (if deleted then totalBytes - dir.sizeBytes else totalBytes) rest

def nanosPerDay : Int := 24 * 3600 * nanosPerSecond

def IsInt64 (value : Int) : Prop := -2 ^ 63 ≤ value ∧ value < 2 ^ 63

/-- A signed 64-bit result, which wraps where it overflows. -/
def wrapInt64 (value : Int) : Int := value.bmod (2 ^ 64)

/-- Multiplied from the left: hours, seconds, nanoseconds. -/
def retentionNs (retentionDays : Int) : Int :=
  wrapInt64 (wrapInt64 (wrapInt64 (retentionDays * 24) * 3600) * nanosPerSecond)

def cutoffNs (systemNow retentionDays : Int) : Int :=
  wrapInt64 (systemNow - retentionNs retentionDays)

def applyAgeLimit (policy : Policy) (eventDirs : List EventDir) :
    Action (List EventDir) :=
  if policy.retentionDays > 0 then do
    let systemNow : Int ← perform .systemNow
    sweepByAge (cutoffNs systemNow policy.retentionDays) eventDirs
  else return eventDirs

def applyCapacityLimit (policy : Policy) (eventDirs : List EventDir) :
    Action Unit :=
  if policy.maxCapacityBytes > 0 then do
    let measured ← measure eventDirs
    sweepByCapacity policy.maxCapacityBytes
      (measured.map EventDir.sizeBytes).sum measured
  else return

def sweep (policy : Policy) : Action Unit := do
  let eventDirs ← collectEventDirs policy
  let eventDirs ← applyAgeLimit policy eventDirs
  applyCapacityLimit policy eventDirs

def enforceRetention (policy : Policy) (force : Bool) : Action Unit := do
  if policy.retentionDays ≤ 0 && policy.maxCapacityBytes = 0 then return
  else
    let now : Int ← perform .steadyNow
    let lastSweep : Int ← perform .lastSweep
    if !force && decide (now - lastSweep <
        policy.cleanupSeconds * nanosPerSecond) then return
    else
      perform (.setLastSweep now)
      sweep policy

def prepareForWrite (policy : Policy) : Action Bool := do
  if policy.minFreeBytes = 0 then return true
  else
    let available : Nat ← perform .availableBytes
    if available ≥ policy.minFreeBytes then return true
    else
      enforceRetention policy true
      let available : Nat ← perform .availableBytes
      return decide (available ≥ policy.minFreeBytes)

end DataCache.Storage
