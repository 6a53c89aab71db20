import DataCache.Foundation.Rely
import DataCache.Storage.Retention

/-!
# The retention sweep in larger steps

The scan of the record root, the measuring of a directory and each deletion are
taken as single operations here.  Replacing them by what they are made of gives
the sweep back.
-/

namespace DataCache.Storage

open DataCache.Foundation

/-- Deletions carry the reason that is logged. -/
inductive SweepOp where
  | steadyNow
  | systemNow
  | lastSweep
  | setLastSweep (time : Int)
  | collectEventDirs
  | directorySize (dir : EventDir)
  | deleteDir (dir : EventDir) (reason : Text)

def SweepOp.Res : SweepOp → Type
  | steadyNow => Int
  | systemNow => Int
  | lastSweep => Int
  | setLastSweep _ => Unit
  | collectEventDirs => List EventDir
  | directorySize _ => Nat
  | deleteDir _ _ => Bool

abbrev Sweep (α : Type) : Type := Prog SweepOp.Res StorageError α

namespace Sweep

def perform (op : SweepOp) : Sweep op.Res := .call op .ret

def ageReason : Text := "older than retention days"

def capacityReason : Text := "record capacity exceeded"

def byAge (cutoffNs : Int) : List EventDir → Sweep (List EventDir)
  | [] => return []
  | dir :: rest =>
      if dir.timestampNs < cutoffNs then do
        let deleted : Bool ← perform (.deleteDir dir ageReason)
        let kept ← byAge cutoffNs rest
        return if deleted then kept else dir :: kept
      else return dir :: rest

def measure : List EventDir → Sweep (List EventDir)
  | [] => return []
  | dir :: rest => do
      let size : Nat ← perform (.directorySize dir)
      let dirs ← measure rest
      return { dir with sizeBytes := size } :: dirs

def byCapacity (maxCapacityBytes : Nat) : Nat → List EventDir → Sweep Unit
  | _, [] => return
  | totalBytes, dir :: rest =>
      if totalBytes ≤ maxCapacityBytes then return
      else do
        let deleted : Bool ← perform (.deleteDir dir capacityReason)
        byCapacity maxCapacityBytes
          (if deleted then totalBytes - dir.sizeBytes else totalBytes) rest

def applyAgeLimit (policy : Policy) (eventDirs : List EventDir) :
    Sweep (List EventDir) :=
  if policy.retentionDays > 0 then do
    let systemNow : Int ← perform .systemNow
    byAge (cutoffNs systemNow policy.retentionDays) eventDirs
  else return eventDirs

def applyCapacityLimit (policy : Policy) (eventDirs : List EventDir) :
    Sweep Unit :=
  if policy.maxCapacityBytes > 0 then do
    let measured ← measure eventDirs
    byCapacity policy.maxCapacityBytes
      (measured.map EventDir.sizeBytes).sum measured
  else return

def sweep (policy : Policy) : Sweep Unit := do
  let (eventDirs : List EventDir) ← perform .collectEventDirs
  let eventDirs ← applyAgeLimit policy eventDirs
  applyCapacityLimit policy eventDirs

def enforceRetention (policy : Policy) (force : Bool) : Sweep Unit := do
  if policy.retentionDays ≤ 0 && policy.maxCapacityBytes = 0 then return
  else
    let now : Int ← perform .steadyNow
    let lastSweep : Int ← perform .lastSweep
    if !force && decide (now - lastSweep <
        policy.cleanupSeconds * Capture.nanosPerSecond) then return
    else
      perform (.setLastSweep now)
      sweep policy

end Sweep

/-! ## What the operations are made of -/

def SweepOp.implement (policy : Policy) : (op : SweepOp) → Action op.Res
  | steadyNow => Storage.perform .steadyNow
  | systemNow => Storage.perform .systemNow
  | lastSweep => Storage.perform .lastSweep
  | setLastSweep time => Storage.perform (.setLastSweep time)
  | collectEventDirs => Storage.collectEventDirs policy
  | directorySize dir => Storage.directorySize dir.name
  | deleteDir dir _ => Storage.deleteDir dir

variable (policy : Policy)

theorem expand_byAge (cutoffNs : Int) :
    ∀ dirs, (Sweep.byAge cutoffNs dirs).expand (SweepOp.implement policy) =
      sweepByAge cutoffNs dirs
  | [] => rfl
  | dir :: rest => by
      rw [Sweep.byAge, sweepByAge]
      split
      · change Prog.call _ _ = Prog.call _ _
        congr 1
        funext deleted
        change ((Sweep.byAge cutoffNs rest).bind _).expand _ = _
        rw [Prog.expand_bind, expand_byAge cutoffNs rest]
        rfl
      · rfl

theorem expand_measure :
    ∀ dirs, (Sweep.measure dirs).expand (SweepOp.implement policy) =
      measure dirs
  | [] => rfl
  | dir :: rest => by
      rw [Sweep.measure, measure]
      change (directorySize dir.name).bind _ = (directorySize dir.name).bind _
      congr 1
      funext size
      change ((Sweep.measure rest).bind _).expand _ = _
      rw [Prog.expand_bind, expand_measure rest]
      rfl

theorem expand_byCapacity (maxCapacityBytes : Nat) :
    ∀ dirs totalBytes,
      (Sweep.byCapacity maxCapacityBytes totalBytes dirs).expand
        (SweepOp.implement policy) =
      sweepByCapacity maxCapacityBytes totalBytes dirs
  | [], _ => rfl
  | dir :: rest, totalBytes => by
      rw [Sweep.byCapacity, sweepByCapacity]
      split
      · rfl
      · change Prog.call _ _ = Prog.call _ _
        congr 1
        funext deleted
        exact expand_byCapacity maxCapacityBytes rest _

theorem expand_sweep :
    (Sweep.sweep policy).expand (SweepOp.implement policy) = sweep policy := by
  have hage : ∀ dirs, (Sweep.applyAgeLimit policy dirs).expand
      (SweepOp.implement policy) = applyAgeLimit policy dirs := by
    intro dirs
    unfold Sweep.applyAgeLimit applyAgeLimit
    split
    · change Prog.call _ _ = Prog.call _ _
      congr 1
      funext systemNow
      exact expand_byAge policy _ dirs
    · rfl
  have hcapacity : ∀ dirs, (Sweep.applyCapacityLimit policy dirs).expand
      (SweepOp.implement policy) = applyCapacityLimit policy dirs := by
    intro dirs
    unfold Sweep.applyCapacityLimit applyCapacityLimit
    split
    · change ((Sweep.measure dirs).bind _).expand _ = _
      rw [Prog.expand_bind, expand_measure]
      change (measure dirs).bind _ = (measure dirs).bind _
      congr 1
      funext measured
      exact expand_byCapacity policy _ measured _
    · rfl
  have hlimits : ∀ dirs : List EventDir,
      ((Sweep.applyAgeLimit policy dirs).bind fun kept =>
        Sweep.applyCapacityLimit policy kept).expand
          (SweepOp.implement policy) =
      (applyAgeLimit policy dirs).bind fun kept =>
        applyCapacityLimit policy kept := by
    intro dirs
    rw [Prog.expand_bind, hage]
    exact congrArg (applyAgeLimit policy dirs).bind (funext hcapacity)
  exact congrArg (collectEventDirs policy).bind (funext hlimits)

/-- The sweep in larger steps is the sweep. -/
theorem expand_enforceRetention (force : Bool) :
    (Sweep.enforceRetention policy force).expand (SweepOp.implement policy) =
      enforceRetention policy force := by
  unfold Sweep.enforceRetention enforceRetention
  split
  · rfl
  · change Prog.call _ _ = Prog.call _ _
    congr 1
    funext now
    change Prog.call _ _ = Prog.call _ _
    congr 1
    funext lastSweep
    change Prog.expand _ (ite _ _ _) = ite _ _ _
    split
    · rfl
    · change Prog.call _ _ = Prog.call _ _
      congr 1
      funext done
      exact expand_sweep policy

end DataCache.Storage
