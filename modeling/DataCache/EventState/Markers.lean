import DataCache.Storage.Ops

/-!
# Event markers

An event directory carries its lifecycle in the files `.pending`, `.complete`
and `.failed`.  Each is written through a temporary file; the recovery pass at
start-up turns what a crash left pending into a failure.
-/

namespace DataCache.EventState

open DataCache.Foundation DataCache.Storage

def markerPath (directory name : Text) : Path := [directory, name]

/-- Put the written temporary file in the place of the target. -/
def replaceTarget (target : Path) : Action Bool := do
  let renamed : Bool ← perform (.rename (tempPath target) target)
  if renamed then
    perform (.syncDirectory target.dropLast)
    return true
  else
    -- Where the destination is not replaced: remove it and rename again.
    let _ ← perform (.remove target)
    let renamed : Bool ← perform (.rename (tempPath target) target)
    if renamed then
      perform (.syncDirectory target.dropLast)
      return true
    else
      let _ ← perform (.remove (tempPath target))
      return false

def writeAtomically (target : Path) (content : Bytes) : Action Bool := do
  let parent ← perform (.createDirectories target.dropLast)
  if !parent then return false
  else
    let opened ← perform (.openTrunc (tempPath target))
    if !opened then return false
    else
      let written ← perform (.append (tempPath target) content)
      if !written then
        let _ ← perform (.remove (tempPath target))
        return false
      else
        perform (.syncFile (tempPath target))
        replaceTarget target

def pendingContent (eventName : Text) (acceptedAtNs : Int) : Bytes :=
  encodeUtf8 (("event=" : Text) ++ eventName ++ "\naccepted_at_ns=" ++
    showInt acceptedAtNs ++ "\n")

def failedContent (reason : Text) (failedAtNs : Int) : Bytes :=
  encodeUtf8 (("reason=" : Text) ++ reason ++ "\nfailed_at_ns=" ++
    showInt failedAtNs ++ "\n")

def completeContent (recordCount : Nat) : Bytes :=
  encodeUtf8 (("records=" : Text) ++ showNat recordCount ++ "\n")

def begin (directory eventName : Text) (acceptedAtNs : Int) : Action Bool :=
  writeAtomically (markerPath directory ".pending")
    (pendingContent eventName acceptedAtNs)

def fail (directory reason : Text) : Action Bool := do
  let now ← perform .systemNow
  let written ← writeAtomically (markerPath directory ".failed")
    (failedContent reason now)
  if written then
    let _ ← perform (.remove (markerPath directory ".pending"))
    let _ ← perform (.remove (markerPath directory ".complete"))
    return true
  else return false

def complete (directory : Text) (recordCount : Nat) : Action Bool := do
  let written ← writeAtomically (markerPath directory ".complete")
    (completeContent recordCount)
  if !written then return false
  else
    let _ ← perform (.remove (markerPath directory ".pending"))
    let _ ← perform (.remove (markerPath directory ".failed"))
    perform (.syncDirectory [directory])
    return true

/-! ## Recovery -/

structure ReconcileResult where
  recoveredFailures : Nat
  clearedPending : Nat

/-- `std::filesystem::exists` with an error code: an error reads as absent. -/
def markerExists (directory name : Text) : Action Bool := do
  let found : Option Bool ← perform (.exists (markerPath directory name))
  return found.getD false

def hasVerdict (directory : Text) : Action Bool := do
  let complete ← markerExists directory ".complete"
  if complete then return true
  else markerExists directory ".failed"

def reconcileDirectory (directory : Text) (result : ReconcileResult) :
    Action ReconcileResult := do
  let pending ← markerExists directory ".pending"
  if !pending then return result
  else
    let verdict ← hasVerdict directory
    if verdict then
      let _ ← perform (.remove (markerPath directory ".pending"))
      return { result with clearedPending := result.clearedPending + 1 }
    else
      let failed ← fail directory "crash_recovery"
      if failed then
        return { result with recoveredFailures := result.recoveredFailures + 1 }
      else return result

def reconcileDirectories : List Text → ReconcileResult → Action ReconcileResult
  | [], result => return result
  | directory :: rest, result => do
      let result ← reconcileDirectory directory result
      reconcileDirectories rest result

def reconcile : Action ReconcileResult := do
  let (listing : List Text × Bool) ← perform .listDirectories
  reconcileDirectories listing.1 ⟨0, 0⟩

/-- The verdict of a storage worker: `complete`, and `fail` if that fails. -/
def completeOrFail (directory : Text) (recordCount : Nat) (reason : Text) :
    Action Bool := do
  let completed ← complete directory recordCount
  if completed then return true
  else
    let _ ← fail directory reason
    return false

/-! ## The operations marker programs issue -/

/-- Operations of `writeAtomically` with this target. -/
def ReplaceOp (target : Path) : FsOp → Prop
  | .createDirectories path => path = target.dropLast
  | .openTrunc path => path = tempPath target
  | .append path _ => path = tempPath target
  | .syncFile path => path = tempPath target
  | .rename source path => source = tempPath target ∧ path = target
  | .remove path => path = tempPath target ∨ path = target
  | .syncDirectory path => path = target.dropLast
  | _ => False

def markerNames : List Text := [".pending", ".complete", ".failed"]

/-- Operations on the markers of one directory. -/
def MarkerOp (directory : Text) (op : FsOp) : Prop :=
  op = .systemNow ∨ op = .syncDirectory [directory] ∨
    (∃ name ∈ markerNames, op = .exists (markerPath directory name)) ∨
    (∃ name ∈ markerNames, op = .remove (markerPath directory name)) ∨
    ∃ name ∈ markerNames, ReplaceOp (markerPath directory name) op

theorem replaceTarget_uses (target : Path) :
    (replaceTarget target).uses (ReplaceOp target) := by
  refine ⟨⟨rfl, rfl⟩, ?_⟩
  rintro (_ | _)
  · refine ⟨.inr rfl, fun _ => ⟨⟨rfl, rfl⟩, ?_⟩⟩
    rintro (_ | _)
    · exact ⟨.inl rfl, fun _ => trivial⟩
    · exact ⟨rfl, fun _ => trivial⟩
  · exact ⟨rfl, fun _ => trivial⟩

theorem writeAtomically_uses (target : Path) (content : Bytes) :
    (writeAtomically target content).uses (ReplaceOp target) := by
  refine ⟨rfl, ?_⟩
  rintro (_ | _)
  · trivial
  refine ⟨rfl, ?_⟩
  rintro (_ | _)
  · trivial
  refine ⟨rfl, ?_⟩
  rintro (_ | _)
  · exact ⟨.inl rfl, fun _ => trivial⟩
  · exact ⟨rfl, fun _ => replaceTarget_uses target⟩

theorem writeMarker_uses {directory : Text} (name : Text)
    (hname : name ∈ markerNames) (content : Bytes) :
    (writeAtomically (markerPath directory name) content).uses
      (MarkerOp directory) :=
  Prog.uses_mono (fun _ h => .inr (.inr (.inr (.inr ⟨name, hname, h⟩))))
    (writeAtomically_uses _ content)

theorem removeMarker_mem {directory : Text} (name : Text)
    (hname : name ∈ markerNames) : MarkerOp directory
      (.remove (markerPath directory name)) :=
  .inr (.inr (.inr (.inl ⟨name, hname, rfl⟩)))

theorem fail_uses (directory reason : Text) :
    (fail directory reason).uses (MarkerOp directory) := by
  refine Prog.uses_call_bind (.inl rfl) fun now => ?_
  refine Prog.uses_bind (writeMarker_uses ".failed" (by decide) _) ?_
  rintro (_ | _)
  · trivial
  · exact ⟨removeMarker_mem ".pending" (by decide), fun _ =>
      ⟨removeMarker_mem ".complete" (by decide), fun _ => trivial⟩⟩

theorem complete_uses (directory : Text) (recordCount : Nat) :
    (complete directory recordCount).uses (MarkerOp directory) := by
  refine Prog.uses_bind (writeMarker_uses ".complete" (by decide) _) ?_
  rintro (_ | _)
  · trivial
  · exact ⟨removeMarker_mem ".pending" (by decide), fun _ =>
      ⟨removeMarker_mem ".failed" (by decide), fun _ => ⟨.inr (.inl rfl),
        fun _ => trivial⟩⟩⟩

theorem markerExists_uses {directory : Text} (name : Text)
    (hname : name ∈ markerNames) : (markerExists directory name).uses
      (MarkerOp directory) :=
  ⟨.inr (.inr (.inl ⟨name, hname, rfl⟩)), fun _ => trivial⟩

theorem reconcileDirectory_uses (directory : Text) (result : ReconcileResult) :
    (reconcileDirectory directory result).uses (MarkerOp directory) := by
  refine Prog.uses_bind (markerExists_uses ".pending" (by decide)) ?_
  rintro (_ | _)
  · trivial
  refine Prog.uses_bind (Prog.uses_bind (markerExists_uses ".complete" (by decide)) ?_) ?_
  · rintro (_ | _)
    · exact markerExists_uses ".failed" (by decide)
    · trivial
  rintro (_ | _)
  · refine Prog.uses_bind (fail_uses directory _) ?_
    rintro (_ | _) <;> trivial
  · exact ⟨removeMarker_mem ".pending" (by decide), fun _ => trivial⟩

end DataCache.EventState
