import Mathlib.Logic.Relation
import DataCache.EventState.Verdict
import DataCache.Retention.Verdicts
import DataCache.Storage.Sweep
import DataCache.Upload.Worker

/-!
# A retention sweep among the other threads

The callbacks of the node never overlap; they name event directories, begin them
and may fail them.  The storage worker writes jobs, gives verdicts and sweeps;
the uploader takes complete directories.  Between any two file-system calls of
one thread the others may act; only the scan of a sweep is undisturbed.
-/

namespace DataCache.Retention

open DataCache.Foundation DataCache.Storage
open DataCache.Capture (CaptureOp Callback Clock Job PairIndex DataBuffer
  Settings System eventDirectoryName processExpiredCaptures
  recordDataAroundEventDetailed Performs)
open DataCache.Upload (Transfer UploadEffect findUploadCandidates
  uploadDirectory markFailed)

/-! ## Threads -/

inductive CallbackThread where
  | idle
  | running (rest : Callback Unit)
  | beginning (directory : Text) (rest : Action Bool)
      (next : Bool → Callback Unit)
  | failing (directory : Text) (rest : Action Bool)
      (next : Bool → Callback Unit)

/-- A sweep before a job's files are written resumes with the job. -/
inductive StorageThread where
  | waiting
  | writing (job : Job)
  | judging (directory : Text) (rest : Action Bool)
  | sweeping (rest : Sweep Unit) (resumed : Option Job)

inductive Uploader where
  | waiting
  | searching (rest : Transfer (List Text))
  | choosing (candidates : List Text)
  | uploading (directory : Text) (rest : Transfer Bool)
      (candidates : List Text)
  | givingUp (directory : Text) (rest : Transfer Bool)
      (candidates : List Text)

/--
`named` are the directories of the captures so far, `refused` those the
callbacks have started to fail, and `concluded` those the storage worker has
started to judge; no step reads them.
-/
structure World where
  store : Store
  monitor : System
  callback : CallbackThread
  storage : StorageThread
  uploader : Uploader
  named : List Text
  refused : List Text
  concluded : List Text

def World.ledger (w : World) : Ledger := ⟨w.monitor, w.named, w.refused⟩

/-- The configuration of a running node. -/
structure Setup where
  settings : Settings
  policy : Policy
  upload : Upload.Config
  codec : Codec

/-! ## Markers -/

def present (s : Store) (directory name : Text) : Bool :=
  (s.disk.node? [directory, name]).isSome

/-- No verdict is there. -/
structure Blank (s : Store) (directory : Text) : Prop where
  complete : present s directory ".complete" = false
  failed : present s directory ".failed" = false

/-- The markers that say that an event is over, and that it was uploaded. -/
def finishedMarkers : List Text := [".complete", ".failed", ".uploaded"]

/-- Only files that are no markers have changed. -/
def Unmarked (s s' : Store) : Prop :=
  ∀ directory name, name.head? = some '.' →
    present s' directory name = present s directory name

/-! ## Careful steps -/

/-- An existence check never misses what is there. -/
def Accurate (codec : Codec) : Prog.Effect FsOp.Res Store
  | s, .exists path, found, s' => Effect codec s (.exists path) found s' ∧
      (found = none → s.disk.pathExists path = false)
  | s, op, r, s' => Effect codec s op r s'

def SweepEffect (codec : Codec) (policy : Policy) :
    Prog.Effect SweepOp.Res Store :=
  Prog.atomically (Effect codec) (SweepOp.implement policy)

/--
The scan misses no marker, and a failed deletion that the capacity limit may
repeat leaves the markers.
-/
def CarefulSweep (codec : Codec) (policy : Policy) (s : Store) :
    (op : SweepOp) → op.Res → Store → Prop
  | .collectEventDirs, dirs, s' =>
      Prog.Exec (Accurate codec) s (collectEventDirs policy) s' (.ret dirs)
  | .deleteDir dir reason, deleted, s' =>
      reason = Sweep.ageReason → 0 < policy.maxCapacityBytes →
        deleted = false → ∀ name ∈ finishedMarkers,
          present s dir.name name = true → present s' dir.name name = true
  | _, _, _ => True

/-! ## Steps -/

section Steps

variable (setup : Setup) (careful : Bool)

def World.triggered (w : World) (eventName : Text) (clock : Clock) : World :=
  { w with
    callback := .running ((recordDataAroundEventDetailed setup.settings clock
      eventName).bind fun _ => .ret ())
    named := w.named ++
      [eventDirectoryName eventName w.monitor.nextCaptureId clock.systemNowNs] }

inductive CallbackStep (w : World) : World → Prop
  | sense (buffer : DataBuffer) (pairIndex : PairIndex)
      (hidle : w.callback = .idle) :
      CallbackStep w { w with
        monitor := { w.monitor with buffer := buffer, pairIndex := pairIndex } }
  | trigger (eventName : Text) (clock : Clock) (hidle : w.callback = .idle)
      (hfresh : careful = true → Blank w.store
        (eventDirectoryName eventName w.monitor.nextCaptureId clock.systemNowNs)) :
      CallbackStep w (w.triggered setup eventName clock)
  | schedule (clock : Clock) (hidle : w.callback = .idle) :
      CallbackStep w { w with
        callback := .running (processExpiredCaptures setup.settings clock) }
  | perform {op : CaptureOp} {next : op.Res → Callback Unit} {r : op.Res}
      {monitor : System} (hrunning : w.callback = .running (.call op next))
      (hbegin : ∀ directory eventName acceptedAtNs,
        op ≠ .beginEvent directory eventName acceptedAtNs)
      (hfail : ∀ directory reason, op ≠ .failEvent directory reason)
      (hperforms : Performs w.monitor op r monitor) :
      CallbackStep w { w with monitor := monitor, callback := .running (next r) }
  | begin {directory eventName : Text} {acceptedAtNs : Int}
      {next : Bool → Callback Unit} (hrunning : w.callback =
        .running (.call (.beginEvent directory eventName acceptedAtNs) next)) :
      CallbackStep w { w with
        callback := .beginning directory
          (EventState.begin directory eventName acceptedAtNs) next }
  | beginning {directory : Text} {op : FsOp} {rest : op.Res → Action Bool}
      {next : Bool → Callback Unit} {r : op.Res} {store : Store}
      (hbeginning : w.callback = .beginning directory (.call op rest) next)
      (heffect : Effect setup.codec w.store op r store) :
      CallbackStep w { w with
        store := store
        callback := .beginning directory (rest r) next }
  | begun {directory : Text} {written : Bool} {next : Bool → Callback Unit}
      (hbeginning : w.callback = .beginning directory (.ret written) next) :
      CallbackStep w { w with callback := .running (next written) }
  | fail {directory reason : Text} {next : Bool → Callback Unit}
      (hrunning : w.callback =
        .running (.call (.failEvent directory reason) next)) :
      CallbackStep w { w with
        callback := .failing directory (EventState.fail directory reason) next
        refused := w.refused ++ [directory] }
  | failing {directory : Text} {op : FsOp} {rest : op.Res → Action Bool}
      {next : Bool → Callback Unit} {r : op.Res} {store : Store}
      (hfailing : w.callback = .failing directory (.call op rest) next)
      (heffect : Effect setup.codec w.store op r store) :
      CallbackStep w { w with
        store := store
        callback := .failing directory (rest r) next }
  | failed {directory : Text} {written : Bool} {next : Bool → Callback Unit}
      (hfailing : w.callback = .failing directory (.ret written) next) :
      CallbackStep w { w with callback := .running (next written) }
  | returned (hrunning : w.callback = .running (.ret ())) :
      CallbackStep w { w with callback := .idle }

def StorageThread.resume : Option Job → StorageThread
  | none => .waiting
  | some job => .writing job

inductive StorageStep (w : World) : World → Prop
  | take {job : Job} {rest : List Job} (hwaiting : w.storage = .waiting)
      (hjobs : w.monitor.storage.jobs = job :: rest) :
      StorageStep w { w with
        monitor := w.monitor.pop 1
        storage := .writing job }
  | prepare {job : Job} (hwriting : w.storage = .writing job)
      (hlimit : 0 < setup.policy.minFreeBytes) :
      StorageStep w { w with
        storage := .sweeping (Sweep.enforceRetention setup.policy true)
          (some job) }
  | write {job : Job} {store : Store} (hwriting : w.storage = .writing job)
      (hstore : Unmarked w.store store) :
      StorageStep w { w with store }
  | written {job : Job} (hwriting : w.storage = .writing job)
      (hfinal : job.finalJob = false) :
      StorageStep w { w with storage := .waiting }
  | judge {job : Job} {judgement : Action Bool}
      (hwriting : w.storage = .writing job) (hfinal : job.finalJob = true)
      (hjudgement : EventState.Judgement job.directory judgement) :
      StorageStep w { w with
        storage := .judging job.directory judgement
        concluded := w.concluded ++ [job.directory] }
  | judging {directory : Text} {op : FsOp} {rest : op.Res → Action Bool}
      {r : op.Res} {store : Store}
      (hjudging : w.storage = .judging directory (.call op rest))
      (heffect : Effect setup.codec w.store op r store) :
      StorageStep w { w with
        store := store
        storage := .judging directory (rest r) }
  | judged {directory : Text} {written : Bool}
      (hjudging : w.storage = .judging directory (.ret written)) :
      StorageStep w { w with
        storage := .sweeping (Sweep.enforceRetention setup.policy false) none }
  | sweep {op : SweepOp} {rest : op.Res → Sweep Unit} {resumed : Option Job}
      {r : op.Res} {store : Store}
      (hsweeping : w.storage = .sweeping (.call op rest) resumed)
      (heffect : SweepEffect setup.codec setup.policy w.store op r store)
      (hcareful : careful = true →
        CarefulSweep setup.codec setup.policy w.store op r store) :
      StorageStep w { w with
        store := store
        storage := .sweeping (rest r) resumed }
  | swept {resumed : Option Job}
      (hsweeping : w.storage = .sweeping (.ret ()) resumed) :
      StorageStep w { w with storage := .resume resumed }

/-- Retries and their delays are left open: any candidate may be passed over. -/
inductive UploaderStep (w : World) : World → Prop
  | search (hwaiting : w.uploader = .waiting) :
      UploaderStep w { w with
        uploader := .searching (findUploadCandidates setup.upload) }
  | searching {op : Upload.UploadOp} {rest : op.Res → Transfer (List Text)}
      {r : op.Res} {store : Store}
      (hsearching : w.uploader = .searching (.call op rest))
      (heffect : UploadEffect setup.codec w.store op r store) :
      UploaderStep w { w with store := store, uploader := .searching (rest r) }
  | found {candidates : List Text}
      (hsearching : w.uploader = .searching (.ret candidates)) :
      UploaderStep w { w with uploader := .choosing candidates }
  | pass {directory : Text} {candidates : List Text}
      (hchoosing : w.uploader = .choosing (directory :: candidates)) :
      UploaderStep w { w with uploader := .choosing candidates }
  | upload {directory : Text} {candidates : List Text}
      (hchoosing : w.uploader = .choosing (directory :: candidates)) :
      UploaderStep w { w with
        uploader := .uploading directory
          (uploadDirectory setup.upload directory) candidates }
  | uploading {directory : Text} {candidates : List Text}
      {op : Upload.UploadOp} {rest : op.Res → Transfer Bool} {r : op.Res}
      {store : Store}
      (huploading : w.uploader =
        .uploading directory (.call op rest) candidates)
      (heffect : UploadEffect setup.codec w.store op r store) :
      UploaderStep w { w with
        store := store
        uploader := .uploading directory (rest r) candidates }
  | uploaded {directory : Text} {candidates : List Text} {ok : Bool}
      (huploading : w.uploader = .uploading directory (.ret ok) candidates) :
      UploaderStep w { w with uploader := .choosing candidates }
  | giveUp {directory : Text} {candidates : List Text} (attempts : Nat)
      (huploading : w.uploader =
        .uploading directory (.ret false) candidates) :
      UploaderStep w { w with
        uploader := .givingUp directory (markFailed directory attempts)
          candidates }
  | givingUp {directory : Text} {candidates : List Text}
      {op : Upload.UploadOp} {rest : op.Res → Transfer Bool} {r : op.Res}
      {store : Store}
      (hgivingUp : w.uploader =
        .givingUp directory (.call op rest) candidates)
      (heffect : UploadEffect setup.codec w.store op r store) :
      UploaderStep w { w with
        store := store
        uploader := .givingUp directory (rest r) candidates }
  | gaveUp {directory : Text} {candidates : List Text} {written : Bool}
      (hgivingUp : w.uploader =
        .givingUp directory (.ret written) candidates) :
      UploaderStep w { w with uploader := .choosing candidates }
  | rest (hchoosing : w.uploader = .choosing []) :
      UploaderStep w { w with uploader := .waiting }

/-- The uploader runs only when uploads are enabled. -/
inductive Step (w w' : World) : Prop
  | callback (h : CallbackStep setup careful w w')
  | storage (h : StorageStep setup careful w w')
  | uploader (henabled : setup.policy.protectUnuploaded = true)
      (h : UploaderStep setup w w')

abbrev Reaches : World → World → Prop :=
  Relation.ReflTransGen (Step setup careful)

/-- A node that has just started, with anything in its record root. -/
structure Starts (w : World) : Prop where
  monitor : ∃ maxSize maxAge maxBytes,
    w.monitor = Capture.initial setup.settings maxSize maxAge maxBytes
  callback : w.callback = .idle
  storage : w.storage = .waiting
  uploader : w.uploader = .waiting
  named : w.named = []
  refused : w.refused = []
  concluded : w.concluded = []

end Steps

/-! ## Deletions -/

/-- `uploadDirectory` has not returned yet. -/
def World.Uploading (w : World) (directory : Text) : Prop :=
  ∃ op rest candidates,
    w.uploader = .uploading directory (.call op rest) candidates

/-- The sweep is about to delete this directory. -/
def World.Deleting (w : World) (directory : Text) : Prop :=
  ∃ dir reason rest resumed, dir.name = directory ∧
    w.storage = .sweeping (.call (.deleteDir dir reason) rest) resumed

/-- What must hold of a directory that is deleted. -/
structure Deletable (policy : Policy) (w : World) (directory : Text) :
    Prop where
  named : 0 ≤ parseEventTimestamp directory
  finished : present w.store directory ".complete" = true ∨
    present w.store directory ".failed" = true
  settled : present w.store directory ".pending" = false
  idle : ¬w.Uploading directory
  uploaded : policy.protectUnuploaded = true →
    present w.store directory ".complete" = true →
    present w.store directory ".uploaded" = true

end DataCache.Retention
