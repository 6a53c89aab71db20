import DataCache.Recorder.Handed
import DataCache.Retention.World
import DataCache.Storage.Contents

/-!
# The threads of a recorder

The callbacks, the storage worker with its rounds, and the uploader share one
store.  Between any two file-system calls of one thread the others may act.
-/

namespace DataCache.Recorder

open DataCache.Foundation DataCache.Storage
open DataCache.Capture (Job System)
open DataCache.Retention (Setup)

inductive WorkerThread where
  | waiting
  | processing (job : Job) (rest : Action (EventTable × Processed))

/-- The job that is being processed. -/
def WorkerThread.jobs : WorkerThread → List Job
  | waiting => []
  | processing job _ => [job]

/--
The storage thread of `shared` never moves; `worker` stands in its place, with
the table it keeps.  `done` are the rounds so far and `swept` the directories
whose removal has been started; no step reads them.
-/
structure World where
  shared : Retention.World
  worker : WorkerThread
  table : EventTable
  done : List (Job × Processed)
  swept : List Text

namespace World

abbrev store (w : World) : Store := w.shared.store

abbrev disk (w : World) : FileSystem := w.shared.store.disk

abbrev monitor (w : World) : System := w.shared.monitor

/-- What a directory that has not been swept sees. -/
abbrev watched (w : World) : Watched := ⟨w.shared.store, false⟩

end World

/-- Nothing of an event is there. -/
structure Fresh (directory : Text) (disk : FileSystem) : Prop where
  bare : Bare directory disk
  absent : Absent (completePath directory) disk

def removed : FsOp → List Text
  | .removeAll [name] => [name]
  | _ => []

/-! ## Steps -/

inductive WorkerStep (codec : Codec) (worker : Worker) (w : World) : World → Prop
  | take {job : Job} {rest : List Job} (hwaiting : w.worker = .waiting)
      (hjobs : w.monitor.storage.jobs = job :: rest) :
      WorkerStep codec worker w { w with
        shared := { w.shared with monitor := w.monitor.pop 1 }
        worker := .processing job (processJob worker w.table job) }
  | work {job : Job} {op : FsOp} {rest : op.Res → Action (EventTable × Processed)}
      {r : op.Res} {store : Store}
      (hprocessing : w.worker = .processing job (.call op rest))
      (heffect : Effect codec w.store op r store) :
      WorkerStep codec worker w { w with
        shared := { w.shared with store := store }
        worker := .processing job (rest r)
        swept := w.swept ++ removed op }
  | finish {job : Job} {table : EventTable} {processed : Processed}
      (hprocessing : w.worker = .processing job (.ret (table, processed))) :
      WorkerStep codec worker w { w with
        worker := .waiting
        table := table
        done := w.done ++ [(job, processed)] }

/--
A trigger's directory is named after the capture and the time, so that nothing
of an event is there yet.
-/
inductive Step (setup : Setup) (worker : Worker) (w : World) : World → Prop
  | callback {shared : Retention.World}
      (h : Retention.CallbackStep setup false w.shared shared)
      (hfresh : ∀ directory ∈ shared.named, directory ∉ w.shared.named →
        Fresh directory w.disk) :
      Step setup worker w { w with shared }
  | worker {w' : World} (h : WorkerStep setup.codec worker w w') :
      Step setup worker w w'
  | uploader {shared : Retention.World}
      (h : Retention.UploaderStep setup w.shared shared) :
      Step setup worker w { w with shared }

abbrev Reaches (setup : Setup) (worker : Worker) : World → World → Prop :=
  Relation.ReflTransGen (Step setup worker)

/-- A node that has just started, with anything in its record root. -/
structure Starts (setup : Setup) (w : World) : Prop where
  shared : Retention.Starts setup w.shared
  worker : w.worker = .waiting
  table : w.table = .empty
  done : w.done = []
  swept : w.swept = []

end DataCache.Recorder
