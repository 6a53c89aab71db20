import DataCache.Recorder.Footprints
import DataCache.Storage.Publication

/-!
# The node seen from one directory

Until a directory is swept, the other threads leave what the storage worker owns
there alone.  So the directory sees nothing at all, or rounds of the worker with
changes elsewhere around every operation.
-/

namespace DataCache.Recorder

open DataCache.Foundation DataCache.Storage
open DataCache.Capture (Job)

/-- Where the worker is, after rounds that ended in `s`. -/
def WorkerThread.Since (codec : Codec) (worker : Worker) (directory : Text)
    (table : EventTable) (s s' : Watched) : WorkerThread → Prop
  | waiting => Apart directory s s'
  | processing job rest => Prog.Beside (WorkerEffect codec directory)
      (Apart directory) s (processJob worker table job) s' rest

/--
No job of the event has been taken; or the worker has made rounds since, the
first of them before anything of the event was there.
-/
inductive Seen (codec : Codec) (worker : Worker) (directory : Text) (w : World) :
    Prop
  | fresh (hnone : ∀ job ∈ w.monitor.consumed, job.directory ≠ directory)
      (hfresh : Fresh directory w.disk)
  | served {earlier rounds : List (Job × Processed)} {table : EventTable}
      {s s' : Watched} (hdone : w.done = earlier ++ rounds)
      (hearlier : ∀ round ∈ earlier, round.1.directory ≠ directory)
      (htaken : ∃ job ∈ w.monitor.consumed, job.directory = directory)
      (htable : table.get? directory = none) (hfresh : Fresh directory s.disk)
      (hrounds : Rounds (WorkerEffect codec directory) worker table s rounds
        w.table s')
      (hsince : w.worker.Since codec worker directory w.table s' w.watched)

section Seen

variable {codec : Codec} {worker : Worker} {directory : Text} {w : World}

theorem WorkerThread.Since.apart {table : EventTable} {s s' s'' : Watched}
    {thread : WorkerThread} (h : thread.Since codec worker directory table s s')
    (hapart : Apart directory s' s'') :
    thread.Since codec worker directory table s s'' := by
  cases thread with
  | waiting => exact h.trans _ _ _ hapart
  | processing job rest => exact Prog.Beside.disturb Apart.trans h hapart

/-- A step of another thread, elsewhere. -/
theorem Seen.aside (h : Seen codec worker directory w) {shared : Retention.World}
    (hconsumed : shared.monitor.consumed = w.monitor.consumed)
    (haside : Aside directory w.store shared.store) :
    Seen codec worker directory { w with shared } := by
  cases h with
  | fresh hnone hfresh => exact .fresh (hconsumed ▸ hnone) (hfresh.aside haside)
  | served hdone hearlier htaken htable hfresh hrounds hsince =>
      exact .served hdone hearlier (hconsumed ▸ htaken) htable hfresh hrounds
        (hsince.apart ⟨haside, rfl⟩)

end Seen

end DataCache.Recorder
