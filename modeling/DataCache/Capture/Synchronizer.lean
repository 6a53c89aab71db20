import DataCache.Capture.Data
import DataCache.Foundation.Pairing

/-!
# The approximate synchronizer

Images and point clouds wait in two queues ordered by stamp.  Each arrival is
inserted, a queue that has grown too long loses its oldest messages, and the
fronts are paired.
-/

namespace DataCache.Capture

open DataCache.Foundation

structure MatchResult where
  image : Image
  cloud : PointCloud2
  difference : Int
  deriving DecidableEq

structure DropResult where
  sensor : SensorType
  timestamp : Int
  count : Nat
  reason : Text
  deriving DecidableEq

structure PendingResults where
  matchResults : List MatchResult
  drops : List DropResult
  deriving DecidableEq

/-- The queue of one sensor, and how many of its messages were dropped. -/
structure Lane (α : Type) where
  queue : List α
  dropped : Nat

structure ApproximateSynchronizer where
  queueSize : Nat
  tolerance : Int
  images : Lane Image
  clouds : Lane PointCloud2

def queueFull : Text := "synchronizer queue full"

def outsideTolerance : Text := "outside synchronization tolerance"

/-! ## Lanes -/

namespace Lane

variable {α : Type} (sensor : SensorType) (stamp : α → Int)

def recordDrop (reason : Text) (dropped : Nat) (message : α) : DropResult :=
  ⟨sensor, stamp message, dropped + 1, reason⟩

/-- Drop the oldest messages while there are more than `limit`. -/
def dropOver (limit : Nat) (reason : Text) :
    List α → Nat → Lane α × List DropResult
  | [], dropped => (⟨[], dropped⟩, [])
  | first :: rest, dropped =>
      if (first :: rest).length > limit then
        let (lane, drops) := dropOver limit reason rest (dropped + 1)
        (lane, recordDrop sensor stamp reason dropped first :: drops)
      else (⟨first :: rest, dropped⟩, [])

def add (lane : Lane α) (queueSize : Nat) (message : α) :
    Lane α × List DropResult :=
  dropOver sensor stamp queueSize queueFull
    (insertOrdered stamp lane.queue message) lane.dropped

def flush (lane : Lane α) (reason : Text) : Lane α × List DropResult :=
  dropOver sensor stamp 0 reason lane.queue lane.dropped

end Lane

/-! ## Operations -/

namespace ApproximateSynchronizer

def create (queueSize : Nat) (tolerance : Int) : ApproximateSynchronizer :=
  ⟨max 1 queueSize, tolerance, ⟨[], 0⟩, ⟨[], 0⟩⟩

def matchResult (image : Image) (cloud : PointCloud2) : MatchResult :=
  let difference := image.stamp - cloud.stamp
  ⟨image, cloud, if difference < 0 then -difference else difference⟩

/-- Pair the fronts, or drop the one that trails by more than the tolerance. -/
def tryMatch (tolerance : Int) :
    List Image → List PointCloud2 → Nat → Nat →
      (Lane Image × Lane PointCloud2) × PendingResults
  | [], clouds, droppedImages, droppedClouds =>
      ((⟨[], droppedImages⟩, ⟨clouds, droppedClouds⟩), ⟨[], []⟩)
  | image :: images, [], droppedImages, droppedClouds =>
      ((⟨image :: images, droppedImages⟩, ⟨[], droppedClouds⟩), ⟨[], []⟩)
  | image :: images, cloud :: clouds, droppedImages, droppedClouds =>
      let difference := image.stamp - cloud.stamp
      if difference ≥ -tolerance ∧ difference ≤ tolerance then
        let (lanes, results) :=
          tryMatch tolerance images clouds droppedImages droppedClouds
        (lanes, { results with
          matchResults := matchResult image cloud :: results.matchResults })
      else if difference < 0 then
        let (lanes, results) :=
          tryMatch tolerance images (cloud :: clouds) (droppedImages + 1)
            droppedClouds
        (lanes, { results with
          drops := Lane.recordDrop .camera Image.stamp outsideTolerance
            droppedImages image :: results.drops })
      else
        let (lanes, results) :=
          tryMatch tolerance (image :: images) clouds droppedImages
            (droppedClouds + 1)
        (lanes, { results with
          drops := Lane.recordDrop .lidar PointCloud2.stamp outsideTolerance
            droppedClouds cloud :: results.drops })
termination_by images clouds => images.length + clouds.length

def tryMatchLocked (synchronizer : ApproximateSynchronizer)
    (drops : List DropResult) : ApproximateSynchronizer × PendingResults :=
  let ((images, clouds), results) :=
    tryMatch synchronizer.tolerance synchronizer.images.queue
      synchronizer.clouds.queue synchronizer.images.dropped
      synchronizer.clouds.dropped
  ({ synchronizer with images, clouds },
    { results with drops := drops ++ results.drops })

def addImage (synchronizer : ApproximateSynchronizer) (image : Image) :
    ApproximateSynchronizer × PendingResults :=
  let (images, drops) := synchronizer.images.add .camera Image.stamp
    synchronizer.queueSize image
  tryMatchLocked { synchronizer with images } drops

def addPointCloud (synchronizer : ApproximateSynchronizer)
    (cloud : PointCloud2) : ApproximateSynchronizer × PendingResults :=
  let (clouds, drops) := synchronizer.clouds.add .lidar PointCloud2.stamp
    synchronizer.queueSize cloud
  tryMatchLocked { synchronizer with clouds } drops

def flushUnmatched (synchronizer : ApproximateSynchronizer) (reason : Text) :
    ApproximateSynchronizer × PendingResults :=
  let (images, imageDrops) := synchronizer.images.flush .camera Image.stamp reason
  let (clouds, cloudDrops) :=
    synchronizer.clouds.flush .lidar PointCloud2.stamp reason
  ({ synchronizer with images, clouds }, ⟨[], imageDrops ++ cloudDrops⟩)

end ApproximateSynchronizer

/-! ## Runs -/

inductive SyncCall where
  | addImage (image : Image)
  | addPointCloud (cloud : PointCloud2)
  | flushUnmatched (reason : Text)

namespace SyncCall

def image? : SyncCall → Option Image
  | addImage image => some image
  | _ => none

def cloud? : SyncCall → Option PointCloud2
  | addPointCloud cloud => some cloud
  | _ => none

def isFlush : SyncCall → Bool
  | flushUnmatched _ => true
  | _ => false

end SyncCall

namespace ApproximateSynchronizer

def step (synchronizer : ApproximateSynchronizer) :
    SyncCall → ApproximateSynchronizer × PendingResults
  | .addImage image => synchronizer.addImage image
  | .addPointCloud cloud => synchronizer.addPointCloud cloud
  | .flushUnmatched reason => synchronizer.flushUnmatched reason

/-- All calls in their order, with everything they reported. -/
def run (synchronizer : ApproximateSynchronizer) :
    List SyncCall → ApproximateSynchronizer × PendingResults
  | [] => (synchronizer, ⟨[], []⟩)
  | call :: calls =>
      let (synchronizer, first) := synchronizer.step call
      let (synchronizer, rest) := synchronizer.run calls
      (synchronizer, ⟨first.matchResults ++ rest.matchResults,
        first.drops ++ rest.drops⟩)

end ApproximateSynchronizer

end DataCache.Capture
