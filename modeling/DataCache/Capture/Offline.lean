import DataCache.Capture.Accounting

/-!
# The synchronizer against the offline algorithm

When stamps arrive in order and no queue overflows, the synchronizer reports
what the two-pointer algorithm decides on the two whole sequences.  The order
in which images and clouds interleave does not show.
-/

namespace DataCache.Capture

open DataCache.Foundation

/-- Arrivals of these images and clouds in some order, without a flush. -/
structure Interleaves (images : List Image) (clouds : List PointCloud2)
    (calls : List SyncCall) : Prop where
  noFlush : ∀ call ∈ calls, call.isFlush = false
  images_eq : calls.filterMap SyncCall.image? = images
  clouds_eq : calls.filterMap SyncCall.cloud? = clouds

/-- No message was dropped because a queue is full. -/
def NoneCrowdedOut (results : PendingResults) : Prop :=
  ∀ drop ∈ results.drops, drop.reason ≠ queueFull

instance (results : PendingResults) : Decidable (NoneCrowdedOut results) :=
  inferInstanceAs (Decidable (∀ drop ∈ results.drops, drop.reason ≠ queueFull))

/-- The synchronizer is where the offline algorithm ends on these sequences. -/
structure FollowsOffline (tolerance : Int) (images : List Image)
    (clouds : List PointCloud2) (reached : ApproximateSynchronizer)
    (reported : PendingResults) : Prop where
  images_eq : reached.images =
    ⟨(pairStamps tolerance images clouds).firsts,
      (pairStamps tolerance images clouds).droppedFirsts.length⟩
  clouds_eq : reached.clouds =
    ⟨(pairStamps tolerance images clouds).seconds,
      (pairStamps tolerance images clouds).droppedSeconds.length⟩
  matches_eq : reported.matchResults =
    (pairStamps tolerance images clouds).pairs.map fun pair =>
      ApproximateSynchronizer.matchResult pair.1 pair.2
  cameraDrops_eq : dropsOf .camera reported.drops =
    numberDrops .camera Image.stamp outsideTolerance 0
      (pairStamps tolerance images clouds).droppedFirsts
  lidarDrops_eq : dropsOf .lidar reported.drops =
    numberDrops .lidar PointCloud2.stamp outsideTolerance 0
      (pairStamps tolerance images clouds).droppedSeconds

/-! ## One arrival -/

theorem dropOver_of_fits {α : Type} {sensor : SensorType} {stamp : α → Int}
    {limit : Nat} {reason : Text} {queue : List α} {dropped : Nat}
    (h : ∀ drop ∈ (Lane.dropOver sensor stamp limit reason queue dropped).2,
      drop.reason ≠ reason) :
    Lane.dropOver sensor stamp limit reason queue dropped = (⟨queue, dropped⟩, []) := by
  have hfits : queue.length - limit = 0 := by
    cases queue with
    | nil => exact Nat.zero_sub limit
    | cons first rest =>
        rw [Lane.dropOver] at h
        split at h
        next hover => exact absurd rfl (h _ List.mem_cons_self)
        next hfits => omega
  rw [dropOver_eq, hfits, List.drop_zero, List.take_zero, Nat.add_zero, numberDrops]

theorem add_of_latest {α : Type} {sensor : SensorType} {stamp : α → Int}
    {lane : Lane α} {queueSize : Nat} {message : α}
    (hroom : ∀ drop ∈ (lane.add sensor stamp queueSize message).2,
      drop.reason ≠ queueFull)
    (hlatest : ∀ other ∈ lane.queue, stamp other ≤ stamp message) :
    lane.add sensor stamp queueSize message =
      (⟨lane.queue ++ [message], lane.dropped⟩, []) := by
  rw [Lane.add, dropOver_of_fits hroom, insertOrdered_of_le hlatest]

/-- More arrivals behind the sequences leave what was decided on the shorter ones. -/
theorem pairStamps_append (tolerance : Int) (images more : List Image)
    (clouds more' : List PointCloud2) :
    let start := pairStamps tolerance images clouds
    let rest := pairStamps tolerance (start.firsts ++ more) (start.seconds ++ more')
    let whole := pairStamps tolerance (images ++ more) (clouds ++ more')
    whole.firsts = rest.firsts ∧ whole.seconds = rest.seconds ∧
      whole.pairs = start.pairs ++ rest.pairs ∧
      whole.droppedFirsts = start.droppedFirsts ++ rest.droppedFirsts ∧
      whole.droppedSeconds = start.droppedSeconds ++ rest.droppedSeconds := by
  intro start rest whole
  have hwhole : whole = { rest with outcomes := start.outcomes ++ rest.outcomes } :=
    pairOldest_append Image.stamp PointCloud2.stamp tolerance images clouds more more'
  rw [hwhole]
  exact ⟨rfl, rfl, List.filterMap_append, List.filterMap_append,
    List.filterMap_append⟩

namespace ApproximateSynchronizer

variable {synchronizer : ApproximateSynchronizer} {tolerance : Int}
  {images : List Image} {clouds : List PointCloud2} {reported : PendingResults}

/-- Matching goes on from the fronts where the shorter sequences ended. -/
theorem followsOffline_extend
    (h : FollowsOffline tolerance images clouds synchronizer reported)
    (htolerance : synchronizer.tolerance = tolerance) (more : List Image)
    (more' : List PointCloud2) :
    let result := tryMatchLocked { synchronizer with
      images := ⟨synchronizer.images.queue ++ more, synchronizer.images.dropped⟩,
      clouds := ⟨synchronizer.clouds.queue ++ more', synchronizer.clouds.dropped⟩ } []
    FollowsOffline tolerance (images ++ more) (clouds ++ more') result.1
      ⟨reported.matchResults ++ result.2.matchResults,
        reported.drops ++ result.2.drops⟩ := by
  obtain ⟨queueSize, limit, imageLane, cloudLane⟩ := synchronizer
  obtain ⟨himages, hclouds, hmatches, hcamera, hlidar⟩ := h
  dsimp only at htolerance himages hclouds
  subst htolerance himages hclouds
  obtain ⟨hlanes, hmatches', hcamera', hlidar'⟩ := tryMatch_eq limit
    ((pairStamps limit images clouds).firsts ++ more)
    ((pairStamps limit images clouds).seconds ++ more')
    (pairStamps limit images clouds).droppedFirsts.length
    (pairStamps limit images clouds).droppedSeconds.length
  obtain ⟨hfirsts, hseconds, hpairs, hdroppedFirsts, hdroppedSeconds⟩ :=
    pairStamps_append limit images more clouds more'
  constructor
  · rw [hfirsts, hdroppedFirsts, List.length_append]
    exact congrArg Prod.fst hlanes
  · rw [hseconds, hdroppedSeconds, List.length_append]
    exact congrArg Prod.snd hlanes
  · rw [hpairs, List.map_append, ← hmatches]
    exact congrArg _ hmatches'
  · rw [hdroppedFirsts, numberDrops_append, Nat.zero_add, ← hcamera, ← hcamera']
    exact dropsOf_append _ _ _
  · rw [hdroppedSeconds, numberDrops_append, Nat.zero_add, ← hlidar, ← hlidar']
    exact dropsOf_append _ _ _

theorem addImage_of_latest {image : Image}
    (hroom : NoneCrowdedOut (synchronizer.addImage image).2)
    (hlatest : ∀ other ∈ synchronizer.images.queue, other.stamp ≤ image.stamp) :
    synchronizer.addImage image = tryMatchLocked { synchronizer with
      images := ⟨synchronizer.images.queue ++ [image],
        synchronizer.images.dropped⟩ } [] := by
  have hadd := @add_of_latest _ .camera Image.stamp synchronizer.images
    synchronizer.queueSize image
    (fun drop hdrop => hroom drop (List.mem_append_left _ hdrop)) hlatest
  rw [addImage, hadd]

theorem addPointCloud_of_latest {cloud : PointCloud2}
    (hroom : NoneCrowdedOut (synchronizer.addPointCloud cloud).2)
    (hlatest : ∀ other ∈ synchronizer.clouds.queue, other.stamp ≤ cloud.stamp) :
    synchronizer.addPointCloud cloud = tryMatchLocked { synchronizer with
      clouds := ⟨synchronizer.clouds.queue ++ [cloud],
        synchronizer.clouds.dropped⟩ } [] := by
  have hadd := @add_of_latest _ .lidar PointCloud2.stamp synchronizer.clouds
    synchronizer.queueSize cloud
    (fun drop hdrop => hroom drop (List.mem_append_left _ hdrop)) hlatest
  rw [addPointCloud, hadd]

/-- One arrival that is not older than any before it on its sensor. -/
theorem followsOffline_step
    (h : FollowsOffline tolerance images clouds synchronizer reported)
    (htolerance : synchronizer.tolerance = tolerance) {call : SyncCall}
    (hflush : call.isFlush = false)
    (hroom : NoneCrowdedOut (synchronizer.step call).2)
    (himages : ∀ image ∈ call.image?, ∀ other ∈ images, other.stamp ≤ image.stamp)
    (hclouds : ∀ cloud ∈ call.cloud?, ∀ other ∈ clouds, other.stamp ≤ cloud.stamp) :
    FollowsOffline tolerance (images ++ call.image?.toList)
      (clouds ++ call.cloud?.toList) (synchronizer.step call).1
      ⟨reported.matchResults ++ (synchronizer.step call).2.matchResults,
        reported.drops ++ (synchronizer.step call).2.drops⟩ := by
  cases call with
  | addImage image =>
      have hqueue : synchronizer.images.queue <:+ images := by
        rw [h.images_eq]
        exact pairOldest_firsts_suffix _ _ _ _ _
      have hstep := addImage_of_latest hroom fun other hother =>
        himages image rfl other (hqueue.mem hother)
      have hextend := followsOffline_extend h htolerance [image] []
      rw [List.append_nil] at hextend
      rw [step, hstep]
      exact hextend
  | addPointCloud cloud =>
      have hqueue : synchronizer.clouds.queue <:+ clouds := by
        rw [h.clouds_eq]
        exact pairOldest_seconds_suffix _ _ _ _ _
      have hstep := addPointCloud_of_latest hroom fun other hother =>
        hclouds cloud rfl other (hqueue.mem hother)
      have hextend := followsOffline_extend h htolerance [] [cloud]
      rw [List.append_nil] at hextend
      rw [step, hstep]
      exact hextend
  | flushUnmatched reason => cases hflush

/-! ## All arrivals -/

theorem followsOffline_run (calls : List SyncCall) :
    ∀ {synchronizer : ApproximateSynchronizer} {images : List Image}
      {clouds : List PointCloud2} {reported : PendingResults},
      FollowsOffline tolerance images clouds synchronizer reported →
      synchronizer.tolerance = tolerance →
      (∀ call ∈ calls, call.isFlush = false) →
      NoneCrowdedOut (synchronizer.run calls).2 →
      KeyOrdered Image.stamp (images ++ calls.filterMap SyncCall.image?) →
      KeyOrdered PointCloud2.stamp (clouds ++ calls.filterMap SyncCall.cloud?) →
      FollowsOffline tolerance (images ++ calls.filterMap SyncCall.image?)
        (clouds ++ calls.filterMap SyncCall.cloud?) (synchronizer.run calls).1
        ⟨reported.matchResults ++ (synchronizer.run calls).2.matchResults,
          reported.drops ++ (synchronizer.run calls).2.drops⟩ := by
  induction calls with
  | nil =>
      intro synchronizer images clouds reported h _ _ _ _ _
      simpa [run] using h
  | cons call calls ih =>
      intro synchronizer images clouds reported h htolerance hflush hroom himages
        hclouds
      rw [filterMap_cons_toList] at himages hclouds
      have hlatest : ∀ {α : Type} {stamp : α → Int} {before after : List α}
          {arrived : Option α},
          KeyOrdered stamp (before ++ (arrived.toList ++ after)) →
          ∀ message ∈ arrived, ∀ other ∈ before, stamp other ≤ stamp message := by
        intro α stamp before after arrived hordered message hmessage other hother
        refine (List.pairwise_append.mp hordered).2.2 other hother message ?_
        exact List.mem_append_left _ (Option.mem_toList.mpr hmessage)
      have hstep := followsOffline_step h htolerance
        (hflush call List.mem_cons_self)
        (fun drop hdrop => hroom drop (List.mem_append_left _ hdrop))
        (hlatest himages) (hlatest hclouds)
      rw [← List.append_assoc] at himages hclouds
      have hrest := ih hstep
        ((step_settings call).2.trans htolerance)
        (fun other hother => hflush other (List.mem_cons_of_mem _ hother))
        (fun drop hdrop => hroom drop (List.mem_append_right _ hdrop))
        himages hclouds
      rw [filterMap_cons_toList, filterMap_cons_toList]
      simpa only [run, List.append_assoc] using hrest

theorem create_followsOffline (queueSize : Nat) (tolerance : Int) :
    FollowsOffline tolerance [] [] (create queueSize tolerance) ⟨[], []⟩ := by
  have hempty : pairStamps tolerance [] [] = ⟨[], [], []⟩ := by
    rw [pairStamps, pairOldest]
  constructor <;> rw [hempty] <;> rfl

theorem followsOffline_of_interleaves {queueSize : Nat} {calls : List SyncCall}
    (h : Interleaves images clouds calls)
    (himages : KeyOrdered Image.stamp images)
    (hclouds : KeyOrdered PointCloud2.stamp clouds)
    (hroom : NoneCrowdedOut ((create queueSize tolerance).run calls).2) :
    FollowsOffline tolerance images clouds
      ((create queueSize tolerance).run calls).1
      ((create queueSize tolerance).run calls).2 := by
  obtain ⟨hflush, rfl, rfl⟩ := h
  exact followsOffline_run calls (create_followsOffline queueSize tolerance) rfl
    hflush hroom himages hclouds

/-! ## Interleavings and optimality -/

/-- Two runs that reported the same, sensor by sensor, and left the same queues. -/
structure SameReport (first second : ApproximateSynchronizer × PendingResults) :
    Prop where
  images_eq : first.1.images = second.1.images
  clouds_eq : first.1.clouds = second.1.clouds
  matches_eq : first.2.matchResults = second.2.matchResults
  drops_eq : ∀ sensor, dropsOf sensor first.2.drops = dropsOf sensor second.2.drops

theorem FollowsOffline.sameReport {first second : ApproximateSynchronizer}
    {reported' : PendingResults}
    (h : FollowsOffline tolerance images clouds first reported)
    (h' : FollowsOffline tolerance images clouds second reported') :
    SameReport (first, reported) (second, reported') where
  images_eq := h.images_eq.trans h'.images_eq.symm
  clouds_eq := h.clouds_eq.trans h'.clouds_eq.symm
  matches_eq := h.matches_eq.trans h'.matches_eq.symm
  drops_eq sensor := by
    cases sensor with
    | camera => exact h.cameraDrops_eq.trans h'.cameraDrops_eq.symm
    | lidar => exact h.lidarDrops_eq.trans h'.lidarDrops_eq.symm

/-- Every interleaving reports what the offline algorithm does. -/
theorem run_interleaving_independent (queueSize : Nat) (tolerance : Int)
    (images : List Image) (clouds : List PointCloud2)
    (himages : KeyOrdered Image.stamp images)
    (hclouds : KeyOrdered PointCloud2.stamp clouds) (calls : List SyncCall)
    (hcalls : Interleaves images clouds calls)
    (hroom : NoneCrowdedOut ((create queueSize tolerance).run calls).2) :
    FollowsOffline tolerance images clouds
      ((create queueSize tolerance).run calls).1
      ((create queueSize tolerance).run calls).2 ∧
    ∀ queueSize' calls', Interleaves images clouds calls' →
      NoneCrowdedOut ((create queueSize' tolerance).run calls').2 →
      SameReport ((create queueSize tolerance).run calls)
        ((create queueSize' tolerance).run calls') := by
  have hfollows := followsOffline_of_interleaves hcalls himages hclouds hroom
  refine ⟨hfollows, fun queueSize' calls' hcalls' hroom' => ?_⟩
  exact FollowsOffline.sameReport hfollows
    (followsOffline_of_interleaves hcalls' himages hclouds hroom')

def bareImage (stamp : Int) : Image :=
  ⟨stamp, 0, 0, [], 0, []⟩

def bareCloud (stamp : Int) : PointCloud2 :=
  ⟨stamp, 0, 0, [], 0, []⟩

theorem run_interleaving_independent_alternating :
    SameReport
      ((create 2 5).run [.addImage (bareImage 0), .addPointCloud (bareCloud 3),
        .addImage (bareImage 20), .addPointCloud (bareCloud 30)])
      ((create 2 5).run [.addPointCloud (bareCloud 3), .addPointCloud (bareCloud 30),
        .addImage (bareImage 0), .addImage (bareImage 20)]) :=
  (run_interleaving_independent 2 5 [bareImage 0, bareImage 20]
    [bareCloud 3, bareCloud 30] (by decide) (by decide)
    [.addImage (bareImage 0), .addPointCloud (bareCloud 3),
      .addImage (bareImage 20), .addPointCloud (bareCloud 30)]
    ⟨by decide, rfl, rfl⟩ (by decide +kernel)).2 2
    [.addPointCloud (bareCloud 3), .addPointCloud (bareCloud 30),
      .addImage (bareImage 0), .addImage (bareImage 20)]
    ⟨by decide, rfl, rfl⟩ (by decide +kernel)

theorem run_append (calls more : List SyncCall) :
    ∀ synchronizer : ApproximateSynchronizer,
      synchronizer.run (calls ++ more) =
        (((synchronizer.run calls).1.run more).1,
          ⟨(synchronizer.run calls).2.matchResults ++
              ((synchronizer.run calls).1.run more).2.matchResults,
            (synchronizer.run calls).2.drops ++
              ((synchronizer.run calls).1.run more).2.drops⟩) := by
  induction calls with
  | nil => exact fun _ => rfl
  | cons call calls ih =>
      intro synchronizer
      simp only [List.cons_append, run, ih, List.append_assoc]

/-- The sizes of all one-to-one pairings within the tolerance. -/
def pairingSizes (tolerance : Int) (images : List Image)
    (clouds : List PointCloud2) : Set Nat :=
  {size | ∃ pairing : Multiset (Image × PointCloud2),
    IsPairing Image.stamp PointCloud2.stamp tolerance images clouds pairing ∧
      pairing.card = size}

theorem isGreatest_pairStamps (htolerance : 0 ≤ tolerance)
    (himages : KeyOrdered Image.stamp images)
    (hclouds : KeyOrdered PointCloud2.stamp clouds) :
    IsGreatest (pairingSizes tolerance images clouds)
      (pairStamps tolerance images clouds).pairs.length := by
  constructor
  · exact ⟨_, isPairing_pairOldest _ _ _ _ _, rfl⟩
  · rintro size ⟨pairing, hpairing, rfl⟩
    exact card_le_pairOldest _ _ _ htolerance _ _ himages hclouds hpairing

/-- After every call no other pairing has more pairs than were reported. -/
theorem run_matches_greatest (queueSize : Nat) (tolerance : Int)
    (htolerance : 0 ≤ tolerance) (calls : List SyncCall)
    (hflush : ∀ call ∈ calls, call.isFlush = false)
    (himages : KeyOrdered Image.stamp (calls.filterMap SyncCall.image?))
    (hclouds : KeyOrdered PointCloud2.stamp (calls.filterMap SyncCall.cloud?))
    (hroom : NoneCrowdedOut ((create queueSize tolerance).run calls).2)
    (soFar : List SyncCall) (hsoFar : soFar <+: calls) :
    IsGreatest
      (pairingSizes tolerance (soFar.filterMap SyncCall.image?)
        (soFar.filterMap SyncCall.cloud?))
      ((create queueSize tolerance).run soFar).2.matchResults.length := by
  obtain ⟨more, rfl⟩ := hsoFar
  rw [List.filterMap_append] at himages hclouds
  replace himages := (List.pairwise_append.mp himages).1
  replace hclouds := (List.pairwise_append.mp hclouds).1
  have hinterleaves : Interleaves (soFar.filterMap SyncCall.image?)
      (soFar.filterMap SyncCall.cloud?) soFar :=
    ⟨fun call hcall => hflush call (List.mem_append_left _ hcall), rfl, rfl⟩
  have hroom' : NoneCrowdedOut ((create queueSize tolerance).run soFar).2 := by
    intro drop hdrop
    refine hroom drop ?_
    rw [run_append]
    exact List.mem_append_left _ hdrop
  have hfollows := followsOffline_of_interleaves hinterleaves himages hclouds hroom'
  rw [hfollows.matches_eq, List.length_map]
  exact isGreatest_pairStamps htolerance himages hclouds

theorem run_matches_greatest_one :
    IsGreatest
      (pairingSizes 5 [bareImage 0, bareImage 20] [bareCloud 3])
      ((create 2 5).run [.addImage (bareImage 0), .addPointCloud (bareCloud 3),
        .addImage (bareImage 20)]).2.matchResults.length :=
  run_matches_greatest 2 5 (by decide)
    [.addImage (bareImage 0), .addPointCloud (bareCloud 3),
      .addImage (bareImage 20), .addPointCloud (bareCloud 30)]
    (by decide) (by decide) (by decide) (by decide +kernel)
    [.addImage (bareImage 0), .addPointCloud (bareCloud 3),
      .addImage (bareImage 20)]
    ⟨[.addPointCloud (bareCloud 30)], rfl⟩

end ApproximateSynchronizer

end DataCache.Capture
