import DataCache.Capture.Synchronizer
import Mathlib.Algebra.Order.Group.Multiset
import Mathlib.Tactic.Abel

/-!
# No message is lost

Every message the synchronizer received is queued, matched or dropped, and
dropped messages are counted one by one.
-/

namespace DataCache.Capture

open DataCache.Foundation

/-! ## Numbered drops -/

section Numbered

variable {α : Type} (sensor : SensorType) (stamp : α → Int) (reason : Text)

/-- The drops of these messages, counted on from `dropped`. -/
def numberDrops : Nat → List α → List DropResult
  | _, [] => []
  | dropped, message :: rest =>
      Lane.recordDrop sensor stamp reason dropped message ::
        numberDrops (dropped + 1) rest

theorem numberDrops_append (first second : List α) :
    ∀ dropped, numberDrops sensor stamp reason dropped (first ++ second) =
      numberDrops sensor stamp reason dropped first ++
        numberDrops sensor stamp reason (dropped + first.length) second := by
  induction first with
  | nil => exact fun _ => rfl
  | cons message rest ih =>
      intro dropped
      rw [List.cons_append, numberDrops, ih, numberDrops, List.length_cons,
        Nat.add_right_comm]
      rfl

theorem numberDrops_counts (messages : List α) :
    ∀ dropped, (numberDrops sensor stamp reason dropped messages).map
      DropResult.count = List.range' (dropped + 1) messages.length := by
  induction messages with
  | nil => exact fun _ => rfl
  | cons message rest ih =>
      intro dropped
      rw [numberDrops, List.map_cons, ih, List.length_cons, List.range'_succ]
      rfl

theorem numberDrops_timestamps (messages : List α) :
    ∀ dropped, (numberDrops sensor stamp reason dropped messages).map
      DropResult.timestamp = messages.map stamp := by
  induction messages with
  | nil => exact fun _ => rfl
  | cons message rest ih =>
      intro dropped
      rw [numberDrops, List.map_cons, ih]
      rfl

theorem of_mem_numberDrops {messages : List α} {drop : DropResult} :
    ∀ {dropped}, drop ∈ numberDrops sensor stamp reason dropped messages →
      drop.sensor = sensor ∧ drop.reason = reason := by
  induction messages with
  | nil => exact fun h => absurd h List.not_mem_nil
  | cons message rest ih =>
      intro dropped h
      rcases List.mem_cons.mp h with rfl | h
      · exact ⟨rfl, rfl⟩
      · exact ih h

theorem dropOver_eq (limit : Nat) (queue : List α) :
    ∀ dropped, Lane.dropOver sensor stamp limit reason queue dropped =
      (⟨queue.drop (queue.length - limit), dropped + (queue.length - limit)⟩,
        numberDrops sensor stamp reason dropped
          (queue.take (queue.length - limit))) := by
  induction queue with
  | nil =>
      intro dropped
      simp [Lane.dropOver, numberDrops]
  | cons first rest ih =>
      intro dropped
      rw [Lane.dropOver]
      split
      next hfull =>
        have hlength : (first :: rest).length - limit = rest.length - limit + 1 := by
          rw [List.length_cons] at hfull ⊢
          omega
        rw [ih, hlength, List.drop_succ_cons, List.take_succ_cons, numberDrops,
          Nat.add_right_comm, Nat.add_assoc]
      next hfits =>
        have hlength : (first :: rest).length - limit = 0 := by omega
        rw [hlength, List.drop_zero, List.take_zero, Nat.add_zero, numberDrops]

end Numbered

def dropsOf (sensor : SensorType) (drops : List DropResult) : List DropResult :=
  drops.filter fun drop => decide (drop.sensor = sensor)

theorem dropsOf_append (sensor : SensorType) (first second : List DropResult) :
    dropsOf sensor (first ++ second) = dropsOf sensor first ++ dropsOf sensor second :=
  List.filter_append _ _

theorem dropsOf_numberDrops {α : Type} (sensor : SensorType) (stamp : α → Int)
    (reason : Text) (dropped : Nat) (messages : List α) :
    dropsOf sensor (numberDrops sensor stamp reason dropped messages) =
      numberDrops sensor stamp reason dropped messages :=
  List.filter_eq_self.mpr fun _ h =>
    decide_eq_true (of_mem_numberDrops sensor stamp reason h).1

theorem dropsOf_numberDrops_of_ne {α : Type} {sensor other : SensorType}
    (stamp : α → Int) (reason : Text) (dropped : Nat) (messages : List α)
    (h : other ≠ sensor) :
    dropsOf sensor (numberDrops other stamp reason dropped messages) = [] :=
  List.filter_eq_nil_iff.mpr fun _ hdrop => by
    simpa [(of_mem_numberDrops other stamp reason hdrop).1] using h

/-! ## Matching -/

/-- The offline algorithm: pair the two oldest, or drop the older one. -/
def pairStamps (tolerance : Int) (images : List Image)
    (clouds : List PointCloud2) : Paired Image PointCloud2 :=
  pairOldest Image.stamp PointCloud2.stamp tolerance images clouds

/-- What matching reports is what the pairing of the two queues decides. -/
theorem tryMatch_eq (tolerance : Int) (images : List Image)
    (clouds : List PointCloud2) (droppedImages droppedClouds : Nat) :
    let paired := pairStamps tolerance images clouds
    let result := ApproximateSynchronizer.tryMatch tolerance images clouds
      droppedImages droppedClouds
    result.1 =
      (⟨paired.firsts, droppedImages + paired.droppedFirsts.length⟩,
        ⟨paired.seconds, droppedClouds + paired.droppedSeconds.length⟩) ∧
    result.2.matchResults = paired.pairs.map (fun pair =>
      ApproximateSynchronizer.matchResult pair.1 pair.2) ∧
    dropsOf .camera result.2.drops = numberDrops .camera Image.stamp
      outsideTolerance droppedImages paired.droppedFirsts ∧
    dropsOf .lidar result.2.drops = numberDrops .lidar PointCloud2.stamp
      outsideTolerance droppedClouds paired.droppedSeconds := by
  fun_induction ApproximateSynchronizer.tryMatch tolerance images clouds
    droppedImages droppedClouds with
  | case1 clouds droppedImages droppedClouds =>
      simp only [pairStamps, pairOldest]
      exact ⟨rfl, rfl, rfl, rfl⟩
  | case2 image images droppedImages droppedClouds =>
      simp only [pairStamps, pairOldest]
      exact ⟨rfl, rfl, rfl, rfl⟩
  | case3 image images cloud clouds droppedImages droppedClouds difference hwithin
      lanes results hrest ih =>
      have hpaired : pairStamps tolerance (image :: images) (cloud :: clouds) =
          (pairStamps tolerance images clouds).cons (.matched image cloud) :=
        pairOldest_of_within hwithin
      rw [hrest] at ih
      obtain ⟨hlanes, hmatches, hcamera, hlidar⟩ := ih
      rw [hpaired]
      exact ⟨hlanes, congrArg _ hmatches, hcamera, hlidar⟩
  | case4 image images cloud clouds droppedImages droppedClouds difference hwithin
      holder lanes results hrest ih =>
      have hpaired : pairStamps tolerance (image :: images) (cloud :: clouds) =
          (pairStamps tolerance images (cloud :: clouds)).cons
            (.droppedFirst image) :=
        pairOldest_of_older hwithin holder
      rw [hrest] at ih
      obtain ⟨hlanes, hmatches, hcamera, hlidar⟩ := ih
      rw [hpaired]
      refine ⟨hlanes.trans ?_, hmatches, congrArg _ hcamera, hlidar⟩
      rw [Nat.add_right_comm, Nat.add_assoc]
      rfl
  | case5 image images cloud clouds droppedImages droppedClouds difference hwithin
      holder lanes results hrest ih =>
      have hpaired : pairStamps tolerance (image :: images) (cloud :: clouds) =
          (pairStamps tolerance (image :: images) clouds).cons
            (.droppedSecond cloud) :=
        pairOldest_of_younger hwithin holder
      rw [hrest] at ih
      obtain ⟨hlanes, hmatches, hcamera, hlidar⟩ := ih
      rw [hpaired]
      refine ⟨hlanes.trans ?_, hmatches, hcamera, congrArg _ hlidar⟩
      rw [Nat.add_right_comm, Nat.add_assoc]
      rfl

/-! ## Accounting for one sensor -/

/--
Of a lane's messages and those it receives, every one is queued afterwards, was
matched, or was lost; the losses are reported with consecutive counts.
-/
def Accounts {α : Type} (sensor : SensorType) (stamp : α → Int)
    (before : Lane α) (received : List α) (after : Lane α) (matched : List α)
    (drops : List DropResult) : Prop :=
  ∃ lost : List α,
    (before.queue : Multiset α) + (received : Multiset α) =
      (after.queue : Multiset α) + (matched : Multiset α) + (lost : Multiset α) ∧
    (dropsOf sensor drops).map DropResult.timestamp = lost.map stamp ∧
    (dropsOf sensor drops).map DropResult.count =
      List.range' (before.dropped + 1) lost.length ∧
    after.dropped = before.dropped + lost.length

namespace Accounts

variable {α : Type} {sensor : SensorType} {stamp : α → Int}
  {before mid after : Lane α} {received received' matched matched' : List α}
  {drops drops' : List DropResult}

theorem refl (lane : Lane α) (h : dropsOf sensor drops = []) :
    Accounts sensor stamp lane [] lane [] drops := by
  refine ⟨[], ?_, ?_, ?_, rfl⟩
  · simp
  · rw [h, List.map_nil, List.map_nil]
  · rw [h, List.map_nil, List.length_nil, List.range'_zero]

theorem trans (h : Accounts sensor stamp before received mid matched drops)
    (h' : Accounts sensor stamp mid received' after matched' drops') :
    Accounts sensor stamp before (received ++ received') after
      (matched ++ matched') (drops ++ drops') := by
  obtain ⟨lost, hsum, htimes, hcounts, hdropped⟩ := h
  obtain ⟨lost', hsum', htimes', hcounts', hdropped'⟩ := h'
  refine ⟨lost ++ lost', ?_, ?_, ?_, ?_⟩
  · simp only [← Multiset.coe_add]
    calc (before.queue : Multiset α) + (↑received + ↑received')
        = ↑before.queue + ↑received + ↑received' := (add_assoc _ _ _).symm
      _ = ↑mid.queue + ↑received' + (↑matched + ↑lost) := by rw [hsum]; abel
      _ = ↑after.queue + (↑matched + ↑matched') + (↑lost + ↑lost') := by
          rw [hsum']; abel
  · rw [dropsOf_append, List.map_append, htimes, htimes', List.map_append]
  · rw [dropsOf_append, List.map_append, hcounts, hcounts', hdropped,
      List.length_append, Nat.add_right_comm, List.range'_append_1]
  · rw [hdropped', hdropped, List.length_append, Nat.add_assoc]

theorem insert (queue : List α) (dropped : Nat) (message : α) :
    Accounts sensor stamp ⟨queue, dropped⟩ [message]
      ⟨insertOrdered stamp queue message, dropped⟩ [] [] := by
  refine ⟨[], ?_, rfl, rfl, rfl⟩
  have hinsert : (insertOrdered stamp queue message : Multiset α) =
      ↑(message :: queue) :=
    Multiset.coe_eq_coe.mpr (insertOrdered_perm stamp queue message)
  rw [hinsert, Multiset.coe_nil, add_zero, add_zero, Multiset.coe_add]
  exact Multiset.coe_eq_coe.mpr (List.perm_append_singleton message queue)

theorem dropOver (limit : Nat) (reason : Text) (queue : List α) (dropped : Nat) :
    Accounts sensor stamp ⟨queue, dropped⟩ []
      (Lane.dropOver sensor stamp limit reason queue dropped).1 []
      (Lane.dropOver sensor stamp limit reason queue dropped).2 := by
  rw [dropOver_eq]
  have hlength : (queue.take (queue.length - limit)).length =
      queue.length - limit := by
    rw [List.length_take]
    omega
  refine ⟨queue.take (queue.length - limit), ?_, ?_, ?_, ?_⟩
  · rw [Multiset.coe_nil, add_zero, add_zero, add_comm, Multiset.coe_add,
      List.take_append_drop]
  · rw [dropsOf_numberDrops, numberDrops_timestamps]
  · rw [dropsOf_numberDrops, numberDrops_counts]
  · rw [hlength]

theorem add (lane : Lane α) (queueSize : Nat) (message : α) :
    Accounts sensor stamp lane [message]
      (lane.add sensor stamp queueSize message).1 []
      (lane.add sensor stamp queueSize message).2 :=
  (insert lane.queue lane.dropped message).trans
    (dropOver queueSize queueFull _ lane.dropped)

end Accounts

/-- What an operation that leads to another synchronizer reported. -/
structure Reported (before : ApproximateSynchronizer) (images : List Image)
    (clouds : List PointCloud2) (after : ApproximateSynchronizer)
    (results : PendingResults) : Prop where
  images : Accounts .camera Image.stamp before.images images after.images
    (results.matchResults.map MatchResult.image) results.drops
  clouds : Accounts .lidar PointCloud2.stamp before.clouds clouds after.clouds
    (results.matchResults.map MatchResult.cloud) results.drops

theorem dropsOf_dropOver_of_ne {α : Type} {sensor other : SensorType}
    (stamp : α → Int) (limit : Nat) (reason : Text) (queue : List α)
    (dropped : Nat) (h : other ≠ sensor) :
    dropsOf sensor (Lane.dropOver other stamp limit reason queue dropped).2 = [] := by
  rw [dropOver_eq]
  exact dropsOf_numberDrops_of_ne stamp reason _ _ h

theorem Accounts.of_lost {α : Type} {sensor : SensorType} {stamp : α → Int}
    {reason : Text} {queue queue' matched lost : List α} {dropped : Nat}
    {drops : List DropResult}
    (hsum : queue.Perm (matched ++ (lost ++ queue')))
    (hdrops : dropsOf sensor drops =
      numberDrops sensor stamp reason dropped lost) :
    Accounts sensor stamp ⟨queue, dropped⟩ [] ⟨queue', dropped + lost.length⟩
      matched drops := by
  refine ⟨lost, ?_, ?_, ?_, rfl⟩
  · rw [Multiset.coe_eq_coe.mpr hsum, ← Multiset.coe_add, ← Multiset.coe_add,
      Multiset.coe_nil, add_zero]
    abel
  · rw [hdrops, numberDrops_timestamps]
  · rw [hdrops, numberDrops_counts]

namespace ApproximateSynchronizer

variable (synchronizer : ApproximateSynchronizer)

theorem tryMatch_reported :
    let result := tryMatch synchronizer.tolerance synchronizer.images.queue
      synchronizer.clouds.queue synchronizer.images.dropped
      synchronizer.clouds.dropped
    Reported synchronizer [] []
      { synchronizer with images := result.1.1, clouds := result.1.2 }
      result.2 := by
  obtain ⟨hlanes, hmatches, hcamera, hlidar⟩ := tryMatch_eq
    synchronizer.tolerance synchronizer.images.queue synchronizer.clouds.queue
    synchronizer.images.dropped synchronizer.clouds.dropped
  refine ⟨?_, ?_⟩
  · simp only [hlanes, hmatches, List.map_map]
    exact .of_lost (pairOldest_firsts_perm _ _ _ _ _) hcamera
  · simp only [hlanes, hmatches, List.map_map]
    exact .of_lost (pairOldest_seconds_perm _ _ _ _ _) hlidar

theorem addImage_reported (image : Image) :
    Reported synchronizer [image] [] (synchronizer.addImage image).1
      (synchronizer.addImage image).2 := by
  have hadd := @Accounts.add _ .camera Image.stamp synchronizer.images
    synchronizer.queueSize image
  have hmatch := tryMatch_reported { synchronizer with
    images := (synchronizer.images.add .camera Image.stamp
      synchronizer.queueSize image).1 }
  have hother : dropsOf .lidar (synchronizer.images.add .camera Image.stamp
      synchronizer.queueSize image).2 = [] :=
    dropsOf_dropOver_of_ne _ _ _ _ _ (by decide)
  exact ⟨hadd.trans hmatch.images,
    (Accounts.refl synchronizer.clouds hother).trans hmatch.clouds⟩

theorem addPointCloud_reported (cloud : PointCloud2) :
    Reported synchronizer [] [cloud] (synchronizer.addPointCloud cloud).1
      (synchronizer.addPointCloud cloud).2 := by
  have hadd := @Accounts.add _ .lidar PointCloud2.stamp synchronizer.clouds
    synchronizer.queueSize cloud
  have hmatch := tryMatch_reported { synchronizer with
    clouds := (synchronizer.clouds.add .lidar PointCloud2.stamp
      synchronizer.queueSize cloud).1 }
  have hother : dropsOf .camera (synchronizer.clouds.add .lidar
      PointCloud2.stamp synchronizer.queueSize cloud).2 = [] :=
    dropsOf_dropOver_of_ne _ _ _ _ _ (by decide)
  exact ⟨(Accounts.refl synchronizer.images hother).trans hmatch.images,
    hadd.trans hmatch.clouds⟩

theorem flushUnmatched_reported (reason : Text) :
    Reported synchronizer [] [] (synchronizer.flushUnmatched reason).1
      (synchronizer.flushUnmatched reason).2 := by
  have himages := @Accounts.dropOver _ .camera Image.stamp 0 reason
    synchronizer.images.queue synchronizer.images.dropped
  have hclouds := @Accounts.dropOver _ .lidar PointCloud2.stamp 0 reason
    synchronizer.clouds.queue synchronizer.clouds.dropped
  have hlidar : dropsOf .lidar (synchronizer.images.flush .camera Image.stamp
      reason).2 = [] := dropsOf_dropOver_of_ne _ _ _ _ _ (by decide)
  have hcamera : dropsOf .camera (synchronizer.clouds.flush .lidar
      PointCloud2.stamp reason).2 = [] :=
    dropsOf_dropOver_of_ne _ _ _ _ _ (by decide)
  exact ⟨himages.trans (.refl _ hcamera),
    (Accounts.refl synchronizer.clouds hlidar).trans hclouds⟩

theorem step_reported (call : SyncCall) :
    Reported synchronizer call.image?.toList call.cloud?.toList
      (synchronizer.step call).1 (synchronizer.step call).2 := by
  cases call with
  | addImage image => exact synchronizer.addImage_reported image
  | addPointCloud cloud => exact synchronizer.addPointCloud_reported cloud
  | flushUnmatched reason => exact synchronizer.flushUnmatched_reported reason

theorem filterMap_cons_toList {α β : Type} (f : α → Option β) (first : α)
    (rest : List α) :
    (first :: rest).filterMap f = (f first).toList ++ rest.filterMap f := by
  rw [List.filterMap_cons]
  cases f first <;> rfl

theorem run_reported (calls : List SyncCall) :
    ∀ synchronizer : ApproximateSynchronizer,
      Reported synchronizer (calls.filterMap SyncCall.image?)
        (calls.filterMap SyncCall.cloud?) (synchronizer.run calls).1
        (synchronizer.run calls).2 := by
  induction calls with
  | nil => exact fun synchronizer => ⟨.refl _ rfl, .refl _ rfl⟩
  | cons call calls ih =>
      intro synchronizer
      have hstep := synchronizer.step_reported call
      have hrest := ih (synchronizer.step call).1
      rw [filterMap_cons_toList, filterMap_cons_toList]
      refine ⟨?_, ?_⟩
      · simp only [run, List.map_append]
        exact hstep.images.trans hrest.images
      · simp only [run, List.map_append]
        exact hstep.clouds.trans hrest.clouds

/-! ## The queues between any two calls -/

structure Synchronized : Prop where
  imagesOrdered : KeyOrdered Image.stamp synchronizer.images.queue
  cloudsOrdered : KeyOrdered PointCloud2.stamp synchronizer.clouds.queue
  imagesFit : synchronizer.images.queue.length ≤ synchronizer.queueSize
  cloudsFit : synchronizer.clouds.queue.length ≤ synchronizer.queueSize
  oneEmpty : synchronizer.images.queue = [] ∨ synchronizer.clouds.queue = []

variable {synchronizer}

theorem tryMatchLocked_synchronized {drops : List DropResult}
    (himages : KeyOrdered Image.stamp synchronizer.images.queue)
    (hclouds : KeyOrdered PointCloud2.stamp synchronizer.clouds.queue)
    (himagesFit : synchronizer.images.queue.length ≤ synchronizer.queueSize)
    (hcloudsFit : synchronizer.clouds.queue.length ≤ synchronizer.queueSize) :
    (synchronizer.tryMatchLocked drops).1.Synchronized := by
  have hlanes := (tryMatch_eq synchronizer.tolerance synchronizer.images.queue
    synchronizer.clouds.queue synchronizer.images.dropped
    synchronizer.clouds.dropped).1
  have hfirsts : (pairStamps synchronizer.tolerance synchronizer.images.queue
      synchronizer.clouds.queue).firsts <:+ synchronizer.images.queue :=
    pairOldest_firsts_suffix _ _ _ _ _
  have hseconds : (pairStamps synchronizer.tolerance synchronizer.images.queue
      synchronizer.clouds.queue).seconds <:+ synchronizer.clouds.queue :=
    pairOldest_seconds_suffix _ _ _ _ _
  simp only [tryMatchLocked, hlanes]
  exact ⟨himages.sublist hfirsts.sublist, hclouds.sublist hseconds.sublist,
    hfirsts.length_le.trans himagesFit, hseconds.length_le.trans hcloudsFit,
    pairOldest_exhausts _ _ _ _ _⟩

theorem keyOrdered_dropOver {α : Type} (sensor : SensorType) {stamp : α → Int}
    (limit : Nat) (reason : Text) {queue : List α} (dropped : Nat)
    (h : KeyOrdered stamp queue) :
    KeyOrdered stamp (Lane.dropOver sensor stamp limit reason queue dropped).1.queue ∧
      (Lane.dropOver sensor stamp limit reason queue dropped).1.queue.length ≤
        limit := by
  rw [dropOver_eq]
  refine ⟨h.sublist (List.drop_sublist _ _), ?_⟩
  rw [List.length_drop]
  omega

theorem Synchronized.step (h : synchronizer.Synchronized) (call : SyncCall) :
    (synchronizer.step call).1.Synchronized := by
  cases call with
  | addImage image =>
      obtain ⟨hordered, hfit⟩ := keyOrdered_dropOver .camera
        synchronizer.queueSize queueFull synchronizer.images.dropped
        (h.imagesOrdered.insertOrdered image)
      exact tryMatchLocked_synchronized hordered h.cloudsOrdered hfit h.cloudsFit
  | addPointCloud cloud =>
      obtain ⟨hordered, hfit⟩ := keyOrdered_dropOver .lidar
        synchronizer.queueSize queueFull synchronizer.clouds.dropped
        (h.cloudsOrdered.insertOrdered cloud)
      exact tryMatchLocked_synchronized h.imagesOrdered hordered h.imagesFit hfit
  | flushUnmatched reason =>
      obtain ⟨himages, himagesFit⟩ := keyOrdered_dropOver .camera 0 reason
        synchronizer.images.dropped h.imagesOrdered
      obtain ⟨hclouds, hcloudsFit⟩ := keyOrdered_dropOver .lidar 0 reason
        synchronizer.clouds.dropped h.cloudsOrdered
      exact ⟨himages, hclouds, himagesFit.trans (Nat.zero_le _),
        hcloudsFit.trans (Nat.zero_le _),
        .inl (List.eq_nil_of_length_eq_zero (Nat.le_zero.mp himagesFit))⟩

theorem step_settings (call : SyncCall) :
    (synchronizer.step call).1.queueSize = synchronizer.queueSize ∧
      (synchronizer.step call).1.tolerance = synchronizer.tolerance := by
  cases call <;> exact ⟨rfl, rfl⟩

theorem Synchronized.run (calls : List SyncCall) :
    ∀ {synchronizer : ApproximateSynchronizer}, synchronizer.Synchronized →
      (synchronizer.run calls).1.Synchronized := by
  induction calls with
  | nil => exact fun h => h
  | cons call calls ih => exact fun h => ih (h.step call)

theorem run_settings (calls : List SyncCall) :
    ∀ synchronizer : ApproximateSynchronizer,
      (synchronizer.run calls).1.queueSize = synchronizer.queueSize ∧
        (synchronizer.run calls).1.tolerance = synchronizer.tolerance := by
  induction calls with
  | nil => exact fun synchronizer => ⟨rfl, rfl⟩
  | cons call calls ih =>
      intro synchronizer
      obtain ⟨hsize, htolerance⟩ := ih (synchronizer.step call).1
      obtain ⟨hsize', htolerance'⟩ := @step_settings synchronizer call
      exact ⟨hsize.trans hsize', htolerance.trans htolerance'⟩

theorem create_synchronized (queueSize : Nat) (tolerance : Int) :
    (create queueSize tolerance).Synchronized :=
  ⟨List.Pairwise.nil, List.Pairwise.nil, Nat.zero_le _, Nat.zero_le _, .inl rfl⟩

/-! ## Matches and full queues -/

/-- A reported match is within tolerance and carries the absolute difference. -/
def SoundMatch (tolerance : Int) (result : MatchResult) : Prop :=
  |result.image.stamp - result.cloud.stamp| ≤ tolerance ∧
    result.difference = |result.image.stamp - result.cloud.stamp|

theorem soundMatch_matchResult {tolerance : Int} {image : Image}
    {cloud : PointCloud2}
    (h : Within Image.stamp PointCloud2.stamp tolerance image cloud) :
    SoundMatch tolerance (matchResult image cloud) := by
  refine ⟨abs_le.mpr h, ?_⟩
  simp only [matchResult]
  split
  next hneg => exact (abs_of_neg hneg).symm
  next hpos => exact (abs_of_nonneg (not_lt.mp hpos)).symm

theorem tryMatch_sound (tolerance : Int) (images : List Image)
    (clouds : List PointCloud2) (droppedImages droppedClouds : Nat) :
    ∀ result ∈ (tryMatch tolerance images clouds droppedImages
      droppedClouds).2.matchResults, SoundMatch tolerance result := by
  rw [(tryMatch_eq tolerance images clouds droppedImages droppedClouds).2.1]
  intro result hresult
  obtain ⟨pair, hpair, rfl⟩ := List.mem_map.mp hresult
  exact soundMatch_matchResult (pairOldest_pairs_within _ _ _ _ _ pair hpair)

theorem step_sound (call : SyncCall) :
    ∀ result ∈ (synchronizer.step call).2.matchResults,
      SoundMatch synchronizer.tolerance result := by
  cases call with
  | addImage image => exact tryMatch_sound _ _ _ _ _
  | addPointCloud cloud => exact tryMatch_sound _ _ _ _ _
  | flushUnmatched reason => nofun

theorem run_sound (calls : List SyncCall) :
    ∀ synchronizer : ApproximateSynchronizer,
      ∀ result ∈ (synchronizer.run calls).2.matchResults,
        SoundMatch synchronizer.tolerance result := by
  induction calls with
  | nil => exact fun _ => nofun
  | cons call calls ih =>
      intro synchronizer result hresult
      rcases List.mem_append.mp hresult with hresult | hresult
      · exact step_sound call result hresult
      · rw [← (@step_settings synchronizer call).2]
        exact ih _ result hresult

/-- Matching reports no full queue. -/
theorem tryMatch_reason {tolerance : Int} {images : List Image}
    {clouds : List PointCloud2} {droppedImages droppedClouds : Nat}
    {drop : DropResult} (h : drop ∈ (tryMatch tolerance images clouds
      droppedImages droppedClouds).2.drops) : drop.reason = outsideTolerance := by
  obtain ⟨-, -, hcamera, hlidar⟩ := tryMatch_eq tolerance images clouds
    droppedImages droppedClouds
  have hmem : drop ∈ dropsOf drop.sensor (tryMatch tolerance images clouds
      droppedImages droppedClouds).2.drops :=
    List.mem_filter.mpr ⟨h, decide_eq_true rfl⟩
  cases hsensor : drop.sensor with
  | camera =>
      rw [hsensor, hcamera] at hmem
      exact (of_mem_numberDrops _ _ _ hmem).2
  | lidar =>
      rw [hsensor, hlidar] at hmem
      exact (of_mem_numberDrops _ _ _ hmem).2

theorem exceeds_of_dropOver {α : Type} {sensor : SensorType} {stamp : α → Int}
    {limit : Nat} {reason : Text} {queue : List α} {dropped : Nat}
    {drop : DropResult}
    (h : drop ∈ (Lane.dropOver sensor stamp limit reason queue dropped).2) :
    limit < queue.length := by
  rw [dropOver_eq] at h
  by_contra hfits
  rw [Nat.sub_eq_zero_of_le (not_lt.mp hfits), List.take_zero] at h
  exact absurd h List.not_mem_nil

theorem queueFull_ne_outsideTolerance : outsideTolerance ≠ queueFull := by
  decide

/-- A full queue loses messages only while the other queue is empty. -/
theorem Synchronized.other_empty_of_full (h : synchronizer.Synchronized)
    (hsize : 1 ≤ synchronizer.queueSize) :
    (∀ image, ∀ drop ∈ (synchronizer.addImage image).2.drops,
      drop.reason = queueFull → synchronizer.clouds.queue = []) ∧
    (∀ cloud, ∀ drop ∈ (synchronizer.addPointCloud cloud).2.drops,
      drop.reason = queueFull → synchronizer.images.queue = []) := by
  constructor
  · intro image drop hdrop hreason
    rcases List.mem_append.mp hdrop with hdrop | hdrop
    · have hlength := exceeds_of_dropOver hdrop
      rw [length_insertOrdered] at hlength
      refine h.oneEmpty.resolve_left fun hnil => ?_
      rw [hnil, List.length_nil] at hlength
      omega
    · exact absurd ((tryMatch_reason hdrop).symm.trans hreason)
        queueFull_ne_outsideTolerance
  · intro cloud drop hdrop hreason
    rcases List.mem_append.mp hdrop with hdrop | hdrop
    · have hlength := exceeds_of_dropOver hdrop
      rw [length_insertOrdered] at hlength
      refine h.oneEmpty.resolve_right fun hnil => ?_
      rw [hnil, List.length_nil] at hlength
      omega
    · exact absurd ((tryMatch_reason hdrop).symm.trans hreason)
        queueFull_ne_outsideTolerance

/-! ## Whole runs -/

/-- The messages a sensor received are queued, matched or counted as dropped. -/
def NothingLost {α : Type} (sensor : SensorType) (stamp : α → Int)
    (received queue matched : List α) (drops : List DropResult) : Prop :=
  ∃ lost : List α,
    (received : Multiset α) =
      (queue : Multiset α) + (matched : Multiset α) + (lost : Multiset α) ∧
    (dropsOf sensor drops).map DropResult.timestamp = lost.map stamp ∧
    (dropsOf sensor drops).map DropResult.count = List.range' 1 lost.length

theorem nothingLost_of_accounts {α : Type} {sensor : SensorType} {stamp : α → Int}
    {received matched : List α} {after : Lane α} {drops : List DropResult}
    (h : Accounts sensor stamp ⟨[], 0⟩ received after matched drops) :
    NothingLost sensor stamp received after.queue matched drops := by
  obtain ⟨lost, hsum, htimes, hcounts, -⟩ := h
  rw [Multiset.coe_nil, zero_add] at hsum
  exact ⟨lost, hsum, htimes, hcounts⟩

/-- After every call: nothing is lost or duplicated, and the queues are in order. -/
theorem run_accounts (queueSize : Nat) (tolerance : Int)
    (calls : List SyncCall) :
    let reached := ((create queueSize tolerance).run calls).1
    let reported := ((create queueSize tolerance).run calls).2
    (NothingLost .camera Image.stamp (calls.filterMap SyncCall.image?)
      reached.images.queue (reported.matchResults.map MatchResult.image)
      reported.drops ∧
    NothingLost .lidar PointCloud2.stamp (calls.filterMap SyncCall.cloud?)
      reached.clouds.queue (reported.matchResults.map MatchResult.cloud)
      reported.drops) ∧
    (KeyOrdered Image.stamp reached.images.queue ∧
      KeyOrdered PointCloud2.stamp reached.clouds.queue) ∧
    (reached.images.queue.length ≤ max 1 queueSize ∧
      reached.clouds.queue.length ≤ max 1 queueSize) ∧
    (reached.images.queue = [] ∨ reached.clouds.queue = []) ∧
    (∀ result ∈ reported.matchResults, SoundMatch tolerance result) ∧
    (∀ image, ∀ drop ∈ (reached.addImage image).2.drops,
      drop.reason = queueFull → reached.clouds.queue = []) ∧
    (∀ cloud, ∀ drop ∈ (reached.addPointCloud cloud).2.drops,
      drop.reason = queueFull → reached.images.queue = []) := by
  intro reached reported
  have hreported := run_reported calls (create queueSize tolerance)
  have hqueues := (create_synchronized queueSize tolerance).run calls
  have hsize : reached.queueSize = max 1 queueSize :=
    (run_settings calls (create queueSize tolerance)).1
  refine ⟨⟨nothingLost_of_accounts hreported.images,
      nothingLost_of_accounts hreported.clouds⟩,
    ⟨hqueues.imagesOrdered, hqueues.cloudsOrdered⟩,
    ⟨hsize ▸ hqueues.imagesFit, hsize ▸ hqueues.cloudsFit⟩, hqueues.oneEmpty,
    run_sound calls (create queueSize tolerance), ?_⟩
  exact hqueues.other_empty_of_full (hsize ▸ Nat.le_max_left 1 queueSize)

end ApproximateSynchronizer

end DataCache.Capture
