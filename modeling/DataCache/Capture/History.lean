import DataCache.Capture.DataBuffer
import DataCache.Foundation.Sorting

/-!
# The buffer against its history

With the byte budget off, each queue is one cut of everything its sensor ever
delivered, in whatever order the frames came.
-/

namespace DataCache.Capture

open DataCache.Foundation

namespace DataBuffer

/-- The newest stamp of either sensor. -/
def newestOf (arrivals : List SensorData) : Option Int :=
  (arrivals.map timestampOf).max?

def sensorArrivals (arrivals : List SensorData) (type : SensorType) :
    List SensorData :=
  arrivals.filter fun data => decide (data.type = type)

/-- The frames within `maxAge` of the newest stamp. -/
def youngEnough (maxAge : Int) (latest : Option Int) (data : SensorData) : Bool :=
  latest.all fun latest => decide (latest - maxAge ≤ timestampOf data)

/--
Sort all arrivals of a sensor by stamp and arrival, keep the last `maxSize` of
them, and of these the ones that are young enough if an age is set.
-/
def offlineFrames (maxSize : Nat) (maxAge : Int) (arrivals : List SensorData)
    (type : SensorType) : List SensorData :=
  let kept := (sortByKey timestampOf (sensorArrivals arrivals type)).rtake maxSize
  if maxAge > 0 then kept.filter (youngEnough maxAge (newestOf arrivals)) else kept

/-! ## Eviction -/

theorem popWhile_overLimit {buffer : DataBuffer}
    (hbytes : buffer.maxBytesPerSensor = 0) (frames : List SensorData) :
    ∀ bytes, (popWhile buffer.overLimit frames bytes).frames =
      frames.rtake buffer.maxSize := by
  induction frames with
  | nil => exact fun _ => (List.rtake_nil _).symm
  | cons first rest ih =>
      intro bytes
      rw [popWhile]
      split
      next hover =>
        have hlength : buffer.maxSize ≤ rest.length := by
          simpa [overLimit, hbytes, Nat.lt_succ_iff] using hover
        rw [ih, rtake_cons_of_le hlength]
      next hfits =>
        rw [rtake_of_length_le]
        simpa [overLimit, hbytes] using hfits

theorem popWhile_expired {oldestAllowed : Int} {frames : List SensorData}
    (h : KeyOrdered timestampOf frames) :
    ∀ bytes, (popWhile (expired oldestAllowed) frames bytes).frames =
      frames.filter fun frame => decide (oldestAllowed ≤ timestampOf frame) := by
  induction frames with
  | nil => exact fun _ => rfl
  | cons first rest ih =>
      intro bytes
      obtain ⟨hfirst, hrest⟩ := List.pairwise_cons.mp h
      rw [popWhile]
      split
      next hold =>
        have hlt : timestampOf first < oldestAllowed := by simpa [expired] using hold
        rw [ih hrest, List.filter_cons_of_neg]
        simpa using hlt
      next hyoung =>
        have hle : oldestAllowed ≤ timestampOf first := by
          simpa [expired] using hyoung
        refine (List.filter_eq_self.mpr fun frame hframe => decide_eq_true ?_).symm
        rcases List.mem_cons.mp hframe with rfl | hframe
        · exact hle
        · exact hle.trans (hfirst frame hframe)

/-! ## The newest stamp -/

theorem newestOf_concat (arrivals : List SensorData) (data : SensorData) :
    newestOf (arrivals ++ [data]) =
      some (newest (newestOf arrivals) (timestampOf data)) := by
  cases arrivals with
  | nil => rfl
  | cons first rest =>
      simp only [newestOf, List.cons_append, List.map_cons, List.map_append,
        List.max?_cons', List.foldl_append, List.map_nil, List.foldl_cons,
        List.foldl_nil, newest]
      split
      next hgt => rw [max_eq_right (le_of_lt hgt)]
      next hle => rw [max_eq_left (not_lt.mp hle)]

/-- Young enough, or no age is set. -/
def recent (maxAge : Int) (latest : Option Int) (data : SensorData) : Bool :=
  decide (maxAge ≤ 0) || youngEnough maxAge latest data

theorem recent_mono {maxAge : Int} {latest : Option Int} (first last : SensorData)
    (hle : timestampOf first ≤ timestampOf last)
    (h : recent maxAge latest first = true) : recent maxAge latest last = true := by
  cases latest with
  | none => exact Bool.or_true _
  | some latest =>
      simp only [recent, youngEnough, Option.all_some, Bool.or_eq_true,
        decide_eq_true_eq] at h ⊢
      omega

/-- The newest stamp only rises, so what is too old stays too old. -/
theorem recent_of_newest {maxAge : Int} {latest : Option Int} {timestamp : Int}
    {data : SensorData}
    (h : recent maxAge (some (newest latest timestamp)) data = true) :
    recent maxAge latest data = true := by
  cases latest with
  | none => exact Bool.or_true _
  | some latest =>
      have hle := (le_newest (some latest) timestamp).2 latest rfl
      simp only [recent, youngEnough, Option.all_some, Bool.or_eq_true,
        decide_eq_true_eq] at h ⊢
      omega

theorem filter_recent_newest (maxAge : Int) (latest : Option Int) (timestamp : Int)
    (frames : List SensorData) :
    (frames.filter (recent maxAge latest)).filter
      (recent maxAge (some (newest latest timestamp))) =
        frames.filter (recent maxAge (some (newest latest timestamp))) := by
  rw [List.filter_filter]
  refine List.filter_congr fun frame _ => ?_
  cases h : recent maxAge (some (newest latest timestamp)) frame with
  | true => rw [recent_of_newest h, Bool.and_self]
  | false => rw [Bool.false_and]

theorem offlineFrames_eq (maxSize : Nat) (maxAge : Int)
    (arrivals : List SensorData) (type : SensorType) :
    offlineFrames maxSize maxAge arrivals type =
      ((sortByKey timestampOf (sensorArrivals arrivals type)).filter
        (recent maxAge (newestOf arrivals))).rtake maxSize := by
  rw [← filter_rtake maxSize (keyOrdered_sortByKey _) recent_mono, offlineFrames]
  split
  next hage =>
    refine List.filter_congr fun frame _ => ?_
    rw [recent, decide_eq_false (not_le.mpr hage), Bool.false_or]
  next hage =>
    refine (List.filter_eq_self.mpr fun frame _ => ?_).symm
    rw [recent, decide_eq_true (not_lt.mp hage), Bool.true_or]

theorem keyOrdered_offlineFrames (maxSize : Nat) (maxAge : Int)
    (arrivals : List SensorData) (type : SensorType) :
    KeyOrdered timestampOf (offlineFrames maxSize maxAge arrivals type) := by
  rw [offlineFrames_eq]
  exact ((keyOrdered_sortByKey _).filter _).sublist (rtake_suffix _ _).sublist

/-! ## One arrival -/

/-- The buffer after these arrivals, as the offline description has it. -/
structure FollowsHistory (maxSize : Nat) (maxAge : Int)
    (arrivals : List SensorData) (buffer : DataBuffer) : Prop where
  maxSize_eq : buffer.maxSize = maxSize
  maxAge_eq : buffer.maxAge = maxAge
  noByteLimit : buffer.maxBytesPerSensor = 0
  latest_eq : buffer.latestTimestamp = newestOf arrivals
  frames_eq : ∀ type,
    (buffer.queue type).frames = offlineFrames maxSize maxAge arrivals type

theorem evictExpired_frames {buffer : DataBuffer}
    (h : ∀ type, KeyOrdered timestampOf (buffer.queue type).frames)
    (type : SensorType) :
    (buffer.evictExpired.queue type).frames =
      (buffer.queue type).frames.filter
        (recent buffer.maxAge buffer.latestTimestamp) := by
  have hkeepAll : ∀ {p : SensorData → Bool}, (∀ frame, p frame = true) →
      (buffer.queue type).frames = (buffer.queue type).frames.filter p :=
    fun hp => (List.filter_eq_self.mpr fun frame _ => hp frame).symm
  unfold evictExpired
  split
  next hnone =>
    rw [hnone]
    exact hkeepAll fun _ => Bool.or_true _
  next latest hlatest =>
    split
    next hage =>
      refine hkeepAll fun _ => ?_
      rw [recent, decide_eq_true hage, Bool.true_or]
    next hage =>
      have hrecent : recent buffer.maxAge buffer.latestTimestamp =
          fun frame => decide (latest - buffer.maxAge ≤ timestampOf frame) := by
        funext frame
        rw [recent, decide_eq_false hage, hlatest]
        rfl
      rw [hrecent]
      cases type with
      | camera => exact popWhile_expired (h .camera) _
      | lidar => exact popWhile_expired (h .lidar) _

theorem sensorArrivals_concat (arrivals : List SensorData) (data : SensorData)
    (type : SensorType) :
    sensorArrivals (arrivals ++ [data]) type =
      if data.type = type then sensorArrivals arrivals type ++ [data]
      else sensorArrivals arrivals type := by
  rw [sensorArrivals, List.filter_append]
  split
  next h => simp [sensorArrivals, h]
  next h => simp [sensorArrivals, h]

/-- A frame that comes too late changes no cut. -/
theorem offlineFrames_concat_of_late {maxSize : Nat} {maxAge : Int}
    {arrivals : List SensorData} {data : SensorData}
    (hlate : ¬recent maxAge (newestOf (arrivals ++ [data])) data = true)
    (type : SensorType) :
    offlineFrames maxSize maxAge (arrivals ++ [data]) type =
      offlineFrames maxSize maxAge arrivals type := by
  have hnewest : newestOf (arrivals ++ [data]) = newestOf arrivals := by
    rw [newestOf_concat] at hlate ⊢
    cases hlatest : newestOf arrivals with
    | none => simp [recent, youngEnough, newest, hlatest] at hlate; omega
    | some latest =>
        simp only [recent, youngEnough, newest, hlatest, Option.all_some,
          Bool.or_eq_true, decide_eq_true_eq] at hlate ⊢
        split at hlate
        next => omega
        next hle => rw [if_neg hle]
  rw [offlineFrames_eq, offlineFrames_eq, hnewest, sensorArrivals_concat]
  split
  next =>
    rw [sortByKey_concat, filter_insertOrdered_of_neg (keyOrdered_sortByKey _)]
    rwa [← hnewest]
  next => rfl

/-- A frame in time is inserted into the cut, and both cuts are made again. -/
theorem offlineFrames_concat_of_recent {maxSize : Nat} {maxAge : Int}
    {arrivals : List SensorData} {data : SensorData}
    (hrecent : recent maxAge (newestOf (arrivals ++ [data])) data = true)
    (type : SensorType) :
    offlineFrames maxSize maxAge (arrivals ++ [data]) type =
      (if data.type = type then
        (insertOrdered timestampOf (offlineFrames maxSize maxAge arrivals type)
          data).rtake maxSize
      else offlineFrames maxSize maxAge arrivals type).filter
        (recent maxAge (newestOf (arrivals ++ [data]))) := by
  rw [newestOf_concat] at hrecent ⊢
  have hsorted := @keyOrdered_sortByKey _ _ _ timestampOf
    (sensorArrivals arrivals type)
  have hcut : KeyOrdered timestampOf _ :=
    hsorted.filter (recent maxAge (newestOf arrivals))
  rw [offlineFrames_eq, offlineFrames_eq, newestOf_concat, sensorArrivals_concat]
  split
  next =>
    rw [rtake_insertOrdered maxSize hcut,
      filter_rtake maxSize (hcut.insertOrdered data) recent_mono,
      filter_insertOrdered_of_pos hcut hrecent, filter_recent_newest,
      sortByKey_concat, filter_insertOrdered_of_pos hsorted hrecent]
  next =>
    rw [filter_rtake maxSize hcut recent_mono, filter_recent_newest]

theorem setQueue_settings (buffer : DataBuffer) (type : SensorType)
    (queue : SensorQueue) :
    (buffer.setQueue type queue).maxSize = buffer.maxSize ∧
      (buffer.setQueue type queue).maxAge = buffer.maxAge ∧
      (buffer.setQueue type queue).maxBytesPerSensor = buffer.maxBytesPerSensor ∧
      (buffer.setQueue type queue).latestTimestamp = buffer.latestTimestamp := by
  cases type <;> exact ⟨rfl, rfl, rfl, rfl⟩

theorem evictExpired_settings (buffer : DataBuffer) :
    buffer.evictExpired.maxSize = buffer.maxSize ∧
      buffer.evictExpired.maxAge = buffer.maxAge ∧
      buffer.evictExpired.maxBytesPerSensor = buffer.maxBytesPerSensor ∧
      buffer.evictExpired.latestTimestamp = buffer.latestTimestamp := by
  unfold evictExpired
  split
  · exact ⟨rfl, rfl, rfl, rfl⟩
  · split <;> exact ⟨rfl, rfl, rfl, rfl⟩

/-- Recording a frame in time: insertion, the count cut, and the age cut. -/
theorem insert_evict_frames {buffer : DataBuffer}
    (hbytes : buffer.maxBytesPerSensor = 0)
    (hordered : ∀ type, KeyOrdered timestampOf (buffer.queue type).frames)
    (data : SensorData) (bytes : Nat) (type : SensorType) :
    let kept := popWhile buffer.overLimit
      (insertFrame (buffer.queue data.type).frames data) bytes
    ((buffer.setQueue data.type kept).evictExpired.queue type).frames =
      (if data.type = type then
        (insertOrdered timestampOf (buffer.queue type).frames data).rtake
          buffer.maxSize
      else (buffer.queue type).frames).filter
        (recent buffer.maxAge buffer.latestTimestamp) := by
  intro kept
  have hkept : kept.frames = (insertOrdered timestampOf
      (buffer.queue data.type).frames data).rtake buffer.maxSize :=
    popWhile_overLimit hbytes _ bytes
  have hset : ∀ other, ((buffer.setQueue data.type kept).queue other).frames =
      if data.type = other then
        (insertOrdered timestampOf (buffer.queue other).frames data).rtake
          buffer.maxSize
      else (buffer.queue other).frames := by
    intro other
    rw [queue_setQueue]
    split
    next htype => rw [hkept, htype]
    next => rfl
  obtain ⟨-, hmaxAge, -, hlatest⟩ := setQueue_settings buffer data.type kept
  rw [evictExpired_frames, hset, hmaxAge, hlatest]
  intro other
  rw [hset]
  split
  next =>
    exact List.Pairwise.sublist (rtake_suffix _ _).sublist
      ((hordered other).insertOrdered data)
  next => exact hordered other

theorem followsHistory_addData {maxSize : Nat} {maxAge : Int}
    {arrivals : List SensorData} {buffer : DataBuffer} (hsize : 1 ≤ maxSize)
    (h : FollowsHistory maxSize maxAge arrivals buffer) (data : SensorData) :
    FollowsHistory maxSize maxAge (arrivals ++ [data]) (buffer.addData data) := by
  obtain ⟨rfl, rfl, hbytes, hlatest, hframes⟩ := h
  have hnewest := newestOf_concat arrivals data
  rw [← hlatest] at hnewest
  rw [addData, if_neg (by omega)]
  dsimp only
  split
  next hlate =>
    refine ⟨rfl, rfl, hbytes, hnewest.symm, fun type => ?_⟩
    rw [offlineFrames_concat_of_late _ type, ← hframes type]
    · cases type <;> rfl
    · rw [hnewest, recent, youngEnough]
      simp only [Bool.and_eq_true, decide_eq_true_eq, Option.all_some,
        Bool.or_eq_true] at hlate ⊢
      omega
  next hintime =>
    have hrecent : recent buffer.maxAge (newestOf (arrivals ++ [data])) data =
        true := by
      rw [hnewest, recent, youngEnough]
      simp only [Bool.and_eq_true, decide_eq_true_eq, Option.all_some,
        Bool.or_eq_true] at hintime ⊢
      omega
    have hordered : ∀ type, KeyOrdered timestampOf (buffer.queue type).frames :=
      fun type => hframes type ▸ keyOrdered_offlineFrames _ _ _ type
    let timed : DataBuffer := { buffer with
      latestTimestamp := some (newest buffer.latestTimestamp (timestampOf data)) }
    have hqueue : ∀ type, timed.queue type = buffer.queue type := by
      intro type
      cases type <;> rfl
    have hstep := @insert_evict_frames timed hbytes
      (fun type => hqueue type ▸ hordered type) data
    refine ⟨?_, ?_, ?_, ?_, fun type => ?_⟩
    · rw [(evictExpired_settings _).1, (setQueue_settings _ _ _).1]
    · rw [(evictExpired_settings _).2.1, (setQueue_settings _ _ _).2.1]
    · rw [(evictExpired_settings _).2.2.1, (setQueue_settings _ _ _).2.2.1]
      exact hbytes
    · rw [(evictExpired_settings _).2.2.2, (setQueue_settings _ _ _).2.2.2]
      exact hnewest.symm
    · rw [offlineFrames_concat_of_recent hrecent, ← hframes type, hnewest,
        ← hqueue type]
      exact hstep _ type

/-! ## Whole histories -/

theorem followsHistory_addAll {maxSize : Nat} (hsize : 1 ≤ maxSize) (maxAge : Int)
    (arrivals : List SensorData) :
    FollowsHistory maxSize maxAge arrivals
      ((empty maxSize maxAge 0).addAll arrivals) := by
  induction arrivals using List.reverseRecOn with
  | nil =>
      refine ⟨rfl, rfl, rfl, rfl, fun type => ?_⟩
      rw [offlineFrames_eq]
      cases type <;> simp [sensorArrivals, sortByKey, addAll, empty, queue]
  | append_singleton arrivals data ih =>
      rw [addAll, List.foldl_concat]
      exact followsHistory_addData hsize ih data

theorem newestOf_eq_of_perm {arrivals arrivals' : List SensorData}
    (h : arrivals.Perm arrivals') : newestOf arrivals = newestOf arrivals' := by
  cases hlatest : newestOf arrivals' with
  | none =>
      rw [newestOf, List.max?_eq_none_iff, List.map_eq_nil_iff] at hlatest ⊢
      exact List.perm_nil.mp (hlatest ▸ h)
  | some latest =>
      rw [newestOf, List.max?_eq_some_iff] at hlatest ⊢
      obtain ⟨hmem, hle⟩ := hlatest
      have hstamps := h.map timestampOf
      exact ⟨hstamps.mem_iff.mpr hmem, fun stamp hstamp =>
        hle stamp (hstamps.mem_iff.mp hstamp)⟩

/-- With distinct stamps the description does not see the arrival order. -/
theorem offlineFrames_eq_of_perm (maxSize : Nat) (maxAge : Int)
    {arrivals arrivals' : List SensorData} (h : arrivals.Perm arrivals')
    (hdistinct : (arrivals.map timestampOf).Nodup) (type : SensorType) :
    offlineFrames maxSize maxAge arrivals type =
      offlineFrames maxSize maxAge arrivals' type := by
  have hsensor : (sensorArrivals arrivals type).Perm (sensorArrivals arrivals' type) :=
    h.filter _
  have hdistinct' : ((sensorArrivals arrivals type).map timestampOf).Nodup :=
    hdistinct.sublist (List.filter_sublist.map timestampOf)
  rw [offlineFrames_eq, offlineFrames_eq, newestOf_eq_of_perm h,
    sortByKey_eq_of_perm hsensor hdistinct']

/-- Each queue is the offline cut of the history, in any order of arrival. -/
theorem addAll_eq_offlineFrames (maxSize : Nat) (hsize : 1 ≤ maxSize) (maxAge : Int)
    (arrivals : List SensorData) :
    (∀ type, (((empty maxSize maxAge 0).addAll arrivals).queue type).frames =
      offlineFrames maxSize maxAge arrivals type) ∧
    ∀ arrivals' : List SensorData, arrivals.Perm arrivals' →
      (arrivals.map timestampOf).Nodup →
      ((empty maxSize maxAge 0).addAll arrivals).getAllData =
        ((empty maxSize maxAge 0).addAll arrivals').getAllData := by
  have hframes := (followsHistory_addAll hsize maxAge arrivals).frames_eq
  refine ⟨hframes, fun arrivals' hperm hdistinct => ?_⟩
  have hframes' := (followsHistory_addAll hsize maxAge arrivals').frames_eq
  have hsame : ∀ type,
      (((empty maxSize maxAge 0).addAll arrivals).queue type).frames =
        (((empty maxSize maxAge 0).addAll arrivals').queue type).frames := by
    intro type
    rw [hframes, hframes', offlineFrames_eq_of_perm _ _ hperm hdistinct]
  exact congrArg₂ (· ++ ·) (hsame .camera) (hsame .lidar)

/-- A frame past the age, one past the count and one out of order. -/
def mixedArrivals : List SensorData :=
  [.camera 5 none, .lidar 20 none, .camera 15 none, .camera 11 none,
    .camera 12 none]

theorem addAll_eq_offlineFrames_mixed :
    (((empty 2 10 0).addAll mixedArrivals).queue .camera).frames =
      offlineFrames 2 10 mixedArrivals .camera ∧
    ((empty 2 10 0).addAll mixedArrivals).getAllData =
      ((empty 2 10 0).addAll mixedArrivals.reverse).getAllData :=
  ⟨(addAll_eq_offlineFrames 2 (by decide) 10 mixedArrivals).1 .camera,
    (addAll_eq_offlineFrames 2 (by decide) 10 mixedArrivals).2
      mixedArrivals.reverse (List.reverse_perm mixedArrivals).symm (by decide)⟩

end DataBuffer

end DataCache.Capture
