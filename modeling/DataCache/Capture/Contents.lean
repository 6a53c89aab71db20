import DataCache.Capture.DataBuffer
import DataCache.Foundation.Sorting

/-!
# What the sensor buffer holds

After any sequence of frames each queue is sorted, within its limits and counted
exactly, so the eviction loop stops before its queue is empty.
-/

namespace DataCache.Capture

open DataCache.Foundation

namespace DataBuffer

/-! ## Popping from the front -/

def totalBytes (frames : List SensorData) : Nat :=
  (frames.map payloadBytes).sum

@[simp] theorem totalBytes_nil : totalBytes [] = 0 := rfl

@[simp] theorem totalBytes_cons (first : SensorData) (rest : List SensorData) :
    totalBytes (first :: rest) = payloadBytes first + totalBytes rest := by
  simp [totalBytes]

theorem totalBytes_perm {frames frames' : List SensorData}
    (h : frames.Perm frames') : totalBytes frames = totalBytes frames' :=
  (h.map payloadBytes).sum_nat

/-- Whether the loop comes to pop a queue that is empty. -/
def popsEmpty (full : List SensorData → Nat → Bool) :
    List SensorData → Nat → Bool
  | [], bytes => full [] bytes
  | first :: rest, bytes =>
      full (first :: rest) bytes &&
        popsEmpty full rest (bytes - payloadBytes first)

section Popping

variable {full : List SensorData → Nat → Bool}

theorem popsEmpty_totalBytes (hstop : full [] 0 = false)
    (frames : List SensorData) :
    popsEmpty full frames (totalBytes frames) = false := by
  induction frames with
  | nil => exact hstop
  | cons first rest ih => simp [popsEmpty, ih]

theorem popWhile_bytes (frames : List SensorData) :
    (popWhile full frames (totalBytes frames)).bytes =
      totalBytes (popWhile full frames (totalBytes frames)).frames := by
  induction frames with
  | nil => rfl
  | cons first rest ih =>
      unfold popWhile
      split
      · simpa using ih
      · rfl

theorem popWhile_end (frames : List SensorData) (bytes : Nat) :
    (popWhile full frames bytes).frames = [] ∨
      full (popWhile full frames bytes).frames
        (popWhile full frames bytes).bytes = false := by
  induction frames generalizing bytes with
  | nil => exact .inl rfl
  | cons first rest ih =>
      unfold popWhile
      split
      · exact ih _
      next hfull => exact .inr (by simpa using hfull)

/-- With an exact counter the loop ends because its condition is false. -/
theorem popWhile_stops (hstop : full [] 0 = false) (frames : List SensorData) :
    full (popWhile full frames (totalBytes frames)).frames
      (popWhile full frames (totalBytes frames)).bytes = false := by
  rcases popWhile_end frames (totalBytes frames) with hempty | hend
  · rw [popWhile_bytes, hempty]
    exact hstop
  · exact hend

theorem popWhile_of_not_full {frames : List SensorData} {bytes : Nat}
    (h : full frames bytes = false) : popWhile full frames bytes = ⟨frames, bytes⟩ := by
  cases frames with
  | nil => rfl
  | cons first rest => simp [popWhile, h]

end Popping

theorem overLimit_nil (buffer : DataBuffer) : buffer.overLimit [] 0 = false := by
  simp [overLimit]

/-! ## Each queue after a frame -/

/-- The condition of the age eviction, false where no age is set. -/
def stale (buffer : DataBuffer) (frames : List SensorData) (bytes : Nat) : Bool :=
  match buffer.latestTimestamp with
  | none => false
  | some latest =>
      decide (buffer.maxAge > 0) && expired (latest - buffer.maxAge) frames bytes

theorem queue_evictExpired (buffer : DataBuffer) (type : SensorType) :
    buffer.evictExpired.queue type = popWhile buffer.stale
      (buffer.queue type).frames (buffer.queue type).bytes := by
  have hidle : (∀ frames bytes, buffer.stale frames bytes = false) →
      buffer.queue type = popWhile buffer.stale (buffer.queue type).frames
        (buffer.queue type).bytes := fun hfalse =>
    (popWhile_of_not_full (hfalse _ _)).symm
  unfold evictExpired
  split
  next hlatest => exact hidle fun _ _ => by rw [stale, hlatest]
  next latest hlatest =>
    split
    next hage =>
      refine hidle fun _ _ => ?_
      rw [stale, hlatest]
      simp [hage]
    next hage =>
      have hstale : buffer.stale = expired (latest - buffer.maxAge) := by
        funext frames bytes
        rw [stale, hlatest]
        simp [not_le.mp hage]
      rw [hstale]
      cases type <;> rfl

/-- The newest stamp is taken over first. -/
def noted (buffer : DataBuffer) (data : SensorData) : DataBuffer :=
  { buffer with
    latestTimestamp := some (newest buffer.latestTimestamp (timestampOf data)) }

/-- Too far behind the newest stamp to be queued. -/
def refuses (buffer : DataBuffer) (data : SensorData) : Bool :=
  decide (buffer.maxAge > 0) && decide (timestampOf data <
    newest buffer.latestTimestamp (timestampOf data) - buffer.maxAge)

/-- What the count and byte limits leave of the queue with the frame in it. -/
def limited (buffer : DataBuffer) (data : SensorData) : SensorQueue :=
  popWhile buffer.overLimit
    (insertFrame (buffer.queue data.type).frames data)
    (addBytes (buffer.queue data.type).bytes (payloadBytes data))

theorem addData_of_refuses {buffer : DataBuffer} {data : SensorData}
    (hsize : buffer.maxSize ≠ 0) (hrefuses : buffer.refuses data = true) :
    buffer.addData data = buffer.noted data := by
  unfold addData
  rw [if_neg hsize]
  exact if_pos hrefuses

theorem addData_of_accepts {buffer : DataBuffer} {data : SensorData}
    (hsize : buffer.maxSize ≠ 0) (haccepts : buffer.refuses data = false) :
    buffer.addData data = ((buffer.noted data).setQueue data.type
      (buffer.limited data)).evictExpired := by
  unfold addData
  rw [if_neg hsize]
  refine (if_neg ?_).trans rfl
  rw [Bool.eq_false_iff] at haccepts
  exact haccepts

theorem stale_setQueue (buffer : DataBuffer) (type : SensorType)
    (queue : SensorQueue) : (buffer.setQueue type queue).stale = buffer.stale := by
  cases type <;> rfl

theorem queue_addData {buffer : DataBuffer} {data : SensorData}
    (hsize : buffer.maxSize ≠ 0) (haccepts : buffer.refuses data = false)
    (type : SensorType) :
    (buffer.addData data).queue type =
      let queue := if type = data.type then buffer.limited data
        else buffer.queue type
      popWhile (buffer.noted data).stale queue.frames queue.bytes := by
  rw [addData_of_accepts hsize haccepts, queue_evictExpired, stale_setQueue,
    queue_setQueue]
  dsimp only
  by_cases htype : type = data.type
  · rw [if_pos htype, if_pos htype.symm]
  · rw [if_neg htype, if_neg (Ne.symm htype)]
    rfl

theorem maxima_addData (buffer : DataBuffer) (data : SensorData) :
    (buffer.addData data).maxSize = buffer.maxSize ∧
      (buffer.addData data).maxAge = buffer.maxAge ∧
      (buffer.addData data).maxBytesPerSensor = buffer.maxBytesPerSensor := by
  have hevict : ∀ buffer : DataBuffer, buffer.evictExpired.maxSize =
      buffer.maxSize ∧ buffer.evictExpired.maxAge = buffer.maxAge ∧
      buffer.evictExpired.maxBytesPerSensor = buffer.maxBytesPerSensor := by
    intro buffer
    unfold evictExpired
    split
    · simp
    · split <;> simp
  by_cases hsize : buffer.maxSize = 0
  · simp [addData, hsize]
  · cases hrefuses : buffer.refuses data with
    | true => simp [addData_of_refuses hsize hrefuses, noted]
    | false =>
        rw [addData_of_accepts hsize hrefuses]
        have hset := hevict ((buffer.noted data).setQueue data.type
          (buffer.limited data))
        cases data <;> exact hset

/-! ## Order, count and age -/

/-- What holds however the payload is counted. -/
structure Tidy (buffer : DataBuffer) : Prop where
  ordered : ∀ type, KeyOrdered timestampOf (buffer.queue type).frames
  count : ∀ type, (buffer.queue type).frames.length ≤ buffer.maxSize
  recent : 0 < buffer.maxAge → ∀ latest, buffer.latestTimestamp = some latest →
    ∀ type, ∀ frame ∈ (buffer.queue type).frames,
      latest - buffer.maxAge ≤ timestampOf frame

theorem limited_suffix (buffer : DataBuffer) (data : SensorData) :
    (buffer.limited data).frames <:+
      insertFrame (buffer.queue data.type).frames data :=
  popWhile_suffix _ _ _

theorem length_limited_le (buffer : DataBuffer) (data : SensorData) :
    (buffer.limited data).frames.length ≤ buffer.maxSize := by
  rcases @popWhile_end buffer.overLimit
    (insertFrame (buffer.queue data.type).frames data)
    (addBytes (buffer.queue data.type).bytes (payloadBytes data)) with
    hempty | hend
  · rw [limited, hempty]
    exact Nat.zero_le _
  · simp only [overLimit, Bool.or_eq_false_iff, decide_eq_false_iff_not,
      not_lt] at hend
    exact hend.1

/-- An ordered queue whose front is recent is recent throughout. -/
theorem recent_of_not_stale {buffer : DataBuffer} {frames : List SensorData}
    {bytes : Nat} (hordered : KeyOrdered timestampOf frames)
    (hage : 0 < buffer.maxAge) {latest : Int}
    (hlatest : buffer.latestTimestamp = some latest)
    (h : buffer.stale frames bytes = false) :
    ∀ frame ∈ frames, latest - buffer.maxAge ≤ timestampOf frame := by
  rw [stale, hlatest] at h
  simp only [expired, Bool.and_eq_false_iff, decide_eq_false_iff_not] at h
  have hfront := h.resolve_left (by omega)
  intro frame hframe
  cases frames with
  | nil => cases hframe
  | cons first rest =>
      have hfirst : latest - buffer.maxAge ≤ timestampOf first := by
        simpa using hfront
      rcases List.mem_cons.mp hframe with rfl | hframe
      · exact hfirst
      · exact hfirst.trans ((List.pairwise_cons.mp hordered).1 frame hframe)

theorem latest_of_refuses {buffer : DataBuffer} {data : SensorData}
    (h : buffer.refuses data = true) :
    (buffer.noted data).latestTimestamp = buffer.latestTimestamp := by
  simp only [refuses, Bool.and_eq_true, decide_eq_true_eq] at h
  unfold noted
  cases hlatest : buffer.latestTimestamp with
  | none =>
      rw [hlatest, newest] at h
      omega
  | some latest =>
      rw [hlatest, newest] at h
      rw [newest]
      split at h <;> simp_all
      omega

theorem Tidy.addData {buffer : DataBuffer} (h : Tidy buffer)
    (data : SensorData) : Tidy (buffer.addData data) := by
  obtain ⟨hmaxSize, hmaxAge, -⟩ := maxima_addData buffer data
  by_cases hsize : buffer.maxSize = 0
  · rw [DataBuffer.addData, if_pos hsize]
    exact h
  cases hrefuses : buffer.refuses data with
  | true =>
      rw [addData_of_refuses hsize hrefuses]
      exact ⟨h.ordered, h.count, fun hage latest hlatest =>
        h.recent hage latest ((latest_of_refuses hrefuses).symm.trans hlatest)⟩
  | false =>
      have hqueue := queue_addData hsize hrefuses
      have hordered : ∀ type, KeyOrdered timestampOf
          (if type = data.type then buffer.limited data
            else buffer.queue type).frames := by
        intro type
        split
        · exact List.Pairwise.sublist (limited_suffix buffer data).sublist
            ((h.ordered data.type).insertOrdered data)
        · exact h.ordered type
      have hordered' : ∀ type, KeyOrdered timestampOf
          ((buffer.addData data).queue type).frames := by
        intro type
        rw [hqueue]
        exact List.Pairwise.sublist (popWhile_suffix _ _ _).sublist
          (hordered type)
      constructor
      case ordered => exact hordered'
      case count =>
        intro type
        rw [hqueue, hmaxSize]
        refine (popWhile_suffix _ _ _).sublist.length_le.trans ?_
        split
        · exact length_limited_le buffer data
        · exact h.count type
      case recent =>
        intro hage latest hlatest type
        rw [hmaxAge] at hage ⊢
        rw [latestTimestamp_addData data hsize] at hlatest
        have hrecent := @recent_of_not_stale (buffer.noted data)
          ((buffer.addData data).queue type).frames
          ((buffer.addData data).queue type).bytes (hordered' type) hage latest
          hlatest
        rw [hqueue] at hrecent ⊢
        rcases @popWhile_end (buffer.noted data).stale
          (if type = data.type then buffer.limited data
            else buffer.queue type).frames
          (if type = data.type then buffer.limited data
            else buffer.queue type).bytes with hempty | hend
        · intro frame hframe
          rw [hempty] at hframe
          cases hframe
        · exact hrecent hend

theorem tidy_empty (maxSize : Nat) (maxAge : Int) (maxBytes : Nat) :
    Tidy (empty maxSize maxAge maxBytes) := by
  constructor
  case ordered => exact fun type => by cases type <;> exact List.Pairwise.nil
  case count => exact fun type => by cases type <;> exact Nat.zero_le _
  case recent => exact fun _ _ hlatest => by cases hlatest

/-! ## The byte counter -/

/-- The counter is exact, and within the budget when there is one. -/
structure Counted (maxBytes : Nat) (queue : SensorQueue) : Prop where
  bytes : queue.bytes = totalBytes queue.frames
  budget : 0 < maxBytes → queue.bytes ≤ maxBytes

theorem totalBytes_sublist {frames frames' : List SensorData}
    (h : frames.Sublist frames') : totalBytes frames ≤ totalBytes frames' := by
  induction h with
  | slnil => simp
  | cons first _ ih =>
      rw [totalBytes_cons]
      omega
  | cons_cons first _ ih => simpa using ih

theorem Counted.popWhile {maxBytes : Nat} {queue : SensorQueue}
    (h : Counted maxBytes queue) (full : List SensorData → Nat → Bool) :
    Counted maxBytes (popWhile full queue.frames queue.bytes) := by
  have hsub := (popWhile_suffix full queue.frames queue.bytes).sublist
  have hbytes := @popWhile_bytes full queue.frames
  rw [← h.bytes] at hbytes
  refine ⟨hbytes, fun hlimit => ?_⟩
  have hless := totalBytes_sublist hsub
  rw [← hbytes, ← h.bytes] at hless
  exact hless.trans (h.budget hlimit)

theorem addBytes_totalBytes {frames : List SensorData} {data : SensorData}
    (h : totalBytes frames + payloadBytes data < 2 ^ 64) :
    addBytes (totalBytes frames) (payloadBytes data) =
      totalBytes (insertFrame frames data) := by
  have hperm : (insertFrame frames data).Perm (data :: frames) :=
    insertOrdered_perm timestampOf frames data
  rw [totalBytes_perm hperm, totalBytes_cons, addBytes,
    if_neg (by unfold sizeMax; omega)]
  omega

/-- The payload of a sensor's queue and of the frame together fits 64 bits. -/
def Fits (buffer : DataBuffer) (data : SensorData) : Prop :=
  totalBytes (buffer.queue data.type).frames + payloadBytes data < 2 ^ 64

theorem Counted.limited {buffer : DataBuffer} {data : SensorData}
    {maxBytes : Nat} (h : Counted maxBytes (buffer.queue data.type))
    (hfits : Fits buffer data) :
    Counted buffer.maxBytesPerSensor (buffer.limited data) := by
  have hadded := addBytes_totalBytes hfits
  have hstops := popWhile_stops (overLimit_nil buffer)
    (insertFrame (buffer.queue data.type).frames data)
  have hbytes := @popWhile_bytes buffer.overLimit
    (insertFrame (buffer.queue data.type).frames data)
  rw [← hadded, ← h.bytes] at hstops hbytes
  simp only [overLimit, Bool.or_eq_false_iff, Bool.and_eq_false_iff,
    decide_eq_false_iff_not, not_lt] at hstops
  exact ⟨hbytes, fun hlimit => hstops.2.resolve_left (by omega)⟩

/-! ## The buffer after any sequence of frames -/

def ofType (type : SensorType) (arrivals : List SensorData) : List SensorData :=
  arrivals.filter fun data => decide (data.type = type)

theorem addAll_concat (buffer : DataBuffer) (arrivals : List SensorData)
    (data : SensorData) :
    buffer.addAll (arrivals ++ [data]) = (buffer.addAll arrivals).addData data :=
  List.foldl_append

theorem Tidy.addAll {buffer : DataBuffer} (h : Tidy buffer)
    (arrivals : List SensorData) : Tidy (buffer.addAll arrivals) := by
  induction arrivals using List.reverseRecOn with
  | nil => exact h
  | append_singleton arrivals data ih =>
      rw [addAll_concat]
      exact ih.addData data

/-- Frames with the same stamp are queued in the order of their arrival. -/
structure Represents (buffer : DataBuffer) (arrivals : List SensorData) : Prop
    extends Tidy buffer where
  stable : ∀ type time,
    (withKey timestampOf (buffer.queue type).frames time).Sublist
      (withKey timestampOf (ofType type arrivals) time)
  counted : ∀ type, Counted buffer.maxBytesPerSensor (buffer.queue type)
  latest : 1 ≤ buffer.maxSize →
    buffer.latestTimestamp = (arrivals.map timestampOf).max?

theorem withKey_ofType_concat (type : SensorType) (arrivals : List SensorData)
    (data : SensorData) (time : Int) :
    withKey timestampOf (ofType type (arrivals ++ [data])) time =
      withKey timestampOf (ofType type arrivals) time ++
        withKey timestampOf (ofType type [data]) time := by
  rw [ofType, List.filter_append, withKey_append]
  rfl

theorem max?_concat (times : List Int) (time : Int) :
    (times ++ [time]).max? = some (newest times.max? time) := by
  obtain ⟨htime, hold⟩ := le_newest times.max? time
  rw [List.max?_eq_some_iff]
  constructor
  · cases hmax : times.max? with
    | none => simp [newest]
    | some latest =>
        simp only [newest, List.mem_append, List.mem_singleton]
        split
        · exact .inr rfl
        · exact .inl (List.max?_mem hmax)
  · intro other hother
    rcases List.mem_append.mp hother with hother | hother
    · cases hmax : times.max? with
      | none =>
          rw [List.max?_eq_none_iff.mp hmax] at hother
          cases hother
      | some latest =>
          rw [← hmax]
          exact ((List.max?_eq_some_iff.mp hmax).2 other hother).trans
            (hold latest hmax)
    · rw [List.mem_singleton.mp hother]
      exact htime

theorem Represents.addData {buffer : DataBuffer} {arrivals : List SensorData}
    (h : Represents buffer arrivals) {data : SensorData}
    (hfits : Fits buffer data) :
    Represents (buffer.addData data) (arrivals ++ [data]) := by
  obtain ⟨hmaxSize, -, hmaxBytes⟩ := maxima_addData buffer data
  have htidy := h.toTidy.addData data
  have hkept : ∀ type time,
      (withKey timestampOf (buffer.queue type).frames time).Sublist
        (withKey timestampOf (ofType type (arrivals ++ [data])) time) := by
    intro type time
    rw [withKey_ofType_concat]
    exact (h.stable type time).trans (List.sublist_append_left _ _)
  have hlatest : 1 ≤ buffer.maxSize → (buffer.addData data).latestTimestamp =
      ((arrivals ++ [data]).map timestampOf).max? := by
    intro hsize
    rw [latestTimestamp_addData data (by omega), List.map_append,
      List.map_singleton, max?_concat, h.latest hsize]
  by_cases hsize : buffer.maxSize = 0
  · have hsame : buffer.addData data = buffer := by
      rw [DataBuffer.addData, if_pos hsize]
    rw [hsame] at htidy hlatest ⊢
    exact ⟨htidy, hkept, h.counted, hlatest⟩
  cases hrefuses : buffer.refuses data with
  | true =>
      refine ⟨htidy, ?_, ?_, by rwa [hmaxSize]⟩ <;>
        rw [addData_of_refuses hsize hrefuses]
      · exact hkept
      · exact h.counted
  | false =>
      have hqueue := queue_addData hsize hrefuses
      refine ⟨htidy, fun type time => ?_, fun type => ?_, by rwa [hmaxSize]⟩
      · rw [hqueue]
        refine ((popWhile_suffix _ _ _).sublist.filter _).trans ?_
        split
        next htype =>
          subst htype
          refine ((limited_suffix buffer data).sublist.filter _).trans ?_
          have hinserted := withKey_insertOrdered (h.ordered data.type) data time
          have hself : ofType data.type [data] = [data] := by simp [ofType]
          rw [withKey_ofType_concat, hself]
          exact (congrArg (List.Sublist · _) hinserted).mpr
            ((h.stable data.type time).append (.refl _))
        · exact hkept type time
      · rw [hqueue, hmaxBytes]
        refine Counted.popWhile ?_ _
        split
        · exact (h.counted data.type).limited hfits
        · exact h.counted type

theorem represents_empty (maxSize : Nat) (maxAge : Int) (maxBytes : Nat) :
    Represents (empty maxSize maxAge maxBytes) [] := by
  refine ⟨tidy_empty maxSize maxAge maxBytes, ?_, ?_, fun _ => rfl⟩
  · exact fun type _ => by cases type <;> exact List.Sublist.refl _
  · exact fun type => by cases type <;> exact ⟨rfl, fun _ => Nat.zero_le _⟩

theorem represents_addAll {maxSize : Nat} {maxAge : Int} {maxBytes : Nat}
    {arrivals : List SensorData}
    (hfits : ∀ before data after, arrivals = before ++ data :: after →
      Fits ((empty maxSize maxAge maxBytes).addAll before) data) :
    Represents ((empty maxSize maxAge maxBytes).addAll arrivals) arrivals := by
  induction arrivals using List.reverseRecOn with
  | nil => exact represents_empty maxSize maxAge maxBytes
  | append_singleton arrivals data ih =>
      rw [addAll_concat]
      refine (ih fun before frame after hsplit => ?_).addData
        (hfits arrivals data [] rfl)
      exact hfits before frame (after ++ [data]) (by simp [hsplit])

/-- The eviction loop for this frame never pops an empty queue. -/
def LoopsSafely (buffer : DataBuffer) (data : SensorData) : Prop :=
  popsEmpty buffer.overLimit
    (insertFrame (buffer.queue data.type).frames data)
    (addBytes (buffer.queue data.type).bytes (payloadBytes data)) = false

theorem Represents.loopsSafely {buffer : DataBuffer}
    {arrivals : List SensorData} (h : Represents buffer arrivals)
    {data : SensorData} (hfits : Fits buffer data) : LoopsSafely buffer data := by
  rw [LoopsSafely, (h.counted data.type).bytes, addBytes_totalBytes hfits]
  exact popsEmpty_totalBytes (overLimit_nil buffer) _

/-! ### A bound on everything received -/

theorem totalBytes_addData_le (buffer : DataBuffer) (data : SensorData)
    (type : SensorType) : totalBytes ((buffer.addData data).queue type).frames ≤
      totalBytes (buffer.queue type).frames + payloadBytes data := by
  have hperm : (insertFrame (buffer.queue data.type).frames data).Perm
      (data :: (buffer.queue data.type).frames) :=
    insertOrdered_perm timestampOf _ data
  by_cases hsize : buffer.maxSize = 0
  · rw [addData, if_pos hsize]
    omega
  cases hrefuses : buffer.refuses data with
  | true =>
      rw [addData_of_refuses hsize hrefuses]
      exact Nat.le_add_right _ _
  | false =>
      rw [queue_addData hsize hrefuses]
      refine (totalBytes_sublist (popWhile_suffix _ _ _).sublist).trans ?_
      split
      next htype =>
        subst htype
        have hlimited := totalBytes_sublist (popWhile_suffix buffer.overLimit
          (insertFrame (buffer.queue data.type).frames data)
          (addBytes (buffer.queue data.type).bytes (payloadBytes data))).sublist
        rw [totalBytes_perm hperm, totalBytes_cons] at hlimited
        rw [Nat.add_comm]
        exact hlimited
      · exact Nat.le_add_right _ _

theorem totalBytes_addAll_le {buffer : DataBuffer} {type : SensorType}
    (hempty : (buffer.queue type).frames = []) (arrivals : List SensorData) :
    totalBytes ((buffer.addAll arrivals).queue type).frames ≤
      totalBytes arrivals := by
  induction arrivals using List.reverseRecOn with
  | nil => simp [addAll, hempty]
  | append_singleton arrivals data ih =>
      have hadd := totalBytes_addData_le (buffer.addAll arrivals) data type
      have htotal : totalBytes (arrivals ++ [data]) =
          totalBytes arrivals + payloadBytes data := by
        simp [totalBytes]
      rw [addAll_concat, htotal]
      omega

theorem fits_of_total {maxSize : Nat} {maxAge : Int} {maxBytes : Nat}
    {arrivals : List SensorData} (h : totalBytes arrivals < 2 ^ 64) :
    ∀ before data after, arrivals = before ++ data :: after →
      Fits ((empty maxSize maxAge maxBytes).addAll before) data := by
  rintro before data after rfl
  have hbefore := totalBytes_addAll_le
    (show ((empty maxSize maxAge maxBytes).queue data.type).frames = [] by
      cases data <;> rfl) before
  have htotal : totalBytes (before ++ data :: after) =
      totalBytes before + payloadBytes data + totalBytes after := by
    simp [totalBytes, Nat.add_assoc]
  unfold Fits
  omega

/-! ## The result -/

/-- The invariant after any sequence of frames, and the loop of each of them. -/
theorem buffer_represents_arrivals {maxSize : Nat} {maxAge : Int} {maxBytes : Nat}
    {arrivals : List SensorData}
    (hfits : ∀ before data after, arrivals = before ++ data :: after →
      Fits ((empty maxSize maxAge maxBytes).addAll before) data) :
    Represents ((empty maxSize maxAge maxBytes).addAll arrivals) arrivals ∧
      ∀ before data after, arrivals = before ++ data :: after →
        LoopsSafely ((empty maxSize maxAge maxBytes).addAll before) data := by
  refine ⟨represents_addAll hfits, fun before data after hsplit => ?_⟩
  have hbefore : Represents ((empty maxSize maxAge maxBytes).addAll before)
      before := by
    refine represents_addAll fun earlier frame later hearlier => ?_
    exact hfits earlier frame (later ++ data :: after)
      (by rw [hsplit, hearlier]; simp)
  exact hbefore.loopsSafely (hfits before data after hsplit)

/-- A mono image with this much payload. -/
def sampleFrame (timestamp : Int) (size : Nat) : SensorData :=
  .camera timestamp (some ⟨timestamp, 1, 1, "mono8", 1, List.replicate size 0⟩)

/-- The second frame is late, and the fourth one large. -/
def sampleFrames : List SensorData :=
  [sampleFrame 100 1, sampleFrame 90 1, .lidar 110 none, sampleFrame 110 4]

theorem buffer_represents_arrivals_sample :
    Represents ((empty 2 15 5).addAll sampleFrames) sampleFrames ∧
      (((empty 2 15 5).addAll sampleFrames).queue .camera).frames =
        [sampleFrame 100 1, sampleFrame 110 4] :=
  ⟨(buffer_represents_arrivals (fits_of_total (by decide))).1, by decide⟩

end DataBuffer

end DataCache.Capture
