import DataCache.Capture.Contents
import Mathlib.Data.List.Perm.Subperm

/-!
# What the buffer has evicted

A message that is gone stays below everything in its queue: a full queue pops a
later message that is older, and the age limit refuses it.  Only the byte budget
makes room below its limit on the count, which older messages can then fill.
-/

namespace DataCache.Capture

open DataCache.Foundation

namespace DataBuffer

/-- The queue of a sensor with the new message, if it is of that sensor. -/
def offered (buffer : DataBuffer) (data : SensorData) (type : SensorType) :
    List SensorData :=
  if type = data.type then data :: (buffer.queue type).frames
  else (buffer.queue type).frames

/-- The call evicts a copy of this message, or refuses it. -/
def Loses (buffer : DataBuffer) (data : SensorData) (type : SensorType)
    (frame : SensorData) : Prop :=
  ((buffer.addData data).queue type).frames.count frame <
    (buffer.offered data type).count frame

/-- The loop pops more than the limit on the count asks for. -/
def EvictsForBytes (buffer : DataBuffer) (data : SensorData)
    (type : SensorType) : Prop :=
  type = data.type ∧ buffer.maxSize ≠ 0 ∧ buffer.refuses data = false ∧
    (buffer.limited data).frames.length <
      min (insertFrame (buffer.queue data.type).frames data).length
        buffer.maxSize

instance (buffer : DataBuffer) (data : SensorData) (type : SensorType)
    (frame : SensorData) : Decidable (Loses buffer data type frame) :=
  inferInstanceAs (Decidable (_ < _))

instance (buffer : DataBuffer) (data : SensorData) (type : SensorType) :
    Decidable (EvictsForBytes buffer data type) :=
  inferInstanceAs (Decidable (_ ∧ _ ∧ _ ∧ _))

/-- No frame among these makes its sensor's queue evict for the byte budget. -/
def Calm (buffer : DataBuffer) (type : SensorType) (arrivals : List SensorData) :
    Prop :=
  ∀ before data after, arrivals = before ++ data :: after →
    ¬EvictsForBytes (buffer.addAll before) data type

def olderThan (time : Int) (frames : List SensorData) : List SensorData :=
  frames.filter fun frame => decide (timestampOf frame < time)

/-! ## What a loop pops -/

theorem popWhile_append (full : List SensorData → Nat → Bool)
    (frames : List SensorData) (bytes : Nat) :
    ∃ popped, frames = popped ++ (popWhile full frames bytes).frames ∧
      ∀ frame ∈ popped, ∃ rest bytes, full (frame :: rest) bytes = true := by
  induction frames generalizing bytes with
  | nil => exact ⟨[], rfl, by simp⟩
  | cons first rest ih =>
      unfold popWhile
      split
      next hfull =>
        obtain ⟨popped, hrest, hpopped⟩ := ih (bytes - payloadBytes first)
        refine ⟨first :: popped, congrArg _ hrest, fun frame hframe => ?_⟩
        rcases List.mem_cons.mp hframe with rfl | hframe
        · exact ⟨rest, bytes, hfull⟩
        · exact hpopped frame hframe
      · exact ⟨[], rfl, by simp⟩

/-- Too far behind the newest stamp to come back. -/
def Beyond (buffer : DataBuffer) (time : Int) : Prop :=
  0 < buffer.maxAge ∧ ∃ latest, buffer.latestTimestamp = some latest ∧
    time < latest - buffer.maxAge

theorem Beyond.mono {buffer : DataBuffer} {time time' : Int}
    (h : buffer.Beyond time) (hle : time' ≤ time) : buffer.Beyond time' := by
  obtain ⟨hage, latest, hlatest, hlt⟩ := h
  exact ⟨hage, latest, hlatest, by omega⟩

theorem Beyond.noted {buffer : DataBuffer} {time : Int}
    (h : buffer.Beyond time) (data : SensorData) :
    (buffer.noted data).Beyond time := by
  obtain ⟨hage, latest, hlatest, hlt⟩ := h
  have hle := (le_newest buffer.latestTimestamp (timestampOf data)).2 latest
    hlatest
  have hage' : 0 < (buffer.noted data).maxAge := hage
  refine ⟨hage', _, rfl, ?_⟩
  change time < _ - buffer.maxAge
  omega

theorem beyond_of_stale {buffer : DataBuffer} {frame : SensorData}
    {rest : List SensorData} {bytes : Nat}
    (h : buffer.stale (frame :: rest) bytes = true) :
    buffer.Beyond (timestampOf frame) := by
  unfold stale at h
  split at h
  · cases h
  next latest hlatest =>
    simp only [expired, List.head?_cons, Option.any_some, Bool.and_eq_true,
      decide_eq_true_eq] at h
    exact ⟨h.1, latest, hlatest, h.2⟩

theorem beyond_of_refuses {buffer : DataBuffer} {data : SensorData}
    (h : buffer.refuses data = true) :
    (buffer.noted data).Beyond (timestampOf data) := by
  simp only [refuses, Bool.and_eq_true, decide_eq_true_eq] at h
  exact ⟨h.1, _, rfl, h.2⟩

/-- A frame that the age limit pops is behind for good. -/
theorem beyond_of_popped {buffer : DataBuffer} {frames : List SensorData}
    {bytes : Nat} {frame : SensorData}
    (h : (popWhile buffer.stale frames bytes).frames.count frame <
      frames.count frame) : buffer.Beyond (timestampOf frame) := by
  obtain ⟨popped, hframes, hpopped⟩ := popWhile_append buffer.stale frames bytes
  have hmem : frame ∈ popped := by
    by_contra hmem
    have hcount := congrArg (List.count frame) hframes
    rw [List.count_append, List.count_eq_zero_of_not_mem hmem] at hcount
    omega
  obtain ⟨rest, bytes', hstale⟩ := hpopped frame hmem
  exact beyond_of_stale hstale

/-! ## Closed queues -/

/--
Nothing older than this time is queued, and nothing older will stay: the queue
is full, or the time is too far behind.
-/
structure Closed (buffer : DataBuffer) (type : SensorType) (time : Int) :
    Prop where
  newer : ∀ frame ∈ (buffer.queue type).frames, time ≤ timestampOf frame
  closed : (buffer.queue type).frames.length = buffer.maxSize ∨
    buffer.Beyond time

theorem beyond_addData {buffer : DataBuffer} {data : SensorData} {time : Int}
    (hsize : buffer.maxSize ≠ 0) :
    (buffer.addData data).Beyond time ↔ (buffer.noted data).Beyond time := by
  rw [Beyond, Beyond, latestTimestamp_addData data hsize,
    (maxima_addData buffer data).2.1]
  rfl

/-- The age eviction leaves a full queue, or puts what it pops behind. -/
theorem full_or_beyond {buffer : DataBuffer} {queue : SensorQueue} {time : Int}
    (hnewer : ∀ frame ∈ queue.frames, time ≤ timestampOf frame) :
    (popWhile buffer.stale queue.frames queue.bytes).frames = queue.frames ∨
      buffer.Beyond time := by
  obtain ⟨popped, hframes, hpopped⟩ :=
    popWhile_append buffer.stale queue.frames queue.bytes
  cases popped with
  | nil => exact .inl hframes.symm
  | cons frame popped =>
      obtain ⟨rest, bytes, hstale⟩ := hpopped frame List.mem_cons_self
      have hmem : frame ∈ queue.frames := by
        rw [hframes]
        simp
      exact .inr ((beyond_of_stale hstale).mono (hnewer frame hmem))

theorem closed_addData {buffer : DataBuffer} {data : SensorData}
    {type : SensorType} {time : Int} (hsize : buffer.maxSize ≠ 0)
    (haccepts : buffer.refuses data = false)
    (hnewer : ∀ frame ∈ (if type = data.type then buffer.limited data
      else buffer.queue type).frames, time ≤ timestampOf frame)
    (hclosed : (if type = data.type then buffer.limited data
      else buffer.queue type).frames.length = buffer.maxSize ∨
      (buffer.noted data).Beyond time) :
    Closed (buffer.addData data) type time := by
  rw [← (maxima_addData buffer data).1] at hclosed
  have hqueue := queue_addData hsize haccepts type
  have hsuffix : ((buffer.addData data).queue type).frames <:+
      (if type = data.type then buffer.limited data
        else buffer.queue type).frames := by
    rw [hqueue]
    exact popWhile_suffix _ _ _
  refine ⟨fun frame hframe => hnewer frame (hsuffix.subset hframe), ?_⟩
  rw [beyond_addData hsize]
  rcases hclosed with hfull | hbeyond
  · refine (full_or_beyond hnewer).imp_left fun hsame => ?_
    rw [hqueue]
    exact (congrArg List.length hsame).trans hfull
  · exact .inr hbeyond

theorem Tidy.closed_of_beyond {buffer : DataBuffer} (h : Tidy buffer)
    {time : Int} (hbeyond : buffer.Beyond time) (type : SensorType) :
    Closed buffer type time := by
  refine ⟨fun frame hframe => ?_, .inr hbeyond⟩
  obtain ⟨hage, latest, hlatest, hlt⟩ := hbeyond
  exact hlt.le.trans (h.recent hage latest hlatest type frame hframe)

theorem Tidy.closed_of_empty {buffer : DataBuffer} (h : Tidy buffer)
    (hsize : buffer.maxSize = 0) (type : SensorType) (time : Int) :
    Closed buffer type time := by
  have hlength : (buffer.queue type).frames.length = 0 := by
    have hcount := h.count type
    omega
  refine ⟨fun frame hframe => ?_, .inl (hlength.trans hsize.symm)⟩
  rw [List.length_eq_zero_iff.mp hlength] at hframe
  cases hframe

/-! ## The call that loses a message -/

/-- Either the message is too far behind, or it was popped below the rest. -/
theorem Loses.cases {buffer : DataBuffer} {data frame : SensorData}
    {type : SensorType} (htidy : Tidy buffer) (hsize : buffer.maxSize ≠ 0)
    (h : Loses buffer data type frame) :
    (buffer.addData data).Beyond (timestampOf frame) ∨
      (type = data.type ∧ buffer.refuses data = false ∧
        (buffer.limited data).frames.length <
          (insertFrame (buffer.queue data.type).frames data).length ∧
        ∀ kept ∈ (buffer.limited data).frames,
          timestampOf frame ≤ timestampOf kept) := by
  rw [beyond_addData hsize]
  unfold Loses offered at h
  cases hrefuses : buffer.refuses data with
  | true =>
      have hsame : ((buffer.addData data).queue type).frames =
          (buffer.queue type).frames := by
        rw [addData_of_refuses hsize hrefuses]
        rfl
      rw [hsame] at h
      split at h
      · rw [List.count_cons] at h
        have hframe : frame = data := by
          by_contra hne
          simp [Ne.symm hne] at h
        subst hframe
        exact .inl (beyond_of_refuses hrefuses)
      · omega
  | false =>
      rw [queue_addData hsize hrefuses] at h
      split at h
      next htype =>
        subst htype
        obtain ⟨popped, hinserted, -⟩ := popWhile_append buffer.overLimit
          (insertFrame (buffer.queue data.type).frames data)
          (addBytes (buffer.queue data.type).bytes (payloadBytes data))
        change _ = popped ++ (buffer.limited data).frames at hinserted
        by_cases hpopped : frame ∈ popped
        · refine .inr ⟨rfl, rfl, ?_, fun kept hkept => ?_⟩
          · have hpositive := List.length_pos_of_mem hpopped
            rw [hinserted, List.length_append]
            omega
          · have hordered : KeyOrdered timestampOf
                (insertFrame (buffer.queue data.type).frames data) :=
              (htidy.ordered data.type).insertOrdered data
            rw [hinserted] at hordered
            exact (List.pairwise_append.mp hordered).2.2 frame hpopped kept hkept
        · refine .inl (@beyond_of_popped _ (buffer.limited data).frames _ _
            (h.trans_le ?_))
          have hperm : (insertFrame (buffer.queue data.type).frames data).Perm
              (data :: (buffer.queue data.type).frames) :=
            insertOrdered_perm timestampOf _ data
          rw [← hperm.count_eq, hinserted, List.count_append,
            List.count_eq_zero_of_not_mem hpopped, Nat.zero_add]
      · exact .inl (beyond_of_popped h)

theorem newer_addData {buffer : DataBuffer} {data : SensorData}
    {type : SensorType} {time : Int} (hsize : buffer.maxSize ≠ 0)
    (haccepts : buffer.refuses data = false)
    (hnewer : ∀ frame ∈ (if type = data.type then buffer.limited data
      else buffer.queue type).frames, time ≤ timestampOf frame) :
    ∀ frame ∈ ((buffer.addData data).queue type).frames,
      time ≤ timestampOf frame := by
  intro frame hframe
  rw [queue_addData hsize haccepts] at hframe
  exact hnewer frame ((popWhile_suffix _ _ _).subset hframe)

/-- Right after the call nothing older is left. -/
theorem Loses.newer {buffer : DataBuffer} {data frame : SensorData}
    {type : SensorType} (htidy : Tidy buffer) (h : Loses buffer data type frame) :
    ∀ kept ∈ ((buffer.addData data).queue type).frames,
      timestampOf frame ≤ timestampOf kept := by
  have htidy' := htidy.addData data
  by_cases hsize : buffer.maxSize = 0
  · exact (htidy'.closed_of_empty ((maxima_addData buffer data).1.trans hsize)
      type _).newer
  rcases h.cases htidy hsize with hbeyond | ⟨rfl, haccepts, -, hnewer⟩
  · exact (htidy'.closed_of_beyond hbeyond type).newer
  · exact newer_addData hsize haccepts (by rwa [if_pos rfl])

theorem Loses.closed {buffer : DataBuffer} {data frame : SensorData}
    {type : SensorType} (htidy : Tidy buffer) (h : Loses buffer data type frame)
    (hcalm : ¬EvictsForBytes buffer data type) :
    Closed (buffer.addData data) type (timestampOf frame) := by
  have htidy' := htidy.addData data
  by_cases hsize : buffer.maxSize = 0
  · exact htidy'.closed_of_empty ((maxima_addData buffer data).1.trans hsize) _ _
  rcases h.cases htidy hsize with hbeyond | ⟨rfl, haccepts, hpopped, hnewer⟩
  · exact htidy'.closed_of_beyond hbeyond type
  · refine closed_addData hsize haccepts (by rwa [if_pos rfl]) (.inl ?_)
    rw [if_pos rfl]
    have hatMost := length_limited_le buffer data
    by_contra hne
    exact hcalm ⟨rfl, hsize, haccepts, by omega⟩

/-! ## Later calls -/

/-- A message that is older than a full queue is popped again at once. -/
theorem newer_of_full {frames kept : List SensorData} {data : SensorData}
    {time : Int} (hordered : KeyOrdered timestampOf frames)
    (hnewer : ∀ frame ∈ frames, time ≤ timestampOf frame)
    (hkept : kept <:+ insertFrame frames data)
    (hlength : kept.length ≤ frames.length) :
    ∀ frame ∈ kept, time ≤ timestampOf frame := by
  have hperm : (insertFrame frames data).Perm (data :: frames) :=
    insertOrdered_perm timestampOf frames data
  have hinserted : KeyOrdered timestampOf (insertFrame frames data) :=
    hordered.insertOrdered data
  obtain ⟨popped, hpopped⟩ := hkept
  intro frame hframe
  by_contra hold
  have hne : frame ∉ frames := fun hmem => hold (hnewer frame hmem)
  have hdata : frame = data := by
    have hmem : frame ∈ insertFrame frames data := by
      rw [← hpopped]
      exact List.mem_append_right _ hframe
    exact (List.mem_cons.mp (hperm.mem_iff.mp hmem)).resolve_right hne
  subst hdata
  cases popped with
  | nil =>
      have hcount := hperm.length_eq
      rw [← hpopped] at hcount
      simp only [List.nil_append, List.length_cons] at hcount
      omega
  | cons first popped =>
      -- The front of the queue is not newer, so it is the message itself.
      rw [← hpopped] at hinserted hperm
      have hle : timestampOf first ≤ timestampOf frame :=
        (List.pairwise_append.mp hinserted).2.2 first List.mem_cons_self frame
          hframe
      have hfirst : first = frame := by
        have hmem : first ∈ frame :: frames := hperm.mem_iff.mp (by simp)
        refine (List.mem_cons.mp hmem).resolve_right fun hmem => ?_
        exact hold ((hnewer first hmem).trans hle)
      subst hfirst
      have hcount := hperm.count_eq first
      rw [List.cons_append, List.count_cons_self, List.count_cons_self,
        List.count_append, List.count_eq_zero_of_not_mem hne] at hcount
      have hpositive := List.count_pos_iff.mpr hframe
      omega

theorem Closed.limited_newer {buffer : DataBuffer} {data : SensorData}
    {time : Int} (htidy : Tidy buffer) (haccepts : buffer.refuses data = false)
    (h : Closed buffer data.type time) :
    ∀ frame ∈ (buffer.limited data).frames, time ≤ timestampOf frame := by
  rcases h.closed with hfull | hbeyond
  · refine newer_of_full (htidy.ordered data.type) h.newer
      (limited_suffix buffer data) ?_
    rw [hfull]
    exact length_limited_le buffer data
  · obtain ⟨hage, latest, hlatest, hlt⟩ := hbeyond.noted data
    rw [show (buffer.noted data).maxAge = buffer.maxAge from rfl] at hage hlt
    cases hlatest
    simp only [refuses, Bool.and_eq_false_iff, decide_eq_false_iff_not]
      at haccepts
    have hdata := haccepts.resolve_left (by omega)
    intro frame hframe
    rcases mem_insertFrame ((limited_suffix buffer data).subset hframe) with
      rfl | hframe
    · omega
    · exact h.newer frame hframe

theorem Closed.newer_addData {buffer : DataBuffer} {type : SensorType}
    {time : Int} (h : Closed buffer type time) (htidy : Tidy buffer)
    (data : SensorData) : ∀ frame ∈ ((buffer.addData data).queue type).frames,
      time ≤ timestampOf frame := by
  by_cases hsize : buffer.maxSize = 0
  · rw [addData, if_pos hsize]
    exact h.newer
  cases haccepts : buffer.refuses data with
  | true =>
      rw [addData_of_refuses hsize haccepts]
      exact h.newer
  | false =>
      refine DataBuffer.newer_addData hsize haccepts ?_
      split
      next htype =>
        subst htype
        exact h.limited_newer htidy haccepts
      · exact h.newer

/-- While nothing is evicted for the byte budget a queue stays closed. -/
theorem Closed.addData {buffer : DataBuffer} {type : SensorType} {time : Int}
    (h : Closed buffer type time) (htidy : Tidy buffer) {data : SensorData}
    (hcalm : ¬EvictsForBytes buffer data type) :
    Closed (buffer.addData data) type time := by
  by_cases hsize : buffer.maxSize = 0
  · rw [DataBuffer.addData, if_pos hsize]
    exact h
  cases haccepts : buffer.refuses data with
  | true =>
      have hnoted := addData_of_refuses hsize haccepts
      refine ⟨h.newer_addData htidy data, ?_⟩
      rw [hnoted]
      exact h.closed.imp id fun hbeyond => hbeyond.noted data
  | false =>
      refine closed_addData hsize haccepts ?_ ?_
      · split
        next htype =>
          subst htype
          exact h.limited_newer htidy haccepts
        · exact h.newer
      · refine h.closed.imp (fun hfull => ?_) fun hbeyond => hbeyond.noted data
        split
        next htype =>
          subst htype
          have hlength : (insertFrame (buffer.queue data.type).frames
              data).length = buffer.maxSize + 1 :=
            (length_insertOrdered timestampOf _ data).trans (by rw [hfull])
          have hatMost := length_limited_le buffer data
          by_contra hne
          exact hcalm ⟨rfl, hsize, haccepts, by omega⟩
        · exact hfull

/-! ## Runs -/

theorem subperm_addData (buffer : DataBuffer) (data : SensorData)
    (type : SensorType) : ((buffer.addData data).queue type).frames.Subperm
      (buffer.offered data type) := by
  have hkept : (buffer.queue type).frames.Subperm (buffer.offered data type) := by
    unfold offered
    split
    · exact (List.sublist_cons_self _ _).subperm
    · exact List.Subperm.refl _
  by_cases hsize : buffer.maxSize = 0
  · rw [addData, if_pos hsize]
    exact hkept
  cases haccepts : buffer.refuses data with
  | true =>
      rw [addData_of_refuses hsize haccepts]
      exact hkept
  | false =>
      rw [queue_addData hsize haccepts]
      refine (popWhile_suffix _ _ _).sublist.subperm.trans ?_
      unfold offered
      split
      next htype =>
        subst htype
        refine (limited_suffix buffer data).sublist.subperm.trans ?_
        exact (insertOrdered_perm timestampOf _ data).subperm
      · exact List.Subperm.refl _

/-- What is queued at the end was queued before or has arrived since. -/
theorem subperm_addAll (buffer : DataBuffer) (arrivals : List SensorData)
    (type : SensorType) : ((buffer.addAll arrivals).queue type).frames.Subperm
      ((buffer.queue type).frames ++ ofType type arrivals) := by
  induction arrivals using List.reverseRecOn with
  | nil => exact (List.sublist_append_left _ _).subperm
  | append_singleton arrivals data ih =>
      rw [addAll_concat]
      refine (subperm_addData _ data type).trans ?_
      rw [show ofType type (arrivals ++ [data]) = ofType type arrivals ++
        ofType type [data] from List.filter_append _ _, ← List.append_assoc]
      unfold offered
      split
      next htype =>
        rw [show ofType type [data] = [data] by simp [ofType, htype]]
        exact ((List.perm_append_singleton _ _).symm.subperm_left).mp
          ((List.subperm_cons data).mpr ih)
      · exact ih.trans (List.sublist_append_left _ _).subperm

theorem addAll_append (buffer : DataBuffer) (arrivals later : List SensorData) :
    buffer.addAll (arrivals ++ later) = (buffer.addAll arrivals).addAll later :=
  List.foldl_append

theorem Closed.addAll {buffer : DataBuffer} {type : SensorType} {time : Int}
    (h : Closed buffer type time) (htidy : Tidy buffer)
    {arrivals : List SensorData} (hcalm : Calm buffer type arrivals) :
    Closed (buffer.addAll arrivals) type time := by
  induction arrivals using List.reverseRecOn with
  | nil => exact h
  | append_singleton arrivals data ih =>
      rw [addAll_concat]
      refine (ih fun before frame after hsplit => ?_).addData
        (htidy.addAll arrivals) (hcalm arrivals data [] rfl)
      exact hcalm before frame (after ++ [data]) (by simp [hsplit])

/-- Older messages come only after an eviction for the byte budget. -/
theorem olderThan_addAll {buffer : DataBuffer} (htidy : Tidy buffer)
    {type : SensorType} {first last frame : SensorData}
    {calm late after : List SensorData} (hloses : Loses buffer first type frame)
    (hsplit : first :: after = calm ++ last :: late)
    (hcalm : Calm buffer type calm) :
    (olderThan (timestampOf frame)
      ((buffer.addAll (first :: after)).queue type).frames).Subperm
        (ofType type late) := by
  have hnewer : ∀ kept ∈ ((buffer.addAll (calm ++ [last])).queue type).frames,
      timestampOf frame ≤ timestampOf kept := by
    cases calm with
    | nil =>
        obtain ⟨rfl, -⟩ := List.cons.inj hsplit
        exact hloses.newer htidy
    | cons head calm =>
        obtain ⟨rfl, -⟩ := List.cons.inj hsplit
        have hclosed := hloses.closed htidy (hcalm [] first calm rfl)
        have hrest : Calm (buffer.addData first) type calm := by
          rintro earlier data later rfl
          exact hcalm (first :: earlier) data later rfl
        rw [addAll_concat]
        exact (hclosed.addAll (htidy.addData first) hrest).newer_addData
          ((htidy.addData first).addAll calm) last
  rw [hsplit, List.append_cons, addAll_append]
  have hsubperm := (subperm_addAll (buffer.addAll (calm ++ [last])) late
    type).filter fun kept => decide (timestampOf kept < timestampOf frame)
  have hnone : ((buffer.addAll (calm ++ [last])).queue type).frames.filter
      (fun kept => decide (timestampOf kept < timestampOf frame)) = [] :=
    List.filter_eq_nil_iff.mpr fun kept hkept => by
      simpa using hnewer kept hkept
  rw [List.filter_append, hnone, List.nil_append] at hsubperm
  exact hsubperm.trans List.filter_sublist.subperm

/-! ## Without evictions for the byte budget -/

/-- The rest of the sorted history is gone and closed. -/
def Trails (buffer : DataBuffer) (type : SensorType)
    (arrivals : List SensorData) : Prop :=
  ∃ gone, sortByKey timestampOf (ofType type arrivals) =
      gone ++ (buffer.queue type).frames ∧
    ∀ frame ∈ gone, Closed buffer type (timestampOf frame)

theorem addData_suffix {buffer : DataBuffer} (htidy : Tidy buffer)
    (data : SensorData) : ((buffer.addData data).queue data.type).frames <:+
      insertFrame (buffer.queue data.type).frames data := by
  by_cases hsize : buffer.maxSize = 0
  · have hlength := (htidy.addData data).count data.type
    rw [(maxima_addData buffer data).1, hsize, Nat.le_zero,
      List.length_eq_zero_iff] at hlength
    rw [hlength]
    exact List.nil_suffix
  cases haccepts : buffer.refuses data with
  | true =>
      have hbeyond := beyond_of_refuses haccepts
      obtain ⟨hage, latest, hlatest, hlt⟩ := hbeyond
      have hrecent := htidy.addData data
      rw [addData_of_refuses hsize haccepts] at hrecent ⊢
      have hinsert := @insertOrdered_append_of_lt _ _ _ timestampOf []
        (buffer.queue data.type).frames data (htidy.ordered data.type)
        fun frame hframe => hlt.trans_le
          (hrecent.recent hage latest hlatest data.type frame hframe)
      exact ⟨[data], hinsert.symm⟩
  | false =>
      rw [queue_addData hsize haccepts]
      refine (popWhile_suffix _ _ _).trans ?_
      rw [if_pos rfl]
      exact limited_suffix buffer data

theorem Trails.addData {buffer : DataBuffer} (htidy : Tidy buffer)
    {type : SensorType} {arrivals : List SensorData}
    (h : Trails buffer type arrivals) {data : SensorData}
    (hcalm : ¬EvictsForBytes buffer data type) :
    Trails (buffer.addData data) type (arrivals ++ [data]) := by
  obtain ⟨gone, hsorted, hgone⟩ := h
  have hkept : ∀ frame ∈ gone,
      Closed (buffer.addData data) type (timestampOf frame) :=
    fun frame hframe => (hgone frame hframe).addData htidy hcalm
  have hlost : ∀ {frame : SensorData} {popped : List SensorData},
      (popped ++ ((buffer.addData data).queue type).frames).Perm
        (buffer.offered data type) → frame ∈ popped →
      Closed (buffer.addData data) type (timestampOf frame) := by
    intro frame popped hperm hframe
    refine Loses.closed htidy ?_ hcalm
    have hpositive := List.count_pos_iff.mpr hframe
    rw [Loses, ← hperm.count_eq, List.count_append]
    omega
  by_cases htype : type = data.type
  · subst htype
    have hordered := @keyOrdered_sortByKey _ _ _ timestampOf
      (ofType data.type arrivals)
    rw [hsorted] at hordered
    have harrivals : sortByKey timestampOf
        (ofType data.type (arrivals ++ [data])) = insertOrdered timestampOf
          (gone ++ (buffer.queue data.type).frames) data := by
      rw [← hsorted, ← sortByKey_concat]
      simp [ofType]
    have hsuffix := addData_suffix htidy data
    by_cases hle : ∀ frame ∈ gone, timestampOf frame ≤ timestampOf data
    · obtain ⟨popped, hpopped⟩ := hsuffix
      refine ⟨gone ++ popped, ?_, fun frame hframe => ?_⟩
      · rw [harrivals, insertOrdered_append_of_le hordered hle,
          List.append_assoc, hpopped]
        rfl
      · rcases List.mem_append.mp hframe with hframe | hframe
        · exact hkept frame hframe
        · refine hlost ?_ hframe
          rw [hpopped, offered, if_pos rfl]
          exact insertOrdered_perm timestampOf _ data
    · -- The message is older than one that is gone, and does not stay.
      obtain ⟨frame, hframe, hlt⟩ : ∃ frame ∈ gone,
          timestampOf data < timestampOf frame := by simpa using hle
      have hbelow : ∀ kept ∈ (buffer.queue data.type).frames,
          timestampOf data < timestampOf kept := fun kept hmem =>
        hlt.trans_le ((hgone frame hframe).newer kept hmem)
      have hinsert := @insertOrdered_append_of_lt _ _ _ timestampOf []
        (buffer.queue data.type).frames data (htidy.ordered data.type) hbelow
      have hcons : ((buffer.addData data).queue data.type).frames <:+
          data :: (buffer.queue data.type).frames :=
        (congrArg (_ <:+ ·) hinsert).mp hsuffix
      have hnot : data ∉ ((buffer.addData data).queue data.type).frames := by
        intro hmem
        have hle := (hkept frame hframe).newer data hmem
        omega
      obtain ⟨popped, hpopped⟩ :=
        (List.suffix_cons_iff.mp hcons).resolve_left fun heq =>
          hnot (heq ▸ List.mem_cons_self)
      refine ⟨insertOrdered timestampOf gone data ++ popped, ?_,
        fun other hother => ?_⟩
      · rw [harrivals, insertOrdered_append_of_lt hordered hbelow,
          List.append_assoc, hpopped]
      · have hperm : (data :: popped ++
            ((buffer.addData data).queue data.type).frames).Perm
              (buffer.offered data data.type) := by
          rw [offered, if_pos rfl, List.cons_append, hpopped]
        rcases List.mem_append.mp hother with hother | hother
        · rcases (mem_insertOrdered timestampOf).mp hother with rfl | hother
          · exact hlost hperm List.mem_cons_self
          · exact hkept other hother
        · exact hlost hperm (List.mem_cons_of_mem _ hother)
  · have hsuffix : ((buffer.addData data).queue type).frames <:+
        (buffer.queue type).frames := by
      by_cases hsize : buffer.maxSize = 0
      · simp [DataBuffer.addData, hsize]
      cases haccepts : buffer.refuses data with
      | true =>
          rw [addData_of_refuses hsize haccepts]
          exact List.suffix_rfl
      | false =>
          rw [queue_addData hsize haccepts, if_neg htype]
          exact popWhile_suffix _ _ _
    obtain ⟨popped, hpopped⟩ := hsuffix
    refine ⟨gone ++ popped, ?_, fun frame hframe => ?_⟩
    · have hsame : ofType type (arrivals ++ [data]) = ofType type arrivals := by
        simp [ofType, Ne.symm htype]
      rw [hsame, hsorted, List.append_assoc, hpopped]
    · rcases List.mem_append.mp hframe with hframe | hframe
      · exact hkept frame hframe
      · refine hlost ?_ hframe
        rw [hpopped, offered, if_neg htype]

theorem trails_addAll {maxSize : Nat} {maxAge : Int} {maxBytes : Nat}
    {type : SensorType} {arrivals : List SensorData}
    (hcalm : Calm (empty maxSize maxAge maxBytes) type arrivals) :
    Trails ((empty maxSize maxAge maxBytes).addAll arrivals) type arrivals := by
  induction arrivals using List.reverseRecOn with
  | nil => exact ⟨[], by cases type <;> simp [addAll, ofType, sortByKey, empty, queue],
      by simp⟩
  | append_singleton arrivals data ih =>
      rw [addAll_concat]
      refine (ih fun before frame after hsplit => ?_).addData
        ((tidy_empty maxSize maxAge maxBytes).addAll arrivals)
        (hcalm arrivals data [] rfl)
      exact hcalm before frame (after ++ [data]) (by simp [hsplit])

/-! ## The result -/

/--
What is queued below a message that is gone has arrived after an eviction for
the byte budget; without such evictions the queue is the newest part of all that
was received.
-/
theorem retained_newest (maxSize : Nat) (maxAge : Int) (maxBytes : Nat)
    (type : SensorType) :
    (∀ before first after frame,
      Loses ((empty maxSize maxAge maxBytes).addAll before) first type frame →
      ∀ calm last late, first :: after = calm ++ last :: late →
        Calm ((empty maxSize maxAge maxBytes).addAll before) type calm →
        (olderThan (timestampOf frame) (((empty maxSize maxAge maxBytes).addAll
          (before ++ first :: after)).queue type).frames).Subperm
            (ofType type late)) ∧
      ∀ arrivals, Calm (empty maxSize maxAge maxBytes) type arrivals →
        (((empty maxSize maxAge maxBytes).addAll arrivals).queue type).frames <:+
          sortByKey timestampOf (ofType type arrivals) := by
  constructor
  · intro before first after frame hloses calm last late hsplit hcalm
    rw [addAll_append]
    exact olderThan_addAll ((tidy_empty maxSize maxAge maxBytes).addAll before)
      hloses hsplit hcalm
  · intro arrivals hcalm
    obtain ⟨gone, hsorted, -⟩ := trails_addAll hcalm
    exact ⟨gone, hsorted.symm⟩

theorem retained_newest_after_byte_eviction :
    (olderThan 10 (((empty 10 0 5).addAll [sampleFrame 10 3, sampleFrame 20 3,
      sampleFrame 5 1]).queue .camera).frames).Subperm [sampleFrame 5 1] :=
  (retained_newest 10 0 5 .camera).1 [sampleFrame 10 3] (sampleFrame 20 3)
    [sampleFrame 5 1] (sampleFrame 10 3) (by decide) [] (sampleFrame 20 3)
    [sampleFrame 5 1] rfl fun before data after hsplit => by
      cases before <;> cases hsplit

/-- A late small message fills the room that a large one was evicted from. -/
theorem hole_after_byte_eviction :
    ¬∀ (maxSize : Nat) (maxAge : Int) (maxBytes : Nat) (type : SensorType)
      (before : List SensorData) (first : SensorData)
      (after : List SensorData) (frame : SensorData),
      Loses ((empty maxSize maxAge maxBytes).addAll before) first type frame →
      olderThan (timestampOf frame) (((empty maxSize maxAge maxBytes).addAll
        (before ++ first :: after)).queue type).frames = [] := by
  intro h
  have hholes := h 10 0 5 .camera [sampleFrame 10 3] (sampleFrame 20 3)
    [sampleFrame 5 1] (sampleFrame 10 3) (by decide)
  exact absurd hholes (by decide)

end DataBuffer

end DataCache.Capture
