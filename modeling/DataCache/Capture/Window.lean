import DataCache.Capture.Protocol

/-!
# The event window

The two batches of a capture split its window: the first takes what is buffered
at the trigger, the final one what is buffered at the harvest and newer than
the event.  A frame that arrives in between with a stamp at or before the event
is in neither.
-/

namespace DataCache.Capture

open DataCache.Foundation

/-- The frames of one sensor arrive in the order of their stamps. -/
def SensorOrdered (arrivals : List SensorData) : Prop :=
  ∀ type, (arrivals.filter fun data => decide (data.type = type)).Pairwise
    fun first second => timestampOf first ≤ timestampOf second

/-- Every windowed frame buffered at either snapshot is in exactly one batch. -/
def WindowKept (capture : AcceptedTrigger) (pre post : HandedOver) : Prop :=
  ∀ frame, DataBuffer.within
      (capture.eventTime - capture.preSeconds * nanosPerSecond)
      (capture.eventTime + capture.postSeconds * nanosPerSecond) frame = true →
    frame ∈ pre.buffered ∨ frame ∈ post.buffered →
    Xor (frame ∈ pre.job.records) (frame ∈ post.job.records)

/-- What the harvest finds up to the event was there at the trigger. -/
def NoLateFrame (capture : AcceptedTrigger) (pre post : HandedOver) : Prop :=
  ∀ frame ∈ post.buffered, DataBuffer.within
      (capture.eventTime - capture.preSeconds * nanosPerSecond)
      capture.eventTime frame = true →
    frame ∈ pre.buffered

theorem within_iff {first last : Int} {data : SensorData} :
    DataBuffer.within first last data = true ↔
      first ≤ timestampOf data ∧ timestampOf data ≤ last := by
  simp [DataBuffer.within]

theorem PreBatch.mem_records {capture : AcceptedTrigger} {entry : HandedOver}
    (h : PreBatch capture entry) {frame : SensorData} :
    frame ∈ entry.job.records ↔ frame ∈ entry.buffered ∧
      capture.eventTime - capture.preSeconds * nanosPerSecond ≤
        timestampOf frame ∧ timestampOf frame ≤ capture.eventTime := by
  rw [h.records, List.mem_filter, within_iff]

theorem PostBatch.mem_records {capture : AcceptedTrigger} {entry : HandedOver}
    (h : PostBatch capture entry) {frame : SensorData} :
    frame ∈ entry.job.records ↔ frame ∈ entry.buffered ∧
      capture.eventTime < timestampOf frame ∧
      timestampOf frame ≤
        capture.eventTime + capture.postSeconds * nanosPerSecond := by
  simp only [h.records, withoutBoundary, List.mem_filter, within_iff,
    decide_eq_true_eq]
  constructor
  · rintro ⟨⟨hmem, hlower, hupper⟩, hne⟩
    exact ⟨hmem, by omega, hupper⟩
  · rintro ⟨hmem, hlower, hupper⟩
    exact ⟨⟨hmem, by omega, hupper⟩, by omega⟩

theorem windowKept_iff_of_batches {capture : AcceptedTrigger}
    {pre post : HandedOver} (hpre : PreBatch capture pre)
    (hpost : PostBatch capture post) (hseconds : 0 ≤ capture.postSeconds) :
    WindowKept capture pre post ↔ NoLateFrame capture pre post := by
  have hend : capture.eventTime ≤
      capture.eventTime + capture.postSeconds * nanosPerSecond := by
    have hnanos : 0 ≤ capture.postSeconds * nanosPerSecond :=
      mul_nonneg hseconds (by decide)
    omega
  constructor
  · intro hkept frame hframe hwithin
    obtain ⟨hlower, hupper⟩ := within_iff.mp hwithin
    rcases hkept frame (within_iff.mpr ⟨hlower, hupper.trans hend⟩)
      (.inr hframe) with ⟨hmem, -⟩ | ⟨hmem, -⟩
    · exact (hpre.mem_records.mp hmem).1
    · have hlater := (hpost.mem_records.mp hmem).2.1
      omega
  · intro hlate frame hwithin hbuffered
    obtain ⟨hlower, hupper⟩ := within_iff.mp hwithin
    by_cases hevent : timestampOf frame ≤ capture.eventTime
    · -- Up to the event: only the first batch selects the frame.
      have hmem : frame ∈ pre.buffered := hbuffered.elim id fun h =>
        hlate frame h (within_iff.mpr ⟨hlower, hevent⟩)
      refine .inl ⟨hpre.mem_records.mpr ⟨hmem, hlower, hevent⟩, fun h => ?_⟩
      have hlater := (hpost.mem_records.mp h).2.1
      omega
    · -- After the event: the trigger saw no such frame.
      have hmem : frame ∈ post.buffered := hbuffered.elim
        (fun h => absurd (hpre.newest frame h) hevent) id
      refine .inr ⟨hpost.mem_records.mpr ⟨hmem, by omega, hupper⟩, fun h => ?_⟩
      exact hevent (hpre.mem_records.mp h).2.2

/--
In every run, a capture whose two batches have been handed over keeps every
frame of its window in exactly one of them if and only if no frame that the
harvest finds at or before the event arrived after the trigger.
-/
theorem windowKept_iff {settings : Settings} {s : System}
    (h : Midway settings s) {capture : AcceptedTrigger}
    (hcapture : capture ∈ s.captures) (hseconds : 0 < capture.postSeconds)
    {pre post : HandedOver}
    (hbatches : batchesOf s.accepted capture.directory = [pre, post]) :
    pre.job.finalJob = false ∧ post.job.finalJob = true ∧
      (WindowKept capture pre post ↔ NoLateFrame capture pre post) := by
  rcases h.inv.2.delivered capture hcapture hseconds with
    ⟨pre', -, hstarted⟩ | ⟨pre', post', hpre, hpost, hfinished⟩
  · change batchesOf s.accepted _ = _ at hstarted
    rw [hbatches] at hstarted
    cases hstarted
  · change batchesOf s.accepted _ = _ at hfinished
    rw [hbatches] at hfinished
    cases hfinished
    exact ⟨hpre.notFinal, hpost.final,
      windowKept_iff_of_batches hpre hpost hseconds.le⟩

theorem windowKept_iff_laggingRun :
    ∃ pre post, batchesOf laggingRun.accepted laggingCapture.directory =
        [pre, post] ∧
      (WindowKept laggingCapture pre post ↔
        NoLateFrame laggingCapture pre post) := by
  have hbatches : batchesOf laggingRun.accepted laggingCapture.directory =
      [laggingRun.accepted.head (by decide +kernel),
        laggingRun.accepted.getLast (by decide +kernel)] := by decide +kernel
  exact ⟨_, _, hbatches, (windowKept_iff (.between reachable_laggingRun)
    (by decide +kernel) (by decide) hbatches).2.2⟩

/-- The late lidar frame of the lagging run is stored by neither batch. -/
theorem not_windowKept_of_lagging_sensor :
    ¬∀ (settings : Settings) (s : System) (capture : AcceptedTrigger)
      (pre post : HandedOver), Midway settings s → SensorOrdered s.arrivals →
      capture ∈ s.captures → 0 < capture.preSeconds → 0 < capture.postSeconds →
      batchesOf s.accepted capture.directory = [pre, post] →
      WindowKept capture pre post := by
  intro h
  have hbatches : batchesOf laggingRun.accepted laggingCapture.directory =
      [laggingRun.accepted.head (by decide +kernel),
        laggingRun.accepted.getLast (by decide +kernel)] := by decide +kernel
  have hordered : SensorOrdered laggingRun.arrivals := by
    intro type
    cases type <;> decide +kernel
  have hkept := h _ _ _ _ _ (.between reachable_laggingRun) hordered
    (by decide +kernel : laggingCapture ∈ laggingRun.captures) (by decide)
    (by decide) hbatches
  have hpre : lidarFrame 9 ∉
      (laggingRun.accepted.head (by decide +kernel)).job.records := by
    decide +kernel
  have hpost : lidarFrame 9 ∉
      (laggingRun.accepted.getLast (by decide +kernel)).job.records := by
    decide +kernel
  rcases hkept (lidarFrame 9) (by decide +kernel) (by decide +kernel) with
    ⟨hmem, -⟩ | ⟨hmem, -⟩
  · exact hpre hmem
  · exact hpost hmem

end DataCache.Capture
