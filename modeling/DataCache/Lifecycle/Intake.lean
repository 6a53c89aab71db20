import DataCache.Capture.Accounting
import DataCache.Capture.Recording
import DataCache.Foundation.Outcomes
import DataCache.Lifecycle.Watchdog

/-!
# From the sensors to the pair ledger

Each message is noted by the watchdog, buffered and offered to the synchronizer,
whose matches and drops become records of the ledger.  The monitor's callbacks flush
what waits, so that the ledger has every message of an event.
-/

namespace DataCache.Capture

open DataCache.Foundation

/-! ## The ledger and its history -/

namespace PairIndex

/-- The ledger holds the end of all the records that were ever added, numbered from 1. -/
structure Ends (index : PairIndex) (history : List PairRecord) : Prop where
  records : index.records = history.drop (history.length - maxRecords)
  ids : history.map PairRecord.pairId = List.range' 1 history.length
  next : index.nextId = history.length + 1

theorem ends_empty : empty.Ends [] := ⟨rfl, rfl, rfl⟩

theorem Ends.add {index : PairIndex} {history : List PairRecord}
    (h : index.Ends history) {record : PairRecord} (hid : record.pairId = index.nextId) :
    (trim { records := index.records ++ [record]
            nextId := index.nextId + 1 }).Ends (history ++ [record]) := by
  refine ⟨?_, ?_, ?_⟩
  · simp only [trim, h.records, List.length_append, List.length_drop,
      List.length_singleton]
    generalize maxRecords = limit
    rw [← List.drop_append_of_le_length (Nat.sub_le _ _), List.drop_drop]
    congr 1
    omega
  · rw [List.map_append, h.ids, List.length_append, List.length_singleton,
      List.range'_concat, List.map_singleton, hid, h.next, Nat.one_mul, Nat.add_comm]
  · change index.nextId + 1 = _
    rw [h.next, List.length_append, List.length_singleton]

/-- Additions of one kind, each a record that takes the next id. -/
theorem Ends.foldl {α : Type} {add : PairIndex → α → PairIndex}
    (entry : Nat → α → PairRecord) (hadd : ∀ index x, add index x =
      trim { records := index.records ++ [entry index.nextId x]
             nextId := index.nextId + 1 })
    (hid : ∀ id x, (entry id x).pairId = id) (xs : List α) :
    ∀ {index : PairIndex} {history : List PairRecord}, index.Ends history →
      ∃ added, (xs.foldl add index).Ends (history ++ added) ∧
        List.Forall₂ (fun x record => record = entry record.pairId x) xs added := by
  induction xs with
  | nil => exact fun {index history} h => ⟨[], by simpa using h, .nil⟩
  | cons x xs ih =>
      intro index history h
      have hstep : (add index x).Ends (history ++ [entry index.nextId x]) := by
        rw [hadd]
        exact h.add (hid _ _)
      obtain ⟨added, hends, hforall⟩ := ih hstep
      refine ⟨entry index.nextId x :: added, by simpa using hends, .cons ?_ hforall⟩
      rw [hid]

end PairIndex

/-! ## What a record says -/

def eventWindowClosed : Text := "event window closed"

def dropReasons : List Text := [queueFull, outsideTolerance, eventWindowClosed]

/-- The stamp of the sensor's message that a record is about, if there is one. -/
def PairRecord.stampOf (sensor : SensorType) (record : PairRecord) : Option Int :=
  match sensor with
  | .camera => if record.hasCamera then some record.cameraTimestamp else none
  | .lidar => if record.hasLidar then some record.lidarTimestamp else none

/-- A pair within the tolerance, or one message and why it has no partner. -/
def PairRecord.Exact (tolerance : Int) (record : PairRecord) : Prop :=
  match record.status with
  | .matched => record.hasCamera = true ∧ record.hasLidar = true ∧
      record.difference = |record.cameraTimestamp - record.lidarTimestamp| ∧
      record.difference ≤ tolerance ∧ record.reason = []
  | .cameraOnly => record.hasCamera = true ∧ record.hasLidar = false ∧
      record.difference = 0 ∧ record.reason ∈ dropReasons
  | .lidarOnly => record.hasCamera = false ∧ record.hasLidar = true ∧
      record.difference = 0 ∧ record.reason ∈ dropReasons

/-! ## The callbacks of the synchronizer -/

/-- Matches first, then drops. -/
def dispatch (index : PairIndex) (results : PendingResults) : PairIndex :=
  results.drops.foldl
    (fun index drop => index.addSingle drop.sensor drop.timestamp drop.reason)
    (results.matchResults.foldl (fun index found =>
      index.addMatched found.image.stamp found.cloud.stamp found.difference) index)

def matchedRecord (id : Nat) (found : MatchResult) : PairRecord :=
  ⟨id, true, true, found.image.stamp, found.cloud.stamp, found.difference, .matched, []⟩

def singleRecord (id : Nat) (drop : DropResult) : PairRecord :=
  match drop.sensor with
  | .camera => ⟨id, true, false, drop.timestamp, 0, 0, .cameraOnly, drop.reason⟩
  | .lidar => ⟨id, false, true, 0, drop.timestamp, 0, .lidarOnly, drop.reason⟩

theorem exact_matchedRecord {tolerance : Int} {found : MatchResult} (id : Nat)
    (h : ApproximateSynchronizer.SoundMatch tolerance found) :
    (matchedRecord id found).Exact tolerance :=
  ⟨rfl, rfl, h.2, h.2.trans_le h.1, rfl⟩

theorem exact_singleRecord {tolerance : Int} {drop : DropResult} (id : Nat)
    (h : drop.reason ∈ dropReasons) : (singleRecord id drop).Exact tolerance := by
  unfold singleRecord
  cases drop.sensor <;> exact ⟨rfl, rfl, rfl, h⟩

theorem filterMap_of_forall₂ {α β γ : Type} {R : α → β → Prop} {f : β → Option γ}
    {g : α → Option γ} (hsame : ∀ x y, R x y → f y = g x) {xs : List α} {ys : List β}
    (h : List.Forall₂ R xs ys) : ys.filterMap f = xs.filterMap g := by
  induction h with
  | nil => rfl
  | cons hxy _ ih => rw [List.filterMap_cons, List.filterMap_cons, hsame _ _ hxy, ih]

theorem exists_of_forall₂ {α β : Type} {R : α → β → Prop} {xs : List α} {ys : List β}
    (h : List.Forall₂ R xs ys) {y : β} (hy : y ∈ ys) : ∃ x ∈ xs, R x y := by
  induction h with
  | nil => cases hy
  | cons hxy _ ih =>
      rcases List.mem_cons.mp hy with rfl | hy
      · exact ⟨_, List.mem_cons_self, hxy⟩
      · obtain ⟨x, hx, hrelated⟩ := ih hy
        exact ⟨x, List.mem_cons_of_mem _ hx, hrelated⟩

theorem stamps_of_drops (sensor : SensorType) (drops : List DropResult) :
    drops.filterMap (fun drop => (singleRecord 0 drop).stampOf sensor) =
      (dropsOf sensor drops).map DropResult.timestamp := by
  induction drops with
  | nil => rfl
  | cons drop drops ih =>
      rw [List.filterMap_cons, ih, dropsOf, dropsOf, List.filter_cons]
      unfold singleRecord
      cases sensor <;> cases hsensor : drop.sensor <;>
        simp [PairRecord.stampOf]

/-- The stamps of one sensor's messages among the matches. -/
def MatchResult.stampOf (sensor : SensorType) (found : MatchResult) : Int :=
  match sensor with
  | .camera => found.image.stamp
  | .lidar => found.cloud.stamp

theorem dispatch_ends {index : PairIndex} {history : List PairRecord}
    {results : PendingResults} {tolerance : Int} (h : index.Ends history)
    (hmatches : ∀ found ∈ results.matchResults,
      ApproximateSynchronizer.SoundMatch tolerance found)
    (hdrops : ∀ drop ∈ results.drops, drop.reason ∈ dropReasons) :
    ∃ added, (dispatch index results).Ends (history ++ added) ∧
      (∀ record ∈ added, record.Exact tolerance) ∧
      ∀ sensor, added.filterMap (PairRecord.stampOf sensor) =
        results.matchResults.map (MatchResult.stampOf sensor) ++
          (dropsOf sensor results.drops).map DropResult.timestamp := by
  obtain ⟨pairs, hpairs, hmatched⟩ := @PairIndex.Ends.foldl _
    (fun index found => index.addMatched found.image.stamp found.cloud.stamp
      found.difference) matchedRecord
    (fun _ _ => by rw [PairIndex.addMatched, matchedRecord]) (fun _ _ => rfl)
    results.matchResults _ _ h
  obtain ⟨singles, hsingles, hdropped⟩ := @PairIndex.Ends.foldl _
    (fun index drop => index.addSingle drop.sensor drop.timestamp drop.reason)
    singleRecord (fun index drop => by cases hsensor : drop.sensor <;>
      simp [PairIndex.addSingle, singleRecord, hsensor])
    (fun id drop => by cases hsensor : drop.sensor <;> simp [singleRecord, hsensor])
    results.drops _ _ hpairs
  refine ⟨pairs ++ singles, by rwa [← List.append_assoc], ?_, fun sensor => ?_⟩
  · intro record hrecord
    rcases List.mem_append.mp hrecord with hrecord | hrecord
    · obtain ⟨found, hfound, heq⟩ := exists_of_forall₂ hmatched hrecord
      rw [heq]
      exact exact_matchedRecord _ (hmatches found hfound)
    · obtain ⟨drop, hdrop, heq⟩ := exists_of_forall₂ hdropped hrecord
      rw [heq]
      exact exact_singleRecord _ (hdrops drop hdrop)
  · rw [List.filterMap_append, ← stamps_of_drops,
      filterMap_of_forall₂ (g := some ∘ MatchResult.stampOf sensor) ?_ hmatched,
      filterMap_of_forall₂ (g := fun drop => (singleRecord 0 drop).stampOf sensor) ?_
        hdropped, List.filterMap_eq_map]
    · rintro drop record heq
      rw [heq]
      cases sensor <;> cases hsensor : drop.sensor <;>
        simp [singleRecord, PairRecord.stampOf, hsensor]
    · rintro found record heq
      rw [heq]
      cases sensor <;> rfl

theorem dispatch_grows (index : PairIndex) (results : PendingResults) :
    index.Grows (dispatch index results) := by
  have hmatches : ∀ (found : List MatchResult) (index : PairIndex),
      index.Grows (found.foldl (fun index found =>
        index.addMatched found.image.stamp found.cloud.stamp found.difference) index) := by
    intro found
    induction found with
    | nil => exact fun _ => .refl
    | cons first rest ih =>
        intro index
        rw [List.foldl_cons]
        exact .head (.matched _ _ _) (ih _)
  have hdrops : ∀ (drops : List DropResult) (index : PairIndex),
      index.Grows (drops.foldl (fun index drop =>
        index.addSingle drop.sensor drop.timestamp drop.reason) index) := by
    intro drops
    induction drops with
    | nil => exact fun _ => .refl
    | cons first rest ih =>
        intro index
        rw [List.foldl_cons]
        exact .head (.single _ _ _) (ih _)
  exact (hmatches _ _).trans (hdrops _ _)

/-! ## What a call of the synchronizer reports -/

namespace ApproximateSynchronizer

theorem reason_of_dropOver {α : Type} {sensor : SensorType} {stamp : α → Int}
    {limit : Nat} {reason : Text} {queue : List α} {dropped : Nat} {drop : DropResult}
    (h : drop ∈ (Lane.dropOver sensor stamp limit reason queue dropped).2) :
    drop.reason = reason := by
  rw [dropOver_eq] at h
  exact (of_mem_numberDrops _ _ _ h).2

theorem reason_of_tryMatchLocked {synchronizer : ApproximateSynchronizer}
    {drops : List DropResult} {drop : DropResult}
    (h : drop ∈ (synchronizer.tryMatchLocked drops).2.drops) :
    drop ∈ drops ∨ drop.reason = outsideTolerance :=
  (List.mem_append.mp h).imp_right tryMatch_reason

theorem step_reason {synchronizer : ApproximateSynchronizer} {call : SyncCall}
    (hflush : ∀ reason, call = .flushUnmatched reason → reason = eventWindowClosed)
    {drop : DropResult} (h : drop ∈ (synchronizer.step call).2.drops) :
    drop.reason ∈ dropReasons := by
  cases call with
  | addImage image =>
      rcases reason_of_tryMatchLocked h with h | hreason
      · rw [reason_of_dropOver h]
        decide
      · rw [hreason]
        decide
  | addPointCloud cloud =>
      rcases reason_of_tryMatchLocked h with h | hreason
      · rw [reason_of_dropOver h]
        decide
      · rw [hreason]
        decide
  | flushUnmatched reason =>
      obtain rfl := hflush reason rfl
      rcases List.mem_append.mp h with h | h
      all_goals
        rw [reason_of_dropOver h]
        decide

/-- The stamps of the sensor's messages that still wait for a partner. -/
def waiting (synchronizer : ApproximateSynchronizer) : SensorType → List Int
  | .camera => synchronizer.images.queue.map Image.stamp
  | .lidar => synchronizer.clouds.queue.map PointCloud2.stamp

end ApproximateSynchronizer

/-- The stamp of the sensor's message that a call passes on, if it does. -/
def SyncCall.stampOf (call : SyncCall) : SensorType → Option Int
  | .camera => call.image?.map Image.stamp
  | .lidar => call.cloud?.map PointCloud2.stamp

/-- What waited or came in waits, is matched or is dropped, stamp by stamp. -/
theorem ApproximateSynchronizer.step_stamps (synchronizer : ApproximateSynchronizer)
    (call : SyncCall) (sensor : SensorType) :
    (synchronizer.waiting sensor ++ (call.stampOf sensor).toList).Perm
      ((synchronizer.step call).1.waiting sensor ++
        ((synchronizer.step call).2.matchResults.map (MatchResult.stampOf sensor) ++
          (dropsOf sensor (synchronizer.step call).2.drops).map DropResult.timestamp)) := by
  have hlane : ∀ {α : Type} {stamp : α → Int} {before after : Lane α}
      {received matched : List α} {drops : List DropResult},
      Accounts sensor stamp before received after matched drops →
      (before.queue.map stamp ++ received.map stamp).Perm
        (after.queue.map stamp ++ (matched.map stamp ++
          (dropsOf sensor drops).map DropResult.timestamp)) := by
    rintro α stamp before after received matched drops ⟨lost, hsum, htimes, -, -⟩
    have hperm : (before.queue ++ received).Perm (after.queue ++ matched ++ lost) :=
      Multiset.coe_eq_coe.mp (by simpa using hsum)
    rw [htimes, ← List.map_append, ← List.map_append, ← List.map_append,
      ← List.append_assoc]
    exact hperm.map stamp
  have hreported := synchronizer.step_reported call
  cases sensor with
  | camera =>
      have hperm := hlane hreported.images
      rw [List.map_map, ← Option.toList_map] at hperm
      exact hperm
  | lidar =>
      have hperm := hlane hreported.clouds
      rw [List.map_map, ← Option.toList_map] at hperm
      exact hperm

end DataCache.Capture

namespace DataCache.Lifecycle

open DataCache.Foundation DataCache.Capture

/-! ## The node -/

/-- The parts that the callbacks of the sensors and of the monitor act on. -/
structure Intake where
  system : System
  synchronizer : ApproximateSynchronizer
  syncEnabled : Bool
  watchdog : Option SensorWatchdog

def loadSyncEnabled (config : ConfigManager) : Bool :=
  config.getBoolConfig "sync_enabled" true

/-- Strict recording mode needs the synchronizer. -/
def loadSettings (config : ConfigManager) : Settings where
  config := config
  requireSyncedData :=
    config.getBoolConfig "sync_required_for_recording" false && loadSyncEnabled config

def loadTolerance (config : ConfigManager) : Int :=
  max 0 (config.getIntConfig "sync_tolerance_ms" 20) * nanosPerMillisecond

def kMegabyte : Nat := 1024 * 1024

def registerWatchdogSensor (config : ConfigManager) (sensor : Text) (now : Int)
    (watchdog : SensorWatchdog) : SensorWatchdog :=
  let fallback := config.getIntConfig "watchdog_stale_timeout_ms" 1000
  let timeoutMs := max 1 (config.getIntConfig
    (("watchdog_" : Text) ++ sensor ++ "_stale_timeout_ms") fallback)
  watchdog.registerSensor sensor timeoutMs now

namespace Intake

/-- The node before its first message; the watchdog registers at two clock readings. -/
def create (config : ConfigManager) (cameraAt lidarAt : Int) : Intake where
  system := initial (loadSettings config)
    (config.getIntConfig "buffer_size" 1000).toNat
    (max 0 (config.getIntConfig "buffer_duration_seconds" 30) * nanosPerSecond)
    ((max 0 (config.getIntConfig "buffer_max_mb" 1024)).toNat * kMegabyte)
  synchronizer := .create (max 1 (config.getIntConfig "sync_queue_size" 100)).toNat
    (loadTolerance config)
  syncEnabled := loadSyncEnabled config
  watchdog :=
    if config.getBoolConfig "watchdog_enabled" true then
      some (registerWatchdogSensor config "lidar" lidarAt
        (registerWatchdogSensor config "camera" cameraAt Dict.empty))
    else none

/-- What the synchronizer reports goes into the ledger. -/
def synchronize (node : Intake) (call : SyncCall) : Intake :=
  let (synchronizer, results) := node.synchronizer.step call
  { node with
    synchronizer
    system := { node.system with
      pairIndex := dispatch node.system.pairIndex results } }

def noteData (node : Intake) (sensor : Text) (now : Int) : Intake :=
  { node with watchdog := node.watchdog.map fun watchdog => watchdog.noteData sensor now }

def addData (node : Intake) (data : SensorData) : Intake :=
  { node with
    system := { node.system with
      buffer := node.system.buffer.addData data
      arrivals := node.system.arrivals ++ [data] } }

def handleImage (node : Intake) (now : Int) (message : Image) : Intake :=
  let node := (node.noteData "camera" now).addData (.camera message.stamp (some message))
  if node.syncEnabled then node.synchronize (.addImage message) else node

def handlePointCloud (node : Intake) (now : Int) (message : PointCloud2) : Intake :=
  let node := (node.noteData "lidar" now).addData (.lidar message.stamp (some message))
  if node.syncEnabled then node.synchronize (.addPointCloud message) else node

def pollWatchdog (node : Intake) (now : Int) : Intake :=
  { node with watchdog := node.watchdog.map fun watchdog => (watchdog.poll now).1 }

def flushPendingPairs (node : Intake) : Intake :=
  node.synchronize (.flushUnmatched eventWindowClosed)

/-! ## Runs -/

def pop (node : Intake) (count : Nat) : Intake :=
  { node with system := node.system.pop count }

/-- An operation of the monitor's callbacks, with the real flush. -/
def Performs (node : Intake) : (op : CaptureOp) → op.Res → Intake → Prop
  | .flushPendingPairs, _, node' => node' = node.flushPendingPairs
  | op, r, node' =>
      ∃ system, Capture.Performs node.system op r system ∧ node' = { node with system }

/-- The storage worker pops jobs before and after. -/
def Called : Prog.Effect CaptureOp.Res Intake := fun node op r node' =>
  ∃ before after between, (node.pop before).Performs op r between ∧
    node' = between.pop after

/-- The states between callbacks of a node with this configuration. -/
inductive Running (config : ConfigManager) : Intake → Prop
  | start (cameraAt lidarAt : Int) : Running config (create config cameraAt lidarAt)
  | image {node : Intake} (now : Int) (message : Image) (h : Running config node) :
      Running config (node.handleImage now message)
  | pointCloud {node : Intake} (now : Int) (message : PointCloud2)
      (h : Running config node) : Running config (node.handlePointCloud now message)
  | poll {node : Intake} (now : Int) (h : Running config node) :
      Running config (node.pollWatchdog now)
  | consume {node : Intake} (count : Nat) (h : Running config node) :
      Running config (node.pop count)
  | trigger {node node' : Intake} {result : CaptureResult} (clock : Clock)
      (eventName : Text) (h : Running config node)
      (hexec : Prog.Exec Called node
        (recordDataAroundEventDetailed (loadSettings config) clock eventName) node'
        (.ret result)) :
      Running config { node' with
        system := logCapture (loadSettings config) clock eventName node.system
          node'.system result }
  | scheduler {node node' : Intake} (clock : Clock) (h : Running config node)
      (hexec : Prog.Exec Called node
        (processExpiredCaptures (loadSettings config) clock) node' (.ret ())) :
      Running config node'

/-- Between callbacks, or inside one of them. -/
inductive Active (config : ConfigManager) : Intake → Prop
  | between {node : Intake} (h : Running config node) : Active config node
  | trigger {node node' : Intake} {rest : Callback CaptureResult} (clock : Clock)
      (eventName : Text) (h : Running config node)
      (hexec : Prog.Exec Called node
        (recordDataAroundEventDetailed (loadSettings config) clock eventName) node'
        rest) : Active config node'
  | scheduler {node node' : Intake} {rest : Callback Unit} (clock : Clock)
      (h : Running config node)
      (hexec : Prog.Exec Called node
        (processExpiredCaptures (loadSettings config) clock) node' rest) :
      Active config node'

/-! ## The recording sees the ledger grow -/

theorem grows_synchronize (node : Intake) (call : SyncCall) :
    node.system.pairIndex.Grows (node.synchronize call).system.pairIndex :=
  dispatch_grows _ _

theorem performs_of_ne_flush {node node' : Intake} {op : CaptureOp} {r : op.Res}
    (h : node.Performs op r node') (hflush : op ≠ .flushPendingPairs) :
    ∃ system, Capture.Performs node.system op r system ∧
      node' = { node with system } := by
  cases op with
  | flushPendingPairs => exact absurd rfl hflush
  | _ => exact h

theorem ledgered_of_called {node node' : Intake} {op : CaptureOp} {r : op.Res}
    (h : Called node op r node') : Ledgered node.system op r node'.system := by
  obtain ⟨before, after, between, hperforms, rfl⟩ := h
  by_cases hflush : op = .flushPendingPairs
  · subst hflush
    obtain rfl : between = (node.pop before).flushPendingPairs := hperforms
    exact ⟨⟨before, after, (node.pop before).flushPendingPairs.system, ⟨_, rfl⟩, rfl⟩,
      grows_synchronize (node.pop before) (.flushUnmatched eventWindowClosed)⟩
  · obtain ⟨system, hsystem, rfl⟩ := performs_of_ne_flush hperforms hflush
    refine ⟨⟨before, after, system, hsystem, rfl⟩, ?_⟩
    change node.system.pairIndex.Grows system.pairIndex
    rw [hsystem.pairIndex hflush]
    exact .refl

/-- The runs of the node are runs of the recording. -/
theorem Running.recorded {config : ConfigManager} {node : Intake}
    (h : Running config node) : Recorded (loadSettings config) node.system := by
  have hsynchronize : ∀ {node : Intake} (call : SyncCall),
      Recorded (loadSettings config) node.system →
      Recorded (loadSettings config) (node.synchronize call).system :=
    fun {node} call h => .ledger h (node.grows_synchronize call)
  induction h with
  | start cameraAt lidarAt => exact .start _ _ _
  | @image node now message _ ih =>
      have hframe : Recorded (loadSettings config) ((node.noteData "camera" now).addData
          (.camera message.stamp (some message))).system := .frame _ ih
      unfold handleImage
      dsimp only
      split
      · exact hsynchronize _ hframe
      · exact hframe
  | @pointCloud node now message _ ih =>
      have hframe : Recorded (loadSettings config) ((node.noteData "lidar" now).addData
          (.lidar message.stamp (some message))).system := .frame _ ih
      unfold handlePointCloud
      dsimp only
      split
      · exact hsynchronize _ hframe
      · exact hframe
  | poll now _ ih => exact ih
  | consume count _ ih => exact .consume count ih
  | trigger clock eventName _ hexec ih =>
      exact .trigger clock eventName ih
        (hexec.map (fun _ _ _ _ _ => ledgered_of_called) (Prog.uses_true _))
  | scheduler clock _ hexec ih =>
      exact .scheduler clock ih
        (hexec.map (fun _ _ _ _ _ => ledgered_of_called) (Prog.uses_true _))

theorem Active.recording {config : ConfigManager} {node : Intake}
    (h : Active config node) : Recording (loadSettings config) node.system := by
  cases h with
  | between h => exact .between h.recorded
  | trigger clock eventName h hexec =>
      exact .trigger clock eventName h.recorded
        (hexec.map (fun _ _ _ _ _ => ledgered_of_called) (Prog.uses_true _))
  | scheduler clock h hexec =>
      exact .scheduler clock h.recorded
        (hexec.map (fun _ _ _ _ _ => ledgered_of_called) (Prog.uses_true _))

/-! ## Every message is in the ledger once -/

/-- The stamps of the sensor's messages that the synchronizer was offered. -/
def offered (node : Intake) (sensor : SensorType) : List Int :=
  if node.syncEnabled then
    (DataBuffer.ofType sensor node.system.arrivals).map timestampOf
  else []

/--
The ledger is the end of a history of exact records; in these and in the queues each
message that was offered is found once.
-/
structure Balanced (tolerance : Int) (node : Intake) (history : List PairRecord) :
    Prop where
  tolerance_eq : node.synchronizer.tolerance = tolerance
  ends : node.system.pairIndex.Ends history
  exact : ∀ record ∈ history, record.Exact tolerance
  balance : ∀ sensor, (node.offered sensor).Perm
    (node.synchronizer.waiting sensor ++
      history.filterMap (PairRecord.stampOf sensor))

/-- Balanced, with a history that goes on from the earlier one. -/
def Grown (tolerance : Int) (node : Intake) (history : List PairRecord) : Prop :=
  ∃ history', history <+: history' ∧ Balanced tolerance node history'

section Balanced

variable {tolerance : Int} {node node' : Intake} {history : List PairRecord}

theorem balanced_create (config : ConfigManager) (cameraAt lidarAt : Int) :
    Balanced (loadTolerance config) (create config cameraAt lidarAt) [] := by
  refine ⟨rfl, PairIndex.ends_empty, by simp, fun sensor => ?_⟩
  have hnone : (create config cameraAt lidarAt).offered sensor = [] := by
    unfold offered
    split <;> rfl
  rw [hnone]
  cases sensor <;> exact .nil

/-- What the balance depends on. -/
theorem Balanced.congr (h : Balanced tolerance node history)
    (hsynchronizer : node'.synchronizer = node.synchronizer)
    (hpairIndex : node'.system.pairIndex = node.system.pairIndex)
    (hoffered : ∀ sensor, node'.offered sensor = node.offered sensor) :
    Balanced tolerance node' history := by
  refine ⟨hsynchronizer ▸ h.tolerance_eq, hpairIndex ▸ h.ends, h.exact, fun sensor => ?_⟩
  rw [hoffered, hsynchronizer]
  exact h.balance sensor

/-- A call of the synchronizer, with the message that it passes on. -/
theorem Balanced.step (h : Balanced tolerance node history) (call : SyncCall)
    (hflush : ∀ reason, call = .flushUnmatched reason → reason = eventWindowClosed)
    (hsynchronizer : node'.synchronizer = (node.synchronizer.step call).1)
    (hpairIndex : node'.system.pairIndex =
      dispatch node.system.pairIndex (node.synchronizer.step call).2)
    (hoffered : ∀ sensor, node'.offered sensor =
      node.offered sensor ++ (call.stampOf sensor).toList) :
    Grown tolerance node' history := by
  obtain ⟨added, hends, hexact, hstamps⟩ := dispatch_ends h.ends
    (fun found hfound => h.tolerance_eq ▸
      ApproximateSynchronizer.step_sound call found hfound)
    (fun drop hdrop => ApproximateSynchronizer.step_reason hflush hdrop)
  refine ⟨history ++ added, List.prefix_append _ _, ?_, hpairIndex ▸ hends,
    List.forall_mem_append.mpr ⟨h.exact, hexact⟩, fun sensor => ?_⟩
  · rw [hsynchronizer, (ApproximateSynchronizer.step_settings call).2]
    exact h.tolerance_eq
  · have hbalance := h.balance sensor
    have hstep := node.synchronizer.step_stamps call sensor
    rw [← hstamps] at hstep
    rw [hoffered, hsynchronizer, List.filterMap_append]
    generalize (call.stampOf sensor).toList = new at hstep ⊢
    generalize history.filterMap (PairRecord.stampOf sensor) = old at hbalance ⊢
    have hmoved : (node.synchronizer.waiting sensor ++ old ++ new).Perm
        (node.synchronizer.waiting sensor ++ new ++ old) := by
      rw [List.append_assoc, List.append_assoc]
      exact List.perm_append_comm.append_left _
    refine (hbalance.append_right new).trans (hmoved.trans
      ((hstep.append_right old).trans ?_))
    rw [List.append_assoc]
    exact List.perm_append_comm.append_left _

theorem offered_addData (node : Intake) (data : SensorData) (sensor : SensorType) :
    (node.addData data).offered sensor = node.offered sensor ++
      if node.syncEnabled = true ∧ data.type = sensor then [timestampOf data] else [] := by
  unfold offered addData
  by_cases hsync : node.syncEnabled = true
  · by_cases hsensor : data.type = sensor
    · simp [hsync, hsensor, DataBuffer.ofType, List.filter_append]
    · simp [hsync, hsensor, DataBuffer.ofType, List.filter_append]
  · simp [hsync]

/-- A message is buffered and, if the synchronizer is in use, offered to it. -/
theorem Balanced.message (h : Balanced tolerance node history) (name : Text) (now : Int)
    (data : SensorData) (call : SyncCall)
    (hflush : ∀ reason, call = .flushUnmatched reason → reason = eventWindowClosed)
    (hstamp : ∀ sensor, (call.stampOf sensor).toList =
      if data.type = sensor then [timestampOf data] else []) :
    Grown tolerance
      (if ((node.noteData name now).addData data).syncEnabled then
        ((node.noteData name now).addData data).synchronize call
      else (node.noteData name now).addData data) history := by
  split
  next hsync =>
    refine h.step call hflush rfl rfl fun sensor => ?_
    change ((node.noteData name now).addData data).offered sensor = _
    have hsync' : node.syncEnabled = true := hsync
    rw [offered_addData, hstamp]
    simp [noteData, hsync', offered]
  next hsync =>
    have hsync' : ¬node.syncEnabled = true := hsync
    refine ⟨history, List.prefix_rfl, h.congr rfl rfl fun sensor => ?_⟩
    rw [offered_addData]
    simp [noteData, hsync', offered]

theorem Balanced.called {op : CaptureOp} {r : op.Res}
    (h : Balanced tolerance node history) (hcalled : Called node op r node') :
    Grown tolerance node' history := by
  obtain ⟨before, after, between, hperforms, rfl⟩ := hcalled
  have hbefore : Balanced tolerance (node.pop before) history :=
    h.congr rfl rfl fun _ => rfl
  have hbetween : Grown tolerance between history := by
    by_cases hflush : op = .flushPendingPairs
    · subst hflush
      obtain rfl : between = (node.pop before).flushPendingPairs := hperforms
      refine hbefore.step (.flushUnmatched eventWindowClosed) ?_ rfl rfl fun sensor => ?_
      · rintro reason ⟨⟩
        rfl
      · cases sensor <;> exact (List.append_nil _).symm
    · obtain ⟨system, hsystem, rfl⟩ := performs_of_ne_flush hperforms hflush
      refine ⟨history, List.prefix_rfl,
        hbefore.congr rfl (hsystem.pairIndex hflush) fun sensor => ?_⟩
      unfold offered
      rw [hsystem.kept.2.1]
  obtain ⟨history', hgrown, hbalanced⟩ := hbetween
  exact ⟨history', hgrown, hbalanced.congr rfl rfl fun _ => rfl⟩

theorem Balanced.exec {α : Type} {p p' : Callback α}
    (hexec : Prog.Exec Called node p node' p') :
    ∀ {history : List PairRecord}, Balanced tolerance node history →
      Grown tolerance node' history := by
  induction hexec with
  | refl => exact fun h => ⟨_, List.prefix_rfl, h⟩
  | step heffect _ ih =>
      intro history h
      obtain ⟨history', hgrown, hnext⟩ := h.called heffect
      obtain ⟨history'', hgrown', hlast⟩ := ih hnext
      exact ⟨history'', hgrown.trans hgrown', hlast⟩

end Balanced

/-! ## What is handed over comes from the ledger -/

/-- Balanced, and every pair that was handed over is a record of the history. -/
def Audited (tolerance : Int) (node : Intake) : Prop :=
  ∃ history, Balanced tolerance node history ∧
    ∀ entry ∈ node.system.accepted, entry.job.pairs ⊆ history

section Audited

variable {tolerance : Int} {node node' : Intake} {α : Type} {p p' : Callback α}

theorem ledgered_exec (h : Prog.Exec Called node p node' p') :
    Prog.Exec Ledgered node.system p node'.system p' :=
  h.map (fun _ _ _ _ _ => ledgered_of_called) (Prog.uses_true p)

theorem Audited.grown {history : List PairRecord} (h : Grown tolerance node' history)
    (hdrawn : ∀ entry ∈ node.system.accepted, entry.job.pairs ⊆ history)
    (haccepted : node'.system.accepted = node.system.accepted) :
    Audited tolerance node' := by
  obtain ⟨history', hgrown, hbalanced⟩ := h
  exact ⟨history', hbalanced, fun entry hentry =>
    List.Subset.trans (hdrawn entry (haccepted ▸ hentry)) hgrown.subset⟩

/-- A run that has handed over at most one job, with pairs of the ledger. -/
theorem Audited.hands {allowed : Job → Prop} (h : Audited tolerance node)
    (hexec : Prog.Exec Called node p node' p')
    (hhands : HandsOver allowed node.system node'.system) :
    Audited tolerance node' := by
  obtain ⟨history, hbalanced, hdrawn⟩ := h
  obtain ⟨history', hgrown, hbalanced'⟩ := hbalanced.exec hexec
  refine ⟨history', hbalanced', ?_⟩
  have hold : ∀ entry ∈ node.system.accepted, entry.job.pairs ⊆ history' :=
    fun entry hentry => List.Subset.trans (hdrawn entry hentry) hgrown.subset
  rcases hhands.accepted with hsame | ⟨job, -, -, hpairs, hadded⟩
  · rwa [hsame]
  · rw [hadded]
    refine List.forall_mem_append.mpr ⟨hold, List.forall_mem_singleton.mpr ?_⟩
    refine List.Subset.trans hpairs.subset ?_
    rw [hbalanced'.ends.records]
    exact List.drop_subset _ _

theorem Audited.quiet {op : CaptureOp} {r : op.Res} (h : Audited tolerance node)
    (hquiet : Quiet op) (hcalled : Called node op r node') : Audited tolerance node' := by
  obtain ⟨history, hbalanced, hdrawn⟩ := h
  exact .grown (hbalanced.called hcalled) hdrawn
    ((ledgered_of_called hcalled).accepted hquiet)

theorem Audited.storePostBatches {settings : Settings} :
    ∀ {tasks : List CaptureTask} {node : Intake} {p' : Callback Unit},
      Audited tolerance node →
      Prog.Exec Called node (storePostBatches settings tasks) node' p' →
      Audited tolerance node'
  | [], _, _, h, hexec => by
      cases hexec
      exact h
  | task :: rest, node, _, h, hexec => by
      have hfirst : ∀ {node' : Intake} {p' : Callback Unit},
          Prog.Exec Called node (storePostBatch settings task) node' p' →
          Audited tolerance node' := by
        intro node' p' hstored
        exact h.hands hstored (Prog.wp_exec (ledgered_exec hstored) ⟨.refl _, .inl rfl⟩
          (storePostBatch_hands settings task node.system)).1
      rcases Prog.Exec.of_bind hexec with ⟨p, hstoring, -⟩ | ⟨_, s, hstored, hrest⟩
      · exact hfirst hstoring
      · exact Audited.storePostBatches (hfirst hstored) hrest

theorem Audited.trigger {settings : Settings} {clock : Clock} {eventName : Text}
    {p' : Callback CaptureResult} (h : Audited tolerance node)
    (hexec : Prog.Exec Called node
      (recordDataAroundEventDetailed settings clock eventName) node' p') :
    Audited tolerance node' :=
  h.hands hexec (Prog.wp_exec (ledgered_exec hexec) ⟨.refl _, .inl rfl⟩
    (recordDataAroundEventDetailed_hands settings clock eventName node.system)).1

theorem Audited.scheduler {settings : Settings} {clock : Clock} {p' : Callback Unit}
    (h : Audited tolerance node)
    (hexec : Prog.Exec Called node (processExpiredCaptures settings clock) node' p') :
    Audited tolerance node' := by
  cases hexec with
  | refl => exact h
  | step hlatest hrest =>
      have h₁ := h.quiet (by simp [Quiet]) hlatest
      cases hrest with
      | refl => exact h₁
      | step hharvest hrest =>
          exact (h₁.quiet (by simp [Quiet]) hharvest).storePostBatches hrest

end Audited

theorem logCapture_kept (settings : Settings) (clock : Clock) (eventName : Text)
    (before after : System) (result : CaptureResult) :
    (logCapture settings clock eventName before after result).pairIndex =
        after.pairIndex ∧
      (logCapture settings clock eventName before after result).arrivals =
        after.arrivals ∧
      (logCapture settings clock eventName before after result).accepted =
        after.accepted := by
  unfold logCapture
  split <;> exact ⟨rfl, rfl, rfl⟩

theorem Running.audited {config : ConfigManager} {node : Intake}
    (h : Running config node) : Audited (loadTolerance config) node := by
  induction h with
  | start cameraAt lidarAt =>
      exact ⟨[], balanced_create config cameraAt lidarAt,
        fun _ h => absurd h List.not_mem_nil⟩
  | @image node now message _ ih =>
      obtain ⟨history, hbalanced, hdrawn⟩ := ih
      refine .grown (hbalanced.message "camera" now (.camera message.stamp (some message))
        (.addImage message) nofun fun sensor => by cases sensor <;> rfl) hdrawn ?_
      unfold handleImage
      dsimp only
      split <;> rfl
  | @pointCloud node now message _ ih =>
      obtain ⟨history, hbalanced, hdrawn⟩ := ih
      refine .grown (hbalanced.message "lidar" now (.lidar message.stamp (some message))
        (.addPointCloud message) nofun fun sensor => by cases sensor <;> rfl) hdrawn ?_
      unfold handlePointCloud
      dsimp only
      split <;> rfl
  | poll now _ ih =>
      exact ih.imp fun _ h => ⟨h.1.congr rfl rfl fun _ => rfl, h.2⟩
  | consume count _ ih =>
      exact ih.imp fun _ h => ⟨h.1.congr rfl rfl fun _ => rfl, h.2⟩
  | @trigger node node' result clock eventName _ hexec ih =>
      obtain ⟨history, hbalanced, hdrawn⟩ := ih.trigger hexec
      obtain ⟨hpairIndex, harrivals, haccepted⟩ := logCapture_kept (loadSettings config)
        clock eventName node.system node'.system result
      refine ⟨history, hbalanced.congr rfl hpairIndex fun sensor => ?_, ?_⟩
      · unfold offered
        rw [harrivals]
      · rwa [haccepted]
  | scheduler clock _ hexec ih => exact ih.scheduler hexec

theorem Active.audited {config : ConfigManager} {node : Intake}
    (h : Active config node) : Audited (loadTolerance config) node := by
  cases h with
  | between h => exact h.audited
  | trigger clock eventName h hexec => exact h.audited.trigger hexec
  | scheduler clock h hexec => exact h.audited.scheduler hexec

/-! ## The watchdog of the node -/

theorem run_concat (calls : List WatchdogCall) (call : WatchdogCall) :
    (SensorWatchdog.run (calls ++ [call])).1 =
      ((SensorWatchdog.run calls).1.call call).1 := by
  simp [SensorWatchdog.run]

/-- The watchdog has been through calls of its own, and no others. -/
def Watched (node : Intake) : Prop :=
  ∀ watchdog, node.watchdog = some watchdog →
    ∃ calls, (SensorWatchdog.run calls).1 = watchdog

theorem Watched.call {node node' : Intake} (h : node.Watched) (call : WatchdogCall)
    (hcall : node'.watchdog = node.watchdog.map fun watchdog => (watchdog.call call).1) :
    node'.Watched := by
  intro watchdog hwatchdog
  rw [hcall, Option.map_eq_some_iff] at hwatchdog
  obtain ⟨before, hbefore, rfl⟩ := hwatchdog
  obtain ⟨calls, rfl⟩ := h before hbefore
  exact ⟨calls ++ [call], run_concat calls call⟩

theorem Watched.congr {node node' : Intake} (h : node.Watched)
    (hsame : node'.watchdog = node.watchdog) : node'.Watched := fun watchdog hwatchdog =>
  h watchdog (hsame ▸ hwatchdog)

theorem watchdog_performs {node node' : Intake} {op : CaptureOp} {r : op.Res}
    (h : node.Performs op r node') : node'.watchdog = node.watchdog := by
  by_cases hflush : op = .flushPendingPairs
  · subst hflush
    obtain rfl : node' = node.flushPendingPairs := h
    rfl
  · obtain ⟨system, -, rfl⟩ := performs_of_ne_flush h hflush
    rfl

theorem watchdog_exec {α : Type} {node node' : Intake} {p p' : Callback α}
    (hexec : Prog.Exec Called node p node' p') : node'.watchdog = node.watchdog := by
  induction hexec with
  | refl => rfl
  | step heffect _ ih =>
      obtain ⟨before, after, between, hperforms, rfl⟩ := heffect
      have hsame := watchdog_performs hperforms
      exact ih.trans hsame

theorem watched_create (config : ConfigManager) (cameraAt lidarAt : Int) :
    (create config cameraAt lidarAt).Watched := by
  intro watchdog hwatchdog
  unfold create at hwatchdog
  dsimp only at hwatchdog
  split at hwatchdog
  · cases hwatchdog
    exact ⟨[(cameraAt, .registerSensor "camera" _), (lidarAt, .registerSensor "lidar" _)],
      rfl⟩
  · cases hwatchdog

theorem Running.watched {config : ConfigManager} {node : Intake}
    (h : Running config node) : node.Watched := by
  induction h with
  | start cameraAt lidarAt => exact watched_create config cameraAt lidarAt
  | image now message _ ih =>
      refine ih.call (now, .noteData "camera") ?_
      unfold handleImage
      dsimp only
      split <;> rfl
  | pointCloud now message _ ih =>
      refine ih.call (now, .noteData "lidar") ?_
      unfold handlePointCloud
      dsimp only
      split <;> rfl
  | poll now _ ih => exact ih.call (now, .poll) rfl
  | consume count _ ih => exact ih.congr rfl
  | trigger clock eventName _ hexec ih =>
      have hsame := watchdog_exec hexec
      exact ih.congr hsame
  | scheduler clock _ hexec ih => exact ih.congr (watchdog_exec hexec)

theorem Active.watched {config : ConfigManager} {node : Intake}
    (h : Active config node) : node.Watched := by
  cases h with
  | between h => exact h.watched
  | trigger clock eventName h hexec => exact h.watched.congr (watchdog_exec hexec)
  | scheduler clock h hexec => exact h.watched.congr (watchdog_exec hexec)

/-! ## The ledger is exact -/

theorem waiting_flush (synchronizer : ApproximateSynchronizer) (reason : Text)
    (sensor : SensorType) :
    (synchronizer.flushUnmatched reason).1.waiting sensor = [] := by
  have hempty : ∀ {α : Type} (sensor : SensorType) (stamp : α → Int) (lane : Lane α),
      (lane.flush sensor stamp reason).1.queue = [] := by
    intro α sensor stamp lane
    rw [Lane.flush, dropOver_eq]
    exact List.drop_length
  cases sensor with
  | camera => exact congrArg (List.map Image.stamp) (hempty _ _ _)
  | lidar => exact congrArg (List.map PointCloud2.stamp) (hempty _ _ _)

/--
At every moment of a run of the node: it is a run of the recording, whatever the
synchronizer was offered is found once, in its queues or in the history whose end the
ledger is, and the pairs that were handed over are exact records of that history.
The flush of a callback leaves nothing in the queues.
-/
theorem ledger_balanced {config : ConfigManager} {node : Intake}
    (h : Active config node) :
    Recording (loadSettings config) node.system ∧ node.Watched ∧
      (∃ history, Balanced (loadTolerance config) node history ∧
        ∀ entry ∈ node.system.accepted, entry.job.pairs ⊆ history) ∧
      ∀ sensor, node.flushPendingPairs.synchronizer.waiting sensor = [] :=
  ⟨h.recording, h.watched, h.audited, waiting_flush node.synchronizer eventWindowClosed⟩

/-! ### Two images and a point cloud -/

def sampleIntake : Intake :=
  (((create sampleSettings.config 0 0).handleImage 1
      ⟨10 * nanosPerSecond, 1, 1, "mono8", 1, [0]⟩).handlePointCloud 2
      ⟨10 * nanosPerSecond + 5, 1, 1, ["x"], 1, [0]⟩).handleImage 3
      ⟨12 * nanosPerSecond, 1, 1, "mono8", 1, [0]⟩

theorem active_sampleIntake : Active sampleSettings.config sampleIntake :=
  .between (.image 3 _ (.pointCloud 2 _ (.image 1 _ (.start 0 0))))

theorem ledger_balanced_sample :
    sampleIntake.system.pairIndex.records =
      [⟨1, true, true, 10 * nanosPerSecond, 10 * nanosPerSecond + 5, 5, .matched, []⟩] ∧
    ∃ history, Balanced (loadTolerance sampleSettings.config) sampleIntake history :=
  ⟨by decide +kernel, (ledger_balanced active_sampleIntake).2.2.1.imp fun _ h => h.1⟩

end Intake

end DataCache.Lifecycle
