import DataCache.Foundation.Ordered
import DataCache.Storage.Sweep

/-!
# The deletions of a sweep

Whatever deletions fail, the age limit tries what is older than its cutoff, and
the capacity limit goes on with the oldest of the rest until it fits.
-/

namespace DataCache.Storage

open DataCache.Foundation

/-- One call of `deleteDir`. -/
structure Attempt where
  dir : EventDir
  reason : Text
  deleted : Bool

/-- What a sweep finds. -/
structure Findings where
  collected : List EventDir
  sizeOf : EventDir → Nat
  systemNow : Int

/-- Deletions fail in any pattern, and the sort may order equal stamps anyhow. -/
def Attempting (found : Findings) : Prog.Effect SweepOp.Res (List Attempt)
  | log, .collectEventDirs, dirs, log' => log' = log ∧
      List.Perm dirs found.collected ∧ List.Pairwise EventDir.Older dirs
  | log, .directorySize dir, size, log' =>
      log' = log ∧ size = found.sizeOf dir
  | log, .systemNow, now, log' => log' = log ∧ now = found.systemNow
  | log, .deleteDir dir reason, deleted, log' =>
      log' = log ++ [⟨dir, reason, deleted⟩]
  | log, _, _, log' => log' = log

/-! ## What the two limits do -/

def Findings.measured (found : Findings) (dir : EventDir) : EventDir :=
  { dir with sizeBytes := found.sizeOf dir }

def bytesOf (dirs : List EventDir) : Nat := (dirs.map EventDir.sizeBytes).sum

def failedDirs (attempts : List Attempt) : List EventDir :=
  (attempts.filter fun attempt => !attempt.deleted).map Attempt.dir

/-- What is left of these directories after attempts on the first of them. -/
def undeleted (dirs : List EventDir) (attempts : List Attempt) : List EventDir :=
  failedDirs attempts ++ dirs.drop attempts.length

/-- The directories the age limit is for. -/
def tooOld (policy : Policy) (systemNow : Int) (dirs : List EventDir) :
    List EventDir :=
  if 0 < policy.retentionDays then
    dirs.filter fun dir =>
      decide (dir.timestampNs < cutoffNs systemNow policy.retentionDays)
  else []

/-- Attempts for the capacity limit on these directories. -/
structure CapacityRule (maxCapacityBytes : Nat) (dirs : List EventDir)
    (attempts : List Attempt) : Prop where
  reason : ∀ attempt ∈ attempts, attempt.reason = Sweep.capacityReason
  order : attempts.map Attempt.dir <+: dirs
  needed : ∀ before attempt after, attempts = before ++ attempt :: after →
    maxCapacityBytes < bytesOf (undeleted dirs before)
  enough : bytesOf (undeleted dirs attempts) ≤ maxCapacityBytes ∨
    attempts.map Attempt.dir = dirs

/-- A sweep that tries `aged` for the age limit and then `capped`. -/
structure SweepRuns (policy : Policy) (found : Findings) (dirs : List EventDir)
    (aged capped : List Attempt) : Prop where
  collected : dirs.Perm found.collected
  sorted : dirs.Pairwise EventDir.Older
  agedReason : ∀ attempt ∈ aged, attempt.reason = Sweep.ageReason
  ageOrder : aged.map Attempt.dir = tooOld policy found.systemNow dirs
  restSorted : (undeleted dirs aged).Pairwise EventDir.Older
  unlimited : policy.maxCapacityBytes = 0 → capped = []
  capacity : 0 < policy.maxCapacityBytes →
    CapacityRule policy.maxCapacityBytes
      ((undeleted dirs aged).map found.measured) capped

@[simp] theorem failedDirs_append (attempts later : List Attempt) :
    failedDirs (attempts ++ later) = failedDirs attempts ++ failedDirs later := by
  simp [failedDirs]

@[simp] theorem bytesOf_append (dirs later : List EventDir) :
    bytesOf (dirs ++ later) = bytesOf dirs + bytesOf later := by
  simp [bytesOf]

@[simp] theorem bytesOf_cons (dir : EventDir) (rest : List EventDir) :
    bytesOf (dir :: rest) = dir.sizeBytes + bytesOf rest := by
  simp [bytesOf]

theorem undeleted_cons (dir : EventDir) (rest : List EventDir)
    (attempt : Attempt) (attempts : List Attempt) :
    undeleted (dir :: rest) (attempt :: attempts) =
      (if attempt.deleted then [] else [attempt.dir]) ++
        undeleted rest attempts := by
  unfold undeleted failedDirs
  cases hdeleted : attempt.deleted <;> simp [hdeleted]

/-! ## The order of the sort -/

instance olderTotal : Std.Total EventDir.Older :=
  ⟨fun first second => le_total first.timestampNs second.timestampNs⟩

instance olderTrans : IsTrans EventDir EventDir.Older :=
  ⟨fun _ _ _ hfirst hsecond => le_trans hfirst hsecond⟩

/-- What `collectEventDirs` answers is sorted, whatever the file system does. -/
theorem collectEventDirs_sorted {σ : Type} (effect : Prog.Effect FsOp.Res σ)
    (policy : Policy) (s : σ) :
    Prog.wp effect (fun _ => True) (fun dirs _ => dirs.Pairwise EventDir.Older)
      (fun _ _ => True) (collectEventDirs policy) s := by
  intro listing s' _
  refine ⟨trivial, ?_⟩
  change Prog.wp _ _ _ _ ((collectFrom policy listing.1).bind _) _
  refine Prog.wp_bind (Prog.wp_mono (fun _ h => h) (fun dirs _ _ => ?_)
    (fun _ _ h => h) (Prog.wp_of_uses (fun _ _ _ _ _ _ _ => trivial)
      (Prog.uses_true (collectFrom policy listing.1)) trivial))
  exact dirs.pairwise_insertionSort EventDir.Older

/-! ## The age limit -/

section Runs

variable (found : Findings)

/-- Every execution from here returns with `post`. -/
abbrev SweepEnds {α : Type} (post : α → List Attempt → Prop) (p : Sweep α)
    (log : List Attempt) : Prop :=
  Prog.wp (Attempting found) (fun _ => True) post (fun _ _ => True) p log

theorem byAge_ends (cutoffNs : Int) (dirs : List EventDir) (log : List Attempt) :
    SweepEnds found (fun kept log' => ∃ aged, log' = log ++ aged ∧
      (∀ attempt ∈ aged, attempt.reason = Sweep.ageReason) ∧
      aged.map Attempt.dir =
        dirs.takeWhile (fun dir => decide (dir.timestampNs < cutoffNs)) ∧
      kept = undeleted dirs aged) (Sweep.byAge cutoffNs dirs) log := by
  induction dirs generalizing log with
  | nil => exact ⟨[], by simp [undeleted, failedDirs]⟩
  | cons dir rest ih =>
      unfold Sweep.byAge
      split
      next hold =>
        intro deleted log' hlog
        refine ⟨trivial, ?_⟩
        change Prog.wp _ _ _ _ ((Sweep.byAge cutoffNs rest).bind _) _
        refine Prog.wp_bind (Prog.wp_mono (fun _ h => h) ?_ (fun _ _ h => h)
          (ih log'))
        rintro kept log'' ⟨aged, rfl, hreason, haged, rfl⟩
        have hlog : log' = log ++ [⟨dir, Sweep.ageReason, deleted⟩] := hlog
        subst hlog
        refine ⟨⟨dir, Sweep.ageReason, deleted⟩ :: aged, by simp, ?_, ?_, ?_⟩
        · simpa using hreason
        · simp [hold, haged]
        · rw [undeleted_cons]
          cases (deleted : Bool) <;> rfl
      next hyoung => exact ⟨[], by simp [hyoung, undeleted, failedDirs]⟩

theorem takeWhile_older {dirs : List EventDir}
    (hsorted : dirs.Pairwise EventDir.Older) (cutoffNs : Int) :
    dirs.takeWhile (fun dir => decide (dir.timestampNs < cutoffNs)) =
      dirs.filter fun dir => decide (dir.timestampNs < cutoffNs) := by
  have hfilter := @takeWhile_eq_filter _ _ _ EventDir.timestampNs dirs hsorted
    (cutoffNs - 1)
  simpa only [Int.le_sub_one_iff] using hfilter

theorem dropWhile_older {dirs : List EventDir}
    (hsorted : dirs.Pairwise EventDir.Older) (cutoffNs : Int) :
    dirs.dropWhile (fun dir => decide (dir.timestampNs < cutoffNs)) =
      dirs.filter fun dir => !decide (dir.timestampNs < cutoffNs) := by
  have hfilter := @dropWhile_eq_filter _ _ _ EventDir.timestampNs dirs hsorted
    (cutoffNs - 1)
  simp only [Int.le_sub_one_iff, Int.sub_one_lt_iff] at hfilter
  simpa only [← decide_not, not_lt] using hfilter

theorem undeleted_sublist {dirs : List EventDir} {attempts : List Attempt}
    (h : attempts.map Attempt.dir <+: dirs) :
    (undeleted dirs attempts).Sublist dirs := by
  obtain ⟨rest, rfl⟩ := h
  have hdrop : (attempts.map Attempt.dir ++ rest).drop attempts.length = rest :=
    List.drop_left' (List.length_map _)
  rw [undeleted, hdrop]
  exact (List.filter_sublist.map Attempt.dir).append (.refl rest)

theorem applyAgeLimit_ends (policy : Policy) {dirs : List EventDir}
    (hsorted : dirs.Pairwise EventDir.Older) (log : List Attempt) :
    SweepEnds found (fun kept log' => ∃ aged, log' = log ++ aged ∧
      (∀ attempt ∈ aged, attempt.reason = Sweep.ageReason) ∧
      aged.map Attempt.dir = tooOld policy found.systemNow dirs ∧
      kept = undeleted dirs aged ∧ kept.Pairwise EventDir.Older)
      (Sweep.applyAgeLimit policy dirs) log := by
  unfold Sweep.applyAgeLimit
  split
  next hdays =>
    intro now log' hnow
    obtain ⟨rfl, rfl⟩ := hnow
    refine ⟨trivial, Prog.wp_mono (fun _ h => h) ?_ (fun _ _ h => h)
      (byAge_ends found _ dirs log')⟩
    rintro kept log'' ⟨aged, rfl, hreason, haged, rfl⟩
    have hsublist := undeleted_sublist (haged ▸ List.takeWhile_prefix _)
    refine ⟨aged, rfl, hreason, ?_, rfl, hsorted.sublist hsublist⟩
    rw [haged, takeWhile_older hsorted, tooOld, if_pos hdays]
  next hdays =>
    exact ⟨[], by simp, by simp, by simp [tooOld, hdays],
      by simp [undeleted, failedDirs], hsorted⟩

/-! ## The capacity limit -/

theorem measure_ends (dirs : List EventDir) (log : List Attempt) :
    SweepEnds found (fun measured log' =>
      log' = log ∧ measured = dirs.map found.measured)
      (Sweep.measure dirs) log := by
  induction dirs generalizing log with
  | nil => exact ⟨rfl, rfl⟩
  | cons dir rest ih =>
      intro size log' hsize
      obtain ⟨rfl, rfl⟩ := hsize
      refine ⟨trivial, ?_⟩
      change Prog.wp _ _ _ _ ((Sweep.measure rest).bind _) _
      refine Prog.wp_bind (Prog.wp_mono (fun _ h => h) ?_ (fun _ _ h => h)
        (ih log'))
      rintro measured log'' ⟨rfl, rfl⟩
      exact ⟨rfl, rfl⟩

/-- `spared` are the bytes of the directories that could not be deleted. -/
theorem byCapacity_ends (maxCapacityBytes spared : Nat) (dirs : List EventDir)
    (log : List Attempt) :
    SweepEnds found (fun _ log' => ∃ capped, log' = log ++ capped ∧
      (∀ attempt ∈ capped, attempt.reason = Sweep.capacityReason) ∧
      capped.map Attempt.dir <+: dirs ∧
      (∀ before attempt after, capped = before ++ attempt :: after →
        maxCapacityBytes < spared + bytesOf (undeleted dirs before)) ∧
      (spared + bytesOf (undeleted dirs capped) ≤ maxCapacityBytes ∨
        capped.map Attempt.dir = dirs))
      (Sweep.byCapacity maxCapacityBytes (spared + bytesOf dirs) dirs) log := by
  induction dirs generalizing spared log with
  | nil => exact ⟨[], by simp⟩
  | cons dir rest ih =>
      unfold Sweep.byCapacity
      split
      next hfits => exact ⟨[], by simpa [undeleted, failedDirs] using hfits⟩
      next hover =>
        refine fun (deleted : Bool) log' hlog => ⟨trivial, ?_⟩
        have hlog : log' = log ++ [⟨dir, Sweep.capacityReason, deleted⟩] := hlog
        subst hlog
        have htotal : ∀ deleted : Bool,
            (if deleted then spared + bytesOf (dir :: rest) - dir.sizeBytes
              else spared + bytesOf (dir :: rest)) =
            spared + bytesOf (if deleted then [] else [dir]) + bytesOf rest := by
          intro deleted
          cases deleted <;> simp [bytesOf] <;> omega
        change SweepEnds found _ (Sweep.byCapacity _ (ite _ _ _) rest) _
        rw [htotal]
        refine Prog.wp_mono (fun _ h => h) ?_ (fun _ _ h => h) (ih _ _)
        rintro _ log'' ⟨capped, rfl, hreason, horder, hneeded, henough⟩
        refine ⟨⟨dir, Sweep.capacityReason, deleted⟩ :: capped, by simp, ?_, ?_,
          ?_, ?_⟩
        · simpa using hreason
        · simpa using horder
        · intro before attempt after hsplit
          cases before with
          | nil => simpa [undeleted, failedDirs] using hover
          | cons first before =>
              obtain ⟨rfl, hbefore⟩ := List.cons.inj hsplit
              have hrest := hneeded before attempt after hbefore
              simp only [undeleted_cons, bytesOf_append]
              omega
        · refine henough.imp (fun hfits => ?_) fun hall => by simp [hall]
          simp only [undeleted_cons, bytesOf_append]
          omega

theorem applyCapacityLimit_ends (policy : Policy) (dirs : List EventDir)
    (log : List Attempt) :
    SweepEnds found (fun _ log' => ∃ capped, log' = log ++ capped ∧
      (policy.maxCapacityBytes = 0 → capped = []) ∧
      (0 < policy.maxCapacityBytes → CapacityRule policy.maxCapacityBytes
        (dirs.map found.measured) capped))
      (Sweep.applyCapacityLimit policy dirs) log := by
  unfold Sweep.applyCapacityLimit
  split
  next hlimit =>
    refine Prog.wp_bind (Prog.wp_mono (fun _ h => h) ?_ (fun _ _ h => h)
      (measure_ends found dirs log))
    rintro measured log' ⟨rfl, rfl⟩
    have hends := byCapacity_ends found policy.maxCapacityBytes 0
      (dirs.map found.measured) log'
    rw [Nat.zero_add] at hends
    refine Prog.wp_mono (fun _ h => h) ?_ (fun _ _ h => h) hends
    rintro _ log'' ⟨capped, rfl, hreason, horder, hneeded, henough⟩
    simp only [Nat.zero_add] at hneeded henough
    exact ⟨capped, rfl, fun hzero => by omega,
      fun _ => ⟨hreason, horder, hneeded, henough⟩⟩
  next hlimit =>
    exact ⟨[], by simp, fun _ => rfl, fun h => absurd h hlimit⟩

/-! ## A whole sweep -/

theorem sweep_ends (policy : Policy) (log : List Attempt) :
    SweepEnds found (fun _ log' => ∃ dirs aged capped,
      log' = log ++ (aged ++ capped) ∧ SweepRuns policy found dirs aged capped)
      (Sweep.sweep policy) log := by
  intro dirs log' hdirs
  obtain ⟨rfl, hperm, hsorted⟩ := hdirs
  refine ⟨trivial, ?_⟩
  change Prog.wp _ _ _ _ ((Sweep.applyAgeLimit policy dirs).bind _) _
  refine Prog.wp_bind (Prog.wp_mono (fun _ h => h) ?_ (fun _ _ h => h)
    (applyAgeLimit_ends found policy hsorted log'))
  rintro kept log'' ⟨aged, rfl, hreason, haged, rfl, hrest⟩
  refine Prog.wp_mono (fun _ h => h) ?_ (fun _ _ h => h)
    (applyCapacityLimit_ends found policy (undeleted dirs aged) (log' ++ aged))
  rintro _ log''' ⟨capped, rfl, hunlimited, hcapacity⟩
  exact ⟨dirs, aged, capped, by simp, hperm, hsorted, hreason, haged, hrest,
    hunlimited, hcapacity⟩

/-- Either the sweep is put off, or it runs as described. -/
theorem enforceRetention_ends (policy : Policy) (force : Bool)
    (log : List Attempt) :
    SweepEnds found (fun _ log' => (log' = log ∧ force = false) ∨
      ∃ dirs aged capped, log' = log ++ (aged ++ capped) ∧
        SweepRuns policy found dirs aged capped)
      (Sweep.enforceRetention policy force) log := by
  unfold Sweep.enforceRetention
  split
  next hdisabled =>
    simp only [Bool.and_eq_true, decide_eq_true_eq] at hdisabled
    have hsorted := found.collected.pairwise_insertionSort EventDir.Older
    refine .inr ⟨_, [], [], by simp, List.perm_insertionSort _ _, hsorted,
      by simp, ?_, hsorted, fun _ => rfl, fun hlimit => by omega⟩
    simp [tooOld, hdisabled.1]
  next henabled =>
    intro now log₁ hnow
    obtain rfl : log₁ = log := hnow
    refine ⟨trivial, fun lastSweep log₂ hlast => ⟨trivial, ?_⟩⟩
    obtain rfl : log₂ = log₁ := hlast
    change SweepEnds found _ (ite _ _ _) _
    split
    next hearly =>
      rw [Bool.and_eq_true, Bool.not_eq_true'] at hearly
      exact .inl ⟨rfl, hearly.1⟩
    next =>
      intro _ log₃ hset
      obtain rfl : log₃ = log₂ := hset
      exact ⟨trivial, Prog.wp_mono (fun _ h => h) (fun _ _ h => .inr h)
        (fun _ _ h => h) (sweep_ends found policy log₃)⟩

end Runs

/--
A forced sweep, or one that is due, deletes by age exactly what is older than
the cutoff, and by size the oldest of the rest, no more than needed.
-/
theorem sweep_deletes_oldest_first {found : Findings} {policy : Policy}
    {force : Bool} {log : List Attempt}
    (hexec : Prog.Exec (Attempting found) [] (Sweep.enforceRetention policy force)
      log (.ret ())) :
    (log = [] ∧ force = false) ∨ ∃ dirs aged capped, log = aged ++ capped ∧
      SweepRuns policy found dirs aged capped := by
  have hends := enforceRetention_ends found policy force []
  exact (Prog.wp_exec hexec trivial hends).2

/-! ### A run -/

/-- Deletions of these directories fail. -/
def Findings.respond (found : Findings) (fails : List Text)
    (log : List Attempt) : (op : SweepOp) → Option (op.Res × List Attempt)
  | .steadyNow => some ((0 : Int), log)
  | .systemNow => some (found.systemNow, log)
  | .lastSweep => some ((0 : Int), log)
  | .setLastSweep _ => some ((), log)
  | .collectEventDirs =>
      some (found.collected.insertionSort EventDir.Older, log)
  | .directorySize dir => some (found.sizeOf dir, log)
  | .deleteDir dir reason =>
      let deleted := !fails.contains dir.name
      some (deleted, log ++ [⟨dir, reason, deleted⟩])

theorem sweeping_respond {found : Findings} {fails : List Text}
    {log log' : List Attempt} {op : SweepOp} {r : op.Res}
    (h : found.respond fails log op = some (r, log')) :
    Attempting found log op r log' := by
  cases op with
  | collectEventDirs =>
      cases h
      exact ⟨rfl, List.perm_insertionSort _ _, List.pairwise_insertionSort _ _⟩
  | systemNow => cases h; exact ⟨rfl, rfl⟩
  | directorySize dir => cases h; exact ⟨rfl, rfl⟩
  | deleteDir dir reason => cases h; exact rfl
  | _ => cases h; exact rfl

/-- Name, stamp, reason and outcome. -/
def Attempt.summary (attempt : Attempt) : Text × Int × Text × Bool :=
  (attempt.dir.name, attempt.dir.timestampNs, attempt.reason, attempt.deleted)

/-- A run that ends with these attempts. -/
theorem exec_of_respond {found : Findings} {fails : List Text}
    {policy : Policy} {force : Bool} {attempts : List (Text × Int × Text × Bool)}
    (h : ((Prog.tryRun (found.respond fails)
      (Sweep.enforceRetention policy force) []).any fun outcome =>
        outcome.1.isOk && outcome.2.map Attempt.summary == attempts) = true) :
    ∃ log, Prog.Exec (Attempting found) [] (Sweep.enforceRetention policy force)
        log (.ret ()) ∧ log.map Attempt.summary = attempts := by
  obtain ⟨⟨outcome, log⟩, hrun, hcheck⟩ := (Option.any_eq_true _ _).mp h
  rw [Bool.and_eq_true, beq_iff_eq] at hcheck
  have hexec := @Prog.exec_tryRun _ _ _ _ _ (Attempting found)
    (found.respond fails) (fun _ _ _ _ => sweeping_respond) _ _ _ _ hrun
  cases outcome with
  | error error => exact absurd hcheck.1 Bool.false_ne_true
  | ok value => exact ⟨log, hexec, hcheck.2⟩

def samplePolicy : Policy where
  minFreeBytes := 0
  maxCapacityBytes := 100
  retentionDays := 1
  cleanupSeconds := 60
  protectUnuploaded := false

/-- Two old directories, two that are equally old, and a new one. -/
def sampleFindings : Findings where
  collected := [⟨"e", 10 ^ 18 - 1, 0⟩, ⟨"c", 10 ^ 18 - 5, 0⟩, ⟨"b", 7, 0⟩,
    ⟨"d", 10 ^ 18 - 5, 0⟩, ⟨"a", 5, 0⟩]
  sizeOf dir :=
    if dir.name = ("c" : Text) then 70
    else if dir.name = ("e" : Text) then 10
    else 30
  systemNow := 10 ^ 18

def sampleAttempts : List (Text × Int × Text × Bool) :=
  [("a", 5, Sweep.ageReason, false), ("b", 7, Sweep.ageReason, true),
    ("a", 5, Sweep.capacityReason, false),
    ("c", 10 ^ 18 - 5, Sweep.capacityReason, true)]

theorem sweep_deletes_oldest_first_sample :
    ∃ log, log.map Attempt.summary = sampleAttempts ∧
      ∃ dirs aged capped, log = aged ++ capped ∧
        SweepRuns samplePolicy sampleFindings dirs aged capped := by
  obtain ⟨log, hexec, hlog⟩ := @exec_of_respond sampleFindings ["a"] samplePolicy
    true sampleAttempts (by decide +kernel)
  exact ⟨log, hlog, (sweep_deletes_oldest_first hexec).resolve_left fun h =>
    Bool.noConfusion h.2⟩

/-! ## The cutoff -/

/-- Every number that is formed on the way to the cutoff. -/
def cutoffSteps (systemNow retentionDays : Int) : List Int :=
  [retentionDays * 24, retentionDays * 24 * 3600,
    retentionDays * 24 * 3600 * Capture.nanosPerSecond,
    systemNow - retentionDays * 24 * 3600 * Capture.nanosPerSecond]

/-- Nothing overflows, and only what is older than the limit goes by age. -/
structure AgeRuleExact (policy : Policy) (retentionDays systemNow : Int) :
    Prop where
  inRange : ∀ value ∈ cutoffSteps systemNow policy.retentionDays, IsInt64 value
  exact : cutoffNs systemNow policy.retentionDays =
    systemNow - retentionDays * nanosPerDay
  youngKept : ∀ found force log, found.systemNow = systemNow →
    Prog.Exec (Attempting found) [] (Sweep.enforceRetention policy force) log
      (.ret ()) →
    ∀ attempt ∈ log, attempt.reason = Sweep.ageReason →
      attempt.dir.timestampNs < systemNow - retentionDays * nanosPerDay

theorem wrapInt64_of_isInt64 {value : Int} (h : IsInt64 value) :
    wrapInt64 value = value := by
  obtain ⟨hlow, hhigh⟩ := h
  exact Int.bmod_eq_of_le (by omega) (by omega)

theorem cutoffNs_of_inRange {systemNow retentionDays : Int}
    (h : ∀ value ∈ cutoffSteps systemNow retentionDays, IsInt64 value) :
    cutoffNs systemNow retentionDays =
      systemNow - retentionDays * nanosPerDay := by
  simp only [cutoffSteps, List.forall_mem_cons] at h
  obtain ⟨hhours, hseconds, hnanos, hcutoff, -⟩ := h
  rw [cutoffNs, retentionNs, wrapInt64_of_isInt64 hhours,
    wrapInt64_of_isInt64 hseconds, wrapInt64_of_isInt64 hnanos,
    wrapInt64_of_isInt64 hcutoff, nanosPerDay]
  ring

theorem SweepRuns.aged_tooOld {policy : Policy} {found : Findings}
    {dirs : List EventDir} {aged capped : List Attempt}
    (h : SweepRuns policy found dirs aged capped) {attempt : Attempt}
    (hattempt : attempt ∈ aged ++ capped)
    (hreason : attempt.reason = Sweep.ageReason) :
    attempt.dir.timestampNs < cutoffNs found.systemNow policy.retentionDays := by
  rcases List.mem_append.mp hattempt with hmem | hmem
  · have hdir := List.mem_map_of_mem (f := Attempt.dir) hmem
    rw [h.ageOrder, tooOld] at hdir
    split at hdir
    · exact of_decide_eq_true (List.mem_filter.mp hdir).2
    · cases hdir
  · by_cases hlimit : policy.maxCapacityBytes = 0
    · rw [h.unlimited hlimit] at hmem
      cases hmem
    · have hcapacity := (h.capacity (by omega)).reason attempt hmem
      rw [hreason] at hcapacity
      exact absurd hcapacity (by decide)

theorem retentionDays_loadDiskPolicy {config : Capture.ConfigManager}
    {days : Int} (hdays : config.getIntConfig "retention_days" 30 = days)
    (hpositive : 1 ≤ days) : (loadDiskPolicy config).retentionDays = days := by
  change max 0 _ = days
  rw [hdays]
  omega

/-- The age limit is exact up to the largest number of days that fits. -/
theorem ageRule_exact_iff {config : Capture.ConfigManager}
    {days systemNow : Int}
    (hdays : config.getIntConfig "retention_days" 30 = days)
    (hlow : 1 ≤ days) (hhigh : days ≤ 2 ^ 31 - 1) (hnow : 2 ^ 60 ≤ systemNow)
    (hnow' : systemNow ≤ 2 ^ 62) :
    AgeRuleExact (loadDiskPolicy config) days systemNow ↔ days ≤ 106751 := by
  have hpolicy := retentionDays_loadDiskPolicy hdays hlow
  constructor
  · intro h
    have hnanos := (h.inRange (days * 24 * 3600 * Capture.nanosPerSecond)
      (by rw [hpolicy]; simp [cutoffSteps])).2
    rw [Capture.nanosPerSecond] at hnanos
    omega
  · intro hfits
    have hinRange : ∀ value ∈ cutoffSteps systemNow
        (loadDiskPolicy config).retentionDays, IsInt64 value := by
      rw [hpolicy]
      simp only [cutoffSteps, List.forall_mem_cons, List.not_mem_nil,
        false_imp_iff, implies_true, and_true, IsInt64, Capture.nanosPerSecond]
      omega
    have hexact := cutoffNs_of_inRange hinRange
    refine ⟨hinRange, by rw [hexact, hpolicy], ?_⟩
    intro found force log hfound hexec attempt hattempt hreason
    have hends := enforceRetention_ends found (loadDiskPolicy config) force []
    rcases (Prog.wp_exec hexec trivial hends).2 with
      ⟨rfl, -⟩ | ⟨dirs, aged, capped, rfl, hruns⟩
    · cases hattempt
    · have hold := hruns.aged_tooOld hattempt hreason
      rwa [hfound, hexact, hpolicy] at hold

/-- Only the limit on the age is set. -/
def ageOnly (days : Int) : Capture.ConfigManager where
  getConfig := fun _ => []
  getIntConfig := fun key value =>
    if key = ("retention_days" : Text) then days
    else if key = ("retention_max_capacity_mb" : Text) then 0
    else value
  getBoolConfig := fun _ value => value

theorem ageRule_exact_month :
    AgeRuleExact (loadDiskPolicy (ageOnly 30)) 30 (1700000000 * 10 ^ 9) :=
  have hdays : (ageOnly 30).getIntConfig "retention_days" 30 = 30 := rfl
  (ageRule_exact_iff hdays (by norm_num) (by norm_num) (by norm_num)
    (by norm_num)).mpr (by norm_num)

/-- A directory that is written at this moment. -/
def newFindings : Findings where
  collected := [⟨"a_0_1700000000000000000", 1700000000 * 10 ^ 9, 0⟩]
  sizeOf := fun _ => 10
  systemNow := 1700000000 * 10 ^ 9

/-- With 200000 days the cutoff lies in the future. -/
theorem new_directory_deleted_by_age :
    ¬∀ found force log, found.systemNow = 1700000000 * 10 ^ 9 →
      Prog.Exec (Attempting found) []
        (Sweep.enforceRetention (loadDiskPolicy (ageOnly 200000)) force) log
        (.ret ()) →
      ∀ attempt ∈ log, attempt.reason = Sweep.ageReason →
        attempt.dir.timestampNs < 1700000000 * 10 ^ 9 - 200000 * nanosPerDay := by
  intro h
  obtain ⟨log, hexec, hlog⟩ := @exec_of_respond newFindings []
    (loadDiskPolicy (ageOnly 200000)) true
    [("a_0_1700000000000000000", 1700000000 * 10 ^ 9, Sweep.ageReason, true)]
    (by decide +kernel)
  obtain ⟨attempt, rest, rfl, hsummary, -⟩ := List.map_eq_cons_iff.mp hlog
  obtain ⟨-, hstamp, hreason, -⟩ := by
    simpa only [Attempt.summary, Prod.mk.injEq] using hsummary
  have hyoung := h newFindings true _ rfl hexec attempt List.mem_cons_self hreason
  rw [hstamp] at hyoung
  exact absurd hyoung (by decide)

end DataCache.Storage
