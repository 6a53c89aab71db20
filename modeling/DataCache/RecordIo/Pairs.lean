import DataCache.RecordIo.Manifest
import DataCache.Storage.Rounds

/-!
# The ledger of pairs

`writePairs` appends the pairs of a job to `pairs.csv` and `readPairs` reads
the whole file.  Over any number of calls the file holds one header and the
rows of all pairs in order, and every row reads back as the pair it was
written from.
-/

namespace DataCache.RecordIo

open DataCache.Foundation DataCache.Capture DataCache.Storage

/-! ## Reading -/

structure PairEntry where
  pairId : Nat
  status : Bytes
  cameraTimestampNs : Int
  lidarTimestampNs : Int
  timeDiffNs : Int
  reason : Bytes
  deriving DecidableEq

/-- An empty field leaves the stamp at its default. -/
def parseStamp (field : Bytes) : Option Int :=
  if field.isEmpty then some 0 else parseI64 field

def parsePairRow (lineNumber : Nat) (fields : List Bytes) :
    Except Bytes PairEntry :=
  match fields with
  | pairId :: status :: camera :: lidar :: difference :: reason :: _ =>
      match parseU64 pairId with
      | none => .error (lineOf "pairs.csv" lineNumber ++
          ascii "invalid pair_id '" ++ pairId ++ ascii "'")
      | some pairId =>
          match parseStamp camera, parseStamp lidar, parseI64 difference with
          | some camera, some lidar, some difference =>
              .ok ⟨pairId, status, camera, lidar, difference, reason⟩
          | _, _, _ => .error (lineOf "pairs.csv" lineNumber ++
              ascii "invalid numeric field")
  | fields => .error (lineOf "pairs.csv" lineNumber ++
      ascii "expected 6 fields, got " ++ encodeUtf8 (showNat fields.length))

/-- The entries of `pairs.csv`, and the problems noted on the way. -/
def readPairs (disk : FileSystem) (directory : Text) :
    List PairEntry × List Bytes :=
  readList parsePairRow (disk.read? (pairsPath directory))

/-! ## Rows -/

/-- A pair whose numbers fit their types and whose reason is one field. -/
structure OneRow (pair : PairRecord) : Prop where
  pairId : pair.pairId < 2 ^ 64
  camera : pair.hasCamera = true → InInt64 pair.cameraTimestamp
  lidar : pair.hasLidar = true → InInt64 pair.lidarTimestamp
  difference : InInt64 pair.difference
  reason : ',' ∉ pair.reason ∧ '\r' ∉ pair.reason ∧ '\n' ∉ pair.reason

/-- What is to be read of a pair: 0 for the stamp of an absent side. -/
def entryOf (pair : PairRecord) : PairEntry where
  pairId := pair.pairId
  status := encodeUtf8 (pairStatusText pair.status)
  cameraTimestampNs := if pair.hasCamera then pair.cameraTimestamp else 0
  lidarTimestampNs := if pair.hasLidar then pair.lidarTimestamp else 0
  timeDiffNs := pair.difference
  reason := encodeUtf8 pair.reason

def stampField (present : Bool) (stamp : Int) : Text :=
  if present then showInt stamp else []

def pairFields (pair : PairRecord) : List Text :=
  [showNat pair.pairId, pairStatusText pair.status,
    stampField pair.hasCamera pair.cameraTimestamp,
    stampField pair.hasLidar pair.lidarTimestamp, showInt pair.difference,
    pair.reason]

theorem encodeUtf8_renderPair (pair : PairRecord) :
    encodeUtf8 (renderPair pair) = csvLine (pairFields pair) ++ [byteOf '\n'] := by
  have hcomma := @encodeUtf8_cons_of_isAscii ',' (by decide)
  have hnewline := @encodeUtf8_cons_of_isAscii '\n' (by decide)
  simp [renderPair, csvLine, pairFields, stampField, encodeUtf8_append,
    List.intercalate_cons_cons, hcomma, hnewline]

theorem parseStamp_stampField {present : Bool} {stamp : Int}
    (h : present = true → InInt64 stamp) :
    parseStamp (encodeUtf8 (stampField present stamp)) =
      some (if present then stamp else 0) := by
  cases present with
  | false => rfl
  | true =>
      have hne : showInt stamp ≠ [] := by
        cases stamp <;> simp [showInt, showNat_ne_nil]
      simp [parseStamp, stampField, hne, parseI64_showInt (h rfl)]

theorem OneRow.clean {pair : PairRecord} (h : OneRow pair) :
    CleanFields (pairFields pair) := by
  intro c hc
  have hcases : c = ',' ∨ c = '\r' ∨ c = '\n' := by simpa using hc
  have hdigit : c.isDigit = false := by
    rcases hcases with rfl | rfl | rfl <;> decide
  have hminus : c ≠ '-' := by rcases hcases with rfl | rfl | rfl <;> decide
  have hstatus : ∀ status, c ∉ pairStatusText status := by
    intro status
    rcases hcases with rfl | rfl | rfl <;> cases status <;> decide
  have hstamp : ∀ present stamp, c ∉ stampField present stamp := by
    intro present stamp
    cases present with
    | false => simp [stampField]
    | true => simpa [stampField] using not_mem_showInt hdigit hminus stamp
  simp only [pairFields, List.mem_cons, List.not_mem_nil, or_false] at hc ⊢
  rintro field (rfl | rfl | rfl | rfl | rfl | rfl)
  · exact not_mem_showNat hdigit _
  · exact hstatus _
  · exact hstamp _ _
  · exact hstamp _ _
  · exact not_mem_showInt hdigit hminus _
  · rcases hc with rfl | rfl | rfl
    · exact h.reason.1
    · exact h.reason.2.1
    · exact h.reason.2.2

theorem parsePairRow_pairFields {pair : PairRecord} (h : OneRow pair)
    (lineNumber : Nat) :
    parsePairRow lineNumber (splitCsvLine (csvLine (pairFields pair))) =
      .ok (entryOf pair) := by
  rw [splitCsvLine_csvLine h.clean (by simp [pairFields])]
  simp [parsePairRow, pairFields, parseU64_showNat h.pairId,
    parseStamp_stampField h.camera, parseStamp_stampField h.lidar,
    parseI64_showInt h.difference, entryOf]

theorem csvLine_pairFields_ne_nil (pair : PairRecord) :
    csvLine (pairFields pair) ≠ [] := by
  simp [csvLine, pairFields, List.intercalate_cons_cons]

/-! ## The file -/

def pairsBytes (pairs : List PairRecord) : Bytes :=
  encodeUtf8 pairsHeader ++ pairs.flatMap fun pair => encodeUtf8 (renderPair pair)

/-- What the file is once these pairs have been written. -/
def LedgerHolds (directory : Text) (pairs : List PairRecord)
    (disk : FileSystem) : Prop :=
  (pairs = [] ∧ disk.read? (pairsPath directory) = none) ∨
    disk.read? (pairsPath directory) = some (pairsBytes pairs)

theorem LedgerHolds.of_sameAt {directory : Text} {pairs : List PairRecord}
    {disk disk' : FileSystem} (h : LedgerHolds directory pairs disk)
    (hsame : Disk.SameAt (pairsPath directory) disk disk') :
    LedgerHolds directory pairs disk' := by
  rw [LedgerHolds, hsame.read?]
  exact h

theorem pairsBytes_ne_nil (pairs : List PairRecord) : pairsBytes pairs ≠ [] :=
  fun h => absurd (List.append_eq_nil_iff.mp h).1 (by decide +kernel)

theorem readPairs_of_holds {directory : Text} {pairs : List PairRecord}
    {disk : FileSystem} (h : LedgerHolds directory pairs disk)
    (hrows : ∀ pair ∈ pairs, OneRow pair) :
    readPairs disk directory = (pairs.map entryOf, []) := by
  rcases h with ⟨rfl, hnone⟩ | hread
  · rw [readPairs, hnone]
    rfl
  · have hheader : encodeUtf8 pairsHeader =
        encodeUtf8 pairsHeader.dropLast ++ [byteOf '\n'] := by decide +kernel
    rw [readPairs, hread, pairsBytes, hheader]
    simp only [encodeUtf8_renderPair]
    exact readList_written (by decide +kernel) fun pair hpair =>
      ⟨newline_not_mem_csvLine (hrows pair hpair).clean,
        csvLine_pairFields_ne_nil pair, parsePairRow_pairFields (hrows pair hpair)⟩

/-! ## Writing -/

section Writing

variable {codec : Codec} {directory : Text} {s : Watched}

theorem putAll_does {path : Path} (howned : Owned directory path) :
    ∀ (rows : List Bytes) {stream : Stream} {content : Bytes} {s : Watched},
      stream.Holds path content s →
      Does codec directory (fun other => other = path) (stream.putAll path rows) s
        fun stream' s' => stream'.Holds path (content ++ rows.flatten) s'
  | [], stream, content, s, h => Does.pure fun _ => by simpa using h
  | data :: rest, stream, content, s, h => by
      refine Does.bind (Stream.put_does howned h data) fun next s' _ _ hput => ?_
      have hrest := putAll_does howned rest hput
      rwa [List.append_assoc] at hrest

theorem writePairs_holds {before : List PairRecord}
    (h : LedgerHolds directory before s.disk) (pairs : List PairRecord) :
    Does codec directory (fun path => path = pairsPath directory)
      (writePairs directory pairs) s fun ok s' =>
        ok = true → LedgerHolds directory (before ++ pairs) s'.disk := by
  have howned := owned_pairs directory
  unfold writePairs
  split
  next hempty =>
    refine Does.pure fun _ _ => ?_
    rwa [List.isEmpty_iff.mp hempty, List.append_nil]
  refine Does.perform (confined_of nofun fun _ h => h)
    fun opened s₁ hopen _ _ => ?_
  cases opened with
  | none => exact Does.pure fun _ => nofun
  | some position =>
      obtain ⟨hposition, hread⟩ := hopen.openAppend howned
      have hcontent : (if (s.disk.read? (pairsPath directory)).getD [] = [] then
          encodeUtf8 pairsHeader else
            (s.disk.read? (pairsPath directory)).getD []) = pairsBytes before := by
        rcases h with ⟨rfl, hnone⟩ | hsome
        · simp [hnone, pairsBytes]
        · rw [hsome, Option.getD_some, if_neg (pairsBytes_ne_nil before)]
      refine Does.bind (Stream.start_does pairsHeader howned hread hposition)
        fun started s₂ _ _ hstart => ?_
      rw [hcontent] at hstart
      refine Does.bind (putAll_does howned _ hstart) fun filled s₃ _ _ hfilled => ?_
      refine Does.bind (Stream.flush_does howned hfilled)
        fun flushed s₄ _ _ hflushed => ?_
      refine Does.bind (Stream.close_does rfl fun hgood => (hflushed hgood).2)
        fun _ s₅ _ _ hclosed => Does.pure fun _ hgood => .inr ?_
      rw [hclosed hgood, (hflushed hgood).1]
      simp [pairsBytes, List.flatMap_def]

end Writing

/-! ## Successive calls -/

/--
Calls of `writePairs` that all reported success, one after another.  Between
two calls anything may happen that leaves `pairs.csv` alone.
-/
inductive LedgerRun (codec : Codec) (directory : Text) :
    Watched → List (List PairRecord) → Watched → Prop
  | done (s : Watched) : LedgerRun codec directory s [] s
  | call {s s' s'' : Watched} {pairs : List PairRecord}
      {calls : List (List PairRecord)}
      (hexec : Prog.Exec (WorkerEffect codec directory)
        s (writePairs directory pairs) s' (.ret true))
      (hrest : LedgerRun codec directory s' calls s'') :
      LedgerRun codec directory s (pairs :: calls) s''
  | between {s s' s'' : Watched} {calls : List (List PairRecord)}
      (hframe : Frame directory (fun path => path ≠ pairsPath directory) s s')
      (hrest : LedgerRun codec directory s' calls s'') :
      LedgerRun codec directory s calls s''

section Runs

variable {codec : Codec} {directory : Text} {s s' : Watched}
  {calls : List (List PairRecord)}

theorem LedgerRun.swept (h : LedgerRun codec directory s calls s')
    (hswept : s'.swept = false) : s.swept = false := by
  induction h with
  | done s => exact hswept
  | @call s₀ s₁ s₂ pairs calls hexec _ ih =>
      have hwrite : Does codec directory (fun path => path = pairsPath directory)
          (writePairs directory pairs) s₀ fun _ _ => True := writePairs_does pairs
      exact (Prog.wp_exec hexec (Frame.refl s₀) hwrite).1.swept (ih hswept)
  | between hframe _ ih => exact hframe.swept (ih hswept)

theorem LedgerRun.holds (h : LedgerRun codec directory s calls s')
    {before : List PairRecord} (hbefore : LedgerHolds directory before s.disk)
    (hswept : s'.swept = false) :
    LedgerHolds directory (before ++ calls.flatten) s'.disk := by
  induction h generalizing before with
  | done s => simpa using hbefore
  | @call s₀ s₁ s₂ pairs calls hexec hrest ih =>
      have hwrite : Does codec directory (fun path => path = pairsPath directory)
          (writePairs directory pairs) s₀ _ := writePairs_holds hbefore pairs
      have hpost := (Prog.wp_exec hexec (Frame.refl s₀) hwrite).2
      have hholds := ih (hpost.2 (hrest.swept hswept) rfl) hswept
      rwa [List.append_assoc] at hholds
  | between hframe hrest ih =>
      exact ih (hbefore.of_sameAt (hframe.same (hrest.swept hswept) _
        (owned_pairs directory) fun hne => hne rfl)) hswept

/--
All pairs written over any number of successful calls read back in order and
without problems, unless the whole directory has been removed meanwhile.
-/
theorem readPairs_writePairs (h : LedgerRun codec directory s calls s')
    (hstart : s.disk.read? (pairsPath directory) = none)
    (hswept : s'.swept = false)
    (hrows : ∀ pair ∈ calls.flatten, OneRow pair) :
    readPairs s'.disk directory = (calls.flatten.map entryOf, []) := by
  have hholds := h.holds (.inl ⟨rfl, hstart⟩) hswept
  exact readPairs_of_holds hholds hrows

end Runs

def matchedPair : PairRecord where
  pairId := 2 ^ 64 - 1
  hasCamera := true
  hasLidar := true
  cameraTimestamp := -2 ^ 63
  lidarTimestamp := 2 ^ 63 - 1
  difference := -7
  status := .matched
  reason := []

def cameraOnlyPair : PairRecord where
  pairId := 2
  hasCamera := true
  hasLidar := false
  cameraTimestamp := 40
  lidarTimestamp := 0
  difference := 0
  status := .cameraOnly
  reason := "unmatched camera"

def madeDirectory : Watched :=
  ⟨⟨(Disk.blank.mkdirs [brakeDirectory]).getD .blank, 0⟩, false⟩

theorem readPairs_writePairs_sample : ∃ s' : Watched,
    LedgerRun EventState.plainCodec brakeDirectory madeDirectory
      [[matchedPair], [], [cameraOnlyPair, matchedPair]] s' ∧
    readPairs s'.disk brakeDirectory =
      ([entryOf matchedPair, entryOf cameraOnlyPair, entryOf matchedPair], []) := by
  have hrun : Prog.passes
      (Watched.respond EventState.plainCodec 0 brakeDirectory)
      (fun ok s => ok && Prog.passes
        (Watched.respond EventState.plainCodec 0 brakeDirectory)
        (fun ok s' => ok && !s'.swept)
        (writePairs brakeDirectory [cameraOnlyPair, matchedPair]) s)
      (writePairs brakeDirectory [matchedPair]) madeDirectory = true := by
    decide +kernel
  obtain ⟨_, s₁, hfirst, hsecond⟩ := watched_exec hrun
  rw [Bool.and_eq_true] at hsecond
  obtain ⟨rfl, hsecond⟩ := hsecond
  obtain ⟨_, s', hlast, hunswept⟩ := watched_exec hsecond
  rw [Bool.and_eq_true] at hunswept
  obtain ⟨rfl, hunswept⟩ := hunswept
  have hledger : LedgerRun EventState.plainCodec brakeDirectory madeDirectory
      [[matchedPair], [], [cameraOnlyPair, matchedPair]] s' :=
    .call hfirst (.call (.refl _ _) (.call hlast (.done s')))
  refine ⟨s', hledger, readPairs_writePairs hledger (by decide +kernel)
    (by simpa using hunswept) ?_⟩
  intro pair hpair
  simp only [List.flatten_cons, List.flatten_nil, List.mem_append,
    List.mem_cons, List.not_mem_nil, or_false, false_or] at hpair
  rcases hpair with rfl | rfl | rfl <;>
    exact ⟨by decide, fun _ => by decide, fun _ => by decide, by decide,
      by decide⟩

end DataCache.RecordIo
