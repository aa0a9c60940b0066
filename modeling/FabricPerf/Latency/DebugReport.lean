import FabricPerf.Analysis.TraceRoot
import FabricPerf.Latency.MailboxDebug
import FabricPerf.Lib.Keyed
import FabricPerf.Lib.Rounding
import Mathlib.Data.List.Sort

/-
  `analysis/mailbox_debug.py`: from the files under a trace
  root to the table of counts and the table of pairs.

  Both tables are computed from the same records by loops of
  their own, the one over all records and the other over the
  groups of two dictionaries; the second accounts for every
  record that the first counts.

  Main declarations:
    * `Latency.readDebugRecords`
    * `Latency.debugCounts`, `Latency.pairRows`
    * `Latency.analyzeRoot`
    * `Latency.pair_rows_account`
-/

------------------------------------------------------------
-- Records
------------------------------------------------------------

namespace FabricPerf

namespace Latency

open Analysis Raising

/- What a generated reader returns for a map: nested lists. -/
inductive MapOutput where
| record (record : Record)
| items (values : List MapOutput)

mutual

/- `flatten_records` -/
def flattenRecords : MapOutput → List Record
| .record record => [record]
| .items values => flattenItems values

/- Its loop over a list. -/
def flattenItems : List MapOutput → List Record
| [] => []
| value :: rest => flattenRecords value ++ flattenItems rest

end

/- `DebugRecord` -/
structure DebugRecord where
  trace : String
  rank : Nat
  src : Int
  vblock : Int
  pollCount : Int
  latency : Int
  step : Int
  tag : Int
  tagStep : Int
  tagRunId : Int
  tagKind : Int
  senderTime : Int
  offset : Int
  correctedSenderTime : Int
  localTime : Int
  invalid : Bool
deriving DecidableEq, Repr

/- `is_unwritten_debug_record` -/
def isUnwrittenDebugRecord (record : Record) : Bool :=
  record.type.names.all (fun field => record.attr field = 0)

/- The `DebugRecord` of one row. -/
def debugRecord
    (traceName : String)
    (rank : Nat)
    (record : Record) : Except PyErr DebugRecord := do
  let info ← record.getAttr "meta"
  let (pollCount, src, vblock) := decodeMeta info
  let tag ← record.getAttr "tag"
  let (tagStep, tagRunId, tagKind) := decodeTag tag
  let latency ← record.getAttr "latency"
  let step ← record.getAttr "step"
  let senderTime ← record.getAttr "sender_time"
  let offset ← record.getAttr "offset"
  let corrected ← record.getAttr "corrected_sender_time"
  let localTime ← record.getAttr "local_time"
  pure
    { trace := traceName
      rank := rank
      src := src
      vblock := vblock
      pollCount := pollCount
      latency := latency
      step := step
      tag := tag
      tagStep := tagStep
      tagRunId := tagRunId
      tagKind := tagKind
      senderTime := senderTime
      offset := offset
      correctedSenderTime := corrected
      localTime := localTime
      invalid := decodeInvalid info latency }

/- What `parse` returns: the output of each map by its name. -/
abbrev DebugMaps := String → Option MapOutput

/- The records of one result file. -/
def readDebugFile
    (traceName : String)
    (rank : Nat)
    (parse : ResultFile → Except PyErr DebugMaps)
    (file : ResultFile) : Except PyErr (List DebugRecord) := do
  let records ← parse file
  match records "sr_latency_debug" with
  | none => return []
  | some output =>
      ((flattenRecords output).filter
        (fun record => !isUnwrittenDebugRecord record)).mapM
          (debugRecord traceName rank)

/- The records of one trace directory. -/
def readDebugDir
    (dir : String × Analysis.TraceDir DebugMaps) :
    Except PyErr (List DebugRecord) := do
  let rank ← dir.2.parseRank
  let parse ← dir.2.loadReader
  let files ←
    dir.2.resultFiles.mapM (readDebugFile dir.1 rank parse)
  return files.flatten

/- `read_debug_records` -/
def readDebugRecords
    (root : TraceRoot DebugMaps) :
    Except PyErr (List DebugRecord) := do
  let dirs ← root.iterTraceDirs
  let records ← dirs.mapM readDebugDir
  return records.flatten

------------------------------------------------------------
-- Counts
------------------------------------------------------------

/- `--bound` and `--huge-bound`. -/
structure DebugBounds where
  bound : Int
  hugeBound : Int
deriving DecidableEq, Repr

/- `DEFAULT_BOUND` and `DEFAULT_HUGE_BOUND`. -/
def DebugBounds.default : DebugBounds where
  bound := 1000000
  hugeBound := 1000000000000

/- The row of the first table. -/
structure DebugCounts where
  records : Nat
  valid : Nat
  invalid : Nat
  kindMismatch : Nat
  stepMismatch : Nat
  recomputeMismatch : Nat
  futureSender : Nat
  zeroSender : Nat
  posOutliers : Nat
  negOutliers : Nat
  hugeOutliers : Nat
deriving DecidableEq, Repr

/- The counts of `analyze_root`. -/
def debugCounts
    (bounds : DebugBounds)
    (records : List DebugRecord) : DebugCounts :=
  let valid := records.filter (fun record => !record.invalid)
  { records := records.length
    valid := valid.length
    invalid := records.length - valid.length
    kindMismatch :=
      records.countP (fun record => record.tagKind ≠ tagKind)
    stepMismatch :=
      records.countP (fun record => record.tagStep ≠ record.step)
    recomputeMismatch :=
      valid.countP
        (fun record =>
          record.localTime - record.correctedSenderTime ≠
            record.latency)
    futureSender :=
      valid.countP
        (fun record =>
          record.localTime < record.correctedSenderTime)
    zeroSender :=
      records.countP (fun record => record.senderTime = 0)
    posOutliers :=
      valid.countP
        (fun record => bounds.bound < record.latency)
    negOutliers :=
      valid.countP
        (fun record => record.latency < -bounds.bound)
    hugeOutliers :=
      valid.countP
        (fun record => bounds.hugeBound < record.latency) }

------------------------------------------------------------
-- Pairs
------------------------------------------------------------

/- `PairSummary` -/
structure PairSummary where
  total : Nat
  invalid : Nat
  positive : Nat
  negative : Nat
  huge : Nat
  boundedCount : Nat
  boundedMean : Option ℚ
  boundedP50 : Option ℚ
  minLatency : Option Int
  maxLatency : Option Int
deriving DecidableEq

/-
  A double. Latencies are words of 64 bits, so that neither
  their sums nor their means leave the range of exponents.
-/
def double (q : ℚ) : ℚ :=
  Rounding.nearest 52 q

/- What the values are as doubles. -/
def doubles (values : List Int) : List ℚ :=
  values.map (fun value : Int => double value)

/- `statistics.fmean`: `fsum` rounds the sum of the doubles. -/
def fmean (values : List Int) : ℚ :=
  double (double (doubles values).sum / double values.length)

/- `statistics.median`; the middle value is not rounded. -/
def median (values : List Int) : ℚ :=
  let sorted := values.insertionSort (· ≤ ·)
  let middle := sorted.length / 2
  if sorted.length % 2 = 1 then
    (sorted.getD middle 0 : ℚ)
  else
    double
      (((sorted.getD (middle - 1) 0 : ℚ) +
        (sorted.getD middle 0 : ℚ)) / 2)

/- A statistic of values, `None` without values. -/
def statistic
    (f : List Int → ℚ)
    (values : List Int) : Option ℚ :=
  if values.isEmpty then none else some (f values)

/- `summarize_pair` -/
def summarizePair
    (values : List Int)
    (invalid : Nat)
    (bounds : DebugBounds) : PairSummary :=
  let bounded :=
    values.filter
      (fun value => -bounds.bound ≤ value ∧ value ≤ bounds.bound)
  { total := values.length + invalid
    invalid := invalid
    positive := values.countP (fun value => bounds.bound < value)
    negative :=
      values.countP (fun value => value < -bounds.bound)
    huge := values.countP (fun value => bounds.hugeBound < value)
    boundedCount := bounded.length
    boundedMean := statistic fmean bounded
    boundedP50 := statistic median bounded
    minLatency := values.min?
    maxLatency := values.max? }

/- The pair under which a record is counted. -/
def DebugRecord.key (record : DebugRecord) : Int × Nat :=
  (record.src, record.rank)

/- `by_pair` and `invalid_by_pair`. -/
structure PairGroups where
  byPair : Dict (Int × Nat) (List Int)
  invalidByPair : Dict (Int × Nat) Nat

/- One turn of the loop over the records. -/
def PairGroups.add
    (groups : PairGroups)
    (record : DebugRecord) : PairGroups :=
  if record.invalid then
    { groups with
      invalidByPair :=
        groups.invalidByPair.update 0 record.key (· + 1) }
  else
    { groups with
      byPair :=
        groups.byPair.update [] record.key
          (· ++ [record.latency]) }

/- The groups of all records. -/
def pairGroups (records : List DebugRecord) : PairGroups :=
  records.foldl PairGroups.add
    { byPair := Dict.empty, invalidByPair := Dict.empty }

/- The order of tuples. -/
def keyLe (k k' : Int × Nat) : Prop :=
  k.1 < k'.1 ∨ k.1 = k'.1 ∧ k.2 ≤ k'.2

instance (k k' : Int × Nat) : Decidable (keyLe k k') :=
  inferInstanceAs (Decidable (_ ∨ _ ∧ _))

/- `sorted(set(by_pair) | set(invalid_by_pair))` -/
def PairGroups.keys (groups : PairGroups) : List (Int × Nat) :=
  (groups.byPair.keys ∪ groups.invalidByPair.keys).insertionSort
    keyLe

/- One row of the second table. -/
structure PairRow where
  src : Int
  dst : Nat
  summary : PairSummary
deriving DecidableEq

/- The pair of a row. -/
def PairRow.key (row : PairRow) : Int × Nat :=
  (row.src, row.dst)

/- The row of a pair. -/
def PairGroups.row
    (groups : PairGroups)
    (bounds : DebugBounds)
    (key : Int × Nat) : PairRow where
  src := key.1
  dst := key.2
  summary :=
    summarizePair (groups.byPair.get [] key)
      (groups.invalidByPair.get 0 key) bounds

/- The key of `rows.sort`. -/
def PairRow.outliers (row : PairRow) : Nat × Nat × Nat :=
  (row.summary.positive, row.summary.huge,
    row.summary.negative)

/- The order of triples, largest first. -/
def PairRow.before (row row' : PairRow) : Prop :=
  toLex (row'.outliers.1, toLex row'.outliers.2) ≤
    toLex (row.outliers.1, toLex row.outliers.2)

instance (row row' : PairRow) : Decidable (row.before row') :=
  inferInstanceAs (Decidable (_ ≤ _))

instance : Std.Total PairRow.before where
  total row row' :=
    le_total
      (toLex (row'.outliers.1, toLex row'.outliers.2))
      (toLex (row.outliers.1, toLex row.outliers.2))

instance : IsTrans PairRow PairRow.before where
  trans _ _ _ hFirst hSecond := hSecond.trans hFirst

/- The rows of the pairs, sorted. -/
def pairRows
    (bounds : DebugBounds)
    (records : List DebugRecord) : List PairRow :=
  let groups := pairGroups records
  (groups.keys.map (groups.row bounds)).insertionSort
    PairRow.before

/- `rows[:top]` -/
def topRows (rows : List PairRow) (top : Int) : List PairRow :=
  if top < 0 then
    rows.take (rows.length + top).toNat
  else
    rows.take top.toNat

/- What `analyze_root` prints. -/
structure DebugReport where
  debugRecords : Nat
  tables : Option (DebugCounts × List PairRow)
deriving DecidableEq

/- `analyze_root` -/
def analyzeRoot
    (bounds : DebugBounds)
    (top : Int)
    (root : TraceRoot DebugMaps) :
    Except PyErr DebugReport := do
  let records ← readDebugRecords root
  pure
    { debugRecords := records.length
      tables :=
        if records.isEmpty then
          none
        else
          some
            (debugCounts bounds records,
              topRows (pairRows bounds records) top) }

------------------------------------------------------------
-- Groups
------------------------------------------------------------

/- The records of a pair. -/
def ofPair
    (records : List DebugRecord)
    (key : Int × Nat) : List DebugRecord :=
  records.filter (fun record => record.key = key)

/- The latencies of the valid ones among records. -/
def validLatencies (records : List DebugRecord) : List Int :=
  (records.filter (fun record => !record.invalid)).map
    DebugRecord.latency

/- The loop builds the two dictionaries side by side. -/
theorem foldl_add
    (records : List DebugRecord)
    (groups : PairGroups) :
    records.foldl PairGroups.add groups =
      { byPair :=
          (records.filter (fun record => !record.invalid)).foldl
            (fun d record =>
              d.update [] record.key (· ++ [record.latency]))
            groups.byPair
        invalidByPair :=
          (records.filter DebugRecord.invalid).foldl
            (fun d record => d.update 0 record.key (· + 1))
            groups.invalidByPair } := by
  induction records generalizing groups with
  | nil => rfl
  | cons record rest ih =>
      rw [List.foldl_cons, ih]
      cases hInvalid : record.invalid with
      | false =>
          simp [PairGroups.add, hInvalid]
      | true =>
          simp [PairGroups.add, hInvalid]

/- The latencies of a pair are those of its valid records. -/
theorem get_byPair
    (records : List DebugRecord)
    (key : Int × Nat) :
    (pairGroups records).byPair.get [] key =
      validLatencies (ofPair records key) := by
  unfold pairGroups validLatencies ofPair
  rw [foldl_add, Dict.get_foldl_update, Dict.get_empty,
    List.nil_append, List.filter_comm]

/- The invalid records of a pair are counted. -/
theorem get_invalidByPair
    (records : List DebugRecord)
    (key : Int × Nat) :
    (pairGroups records).invalidByPair.get 0 key =
      (ofPair records key).countP DebugRecord.invalid := by
  unfold pairGroups ofPair
  rw [foldl_add, Dict.get_foldl_succ, Dict.get_empty,
    Nat.zero_add, List.countP_filter, List.countP_filter]
  apply List.countP_congr
  intro record _
  rw [Bool.and_comm]

/- The keys are the pairs of the records. -/
theorem mem_pairGroups_keys
    {records : List DebugRecord}
    {key : Int × Nat} :
    key ∈ (pairGroups records).keys ↔
      ∃ record ∈ records, record.key = key := by
  have hValid :=
    Dict.mem_keys_foldl_update DebugRecord.key (fun _ => [])
      (fun record => (· ++ [record.latency]))
      (records.filter (fun record => !record.invalid))
      Dict.empty key
  have hInvalid :=
    Dict.mem_keys_foldl_update DebugRecord.key (fun _ => 0)
      (fun _ => (· + 1)) (records.filter DebugRecord.invalid)
      Dict.empty key
  unfold PairGroups.keys pairGroups
  rw [List.mem_insertionSort, List.mem_union_iff, foldl_add]
  refine (or_congr hValid hInvalid).trans ?_
  constructor
  · rintro ((⟨record, hMem, hKey⟩ | hNone) |
      (⟨record, hMem, hKey⟩ | hNone))
    · exact ⟨record, (List.mem_filter.mp hMem).1, hKey⟩
    · cases hNone
    · exact ⟨record, (List.mem_filter.mp hMem).1, hKey⟩
    · cases hNone
  · rintro ⟨record, hMem, hKey⟩
    cases hInvalid : record.invalid with
    | false =>
        refine Or.inl (Or.inl ⟨record, ?_, hKey⟩)
        rw [List.mem_filter]
        exact ⟨hMem, by rw [hInvalid]; rfl⟩
    | true =>
        refine Or.inr (Or.inl ⟨record, ?_, hKey⟩)
        exact List.mem_filter.mpr ⟨hMem, hInvalid⟩

/- Every pair is listed once. -/
theorem nodup_pairGroups_keys (records : List DebugRecord) :
    (pairGroups records).keys.Nodup := by
  unfold PairGroups.keys
  rw [(List.perm_insertionSort keyLe _).nodup_iff]
  exact List.Nodup.union _ (Dict.nodup_keys _)

------------------------------------------------------------
-- Summaries
------------------------------------------------------------

section Summary

variable {values : List Int} {invalid : Nat}
variable {bounds : DebugBounds}

/- A value is within the bounds, above, or below. -/
theorem total_summarizePair (hBound : 0 ≤ bounds.bound) :
    (summarizePair values invalid bounds).total =
      (summarizePair values invalid bounds).invalid +
        (summarizePair values invalid bounds).positive +
        (summarizePair values invalid bounds).negative +
        (summarizePair values invalid bounds).boundedCount := by
  change
    values.length + invalid =
      invalid + values.countP _ + values.countP _ +
        (values.filter _).length
  rw [← List.countP_eq_length_filter]
  induction values with
  | nil => simp
  | cons value rest ih =>
      simp only [List.countP_cons, List.length_cons,
        decide_eq_true_eq] at ih ⊢
      split <;> split <;> split <;> omega

/- An integer of at most 53 bits bounds its doubles. -/
theorem double_mem_bounds
    {bound : Int}
    {q : ℚ}
    (hBound : bound.natAbs ≤ 2 ^ 53)
    (hLow : -(bound : ℚ) ≤ q)
    (hHigh : q ≤ bound) :
    -(bound : ℚ) ≤ double q ∧ double q ≤ bound :=
  Rounding.nearest_mem_bounds hBound hLow hHigh

/- The median of values is one of them, or between two. -/
theorem median_mem_bounds
    {bound : Int}
    (hBound : bound.natAbs ≤ 2 ^ 53)
    (hSome : values ≠ [])
    (hAll : ∀ value ∈ values, -bound ≤ value ∧ value ≤ bound) :
    -(bound : ℚ) ≤ median values ∧ median values ≤ bound := by
  have hLength :
      0 < (values.insertionSort (· ≤ ·)).length := by
    rw [List.length_insertionSort]
    exact List.length_pos_iff.mpr hSome
  have hAt :
      ∀ i < (values.insertionSort (· ≤ ·)).length,
        -(bound : ℚ) ≤ (values.insertionSort (· ≤ ·)).getD i 0 ∧
          ((values.insertionSort (· ≤ ·)).getD i 0 : ℚ) ≤
            bound := by
    intro i hI
    rw [List.getD_eq_getElem _ _ hI]
    have hMem := List.getElem_mem hI
    rw [List.mem_insertionSort] at hMem
    have hBoth := hAll _ hMem
    exact ⟨by exact_mod_cast hBoth.1, by exact_mod_cast hBoth.2⟩
  have hMiddle :=
    hAt ((values.insertionSort (· ≤ ·)).length / 2) (by omega)
  have hBefore :=
    hAt ((values.insertionSort (· ≤ ·)).length / 2 - 1)
      (by omega)
  unfold median
  dsimp only
  split
  · exact hMiddle
  · apply double_mem_bounds hBound
    · linarith [hMiddle.1, hBefore.1]
    · linarith [hMiddle.2, hBefore.2]

/- The sum of doubles is between the sums of the bounds. -/
theorem sum_double_mem_bounds
    {bound : Int}
    (hBound : bound.natAbs ≤ 2 ^ 53)
    (hAll : ∀ value ∈ values, -bound ≤ value ∧ value ≤ bound) :
    -((values.length * bound : Int) : ℚ) ≤
        (doubles values).sum ∧
      (doubles values).sum ≤
        ((values.length * bound : Int) : ℚ) := by
  have hEach :
      ∀ q ∈ doubles values,
        -(bound : ℚ) ≤ q ∧ q ≤ bound := by
    intro q hMem
    rcases List.mem_map.mp hMem with ⟨value, hValue, hDouble⟩
    have hBoth := hAll value hValue
    rw [← hDouble]
    exact
      double_mem_bounds hBound (by exact_mod_cast hBoth.1)
        (by exact_mod_cast hBoth.2)
  have hLow :=
    List.card_nsmul_le_sum (doubles values)
      (-(bound : ℚ)) (fun q hMem => (hEach q hMem).1)
  have hHigh :=
    List.sum_le_card_nsmul (doubles values)
      (bound : ℚ) (fun q hMem => (hEach q hMem).2)
  rw [doubles, List.length_map, nsmul_eq_mul] at hLow hHigh
  push_cast
  rw [doubles]
  constructor
  · linarith
  · exact hHigh

/- So is the mean between the bounds of the values. -/
theorem fmean_mem_bounds
    {bound : Int}
    (hSome : values ≠ [])
    (hFew : values.length * bound ≤ 2 ^ 53)
    (hAll : ∀ value ∈ values, -bound ≤ value ∧ value ≤ bound) :
    -(bound : ℚ) ≤ fmean values ∧ fmean values ≤ bound := by
  have hLength : 1 ≤ values.length :=
    List.length_pos_iff.mpr hSome
  have hNonneg : 0 ≤ bound := by
    rcases List.exists_mem_of_ne_nil _ hSome with
      ⟨value, hMem⟩
    have hBoth := hAll value hMem
    omega
  have hLengthInt : (1 : Int) ≤ values.length := by
    exact_mod_cast hLength
  have hProduct : 0 ≤ (values.length : Int) * bound := by
    positivity
  have hBound : bound.natAbs ≤ 2 ^ 53 := by
    have hLe : bound ≤ values.length * bound :=
      le_mul_of_one_le_left hNonneg hLengthInt
    omega
  have hProductBound :
      ((values.length : Int) * bound).natAbs ≤ 2 ^ 53 := by
    omega
  have hSum := sum_double_mem_bounds hBound hAll
  have hTotal := double_mem_bounds hProductBound hSum.1 hSum.2
  unfold fmean
  rcases hNonneg.eq_or_lt with hZero | hPos
  · -- All values are 0.
    rw [← hZero, mul_zero, Int.cast_zero, neg_zero] at hTotal
    rw [le_antisymm hTotal.2 hTotal.1, zero_div, ← hZero]
    simp [double]
  · have hCount : double values.length = values.length := by
      have hFewValues : (values.length : Int).natAbs ≤ 2 ^ 53 := by
        have hLe : (values.length : Int) ≤ values.length * bound :=
          le_mul_of_one_le_right (by omega) hPos
        omega
      have hOwn := Rounding.nearest_intCast hFewValues
      push_cast at hOwn
      exact hOwn
    have hPositive : (0 : ℚ) < values.length := by
      exact_mod_cast hLength
    push_cast at hTotal
    rw [hCount]
    apply double_mem_bounds hBound
    · rw [le_div_iff₀ hPositive]
      linarith [hTotal.1]
    · rw [div_le_iff₀ hPositive]
      linarith [hTotal.2]

end Summary

------------------------------------------------------------
-- The Table Of Pairs
------------------------------------------------------------

section Table

variable {bounds : DebugBounds} {records : List DebugRecord}

/- The summary of a pair is that of its own records. -/
theorem summary_row (key : Int × Nat) :
    ((pairGroups records).row bounds key).summary =
      summarizePair (validLatencies (ofPair records key))
        ((ofPair records key).countP DebugRecord.invalid)
        bounds := by
  rw [← get_byPair, ← get_invalidByPair]
  rfl

/- The rows are those of the pairs, in some order. -/
theorem perm_pairRows :
    (pairRows bounds records).Perm
      ((pairGroups records).keys.map
        ((pairGroups records).row bounds)) :=
  List.perm_insertionSort _ _

/- So every row is about the records of its pair. -/
theorem summary_of_mem
    {row : PairRow}
    (hMem : row ∈ pairRows bounds records) :
    row.summary =
      summarizePair (validLatencies (ofPair records row.key))
        ((ofPair records row.key).countP DebugRecord.invalid)
        bounds := by
  rw [perm_pairRows.mem_iff] at hMem
  rcases List.mem_map.mp hMem with ⟨key, _, rfl⟩
  exact summary_row key

/- The keys of the rows are those of the groups. -/
theorem perm_keys_pairRows :
    ((pairRows bounds records).map PairRow.key).Perm
      (pairGroups records).keys := by
  have hPerm :
      ((pairRows bounds records).map PairRow.key).Perm _ :=
    perm_pairRows.map PairRow.key
  rw [List.map_map] at hPerm
  have hKey :
      PairRow.key ∘ (pairGroups records).row bounds = id := rfl
  rw [hKey, List.map_id] at hPerm
  exact hPerm

/- What is counted pair by pair is counted once. -/
theorem sum_pairRows
    {f : PairRow → Nat}
    {p : DebugRecord → Bool}
    (hPair :
      ∀ key,
        f ((pairGroups records).row bounds key) =
          (ofPair records key).countP p) :
    ((pairRows bounds records).map f).sum =
      records.countP p := by
  have hCover :
      ∀ record ∈ records,
        record.key ∈ (pairGroups records).keys :=
    fun record hMem =>
      mem_pairGroups_keys.mpr ⟨record, hMem, rfl⟩
  rw [(perm_pairRows.map f).sum_eq, List.map_map,
    ← Keyed.sum_countP_key (nodup_pairGroups_keys records)
      hCover p]
  exact congrArg _ (List.map_congr_left (fun key _ => hPair key))

/- Counting latencies is counting valid records. -/
theorem countP_validLatencies
    (own : List DebugRecord)
    (p : Int → Bool) :
    (validLatencies own).countP p =
      own.countP
        (fun record => !record.invalid && p record.latency) := by
  unfold validLatencies
  rw [List.countP_map, List.countP_filter]
  apply List.countP_congr
  intro record _
  rw [Bool.and_comm]
  rfl

/- Outliers counted pair by pair are counted once. -/
theorem sum_outliers
    (f : PairSummary → Nat)
    (p : Int → Bool)
    (hCount :
      ∀ values invalid,
        f (summarizePair values invalid bounds) =
          values.countP p) :
    ((pairRows bounds records).map
        (fun row => f row.summary)).sum =
      (records.filter (fun record => !record.invalid)).countP
        (fun record => p record.latency) := by
  have hGlobal := countP_validLatencies records p
  rw [validLatencies, List.countP_map] at hGlobal
  rw [sum_pairRows (fun key => ?_)]
  · exact hGlobal.symm
  · rw [summary_row, hCount]
    exact countP_validLatencies _ _

/- A record is valid or invalid. -/
theorem length_validLatencies (own : List DebugRecord) :
    (validLatencies own).length +
        own.countP DebugRecord.invalid =
      own.length := by
  unfold validLatencies
  rw [List.length_map, ← List.countP_eq_length_filter,
    List.length_eq_countP_add_countP (DebugRecord.invalid)]
  rw [Nat.add_comm]
  congr 1
  apply List.countP_congr
  intro record _
  simp

end Table

/-
  The table of pairs accounts for the records: every pair has
  one row, about exactly its own records, and the rows add up
  to the counts of the first table.
-/
structure AccountsFor
    (bounds : DebugBounds)
    (records : List DebugRecord)
    (rows : List PairRow) : Prop where
  distinct : (rows.map PairRow.key).Nodup
  pairs :
    ∀ key,
      key ∈ rows.map PairRow.key ↔
        ∃ record ∈ records, record.key = key
  summaries :
    ∀ row ∈ rows,
      row.summary =
        summarizePair
          (validLatencies (ofPair records row.key))
          ((ofPair records row.key).countP DebugRecord.invalid)
          bounds
  total :
    (rows.map (fun row => row.summary.total)).sum =
      (debugCounts bounds records).records
  invalid :
    (rows.map (fun row => row.summary.invalid)).sum =
      (debugCounts bounds records).invalid
  positive :
    (rows.map (fun row => row.summary.positive)).sum =
      (debugCounts bounds records).posOutliers
  negative :
    (rows.map (fun row => row.summary.negative)).sum =
      (debugCounts bounds records).negOutliers
  huge :
    (rows.map (fun row => row.summary.huge)).sum =
      (debugCounts bounds records).hugeOutliers
  bounded :
    0 ≤ bounds.bound →
      ∀ row ∈ rows,
        row.summary.total =
          row.summary.invalid + row.summary.positive +
            row.summary.negative + row.summary.boundedCount
  averages :
    ∀ row ∈ rows,
      row.summary.boundedCount * bounds.bound ≤ 2 ^ 53 →
        ∀ average,
          row.summary.boundedMean = some average ∨
              row.summary.boundedP50 = some average →
            -(bounds.bound : ℚ) ≤ average ∧
              average ≤ bounds.bound

/- The rows shown are the first ones. -/
theorem exists_hidden
    (rows : List PairRow)
    (top : Int) :
    topRows rows top <+: rows := by
  unfold topRows
  split
  · exact List.take_prefix _ _
  · exact List.take_prefix _ _

/- The averages of a summary are within the bounds. -/
theorem averages_summarizePair
    {values : List Int}
    {invalid : Nat}
    {bounds : DebugBounds}
    (hFew :
      (summarizePair values invalid bounds).boundedCount *
          bounds.bound ≤
        2 ^ 53)
    {average : ℚ}
    (hAverage :
      (summarizePair values invalid bounds).boundedMean =
          some average ∨
        (summarizePair values invalid bounds).boundedP50 =
          some average) :
    -(bounds.bound : ℚ) ≤ average ∧ average ≤ bounds.bound := by
  have hAll :
      ∀ value ∈ values.filter
          (fun value =>
            -bounds.bound ≤ value ∧ value ≤ bounds.bound),
        -bounds.bound ≤ value ∧ value ≤ bounds.bound := by
    intro value hMem
    simpa using (List.mem_filter.mp hMem).2
  simp only [summarizePair, statistic] at hAverage hFew
  split at hAverage
  · rcases hAverage with hNone | hNone
    · cases hNone
    · cases hNone
  · next hSome =>
    rw [List.isEmpty_iff] at hSome
    rcases hAverage with hMean | hMedian
    · cases hMean
      exact fmean_mem_bounds hSome hFew hAll
    · cases hMedian
      rcases List.exists_mem_of_ne_nil _ hSome with
        ⟨value, hMem⟩
      have hBoth := hAll value hMem
      have hLength := List.length_pos_iff.mpr hSome
      have hLe :
          bounds.bound ≤
            ((values.filter
              (fun value =>
                -bounds.bound ≤ value ∧
                  value ≤ bounds.bound)).length : Int) *
                bounds.bound :=
        le_mul_of_one_le_left (by omega) (by omega)
      exact median_mem_bounds (by omega) hSome hAll

/-
  For all records and all bounds: the rows account for the
  records, and a row that is shown has at least the outliers
  of one that is not.
-/
theorem pair_rows_account
    (bounds : DebugBounds)
    (records : List DebugRecord)
    (top : Int) :
    AccountsFor bounds records (pairRows bounds records) ∧
      ∃ hidden,
        pairRows bounds records =
            topRows (pairRows bounds records) top ++ hidden ∧
          ∀ row ∈ topRows (pairRows bounds records) top,
            ∀ row' ∈ hidden, row.before row' := by
  constructor
  · refine
      { distinct := ?_, pairs := ?_,
        summaries := fun _ => summary_of_mem, total := ?_, invalid := ?_, positive := ?_,
        negative := ?_, huge := ?_, bounded := ?_,
        averages := ?_ }
    · rw [perm_keys_pairRows.nodup_iff]
      exact nodup_pairGroups_keys records
    · intro key
      rw [perm_keys_pairRows.mem_iff, mem_pairGroups_keys]
    · rw [sum_pairRows (p := fun _ => true)]
      · rw [List.countP_true]
        rfl
      · intro key
        rw [summary_row, List.countP_true]
        exact length_validLatencies _
    · rw [sum_pairRows (p := DebugRecord.invalid)]
      · change _ = records.length - List.length _
        have hLength := length_validLatencies records
        rw [validLatencies, List.length_map] at hLength
        omega
      · intro key
        rw [summary_row]
        rfl
    · exact
        sum_outliers PairSummary.positive
          (fun value => bounds.bound < value) (fun _ _ => rfl)
    · exact
        sum_outliers PairSummary.negative
          (fun value => value < -bounds.bound) (fun _ _ => rfl)
    · exact
        sum_outliers PairSummary.huge
          (fun value => bounds.hugeBound < value)
          (fun _ _ => rfl)
    · intro hBound row hMem
      rw [summary_of_mem hMem]
      exact total_summarizePair hBound
    · intro row hMem hFew average hAverage
      rw [summary_of_mem hMem] at hFew hAverage
      exact averages_summarizePair hFew hAverage
  · rcases exists_hidden (pairRows bounds records) top with
      ⟨hidden, hSplit⟩
    refine ⟨hidden, hSplit.symm, ?_⟩
    have hSorted :
        (pairRows bounds records).Pairwise PairRow.before :=
      List.pairwise_insertionSort PairRow.before _
    rw [← hSplit, List.pairwise_append] at hSorted
    exact hSorted.2.2

end Latency

end FabricPerf
