import FabricPerf.Lib.Dict
import FabricPerf.Lib.SortedCount
import FabricPerf.Ptp.Messages
import Mathlib.Data.List.Sort
import Mathlib.Data.Prod.Lex

/-
  The residuals of `analysis/ptp_alignment.py`.

  Offsets are grouped by pair and sorted by file and sample,
  then combined position by position.  Sorting is meant to
  align the pairs; `residuals_aligned_iff` says when it does.

  Main declarations:
    * `Ptp.readPtpRecords`, `Ptp.readPairOffsets`
    * `Ptp.closureResiduals`, `Ptp.reciprocalResiduals`
    * `Ptp.residuals_aligned_iff`
-/

------------------------------------------------------------
-- Records
------------------------------------------------------------

namespace FabricPerf

namespace Ptp

/- One row of `ptp_metrics`, as signed values. -/
structure PtpRow where
  offset : Int
  latency : Int
deriving DecidableEq, Repr

/- One decoded offset sample. -/
structure PtpRecord where
  trace : String
  rank : Int
  fileIndex : Nat
  slotIndex : Nat
  sampleIndex : Nat
  src : Nat
  dst : Nat
  offset : Int
  latency : Int
deriving DecidableEq, Repr

/- `is_unwritten_ptp_record`. -/
def isUnwrittenPtpRecord (row : PtpRow) : Bool :=
  row.offset == 0 && row.latency == 0

/- One turn of the inner loop of `read_ptp_records`. -/
def readPtpRow
    (trace : String)
    (rank : Int)
    (devices samplesPerPair compactDsts : Nat)
    (fileIndex slotIndex : Nat)
    (row : PtpRow) : Option PtpRecord :=
  if isUnwrittenPtpRecord row then
    none
  else
    let slot :=
      decodePtpSlot slotIndex samplesPerPair compactDsts
    if devices ≤ slot.1 ∨ devices ≤ slot.2.1 ∨
        slot.1 = slot.2.1 then
      none
    else
      some
        { trace := trace
          rank := rank
          fileIndex := fileIndex
          slotIndex := slotIndex
          sampleIndex := slot.2.2
          src := slot.1
          dst := slot.2.1
          offset := row.offset
          latency := row.latency }

/- `read_ptp_records`, from the rows of the result files. -/
def readPtpRecords
    (trace : String)
    (rank : Int)
    (files : List (List PtpRow))
    (devices samplesPerPair compactDsts : Nat) :
    List PtpRecord :=
  files.zipIdx.flatMap
    (fun file =>
      file.1.zipIdx.filterMap
        (fun slot =>
          readPtpRow trace rank devices samplesPerPair
            compactDsts file.2 slot.2 slot.1))

------------------------------------------------------------
-- Grouping
------------------------------------------------------------

/- An ordered pair of ranks. -/
abbrev RankPair := Nat × Nat

/- The tuple that is sorted. -/
structure Sample where
  fileIndex : Nat
  sampleIndex : Nat
  slotIndex : Nat
  offset : Int
deriving DecidableEq, Repr

/- A file index and a sample index. -/
abbrev Key := Nat ×ₗ Nat

namespace Sample

/- The tuple in the order of Python. -/
def tuple (s : Sample) : Nat ×ₗ Nat ×ₗ Nat ×ₗ Int :=
  toLex
    (s.fileIndex,
      toLex (s.sampleIndex, toLex (s.slotIndex, s.offset)))

/- What two samples must share to be comparable. -/
def key (s : Sample) : Key :=
  toLex (s.fileIndex, s.sampleIndex)

/- The order of tuples. -/
abbrev le (a b : Sample) : Prop :=
  a.tuple ≤ b.tuple

/- Sorting by tuples sorts by keys. -/
theorem key_le {a b : Sample} (hLe : a.le b) :
    a.key ≤ b.key := by
  simp only [le, tuple, key, Prod.Lex.toLex_le_toLex]
    at hLe ⊢
  rcases hLe with hFile | ⟨hFile, hSample | ⟨hSample, -⟩⟩
  · exact Or.inl hFile
  · exact Or.inr ⟨hFile, hSample.le⟩
  · exact Or.inr ⟨hFile, hSample.le⟩

end Sample

namespace PtpRecord

/- The pair of a record. -/
def pair (record : PtpRecord) : RankPair :=
  (record.src, record.dst)

/- The tuple of a record. -/
def sample (record : PtpRecord) : Sample where
  fileIndex := record.fileIndex
  sampleIndex := record.sampleIndex
  slotIndex := record.slotIndex
  offset := record.offset

/- The key of a record. -/
def key (record : PtpRecord) : Key :=
  record.sample.key

end PtpRecord

/- `sorted(values)`. -/
def sortSamples (values : List Sample) : List Sample :=
  values.insertionSort Sample.le

/-
  `read_pair_offsets`, from the records of all traces in the
  order in which they are read.
-/
def readPairOffsets
    (records : List PtpRecord) : Dict RankPair (List Int) :=
  (Dict.group PtpRecord.pair PtpRecord.sample
    records).mapValues
      (fun values => (sortSamples values).map Sample.offset)

/- The sorted samples of a pair. -/
def pairSamples
    (records : List PtpRecord)
    (pair : RankPair) : List Sample :=
  sortSamples
    ((records.filter (fun r => r.pair = pair)).map
      PtpRecord.sample)

/- The offsets of a pair are those of its sorted samples. -/
theorem get_readPairOffsets
    (records : List PtpRecord)
    (pair : RankPair) :
    (readPairOffsets records).get [] pair =
      (pairSamples records pair).map Sample.offset := by
  have hGet :=
    Dict.get_mapValues
      (fun values => (sortSamples values).map Sample.offset)
      (Dict.group PtpRecord.pair PtpRecord.sample records)
      [] pair
  rw [Dict.get_group] at hGet
  exact hGet

------------------------------------------------------------
-- Residuals
------------------------------------------------------------

/- `closure_residuals`. -/
def closureResiduals
    (pairOffsets : Dict RankPair (List Int))
    (src mid dst : Nat) : List Int :=
  let direct := pairOffsets.get [] (src, dst)
  let firstLeg := pairOffsets.get [] (src, mid)
  let secondLeg := pairOffsets.get [] (mid, dst)
  let count :=
    min direct.length (min firstLeg.length secondLeg.length)
  -- Every index is below the three lengths.
  (List.range count).map
    (fun index =>
      direct.getD index 0 -
        (firstLeg.getD index 0 + secondLeg.getD index 0))

/- `reciprocal_residuals`. -/
def reciprocalResiduals
    (pairOffsets : Dict RankPair (List Int))
    (first second : Nat) : List Int :=
  let forward := pairOffsets.get [] (first, second)
  let backward := pairOffsets.get [] (second, first)
  let count := min forward.length backward.length
  (List.range count).map
    (fun index =>
      forward.getD index 0 + backward.getD index 0)

/- The samples that each closure residual combines. -/
def closureTriples
    (records : List PtpRecord)
    (src mid dst : Nat) : List (Sample × Sample × Sample) :=
  (pairSamples records (src, dst)).zip
    ((pairSamples records (src, mid)).zip
      (pairSamples records (mid, dst)))

/- The samples that each reciprocal residual combines. -/
def reciprocalPairs
    (records : List PtpRecord)
    (first second : Nat) : List (Sample × Sample) :=
  (pairSamples records (first, second)).zip
    (pairSamples records (second, first))

/- A closure residual is computed from its three samples. -/
theorem closureResiduals_eq
    (records : List PtpRecord)
    (src mid dst : Nat) :
    closureResiduals (readPairOffsets records) src mid dst =
      (closureTriples records src mid dst).map
        (fun t => t.1.offset - (t.2.1.offset + t.2.2.offset)) := by
  unfold closureResiduals closureTriples
  simp only [get_readPairOffsets, List.length_map]
  apply List.ext_getElem
  · simp
  · intro i hI hJ
    simp only [List.length_map, List.length_range] at hI
    have hDirect := lt_of_lt_of_le hI (min_le_left _ _)
    have hLegs := lt_of_lt_of_le hI (min_le_right _ _)
    have hFirst := lt_of_lt_of_le hLegs (min_le_left _ _)
    have hSecond := lt_of_lt_of_le hLegs (min_le_right _ _)
    simp [hDirect, hFirst, hSecond]

/- A reciprocal residual is computed from its two samples. -/
theorem reciprocalResiduals_eq
    (records : List PtpRecord)
    (first second : Nat) :
    reciprocalResiduals (readPairOffsets records) first
        second =
      (reciprocalPairs records first second).map
        (fun t => t.1.offset + t.2.offset) := by
  unfold reciprocalResiduals reciprocalPairs
  simp only [get_readPairOffsets, List.length_map]
  apply List.ext_getElem
  · simp
  · intro i hI hJ
    simp only [List.length_map, List.length_range] at hI
    have hForward := lt_of_lt_of_le hI (min_le_left _ _)
    have hBackward := lt_of_lt_of_le hI (min_le_right _ _)
    simp [hForward, hBackward]

------------------------------------------------------------
-- When Residuals Are Aligned
------------------------------------------------------------

/- The number of records of a pair. -/
def recordCount
    (records : List PtpRecord)
    (pair : RankPair) : Nat :=
  (records.filter (fun r => r.pair = pair)).length

/- The number of records of a pair up to a key. -/
def countUpTo
    (records : List PtpRecord)
    (pair : RankPair)
    (k : Key) : Nat :=
  (records.filter (fun r => r.pair = pair)).countP
    (fun r => decide (r.key ≤ k))

/-
  Counted up to `n`, two pairs have equally many records up
  to every key.
-/
def EquallyMany
    (records : List PtpRecord)
    (n : Nat)
    (p q : RankPair) : Prop :=
  ∀ k,
    min n (countUpTo records p k) =
      min n (countUpTo records q k)

/- The sorted keys of a pair. -/
def sortedKeys
    (records : List PtpRecord)
    (pair : RankPair) : List Key :=
  (pairSamples records pair).map Sample.key

/- Sorting by tuples leaves the keys sorted. -/
theorem pairwise_sortedKeys
    (records : List PtpRecord)
    (pair : RankPair) :
    (sortedKeys records pair).Pairwise (· ≤ ·) := by
  unfold sortedKeys pairSamples sortSamples
  rw [List.pairwise_map]
  have hTotal : Std.Total Sample.le :=
    ⟨fun a b => le_total a.tuple b.tuple⟩
  have hTrans : IsTrans Sample Sample.le :=
    ⟨fun _ _ _ hAB hBC => le_trans hAB hBC⟩
  apply List.Pairwise.imp Sample.key_le
  exact List.pairwise_insertionSort Sample.le _

/- Sorting keeps the number of records. -/
theorem length_pairSamples
    (records : List PtpRecord)
    (pair : RankPair) :
    (pairSamples records pair).length =
      recordCount records pair := by
  unfold pairSamples sortSamples recordCount
  rw [List.length_insertionSort, List.length_map]

/- Sorting keeps the number of records up to a key. -/
theorem countLe_sortedKeys
    (records : List PtpRecord)
    (pair : RankPair)
    (k : Key) :
    SortedCount.countLe (sortedKeys records pair) k =
      countUpTo records pair k := by
  unfold SortedCount.countLe sortedKeys pairSamples
    sortSamples countUpTo
  rw [List.countP_map,
    (List.perm_insertionSort Sample.le _).countP_eq,
    List.countP_map]
  rfl

/- Two pairs agree on their first keys by their counts. -/
theorem sortedKeys_agree_iff
    {records : List PtpRecord}
    {n : Nat}
    {p q : RankPair}
    (hP : n ≤ recordCount records p)
    (hQ : n ≤ recordCount records q) :
    (∀ i, i < n →
      (sortedKeys records p)[i]? =
        (sortedKeys records q)[i]?) ↔
      EquallyMany records n p q := by
  have hLengthP :
      n ≤ (sortedKeys records p).length := by
    unfold sortedKeys
    rw [List.length_map, length_pairSamples]
    exact hP
  have hLengthQ :
      n ≤ (sortedKeys records q).length := by
    unfold sortedKeys
    rw [List.length_map, length_pairSamples]
    exact hQ
  rw [SortedCount.agree_iff (pairwise_sortedKeys records p)
    (pairwise_sortedKeys records q) hLengthP hLengthQ]
  simp only [countLe_sortedKeys, EquallyMany]

/- The members of zipped lists, by position. -/
theorem forall_mem_zip_iff
    {α β : Type}
    {l : List α}
    {m : List β}
    {P : α × β → Prop} :
    (∀ t ∈ l.zip m, P t) ↔
      ∀ i, (hL : i < l.length) → (hM : i < m.length) →
        P (l[i], m[i]) := by
  constructor
  · intro hAll i hL hM
    apply hAll
    rw [List.mem_iff_getElem]
    refine ⟨i, ?_, ?_⟩
    · rw [List.length_zip]
      omega
    · rw [List.getElem_zip]
  · intro hAll t hMem
    rcases List.mem_iff_getElem.mp hMem with ⟨i, hI, hT⟩
    rw [List.length_zip] at hI
    rw [← hT, List.getElem_zip]
    exact hAll i (by omega) (by omega)

/- Keys at a position, with and without the list of keys. -/
theorem getElem?_key_eq_iff
    {l m : List Sample}
    {i : Nat}
    (hL : i < l.length)
    (hM : i < m.length) :
    (l.map Sample.key)[i]? = (m.map Sample.key)[i]? ↔
      l[i].key = m[i].key := by
  simp [hL, hM]

/- The pairs of a reciprocal residual are aligned. -/
theorem reciprocalPairs_aligned_iff
    (records : List PtpRecord)
    (first second : Nat) :
    (∀ t ∈ reciprocalPairs records first second,
      t.1.key = t.2.key) ↔
      EquallyMany records
        (min (recordCount records (first, second))
          (recordCount records (second, first)))
        (first, second) (second, first) := by
  rw [← sortedKeys_agree_iff (min_le_left _ _)
    (min_le_right _ _)]
  unfold reciprocalPairs sortedKeys
  rw [forall_mem_zip_iff, ← length_pairSamples,
    ← length_pairSamples]
  constructor
  · intro hAll i hI
    have hL := lt_of_lt_of_le hI (min_le_left _ _)
    have hM := lt_of_lt_of_le hI (min_le_right _ _)
    exact (getElem?_key_eq_iff hL hM).mpr (hAll i hL hM)
  · intro hAgree i hL hM
    exact
      (getElem?_key_eq_iff hL hM).mp
        (hAgree i (lt_min hL hM))

/- The triples of a closure residual are aligned. -/
theorem closureTriples_aligned_iff
    (records : List PtpRecord)
    (src mid dst : Nat) :
    (∀ t ∈ closureTriples records src mid dst,
      t.1.key = t.2.1.key ∧ t.1.key = t.2.2.key) ↔
      (let n :=
        min (recordCount records (src, dst))
          (min (recordCount records (src, mid))
            (recordCount records (mid, dst)))
      EquallyMany records n (src, dst) (src, mid) ∧
        EquallyMany records n (src, dst) (mid, dst)) := by
  have hDirect :
      min (recordCount records (src, dst))
          (min (recordCount records (src, mid))
            (recordCount records (mid, dst))) ≤
        recordCount records (src, dst) :=
    min_le_left _ _
  have hFirst :
      min (recordCount records (src, dst))
          (min (recordCount records (src, mid))
            (recordCount records (mid, dst))) ≤
        recordCount records (src, mid) :=
    le_trans (min_le_right _ _) (min_le_left _ _)
  have hSecond :
      min (recordCount records (src, dst))
          (min (recordCount records (src, mid))
            (recordCount records (mid, dst))) ≤
        recordCount records (mid, dst) :=
    le_trans (min_le_right _ _) (min_le_right _ _)
  simp only [← sortedKeys_agree_iff hDirect hFirst,
    ← sortedKeys_agree_iff hDirect hSecond]
  unfold closureTriples sortedKeys
  simp only [← length_pairSamples] at hDirect hFirst hSecond ⊢
  rw [forall_mem_zip_iff]
  constructor
  · intro hAll
    refine forall₂_and.mp ?_
    intro i hI
    have hL := lt_of_lt_of_le hI hDirect
    have hM := lt_of_lt_of_le hI hFirst
    have hR := lt_of_lt_of_le hI hSecond
    have hKeys := hAll i hL
      (by rw [List.length_zip]; exact lt_min hM hR)
    rw [List.getElem_zip] at hKeys
    exact ⟨(getElem?_key_eq_iff hL hM).mpr hKeys.1,
      (getElem?_key_eq_iff hL hR).mpr hKeys.2⟩
  · rintro ⟨hAgreeFirst, hAgreeSecond⟩ i hL hZip
    have hBoth := hZip
    rw [List.length_zip] at hBoth
    have hM := lt_of_lt_of_le hBoth (min_le_left _ _)
    have hR := lt_of_lt_of_le hBoth (min_le_right _ _)
    have hI := lt_min hL (lt_min hM hR)
    rw [List.getElem_zip]
    exact ⟨(getElem?_key_eq_iff hL hM).mp (hAgreeFirst i hI),
      (getElem?_key_eq_iff hL hR).mp (hAgreeSecond i hI)⟩

/-
  Residuals are computed position by position, and combine
  offsets of one file and sample exactly when the pairs have
  equally many records up to every key.
-/
theorem residuals_aligned_iff (records : List PtpRecord) :
    (∀ src mid dst,
      closureResiduals (readPairOffsets records) src mid dst =
          (closureTriples records src mid dst).map
            (fun t =>
              t.1.offset - (t.2.1.offset + t.2.2.offset)) ∧
        ((∀ t ∈ closureTriples records src mid dst,
            t.1.key = t.2.1.key ∧ t.1.key = t.2.2.key) ↔
          (let n :=
            min (recordCount records (src, dst))
              (min (recordCount records (src, mid))
                (recordCount records (mid, dst)))
          EquallyMany records n (src, dst) (src, mid) ∧
            EquallyMany records n (src, dst) (mid, dst)))) ∧
    ∀ first second,
      reciprocalResiduals (readPairOffsets records) first
            second =
          (reciprocalPairs records first second).map
            (fun t => t.1.offset + t.2.offset) ∧
        ((∀ t ∈ reciprocalPairs records first second,
            t.1.key = t.2.key) ↔
          EquallyMany records
            (min (recordCount records (first, second))
              (recordCount records (second, first)))
            (first, second) (second, first)) := by
  constructor
  · intro src mid dst
    constructor
    · exact closureResiduals_eq records src mid dst
    · exact closureTriples_aligned_iff records src mid dst
  · intro first second
    constructor
    · exact reciprocalResiduals_eq records first second
    · exact reciprocalPairs_aligned_iff records first second

/- Rank 1 misses the first sample of rank 0. -/
def missingSample : List PtpRecord :=
  readPtpRecords "trace" 0
      [List.replicate 140 ⟨0, 0⟩ ++ [⟨-40, 9⟩, ⟨-41, 9⟩]]
      2 20 7 ++
    readPtpRecords "trace" 1
      [[⟨0, 0⟩, ⟨41, 9⟩]] 2 20 7

/- The residual combines samples 1 and 0. -/
theorem not_residuals_aligned :
    reciprocalResiduals (readPairOffsets missingSample) 0 1 =
        [1] ∧
      (reciprocalPairs missingSample 0 1).map
          (fun t => (t.1.sampleIndex, t.2.sampleIndex)) =
        [(1, 0)] ∧
      ¬∀ t ∈ reciprocalPairs missingSample 0 1,
        t.1.key = t.2.key := by
  constructor
  · decide +kernel
  constructor
  · decide +kernel
  · have hPairs :
        reciprocalPairs missingSample 0 1 =
          [(⟨0, 1, 1, 41⟩, ⟨0, 0, 140, -40⟩)] := by
      decide +kernel
    rw [hPairs]
    decide

end Ptp

end FabricPerf
