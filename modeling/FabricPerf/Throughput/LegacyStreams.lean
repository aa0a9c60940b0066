import FabricPerf.Throughput.RootLaunches

/-
  Streams of slots as older traces saved them, without
  headers and without metadata.

  They are told from partitioned streams by the sequence in
  the first slot of every partition.  A stream that is filled
  beyond its first partition has a record there.

  Main declarations:
    * `Throughput.Legacy`, `Throughput.Recognised`
    * `Throughput.rows_of_short`
    * `Throughput.legacy_recognised_iff`
-/

------------------------------------------------------------
-- Older Streams
------------------------------------------------------------

namespace FabricPerf

namespace Throughput

open Analysis

/- The two fields of a slot. -/
def slotFields (record : Record) : Int × Int :=
  (record.attr "sequence", record.attr "delta_ticks")

/- The fields of the first slots: their index and a delta. -/
def arrivalFields (deltas : List Int) : List (Int × Int) :=
  deltas.mapIdx (fun i delta => (↑i, delta))

/- Slots with these two fields, in either order. -/
def TwoFields (slots : List Record) : Prop :=
  ∀ record ∈ slots,
    record.type.names.Perm ["sequence", "delta_ticks"]

/-
  A stream of two-field slots with an arrival in each of the
  first slots and zeros in the remaining ones.
-/
structure Legacy
    (rawSlots : List Record)
    (deltas : List Int) : Prop where
  twoFields : TwoFields rawSlots
  divisible : throughputWorkgroups ∣ rawSlots.length
  fits : deltas.length ≤ rawSlots.length
  positive : ∀ delta ∈ deltas, 0 < delta
  slots :
    rawSlots.map slotFields =
      arrivalFields deltas ++
        List.replicate (rawSlots.length - deltas.length) (0, 0)

/- The rows that a stream adds to the CSV file. -/
def FoundStream.rows
    (variant : String)
    (stream : FoundStream) : List ArrivalRow :=
  stream.found.flatMap (FoundLaunch.rows variant)

/- A stream read as one launch of these arrivals. -/
def FoundStream.arrivalRows
    (variant : String)
    (stream : FoundStream)
    (deltas : List Int) : List ArrivalRow :=
  (FoundLaunch.mk stream
    { workgroup := stream.workgroupBase
      accepted := arrivalFields deltas
      totalArrivals := none
      durationTicks := none
      capacity := stream.rawSlots.length }).rows variant

/-
  The rows of a stream are its arrivals, and no record of it
  has been taken for a header.
-/
structure Recognised
    (variant : String)
    (stream : FoundStream)
    (deltas : List Int) : Prop where
  rows :
    stream.rows variant = stream.arrivalRows variant deltas
  noHeader : ∀ found ∈ stream.found,
    found.launch.totalArrivals = none

------------------------------------------------------------
-- Slots Of An Older Stream
------------------------------------------------------------

variable {rawSlots : List Record} {deltas : List Int}

/- A slot has an arrival or is zero. -/
theorem slotFields_of_getElem?
    (hLegacy : Legacy rawSlots deltas)
    {i : Nat}
    {record : Record}
    (hRecord : rawSlots[i]? = some record) :
    slotFields record =
      (deltas[i]?).elim (0, 0) (fun delta => (↑i, delta)) := by
  have hSlot :
      (rawSlots.map slotFields)[i]? =
        some (slotFields record) := by
    rw [List.getElem?_map, hRecord]
    rfl
  rw [hLegacy.slots] at hSlot
  unfold arrivalFields at hSlot
  by_cases hI : i < deltas.length
  · rw [List.getElem?_append_left (by simpa using hI),
      List.getElem?_mapIdx] at hSlot
    rw [List.getElem?_eq_getElem hI] at hSlot ⊢
    exact (Option.some.inj hSlot).symm
  · have hNone : deltas[i]? = none :=
      List.getElem?_eq_none (Nat.le_of_not_lt hI)
    rw [List.getElem?_append_right (by simpa using hI)] at hSlot
    have hMem := List.mem_of_getElem? hSlot
    rw [hNone]
    exact List.eq_of_mem_replicate hMem

/- Slots with both fields are enumerated by their own. -/
theorem slotArrivals_eq
    {slots : List Record}
    (hFields : TwoFields slots) :
    slotArrivals slots = slots.map slotFields := by
  unfold slotArrivals
  apply List.ext_getElem
  · simp
  · intro i hLeft hRight
    have hI : i < slots.length := by simpa using hRight
    have hName : "sequence" ∈ slots[i].type.names :=
      (hFields _ (List.getElem_mem hI)).mem_iff.mpr (by simp)
    rcases Record.exists_attr?_iff.mpr hName with
      ⟨value, hValue⟩
    simp [slotFields, Record.attr, hValue]

/- Older streams have no cells. -/
theorem hasCells_of_legacy
    {stream : FoundStream}
    (hLegacy : Legacy stream.rawSlots deltas) :
    stream.hasCells = false := by
  unfold FoundStream.hasCells
  cases hSlots : stream.rawSlots with
  | nil => rfl
  | cons record rest =>
      have hNames :=
        hLegacy.twoFields record (by simp [hSlots])
      have hName : "value" ∉ record.type.names := by
        rw [hNames.mem_iff]
        decide
      cases hValue : record.attr? "value" with
      | none => simp [hValue]
      | some value =>
          exact absurd
            (Record.exists_attr?_iff.mp ⟨value, hValue⟩) hName

/- Without metadata they are read as streams of slots. -/
theorem found_of_legacy
    {stream : FoundStream}
    (hLegacy : Legacy stream.rawSlots deltas)
    (hMeta :
      throughputMetaRecord stream.metaRecords
        stream.blockIndex = none) :
    stream.found =
      (stream.slotLaunches throughputWorkgroups).map
        (FoundLaunch.mk stream) := by
  unfold FoundStream.found FoundStream.launches
  rw [hasCells_of_legacy hLegacy, hMeta]
  rfl

/- Slots that are not zero: the arrivals of an older stream. -/
theorem filter_fields
    (hPositive : ∀ delta ∈ deltas, 0 < delta)
    (idle : Nat) :
    (arrivalFields deltas ++
        List.replicate idle ((0 : Int), (0 : Int))).filter
          (fun fields =>
            decide (fields.1 ≠ 0) || decide (fields.2 ≠ 0)) =
      arrivalFields deltas := by
  have hArrived :
      (arrivalFields deltas).filter
          (fun fields =>
            decide (fields.1 ≠ 0) || decide (fields.2 ≠ 0)) =
        arrivalFields deltas := by
    rw [List.filter_eq_self]
    intro fields hMem
    rcases List.mem_mapIdx.mp hMem with ⟨i, hI, rfl⟩
    have hDelta := hPositive _ (List.getElem_mem hI)
    have hNonzero : deltas[i] ≠ 0 := by omega
    simp [hNonzero]
  rw [List.filter_append, hArrived]
  simp

/- They are what is inferred. -/
theorem slotArrivals_inferred
    (hLegacy : Legacy rawSlots deltas) :
    slotArrivals (inferredThroughputRecords rawSlots) =
      arrivalFields deltas := by
  have hFields :
      TwoFields (inferredThroughputRecords rawSlots) := by
    intro record hMem
    exact hLegacy.twoFields record (List.mem_filter.mp hMem).1
  have hMap :
      (inferredThroughputRecords rawSlots).map slotFields =
        (rawSlots.map slotFields).filter
          (fun fields =>
            decide (fields.1 ≠ 0) || decide (fields.2 ≠ 0)) := by
    rw [List.filter_map]
    rfl
  rw [slotArrivals_eq hFields, hMap, hLegacy.slots]
  exact filter_fields hLegacy.positive _

------------------------------------------------------------
-- Headers
------------------------------------------------------------

/- A partition is decoded if its first slot counts arrivals. -/
theorem decodePartition_eq_none_iff
    {base partitionSize partition : Nat} :
    decodePartition rawSlots base partitionSize partition =
        none ↔
      ∀ header,
        rawSlots[partition * partitionSize]? = some header →
          header.attr "sequence" ≤ 0 := by
  simp only [decodePartition]
  cases rawSlots[partition * partitionSize]? with
  | none => simp
  | some header =>
      simp only [Option.some.injEq, forall_eq']
      split
      case isTrue hNone => simp [hNone]
      case isFalse hSome => simp [hSome]

/- Slots from the number of arrivals on count none. -/
theorem partitions_of_short
    (hLegacy : Legacy rawSlots deltas)
    (hShort :
      deltas.length ≤ rawSlots.length / throughputWorkgroups)
    (blockIndex base : Nat) :
    throughputPartitionRecords rawSlots blockIndex
        throughputWorkgroups (some base) = [] := by
  unfold throughputPartitionRecords
  split
  · rfl
  · apply List.filterMap_eq_nil_iff.mpr
    intro partition _
    rw [decodePartition_eq_none_iff]
    intro header hHeader
    have hFields := slotFields_of_getElem? hLegacy hHeader
    have hSequence :
        header.attr "sequence" = (slotFields header).1 := rfl
    rw [hSequence, hFields]
    cases partition with
    | zero =>
        rw [Nat.zero_mul]
        cases deltas[0]? <;> simp
    | succ k =>
        have hBeyond :
            deltas.length ≤
              (k + 1) *
                (rawSlots.length / throughputWorkgroups) := by
          rw [Nat.add_mul, Nat.one_mul]
          omega
        rw [List.getElem?_eq_none hBeyond]
        simp

/- A longer stream has an arrival in a slot for a header. -/
theorem partitions_of_long
    (hLegacy : Legacy rawSlots deltas)
    (hLong :
      rawSlots.length / throughputWorkgroups < deltas.length)
    (blockIndex base : Nat) :
    throughputPartitionRecords rawSlots blockIndex
        throughputWorkgroups (some base) ≠ [] := by
  have hFits := hLegacy.fits
  have hSize :=
    Nat.mul_div_cancel' hLegacy.divisible
  have hPositive :
      0 < rawSlots.length / throughputWorkgroups := by
    apply Nat.pos_of_ne_zero
    intro hZero
    rw [hZero, Nat.mul_zero] at hSize
    omega
  have hFirst :
      1 * (rawSlots.length / throughputWorkgroups) <
        rawSlots.length := by
    omega
  have hHeader := List.getElem?_eq_getElem hFirst
  have hFields := slotFields_of_getElem? hLegacy hHeader
  have hSome : ¬ rawSlots.isEmpty = true := by
    intro hEmpty
    rw [List.isEmpty_iff.mp hEmpty] at hFirst
    exact absurd hFirst (by simp)
  unfold throughputPartitionRecords
  rw [if_neg hSome]
  intro hNil
  have hNone :=
    List.filterMap_eq_nil_iff.mp hNil 1 (by simp)
  rw [decodePartition_eq_none_iff] at hNone
  have hZero := hNone _ hHeader
  have hArrived :
      1 * (rawSlots.length / throughputWorkgroups) <
        deltas.length := by
    omega
  rw [List.getElem?_eq_getElem hArrived] at hFields
  have hSequence := congrArg Prod.fst hFields
  simp only [slotFields, Option.elim_some] at hSequence
  omega

/- No other slot looks like the first arrival. -/
theorem slotFields_ne_first
    (hLegacy : Legacy rawSlots deltas)
    {delta : Int}
    (hFirst : deltas[0]? = some delta)
    {i : Nat}
    {record : Record}
    (hI : i ≠ 0)
    (hRecord : rawSlots[i]? = some record) :
    slotFields record ≠ (0, delta) := by
  have hDelta :=
    hLegacy.positive delta (List.mem_of_getElem? hFirst)
  rw [slotFields_of_getElem? hLegacy hRecord]
  intro hSame
  cases hThis : deltas[i]? with
  | none =>
      rw [hThis] at hSame
      have hZero := congrArg Prod.snd hSame
      simp only [Option.elim_none] at hZero
      omega
  | some other =>
      rw [hThis] at hSame
      have hZero := congrArg Prod.fst hSame
      simp only [Option.elim_some] at hZero
      omega

/- The first arrival is accepted by no partition. -/
theorem first_notMem_partitions
    (hLegacy : Legacy rawSlots deltas)
    {delta : Int}
    (hFirst : deltas[0]? = some delta)
    {blockIndex base : Nat}
    {launch : Launch}
    (hMem :
      launch ∈
        throughputPartitionRecords rawSlots blockIndex
          throughputWorkgroups (some base)) :
    (0, delta) ∉ launch.accepted := by
  rcases mem_throughputPartitionRecords hMem with
    ⟨partition, _, hDecode⟩
  rcases decodePartition_eq_some hDecode with
    ⟨_, header, limit, _, _, hAccepted⟩
  intro hThere
  have hFields :
      TwoFields
        ((rawSlots.drop
          (partition * (rawSlots.length / throughputWorkgroups) +
            1)).take limit) := by
    intro record hRecord
    exact hLegacy.twoFields record
      (List.mem_of_mem_drop (List.mem_of_mem_take hRecord))
  rw [hAccepted, slotArrivals_eq hFields] at hThere
  rcases List.mem_map.mp hThere with ⟨record, hRecord, hSame⟩
  -- accepted slots come after a header, so none is the first
  rcases List.getElem?_of_mem (List.mem_of_mem_take hRecord)
    with ⟨j, hJ⟩
  rw [List.getElem?_drop] at hJ
  exact
    slotFields_ne_first hLegacy hFirst (by omega) hJ hSame

------------------------------------------------------------
-- Recognised Streams
------------------------------------------------------------

variable {variant : String}
variable {stream : FoundStream}

/- The sequence and the delta of a row. -/
def ArrivalRow.arrival (row : ArrivalRow) : Int × Int :=
  (row.sequence, row.deltaTicks)

/- The rows of a launch have its accepted arrivals. -/
theorem map_arrival_rows (found : FoundLaunch) :
    (found.rows variant).map ArrivalRow.arrival =
      found.launch.accepted := by
  unfold FoundLaunch.rows
  rw [List.map_map]
  exact List.map_id _

/- A short stream is read as one launch of its arrivals. -/
theorem recognised_of_short
    (hLegacy : Legacy stream.rawSlots deltas)
    (hMeta :
      throughputMetaRecord stream.metaRecords
        stream.blockIndex = none)
    (hShort :
      deltas.length ≤
        stream.rawSlots.length / throughputWorkgroups) :
    Recognised variant stream deltas := by
  have hLaunches :
      stream.slotLaunches throughputWorkgroups =
        [stream.legacyLaunch] := by
    unfold FoundStream.slotLaunches
    rw [partitions_of_short hLegacy hShort]
    rfl
  have hFound := found_of_legacy hLegacy hMeta
  rw [hLaunches] at hFound
  constructor
  · unfold FoundStream.rows FoundStream.arrivalRows
    rw [hFound, ← slotArrivals_inferred hLegacy]
    exact List.flatMap_singleton _ _
  · intro found hMem
    rw [hFound] at hMem
    rw [List.mem_singleton.mp hMem]
    rfl

/- The rows of a longer stream are not its arrivals. -/
theorem rows_ne_of_long
    (hLegacy : Legacy stream.rawSlots deltas)
    (hMeta :
      throughputMetaRecord stream.metaRecords
        stream.blockIndex = none)
    (hLong :
      stream.rawSlots.length / throughputWorkgroups <
        deltas.length) :
    stream.rows variant ≠
      stream.arrivalRows variant deltas := by
  have hPartitions :=
    partitions_of_long hLegacy hLong stream.blockIndex
      stream.workgroupBase
  have hLaunches :
      stream.slotLaunches throughputWorkgroups =
        throughputPartitionRecords stream.rawSlots
          stream.blockIndex throughputWorkgroups
          (some stream.workgroupBase) := by
    unfold FoundStream.slotLaunches
    exact if_neg (by simpa using hPartitions)
  cases hFirst : deltas[0]? with
  | none =>
      have hEmpty := List.getElem?_eq_none_iff.mp hFirst
      rw [Nat.le_zero.mp hEmpty] at hLong
      exact absurd hLong (Nat.not_lt_zero _)
  | some delta =>
      intro hRows
      have hArrivals :
          stream.found.flatMap (fun found =>
            (found.rows variant).map ArrivalRow.arrival) =
          arrivalFields deltas := by
        rw [← List.map_flatMap]
        exact
          (congrArg (List.map ArrivalRow.arrival) hRows).trans
            (map_arrival_rows _)
      have hMem : (0, delta) ∈ arrivalFields deltas := by
        apply List.mem_of_getElem? (i := 0)
        unfold arrivalFields
        rw [List.getElem?_mapIdx, hFirst]
        rfl
      rw [← hArrivals] at hMem
      rcases List.mem_flatMap.mp hMem with
        ⟨found, hThere, hArrival⟩
      rw [found_of_legacy hLegacy hMeta, hLaunches] at hThere
      rcases List.mem_map.mp hThere with ⟨launch, hLaunch, rfl⟩
      rw [map_arrival_rows] at hArrival
      exact
        first_notMem_partitions hLegacy hFirst hLaunch hArrival

/- What is read of a root, stream by stream. -/
theorem csvRows_eq_flatMap_rows
    {root : TraceRoot ThroughputRecords}
    {partitionsValue : Option Int}
    {aggregates : List WorkgroupAggregate}
    {csvRows : List ArrivalRow}
    (hRead :
      readThroughputRoot root variant partitionsValue =
        .ok (aggregates, csvRows)) :
    csvRows =
      (rootStreams root).flatMap
        (FoundStream.rows variant) := by
  rw [csvRows_eq hRead]
  unfold rootLaunches FoundStream.rows
  rw [flatMap_rows_filter, List.flatMap_assoc]

/-
  A root is read stream by stream, and an older stream is
  recognised exactly if its arrivals do not go beyond its
  first quarter.
-/
theorem legacy_recognised_iff
    {root : TraceRoot ThroughputRecords}
    {partitionsValue : Option Int}
    {aggregates : List WorkgroupAggregate}
    {csvRows : List ArrivalRow}
    (hRead :
      readThroughputRoot root variant partitionsValue =
        .ok (aggregates, csvRows)) :
    csvRows =
        (rootStreams root).flatMap
          (FoundStream.rows variant) ∧
      ∀ stream deltas,
        Legacy stream.rawSlots deltas →
          throughputMetaRecord stream.metaRecords
              stream.blockIndex = none →
            (Recognised variant stream deltas ↔
              deltas.length ≤
                stream.rawSlots.length / 4) := by
  refine ⟨csvRows_eq_flatMap_rows hRead, ?_⟩
  intro stream deltas hLegacy hMeta
  constructor
  · intro hRecognised
    by_contra hLong
    exact
      rows_ne_of_long hLegacy hMeta (Nat.lt_of_not_le hLong)
        hRecognised.rows
  · exact recognised_of_short hLegacy hMeta

------------------------------------------------------------
-- Streams Of Eight Slots
------------------------------------------------------------

/- The class of slots. -/
def slotType : RecordType where
  names := ["sequence", "delta_ticks"]
  distinct := by decide

/- A slot by its fields. -/
def slotRecord (sequence deltaTicks : Int) : Record where
  type := slotType
  values := [sequence, deltaTicks]
  arity := rfl

/- Eight slots, the first of them filled. -/
def filledSlots (deltas : List Int) : List Record :=
  (List.range 8).map (fun (i : Nat) =>
    match deltas[i]? with
    | some delta => slotRecord i delta
    | none => slotRecord 0 0)

/- A root that is one directory with one such stream. -/
def filledRoot
    (deltas : List Int) : TraceRoot ThroughputRecords where
  path := "trace/rank0"
  name := "rank0"
  parentName := "trace"
  own :=
    { hasReader := true
      hasResult := true
      loadReader :=
        .ok (fun _ =>
          .ok
            { fabricperfThroughput :=
                some [[filledSlots deltas]]
              fabricperfThroughputMeta := none })
      resultFiles := [ResultFile.empty "0.bin"]
      parseRank := .ok 0 }
  children := []

/- That stream. -/
def filledStream (deltas : List Int) : FoundStream where
  traceName := "trace"
  rank := 0
  resultFile := "0.bin"
  metaRecords := none
  blockIndex := 0
  blockCount := 1
  warpIndex := 0
  warpCount := 1
  rawSlots := filledSlots deltas

/- Two arrivals in eight slots are read as they are. -/
theorem legacy_recognised_iff_quarter :
    ∃ aggregates csvRows,
      readThroughputRoot (filledRoot [1000, 2000]) "gmem"
          (some 4) =
        .ok (aggregates, csvRows) ∧
        rootStreams (filledRoot [1000, 2000]) =
          [filledStream [1000, 2000]] ∧
        Recognised "gmem" (filledStream [1000, 2000])
          [1000, 2000] := by
  have hRead :
      readThroughputRoot (filledRoot [1000, 2000]) "gmem"
          (some 4) =
        .ok (_, _) :=
    rfl
  have hLegacy :
      Legacy (filledSlots [1000, 2000]) [1000, 2000] := by
    constructor
    · unfold TwoFields
      decide
    · decide
    · decide
    · decide
    · decide
  refine ⟨_, _, hRead, by decide, ?_⟩
  exact
    ((legacy_recognised_iff hRead).2
      (filledStream [1000, 2000]) _ hLegacy rfl).mpr
        (by decide)

/- Of three, the third is taken for a header. -/
theorem not_legacy_recognised :
    ∃ aggregates csvRows,
      readThroughputRoot (filledRoot [1000, 2000, 3000]) "gmem"
          (some 4) =
        .ok (aggregates, csvRows) ∧
        rootStreams (filledRoot [1000, 2000, 3000]) =
          [filledStream [1000, 2000, 3000]] ∧
        Legacy (filledSlots [1000, 2000, 3000])
          [1000, 2000, 3000] ∧
        csvRows.map ArrivalRow.arrival = [(0, 0)] ∧
        ¬ Recognised "gmem" (filledStream [1000, 2000, 3000])
          [1000, 2000, 3000] := by
  refine ⟨_, _, rfl, by decide, ?_, by decide, ?_⟩
  · constructor
    · unfold TwoFields
      decide
    · decide
    · decide
    · decide
    · decide
  · intro hRecognised
    have hLength := congrArg List.length hRecognised.rows
    exact absurd hLength (by decide)

end Throughput

end FabricPerf
