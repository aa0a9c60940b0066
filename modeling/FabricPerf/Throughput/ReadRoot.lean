import FabricPerf.Analysis.TraceRoot
import FabricPerf.Throughput.WorkgroupIds

/-
  `read_throughput_root` of `analysis/throughput.py`: from
  the result files under a trace root to the rows of the CSV
  file and the aggregates of the workgroups.

  A file has a table of streams by block and warp.  A stream
  is decoded by the layout it has: cells, slots counted by
  metadata, partitioned slots, or slots alone.

  Main declarations:
    * `Throughput.throughputPartitionRecords`
    * `Throughput.FoundStream.launches`
    * `Throughput.readThroughputRoot`
-/

------------------------------------------------------------
-- Launches
------------------------------------------------------------

namespace FabricPerf

namespace Throughput

open Analysis Raising

/- One entry of `launches`: accepted are sequence and delta. -/
structure Launch where
  workgroup : Nat
  accepted : List (Int × Int)
  totalArrivals : Option Int
  durationTicks : Option Int
  capacity : Nat
deriving DecidableEq, Repr

namespace Launch

/- `accepted or total_arrivals`: others are skipped. -/
def counted (launch : Launch) : Bool :=
  !launch.accepted.isEmpty ||
    decide (launch.totalArrivals.getD 0 ≠ 0)

/- The deltas of the accepted arrivals. -/
def deltas (launch : Launch) : List Int :=
  launch.accepted.map Prod.snd

end Launch

/- A decoded slice of cells as an entry of `launches`. -/
def CellLaunch.toLaunch (launch : CellLaunch) : Launch where
  workgroup := launch.workgroup
  accepted :=
    launch.accepted.map (fun arrival => (↑arrival.1, arrival.2))
  totalArrivals := some launch.totalArrivals
  durationTicks := some launch.durationTicks
  capacity := launch.capacity

------------------------------------------------------------
-- Slots
------------------------------------------------------------

/- The arrivals of enumerated slots. -/
def slotArrivals (slots : List Record) : List (Int × Int) :=
  slots.mapIdx
    (fun sequence record =>
      ((record.attr? "sequence").getD sequence,
        record.attr "delta_ticks"))

/- `slots[:stop]` -/
def sliceTo (slots : List Record) (stop : Int) : List Record :=
  if stop < 0 then
    slots.take (slots.length + stop).toNat
  else
    slots.take stop.toNat

/- `inferred_throughput_records` -/
def inferredThroughputRecords
    (records : List Record) : List Record :=
  records.filter
    (fun record =>
      decide (record.attr "sequence" ≠ 0) ||
        decide (record.attr "delta_ticks" ≠ 0))

/- One turn of the loop over the partitions. -/
def decodePartition
    (rawSlots : List Record)
    (base partitionSize partition : Nat) : Option Launch :=
  let start := partition * partitionSize
  match rawSlots[start]? with
  | none => none
  | some header =>
      let totalArrivals := header.attr "sequence"
      let durationTicks := header.attr "delta_ticks"
      let capacity := partitionSize - 1
      if totalArrivals ≤ 0 then
        none
      else
        let limit := min totalArrivals.toNat capacity
        some
          { workgroup := base + partition
            accepted :=
              slotArrivals
                ((rawSlots.drop (start + 1)).take limit)
            totalArrivals := some totalArrivals
            durationTicks := some durationTicks
            capacity := capacity }

/- `throughput_partition_records` -/
def throughputPartitionRecords
    (rawSlots : List Record)
    (blockIndex partitions : Nat)
    (workgroupBase : Option Nat) : List Launch :=
  if rawSlots.isEmpty then
    []
  else
    let partitionSize := rawSlots.length / partitions
    let base := workgroupBase.getD (blockIndex * partitions)
    (List.range partitions).filterMap
      (decodePartition rawSlots base partitionSize)

/- What is known of a launch decoded from a partition. -/
theorem decodePartition_eq_some
    {rawSlots : List Record}
    {base partitionSize partition : Nat}
    {launch : Launch}
    (hSome :
      decodePartition rawSlots base partitionSize partition =
        some launch) :
    launch.workgroup = base + partition ∧
      ∃ header limit,
        rawSlots[partition * partitionSize]? = some header ∧
          0 < header.attr "sequence" ∧
          launch.accepted =
            slotArrivals
              ((rawSlots.drop
                (partition * partitionSize + 1)).take limit) := by
  simp only [decodePartition] at hSome
  cases hHeader : rawSlots[partition * partitionSize]? with
  | none =>
      rw [hHeader] at hSome
      cases hSome
  | some header =>
      rw [hHeader] at hSome
      simp only at hSome
      split at hSome
      · cases hSome
      · rename_i hPositive
        cases hSome
        exact ⟨rfl, header, _, rfl, by omega, rfl⟩

/- Every launch is decoded from one of the partitions. -/
theorem mem_throughputPartitionRecords
    {rawSlots : List Record}
    {blockIndex partitions base : Nat}
    {launch : Launch}
    (hMem :
      launch ∈
        throughputPartitionRecords rawSlots blockIndex
          partitions (some base)) :
    ∃ partition, partition < partitions ∧
      decodePartition rawSlots base
          (rawSlots.length / partitions) partition =
        some launch := by
  unfold throughputPartitionRecords at hMem
  split at hMem
  · cases hMem
  · rcases List.mem_filterMap.mp hMem with
      ⟨partition, hRange, hDecode⟩
    exact ⟨partition, List.mem_range.mp hRange, hDecode⟩

------------------------------------------------------------
-- Streams
------------------------------------------------------------

/- The records of each warp of each block. -/
abbrev RecordTable := List (List (List Record))

/- The two maps of a parsed result file. -/
structure ThroughputRecords where
  fabricperfThroughput : Option RecordTable
  fabricperfThroughputMeta : Option RecordTable
deriving DecidableEq, Repr

/- `warp_record_streams`; an index error gives no streams. -/
def warpRecordStreams
    (records : RecordTable)
    (blockIndex : Nat) : List (Nat × List Record) :=
  match records[blockIndex]? with
  | none => []
  | some warps =>
      (warps.mapIdx
        (fun warpIndex rawSlots => (warpIndex, rawSlots))).filter
          (fun stream => !stream.2.isEmpty)

/- The number of warps of a block. -/
def warpCount
    (records : RecordTable)
    (blockIndex : Nat) : Nat :=
  match records[blockIndex]? with
  | none => 1
  | some warps => warps.length

/- `throughput_meta_record` -/
def throughputMetaRecord
    (metaRecords : Option RecordTable)
    (workgroup : Nat) : Option Record := do
  let records ← metaRecords
  let warps ← records[workgroup]?
  let slots ← warps[0]?
  slots[0]?

/- A stream, and where it was found. -/
structure FoundStream where
  traceName : String
  rank : Nat
  resultFile : String
  metaRecords : Option RecordTable
  blockIndex : Nat
  blockCount : Nat
  warpIndex : Nat
  warpCount : Nat
  rawSlots : List Record
deriving DecidableEq, Repr

namespace FoundStream

/- `workgroup_base` -/
def workgroupBase (stream : FoundStream) : Nat :=
  workgroupBaseForWarp stream.blockIndex stream.blockCount
    stream.warpCount stream.warpIndex

/- `raw_slots and hasattr(raw_slots[0], "value")` -/
def hasCells (stream : FoundStream) : Bool :=
  stream.rawSlots.head?.any
    (fun record => (record.attr? "value").isSome)

/- The launch of a stream counted by its metadata. -/
def metaLaunch
    (stream : FoundStream)
    (metaRecord : Record) : Except PyErr Launch := do
  let totalArrivals ← metaRecord.getAttr "total_arrivals"
  let durationTicks ← metaRecord.getAttr "duration_ticks"
  let stop := min totalArrivals stream.rawSlots.length
  pure
    { workgroup := stream.workgroupBase
      accepted := slotArrivals (sliceTo stream.rawSlots stop)
      totalArrivals := some totalArrivals
      durationTicks := some durationTicks
      capacity := stream.rawSlots.length }

/- The launch of a stream without any counts. -/
def legacyLaunch (stream : FoundStream) : Launch where
  workgroup := stream.workgroupBase
  accepted :=
    slotArrivals (inferredThroughputRecords stream.rawSlots)
  totalArrivals := none
  durationTicks := none
  capacity := stream.rawSlots.length

/- The launches of a stream without cells and metadata. -/
def slotLaunches
    (stream : FoundStream)
    (partitions : Nat) : List Launch :=
  let launches :=
    throughputPartitionRecords stream.rawSlots
      stream.blockIndex partitions (some stream.workgroupBase)
  if launches.isEmpty then [stream.legacyLaunch] else launches

/- `launches` -/
def launches
    (stream : FoundStream)
    (partitions : Nat) : Except PyErr (List Launch) :=
  if stream.hasCells then
    pure
      ((throughputWorkgroupCellRecords stream.rawSlots
          stream.blockIndex (some stream.workgroupBase)).map
        CellLaunch.toLaunch)
  else
    match throughputMetaRecord stream.metaRecords
        stream.blockIndex with
    | some metaRecord =>
        if stream.warpIndex = 0 then do
          pure [← stream.metaLaunch metaRecord]
        else
          pure (stream.slotLaunches partitions)
    | none => pure (stream.slotLaunches partitions)

end FoundStream

/- The streams of a result file, block by block. -/
def fileStreams
    (traceName : String)
    (rank : Nat)
    (file : ResultFile)
    (parsed : ThroughputRecords) : List FoundStream :=
  match parsed.fabricperfThroughput with
  | none => []
  | some records =>
      (List.range records.length).flatMap (fun blockIndex =>
        (warpRecordStreams records blockIndex).map (fun slots =>
          { traceName := traceName
            rank := rank
            resultFile := file.name
            metaRecords := parsed.fabricperfThroughputMeta
            blockIndex := blockIndex
            blockCount := records.length
            warpIndex := slots.1
            warpCount := warpCount records blockIndex
            rawSlots := slots.2 }))

------------------------------------------------------------
-- Aggregates And Rows
------------------------------------------------------------

/- The key of an aggregate: trace, rank and workgroup. -/
abbrev WorkgroupKey := String × Nat × Nat

/- A `ThroughputAggregate`: what it is of, and its counters. -/
structure WorkgroupAggregate where
  traceName : String
  rank : Nat
  variant : String
  workgroup : Nat
  counters : ThroughputAggregate

namespace WorkgroupAggregate

/- The aggregate of a key before its first launch. -/
def new
    (variant : String)
    (key : WorkgroupKey) : WorkgroupAggregate where
  traceName := key.1
  rank := key.2.1
  variant := variant
  workgroup := key.2.2
  counters := ThroughputAggregate.new

/- The key of an aggregate. -/
def key (aggregate : WorkgroupAggregate) : WorkgroupKey :=
  (aggregate.traceName, aggregate.rank, aggregate.workgroup)

/- `add_launch` -/
def addLaunch
    (aggregate : WorkgroupAggregate)
    (launch : Launch) : WorkgroupAggregate :=
  { aggregate with
    counters :=
      aggregate.counters.addLaunch launch.deltas
        launch.totalArrivals launch.durationTicks
        launch.capacity }

end WorkgroupAggregate

/- A row of the CSV file; `str` writes its numbers. -/
structure ArrivalRow where
  trace : String
  rank : Nat
  variant : String
  resultFile : String
  workgroup : Nat
  sequence : Int
  deltaTicks : Int
  binNs : Int
  binIndex : Int
deriving DecidableEq, Repr

/- The key of a row. -/
def ArrivalRow.key (row : ArrivalRow) : WorkgroupKey :=
  (row.trace, row.rank, row.workgroup)

/- A launch, and the stream in which it was found. -/
structure FoundLaunch where
  stream : FoundStream
  launch : Launch
deriving DecidableEq, Repr

namespace FoundLaunch

/- The key of the launch's aggregate. -/
def key (found : FoundLaunch) : WorkgroupKey :=
  (found.stream.traceName, found.stream.rank,
    found.launch.workgroup)

/- The rows of the accepted arrivals. -/
def rows
    (variant : String)
    (found : FoundLaunch) : List ArrivalRow :=
  found.launch.accepted.map (fun arrival =>
    { trace := found.stream.traceName
      rank := found.stream.rank
      variant := variant
      resultFile := found.stream.resultFile
      workgroup := found.launch.workgroup
      sequence := arrival.1
      deltaTicks := arrival.2
      binNs := throughputBinNs
      binIndex := arrival.2 / throughputBinNs })

end FoundLaunch

/- `aggregates` and `csv_rows` -/
structure ReadState where
  aggregates : Dict WorkgroupKey WorkgroupAggregate
  csvRows : List ArrivalRow

/- Nothing has been read. -/
def ReadState.empty : ReadState where
  aggregates := Dict.empty
  csvRows := []

/- The body of the loop over the launches of a stream. -/
def ReadState.addLaunch
    (variant : String)
    (state : ReadState)
    (found : FoundLaunch) : ReadState :=
  if found.launch.counted then
    { aggregates :=
        state.aggregates.update
          (WorkgroupAggregate.new variant found.key) found.key
          (fun aggregate => aggregate.addLaunch found.launch)
      csvRows := state.csvRows ++ found.rows variant }
  else
    state

------------------------------------------------------------
-- Reading
------------------------------------------------------------

/-
  `throughput_partitions`; `value` is what `int` makes of the
  environment variable, `none` if that raises.
-/
def throughputPartitions (value : Option Int) :
    Except PyErr Nat :=
  if value = some 4 then
    pure 4
  else
    throw
      (.valueError "FABRICPERF_THROUGHPUT_PARTITIONS must be 4")

/- Add the launches of one stream. -/
def addStream
    (variant : String)
    (partitions : Nat)
    (state : ReadState)
    (stream : FoundStream) : Except PyErr ReadState := do
  let launches ← stream.launches partitions
  pure
    ((launches.map (FoundLaunch.mk stream)).foldl
      (ReadState.addLaunch variant) state)

/- Add the streams of one result file. -/
def addFile
    (variant : String)
    (partitions : Nat)
    (traceName : String)
    (rank : Nat)
    (parse : ResultFile → Except PyErr ThroughputRecords)
    (state : ReadState)
    (file : ResultFile) : Except PyErr ReadState := do
  let parsed ← parse file
  (fileStreams traceName rank file parsed).foldlM
    (addStream variant partitions) state

/- Add the result files of one directory. -/
def addDir
    (variant : String)
    (partitions : Nat)
    (state : ReadState)
    (dir : String × TraceDir ThroughputRecords) :
    Except PyErr ReadState := do
  let parse ← dir.2.loadReader
  let rank ← dir.2.parseRank
  dir.2.resultFiles.foldlM
    (addFile variant partitions dir.1 rank parse) state

/- `read_throughput_root` -/
def readThroughputRoot
    (root : TraceRoot ThroughputRecords)
    (variant : String)
    (partitionsValue : Option Int) :
    Except PyErr (List WorkgroupAggregate × List ArrivalRow) :=
  do
    let partitions ← throughputPartitions partitionsValue
    let dirs ← root.iterTraceDirs
    let state ←
      dirs.foldlM (addDir variant partitions) ReadState.empty
    pure (state.aggregates.values, state.csvRows)

end Throughput

end FabricPerf
