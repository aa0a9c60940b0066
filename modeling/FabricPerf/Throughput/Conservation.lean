import FabricPerf.Throughput.CellTotals
import FabricPerf.Throughput.RootLaunches
import FabricPerf.Throughput.RoundTrip

/-
  Throughput totals are conserved by `readThroughputRoot`.

  The counters of an aggregate agree with its rows: every
  launch adds to both what it has accepted.  With cells alone,
  captured and dropped arrivals add up to the headers of all
  streams.

  Main declarations:
    * `Throughput.CountsRows`
    * `Throughput.countsRows_total`
    * `Throughput.throughput_conserved`
-/

------------------------------------------------------------
-- Counters And Rows
------------------------------------------------------------

namespace FabricPerf

namespace Throughput

open Analysis Raising

/- The counters of an aggregate are those of some rows. -/
structure CountsRows
    (counters : ThroughputAggregate)
    (rows : List ArrivalRow) : Prop where
  captured : counters.captured = rows.length
  binTotal : counters.binCounts.values.sum = rows.length
  binCount : ∀ bin,
    counters.binCounts.get 0 bin =
      rows.countP (fun row => row.binIndex = bin)

variable {variant : String}
variable {counters : ThroughputAggregate}
variable {rows : List ArrivalRow}

/- A new aggregate has no rows. -/
theorem countsRows_new :
    CountsRows ThroughputAggregate.new [] := by
  constructor
  · rfl
  · rfl
  · intro bin
    rfl

/- A launch has a row for every delta. -/
theorem length_rows (found : FoundLaunch) :
    (found.rows variant).length =
      found.launch.deltas.length := by
  simp [FoundLaunch.rows, Launch.deltas]

/- The rows in a bin are the deltas in it. -/
theorem countP_rows (found : FoundLaunch) (bin : Int) :
    (found.rows variant).countP
        (fun row => row.binIndex = bin) =
      found.launch.deltas.countP
        (fun delta => delta / throughputBinNs = bin) := by
  simp [FoundLaunch.rows, Launch.deltas, List.countP_map,
    Function.comp_def]

/- A launch adds as much to the counters as to the rows. -/
theorem countsRows_addLaunch
    (hCounts : CountsRows counters rows)
    (found : FoundLaunch) :
    CountsRows
      (counters.addLaunch found.launch.deltas
        found.launch.totalArrivals found.launch.durationTicks
        found.launch.capacity)
      (rows ++ found.rows variant) := by
  constructor
  · rw [List.length_append, length_rows, ← hCounts.captured]
    rfl
  · rw [List.length_append, length_rows, ← hCounts.binTotal]
    exact Dict.sum_foldl_succ _ _ _
  · intro bin
    rw [List.countP_append, countP_rows, ← hCounts.binCount]
    exact Dict.get_foldl_succ _ _ _ _

/- The total of some launches counts the rows of them all. -/
theorem countsRows_total
    (key : WorkgroupKey)
    (launches : List FoundLaunch) :
    CountsRows
      (WorkgroupAggregate.total variant key launches).counters
      (launches.flatMap (FoundLaunch.rows variant)) := by
  unfold WorkgroupAggregate.total
  induction launches using List.reverseRecOn with
  | nil => exact countsRows_new
  | append_singleton earlier found ih =>
      rw [List.foldl_append, List.flatMap_append,
        List.flatMap_singleton]
      exact countsRows_addLaunch ih found

/- The rows of a launch all have its key. -/
theorem key_of_mem_rows
    {found : FoundLaunch}
    {row : ArrivalRow}
    (hMem : row ∈ found.rows variant) :
    row.key = found.key := by
  rcases List.mem_map.mp hMem with ⟨arrival, _, rfl⟩
  rfl

/- The rows of a key are those of its launches. -/
theorem filter_rows
    (launches : List FoundLaunch)
    (key : WorkgroupKey) :
    (launches.flatMap (FoundLaunch.rows variant)).filter
        (fun row => row.key = key) =
      (launches.filter (fun found => found.key = key)).flatMap
        (FoundLaunch.rows variant) := by
  induction launches with
  | nil => rfl
  | cons found rest ih =>
      rw [List.flatMap_cons, List.filter_append, ih]
      by_cases hKey : found.key = key
      · have hAll :
            (found.rows variant).filter
                (fun row => row.key = key) =
              found.rows variant := by
          rw [List.filter_eq_self]
          intro row hMem
          exact decide_eq_true
            ((key_of_mem_rows hMem).trans hKey)
        rw [hAll]
        simp [hKey]
      · have hNone :
            (found.rows variant).filter
                (fun row => row.key = key) = [] := by
          rw [List.filter_eq_nil_iff]
          intro row hMem hSame
          rw [decide_eq_true_iff, key_of_mem_rows hMem] at hSame
          exact hKey hSame
        rw [hNone]
        simp [hKey]

------------------------------------------------------------
-- The Streams Under A Root
------------------------------------------------------------

/- The tables of streams in the files of a directory. -/
def resultTables (dir : TraceDir ThroughputRecords) :
    List RecordTable :=
  match dir.loadReader with
  | .ok parse =>
      dir.resultFiles.map (fun file =>
        match parse file with
        | .ok parsed => parsed.fabricperfThroughput.getD []
        | .error _ => [])
  | .error _ => []

/- The records of all streams in all files under a root. -/
def rawStreams (root : TraceRoot ThroughputRecords) :
    List (List Record) :=
  root.traceDirs.flatMap (fun dir =>
    (resultTables dir.2).flatMap List.flatten)

/- All streams under a root are made of cells. -/
def CellStreams (root : TraceRoot ThroughputRecords) : Prop :=
  ∀ rawSlots ∈ rawStreams root, ∀ record ∈ rawSlots,
    "value" ∈ record.type.names

/- The streams that are not empty. -/
def populated (streams : List (List Record)) :
    List (List Record) :=
  streams.filter (fun rawSlots => !rawSlots.isEmpty)

/- The streams of a block are those that are not empty. -/
theorem map_warpRecordStreams
    (records : RecordTable)
    (blockIndex : Nat) :
    (warpRecordStreams records blockIndex).map Prod.snd =
      populated (records[blockIndex]?.getD []) := by
  unfold warpRecordStreams populated
  cases records[blockIndex]? with
  | none => rfl
  | some warps =>
      have hSnd :
          (warps.mapIdx
            (fun warpIndex rawSlots =>
              (warpIndex, rawSlots))).map Prod.snd =
            warps := by
        apply List.ext_getElem <;> simp
      conv_rhs => rw [Option.getD_some, ← hSnd, List.filter_map]
      rfl

/- The loop over the blocks meets every block. -/
theorem flatMap_range_getD
    (records : RecordTable) :
    (List.range records.length).flatMap
        (fun blockIndex =>
          populated (records[blockIndex]?.getD [])) =
      populated records.flatten := by
  have hRange :
      (List.range records.length).map
          (fun blockIndex => records[blockIndex]?.getD []) =
        records := by
    apply List.ext_getElem
    · simp
    · intro i _ hI
      simp [hI]
  conv_rhs => rw [← hRange]
  unfold populated
  rw [List.filter_flatten, List.map_map]
  rfl

/- The streams of a file are those of its table. -/
theorem map_fileStreams
    (traceName : String)
    (rank : Nat)
    (file : ResultFile)
    (parsed : ThroughputRecords) :
    (fileStreams traceName rank file parsed).map
        FoundStream.rawSlots =
      populated
        (parsed.fabricperfThroughput.getD []).flatten := by
  unfold fileStreams
  cases parsed.fabricperfThroughput with
  | none => rfl
  | some records =>
      rw [Option.getD_some, ← flatMap_range_getD,
        List.map_flatMap]
      congr 1
      funext blockIndex
      rw [← map_warpRecordStreams, List.map_map]
      rfl

/- The streams of a directory are those of its tables. -/
theorem map_dirStreams
    {dir : String × TraceDir ThroughputRecords}
    {rank : Nat}
    (hRank : dir.2.parseRank = .ok rank) :
    (dirStreams dir).map FoundStream.rawSlots =
      populated ((resultTables dir.2).flatMap List.flatten) := by
  unfold dirStreams resultTables
  rw [hRank]
  cases dir.2.loadReader with
  | error _ => rfl
  | ok parse =>
      unfold populated
      rw [List.map_flatMap, List.flatMap_map,
        List.filter_flatMap]
      congr 1
      funext file
      cases parse file with
      | error _ => rfl
      | ok parsed => exact map_fileStreams dir.1 rank file parsed

variable {root : TraceRoot ThroughputRecords}
variable {partitionsValue : Option Int}
variable {aggregates : List WorkgroupAggregate}
variable {csvRows : List ArrivalRow}

/- A root is read only if every directory has a rank. -/
theorem parseRank_of_read
    (hRead :
      readThroughputRoot root variant partitionsValue =
        .ok (aggregates, csvRows)) :
    ∀ dir ∈ root.traceDirs, ∃ rank,
      dir.2.parseRank = .ok rank := by
  rcases bind_eq_ok_iff.mp hRead with ⟨partitions, _, hRest⟩
  rcases bind_eq_ok_iff.mp hRest with ⟨dirs, hDirs, hLoop⟩
  rcases bind_eq_ok_iff.mp hLoop with ⟨state, hState, _⟩
  rw [TraceRoot.iterTraceDirs_ok hDirs] at hState
  intro dir hMem
  rcases forall_of_foldlM_ok hState dir hMem with
    ⟨before, after, hDir⟩
  rcases bind_eq_ok_iff.mp hDir with ⟨parse, _, hParse⟩
  rcases bind_eq_ok_iff.mp hParse with ⟨rank, hRank, _⟩
  exact ⟨rank, hRank⟩

/- The streams that are read are those of all tables. -/
theorem map_rootStreams
    (hRead :
      readThroughputRoot root variant partitionsValue =
        .ok (aggregates, csvRows)) :
    (rootStreams root).map FoundStream.rawSlots =
      populated (rawStreams root) := by
  have hRanks := parseRank_of_read hRead
  unfold rootStreams rawStreams populated
  rw [List.map_flatMap, List.filter_flatMap]
  apply List.flatMap_congr
  intro dir hMem
  rcases hRanks dir hMem with ⟨rank, hRank⟩
  exact map_dirStreams hRank

------------------------------------------------------------
-- Totals
------------------------------------------------------------

/- The arrivals of a launch that are known to be dropped. -/
def Launch.dropped (launch : Launch) : Int :=
  match launch.totalArrivals with
  | some total => max 0 (total - min total launch.capacity)
  | none => 0

/- The arrivals of a launch, captured or dropped. -/
def FoundLaunch.arrivals (found : FoundLaunch) : Int :=
  found.launch.accepted.length + found.launch.dropped

/- The arrivals of an aggregate, captured or dropped. -/
def WorkgroupAggregate.arrivals
    (aggregate : WorkgroupAggregate) : Int :=
  aggregate.counters.captured + aggregate.counters.dropped

/- A launch adds its arrivals to the aggregate. -/
theorem arrivals_addLaunch
    (found : FoundLaunch)
    (aggregate : WorkgroupAggregate) :
    (aggregate.addLaunch found.launch).arrivals =
      aggregate.arrivals + found.arrivals := by
  simp only [WorkgroupAggregate.arrivals,
    FoundLaunch.arrivals, Launch.dropped, Launch.deltas,
    WorkgroupAggregate.addLaunch,
    ThroughputAggregate.addLaunch, List.length_map,
    Nat.cast_add]
  cases found.launch.totalArrivals with
  | none =>
      simp only
      omega
  | some total =>
      simp only
      omega

/- All aggregates together have the arrivals of all launches. -/
theorem sum_aggregates
    (hRead :
      readThroughputRoot root variant partitionsValue =
        .ok (aggregates, csvRows)) :
    (aggregates.map WorkgroupAggregate.arrivals).sum =
      ((rootLaunches root).map FoundLaunch.arrivals).sum := by
  have hNew (key : WorkgroupKey) :
      (WorkgroupAggregate.new variant key).arrivals = 0 := rfl
  have hSum :
      ((enterLaunches variant (rootLaunches root)).values.map
        WorkgroupAggregate.arrivals).sum =
        0 +
          ((rootLaunches root).map FoundLaunch.arrivals).sum :=
    Dict.sum_foldl_update hNew arrivals_addLaunch
      (rootLaunches root) Dict.empty
  rw [aggregates_eq hRead, hSum, Int.zero_add]

/- A stream of cells has the arrivals in its headers. -/
theorem sum_found
    {stream : FoundStream}
    (hCells : stream.hasCells = true) :
    ((stream.found.filter (fun found =>
        found.launch.counted)).map FoundLaunch.arrivals).sum =
      positiveTotals stream.rawSlots := by
  have hFound :
      stream.found =
        (throughputWorkgroupCellRecords stream.rawSlots
          stream.blockIndex (some stream.workgroupBase)).map
            (fun launch =>
              FoundLaunch.mk stream launch.toLaunch) := by
    unfold FoundStream.found FoundStream.launches
    rw [if_pos hCells]
    exact List.map_map
  have hCounted :
      ∀ found ∈ stream.found, found.launch.counted = true := by
    intro found hMem
    rw [hFound] at hMem
    rcases List.mem_map.mp hMem with ⟨launch, hLaunch, rfl⟩
    have hPositive := (mem_records hLaunch).1
    have hNonzero : launch.totalArrivals ≠ 0 := by omega
    simp [Launch.counted, CellLaunch.toLaunch, hNonzero]
  rw [List.filter_eq_self.mpr hCounted, hFound, List.map_map,
    ← sum_totalArrivals stream.rawSlots stream.blockIndex
      (some stream.workgroupBase)]
  congr 1
  apply List.map_congr_left
  intro launch hLaunch
  have hTotal := captured_add_dropped hLaunch
  simpa [FoundLaunch.arrivals, CellLaunch.toLaunch,
    Launch.dropped, CellLaunch.dropped] using hTotal

/- Streams of cells have the arrivals in their headers. -/
theorem sum_found_streams
    {streams : List FoundStream}
    (hCells : ∀ stream ∈ streams, stream.hasCells = true) :
    (((streams.flatMap FoundStream.found).filter (fun found =>
        found.launch.counted)).map FoundLaunch.arrivals).sum =
      ((streams.map FoundStream.rawSlots).map
        positiveTotals).sum := by
  induction streams with
  | nil => rfl
  | cons stream rest ih =>
      have hRest :=
        ih (fun other hMem =>
          hCells other (List.mem_cons_of_mem _ hMem))
      rw [List.flatMap_cons, List.filter_append,
        List.map_append, List.sum_append, hRest,
        sum_found (hCells stream List.mem_cons_self),
        List.map_cons, List.map_cons, List.sum_cons]

/- Empty streams have no headers. -/
theorem sum_populated (streams : List (List Record)) :
    ((populated streams).map positiveTotals).sum =
      (streams.map positiveTotals).sum := by
  induction streams with
  | nil => rfl
  | cons rawSlots rest ih =>
      unfold populated at ih ⊢
      cases rawSlots with
      | nil =>
          have hEmpty : positiveTotals [] = 0 := rfl
          simpa [hEmpty] using ih
      | cons record more => simp [ih]

/- Streams with the field of cells are read as cells. -/
theorem hasCells_of_cellStreams
    (hRead :
      readThroughputRoot root variant partitionsValue =
        .ok (aggregates, csvRows))
    (hCells : CellStreams root) :
    ∀ stream ∈ rootStreams root, stream.hasCells = true := by
  intro stream hMem
  have hRaw :
      stream.rawSlots ∈ populated (rawStreams root) := by
    rw [← map_rootStreams hRead]
    exact List.mem_map_of_mem hMem
  rcases List.mem_filter.mp hRaw with ⟨hThere, hSome⟩
  unfold FoundStream.hasCells
  cases hSlots : stream.rawSlots with
  | nil =>
      rw [hSlots] at hSome
      cases hSome
  | cons record rest =>
      have hField :=
        hCells stream.rawSlots hThere record (by simp [hSlots])
      rcases Record.exists_attr?_iff.mpr hField with
        ⟨value, hValue⟩
      simp [hValue]

------------------------------------------------------------
-- Conservation
------------------------------------------------------------

/-
  What is read of a root with streams of cells is what their
  headers count.  Whatever the streams are made of, there is
  one aggregate for each key of the rows, and its counters
  are those of the rows with its key.
-/
theorem throughput_conserved
    (hRead :
      readThroughputRoot root variant partitionsValue =
        .ok (aggregates, csvRows)) :
    (CellStreams root →
      (aggregates.map WorkgroupAggregate.arrivals).sum =
        ((rawStreams root).map positiveTotals).sum) ∧
      (aggregates.map WorkgroupAggregate.key).Nodup ∧
      (∀ row ∈ csvRows,
        row.key ∈ aggregates.map WorkgroupAggregate.key) ∧
      ∀ aggregate ∈ aggregates,
        CountsRows aggregate.counters
          (csvRows.filter (fun row =>
            row.key = aggregate.key)) := by
  refine ⟨?_, ?_, ?_, ?_⟩
  · intro hCells
    rw [sum_aggregates hRead, ← sum_populated,
      ← map_rootStreams hRead]
    exact sum_found_streams (hasCells_of_cellStreams hRead hCells)
  · exact nodup_keys_aggregates hRead
  · intro row hMem
    rw [csvRows_eq hRead] at hMem
    rcases List.mem_flatMap.mp hMem with ⟨found, hFound, hRow⟩
    rw [key_of_mem_rows hRow]
    exact key_mem_aggregates hRead hFound
  · intro aggregate hMem
    rcases (mem_aggregates_iff hRead).mp hMem with ⟨_, hTotal⟩
    rw [csvRows_eq hRead, filter_rows]
    rw [hTotal, WorkgroupAggregate.key_total]
    exact countsRows_total aggregate.key _

------------------------------------------------------------
-- Two Ranks
------------------------------------------------------------

/-
  Slices of three cells: the first counts three arrivals and
  has room for one, the last counts one.
-/
def overflowingCells : List Record :=
  ([20000, 3, 9000, 0, 0, 0, 0, 0, 0, 500, 1, 400, 7] :
    List (BitVec 32)).map cellRecord

/- A directory whose files each have that stream twice. -/
def overflowingDir
    (rank : Nat) : TraceDir ThroughputRecords where
  hasReader := true
  hasResult := true
  loadReader :=
    .ok (fun _ =>
      .ok
        { fabricperfThroughput :=
            some [[overflowingCells, [], overflowingCells]]
          fabricperfThroughputMeta := none })
  resultFiles := [ResultFile.empty "result/0.bin"]
  parseRank := .ok rank

/- Two ranks with such directories. -/
def overflowingRoot : TraceRoot ThroughputRecords where
  path := "trace"
  name := "trace"
  parentName := ""
  own :=
    { hasReader := false
      hasResult := false
      loadReader := .error .osError
      resultFiles := []
      parseRank := .error .osError }
  children := [overflowingDir 0, overflowingDir 1]

/- Of sixteen arrivals eight are captured. -/
theorem throughput_conserved_overflowing :
    ∃ aggregates csvRows,
      readThroughputRoot overflowingRoot "gmem" (some 4) =
        .ok (aggregates, csvRows) ∧
        csvRows.length = 8 ∧
        (aggregates.map WorkgroupAggregate.arrivals).sum =
          16 := by
  have hRead :
      readThroughputRoot overflowingRoot "gmem" (some 4) =
        .ok (_, _) :=
    rfl
  have hCells : CellStreams overflowingRoot := by
    unfold CellStreams
    decide
  refine ⟨_, _, hRead, rfl, ?_⟩
  rw [(throughput_conserved hRead).1 hCells]
  decide

end Throughput

end FabricPerf
