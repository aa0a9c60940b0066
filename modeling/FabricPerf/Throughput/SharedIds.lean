import FabricPerf.Throughput.CellTotals
import FabricPerf.Throughput.RootLaunches
import FabricPerf.Throughput.RoundTrip

/-
  Workgroup ids over several result files.

  An id numbers the streams of one file, by the blocks and
  warps of that file, while an aggregate is kept under the id
  alone.  Launches of different streams share an aggregate
  exactly if files of different shapes give both streams one
  number.

  Main declarations:
    * `Throughput.FoundLaunch.position`
    * `Throughput.Clash`
    * `Throughput.key_eq_iff`
    * `Throughput.one_stream_iff`
-/

------------------------------------------------------------
-- Positions
------------------------------------------------------------

namespace FabricPerf

namespace Throughput

open Analysis

namespace FoundStream

/- The block count of the file, the warp count of the block. -/
def shape (stream : FoundStream) : Nat × Nat :=
  (stream.blockCount, stream.warpCount)

/- The block and warp of a stream. -/
def place (stream : FoundStream) : Nat × Nat :=
  (stream.blockIndex, stream.warpIndex)

/-
  The number of a stream: its block for warp zero, and
  `B + b * (W - 1) + (w - 1)` for the other warps.
-/
def number (stream : FoundStream) : Nat :=
  streamIndex stream.blockCount stream.warpCount
    stream.blockIndex stream.warpIndex

end FoundStream

namespace FoundLaunch

/- The slice of its stream a launch is decoded from. -/
def slice (found : FoundLaunch) : Nat :=
  found.launch.workgroup - found.stream.workgroupBase

/- The block, warp and slice of a launch. -/
def position (found : FoundLaunch) : (Nat × Nat) × Nat :=
  (found.stream.place, found.slice)

end FoundLaunch

/-
  Streams at different places, in files of different shapes,
  that have one number.
-/
def Clash (x y : FoundStream) : Prop :=
  x.shape ≠ y.shape ∧ x.place ≠ y.place ∧
    x.number = y.number

/- Launches of one rank and one slice are of no such streams. -/
def NoClashes (root : TraceRoot ThroughputRecords) : Prop :=
  ∀ x ∈ rootLaunches root, ∀ y ∈ rootLaunches root,
    x.stream.traceName = y.stream.traceName →
      x.stream.rank = y.stream.rank →
        x.slice = y.slice → ¬ Clash x.stream y.stream

/- An aggregate sums launches of one position only. -/
structure OneStream
    (root : TraceRoot ThroughputRecords)
    (variant : String)
    (aggregate : WorkgroupAggregate) : Prop where
  total :
    aggregate =
      WorkgroupAggregate.total variant aggregate.key
        (launchesOf root aggregate.key)
  position : ∀ x ∈ launchesOf root aggregate.key,
    ∀ y ∈ launchesOf root aggregate.key,
      x.position = y.position

------------------------------------------------------------
-- Ids Of Launches
------------------------------------------------------------

variable {stream : FoundStream}
variable {found : FoundLaunch}

/- Slices of slots are numbered from the stream's base. -/
theorem workgroup_of_mem_slotLaunches
    {launch : Launch}
    (hMem : launch ∈ stream.slotLaunches throughputWorkgroups) :
    ∃ slice, slice < throughputWorkgroups ∧
      launch.workgroup = stream.workgroupBase + slice := by
  simp only [FoundStream.slotLaunches] at hMem
  split at hMem
  case isTrue =>
      rw [List.mem_singleton.mp hMem]
      exact ⟨0, by decide, rfl⟩
  case isFalse =>
      rcases mem_throughputPartitionRecords hMem with
        ⟨slice, hSlice, hDecode⟩
      exact
        ⟨slice, hSlice, (decodePartition_eq_some hDecode).1⟩

/- Every launch has the id of a slice of its stream. -/
theorem workgroup_of_launches
    {launches : List Launch}
    (hLaunches :
      stream.launches throughputWorkgroups = .ok launches)
    {launch : Launch}
    (hMem : launch ∈ launches) :
    ∃ slice, slice < throughputWorkgroups ∧
      launch.workgroup = stream.workgroupBase + slice := by
  unfold FoundStream.launches at hLaunches
  split at hLaunches
  case isTrue =>
      cases hLaunches
      rcases List.mem_map.mp hMem with ⟨cells, hCells, rfl⟩
      rcases (mem_records hCells).2.1 with ⟨slice, hSlice⟩
      exact ⟨slice.val, slice.isLt, hSlice⟩
  case isFalse =>
      split at hLaunches
      · split at hLaunches
        case isTrue =>
            rcases Raising.bind_eq_ok_iff.mp hLaunches with
              ⟨own, hOwn, hSame⟩
            cases hSame
            rw [List.mem_singleton.mp hMem]
            rcases Raising.bind_eq_ok_iff.mp hOwn with
              ⟨_, _, hDuration⟩
            rcases Raising.bind_eq_ok_iff.mp hDuration with
              ⟨_, _, hLaunch⟩
            cases hLaunch
            exact ⟨0, by decide, rfl⟩
        case isFalse =>
            cases hLaunches
            exact workgroup_of_mem_slotLaunches hMem
      · cases hLaunches
        exact workgroup_of_mem_slotLaunches hMem

/- The id of a launch: its stream's number and its slice. -/
theorem workgroup_of_found (hMem : found ∈ stream.found) :
    found.stream = stream ∧
      found.slice < throughputWorkgroups ∧
      found.launch.workgroup =
        RowMajor.index throughputWorkgroups
          found.stream.number found.slice := by
  unfold FoundStream.found at hMem
  split at hMem
  case h_2 => cases hMem
  case h_1 launches hLaunches =>
      rcases List.mem_map.mp hMem with ⟨launch, hLaunch, rfl⟩
      rcases workgroup_of_launches hLaunches hLaunch with
        ⟨slice, hSlice, hId⟩
      have hOwn :
          (FoundLaunch.mk stream launch).slice = slice := by
        unfold FoundLaunch.slice
        rw [hId]
        exact Nat.add_sub_cancel_left _ _
      refine ⟨rfl, ?_, ?_⟩
      · rw [hOwn]
        exact hSlice
      · rw [hOwn]
        refine hId.trans ?_
        exact workgroupBaseForWarp_add _ _ _ _ _

------------------------------------------------------------
-- Streams Of A Root
------------------------------------------------------------

variable {root : TraceRoot ThroughputRecords}

/- Streams of a block are among its warps. -/
theorem lt_of_mem_warpRecordStreams
    {records : RecordTable}
    {blockIndex : Nat}
    {slots : Nat × List Record}
    (hMem : slots ∈ warpRecordStreams records blockIndex) :
    slots.1 < warpCount records blockIndex := by
  unfold warpRecordStreams at hMem
  unfold warpCount
  split at hMem
  · cases hMem
  · have hThere := (List.mem_filter.mp hMem).1
    rcases List.mem_mapIdx.mp hThere with ⟨i, hI, rfl⟩
    exact hI

/- Streams lie within the shape of their file. -/
theorem lt_of_mem_fileStreams
    {traceName : String}
    {rank : Nat}
    {file : ResultFile}
    {parsed : ThroughputRecords}
    (hMem : stream ∈ fileStreams traceName rank file parsed) :
    stream.blockIndex < stream.blockCount ∧
      stream.warpIndex < stream.warpCount := by
  unfold fileStreams at hMem
  split at hMem
  · cases hMem
  · rcases List.mem_flatMap.mp hMem with
      ⟨blockIndex, hBlock, hStream⟩
    rcases List.mem_map.mp hStream with ⟨slots, hSlots, rfl⟩
    exact
      ⟨List.mem_range.mp hBlock,
        lt_of_mem_warpRecordStreams hSlots⟩

/- The same for all streams under a root. -/
theorem lt_of_mem_rootStreams
    (hMem : stream ∈ rootStreams root) :
    stream.blockIndex < stream.blockCount ∧
      stream.warpIndex < stream.warpCount := by
  rcases List.mem_flatMap.mp hMem with ⟨dir, _, hDir⟩
  unfold dirStreams at hDir
  split at hDir
  · rcases List.mem_flatMap.mp hDir with ⟨file, _, hFile⟩
    split at hFile
    · exact lt_of_mem_fileStreams hFile
    · cases hFile
  · cases hDir

/- What is known of every launch under a root. -/
theorem of_mem_rootLaunches
    (hMem : found ∈ rootLaunches root) :
    found.stream ∈ rootStreams root ∧
      found.slice < throughputWorkgroups ∧
      found.launch.workgroup =
        RowMajor.index throughputWorkgroups
          found.stream.number found.slice := by
  have hThere := (List.mem_filter.mp hMem).1
  rcases List.mem_flatMap.mp hThere with
    ⟨stream, hStream, hFound⟩
  rcases workgroup_of_found hFound with ⟨hOwn, hSlice, hId⟩
  rw [hOwn]
  rw [hOwn] at hId
  exact ⟨hStream, hSlice, hId⟩

variable {x y : FoundLaunch}

/-
  Launches have one key if their streams have one number and
  the rest agrees.
-/
theorem key_eq_iff
    (hX : x ∈ rootLaunches root)
    (hY : y ∈ rootLaunches root) :
    x.key = y.key ↔
      x.stream.traceName = y.stream.traceName ∧
        x.stream.rank = y.stream.rank ∧
        x.slice = y.slice ∧
        x.stream.number = y.stream.number := by
  rcases of_mem_rootLaunches hX with ⟨_, hSlice, hId⟩
  rcases of_mem_rootLaunches hY with ⟨_, hSlice', hId'⟩
  unfold FoundLaunch.key
  rw [Prod.mk.injEq, Prod.mk.injEq, hId, hId']
  constructor
  · rintro ⟨hTrace, hRank, hIndex⟩
    have hParts := RowMajor.index_inj hSlice hSlice' hIndex
    exact ⟨hTrace, hRank, hParts.2, hParts.1⟩
  · rintro ⟨hTrace, hRank, hSame, hNumber⟩
    rw [hSame, hNumber]
    exact ⟨hTrace, hRank, rfl⟩

/- Within one shape the number of a stream gives its place. -/
theorem place_eq_of_number
    {s t : FoundStream}
    (hS : s ∈ rootStreams root)
    (hT : t ∈ rootStreams root)
    (hShape : s.shape = t.shape)
    (hNumber : s.number = t.number) :
    s.place = t.place := by
  rcases lt_of_mem_rootStreams hS with ⟨hBlock, hWarp⟩
  rcases lt_of_mem_rootStreams hT with ⟨hBlock', hWarp'⟩
  rcases Prod.mk.inj hShape with ⟨hBlocks, hWarps⟩
  unfold FoundStream.number at hNumber
  rw [← hBlocks, ← hWarps] at hNumber
  rw [← hBlocks] at hBlock'
  rw [← hWarps] at hWarp'
  rcases streamIndex_inj hBlock hWarp hBlock' hWarp' hNumber with
    ⟨hB, hW⟩
  exact Prod.ext hB hW

------------------------------------------------------------
-- One Stream For Each Aggregate
------------------------------------------------------------

variable {variant : String}
variable {partitionsValue : Option Int}
variable {aggregates : List WorkgroupAggregate}
variable {csvRows : List ArrivalRow}

/-
  Every aggregate sums launches of one position exactly if no
  two launches of a rank and slice are of streams in files of
  different shapes that have one number.
-/
theorem one_stream_iff
    (hRead :
      readThroughputRoot root variant partitionsValue =
        .ok (aggregates, csvRows)) :
    (∀ aggregate ∈ aggregates,
        OneStream root variant aggregate) ↔
      NoClashes root := by
  constructor
  · intro hOne x hX y hY hTrace hRank hSlice hClash
    have hKey :=
      (key_eq_iff hX hY).mpr
        ⟨hTrace, hRank, hSlice, hClash.2.2⟩
    rcases List.mem_map.mp (key_mem_aggregates hRead hX) with
      ⟨aggregate, hMem, hOwn⟩
    have hLaunchX : x ∈ launchesOf root aggregate.key :=
      List.mem_filter.mpr ⟨hX, decide_eq_true hOwn.symm⟩
    have hLaunchY : y ∈ launchesOf root aggregate.key :=
      List.mem_filter.mpr
        ⟨hY, decide_eq_true (hKey.symm.trans hOwn.symm)⟩
    have hSame :=
      (hOne aggregate hMem).position x hLaunchX y hLaunchY
    exact hClash.2.1 (Prod.mk.inj hSame).1
  · intro hNone aggregate hMem
    refine ⟨((mem_aggregates_iff hRead).mp hMem).2, ?_⟩
    intro x hLaunchX y hLaunchY
    rcases List.mem_filter.mp hLaunchX with ⟨hX, hKeyX⟩
    rcases List.mem_filter.mp hLaunchY with ⟨hY, hKeyY⟩
    have hKey : x.key = y.key :=
      (of_decide_eq_true hKeyX).trans
        (of_decide_eq_true hKeyY).symm
    rcases (key_eq_iff hX hY).mp hKey with
      ⟨hTrace, hRank, hSlice, hNumber⟩
    have hStreamX := (of_mem_rootLaunches hX).1
    have hStreamY := (of_mem_rootLaunches hY).1
    refine Prod.ext ?_ hSlice
    by_contra hPlace
    by_cases hShape : x.stream.shape = y.stream.shape
    · exact hPlace
        (place_eq_of_number hStreamX hStreamY hShape hNumber)
    · exact hNone x hX y hY hTrace hRank hSlice
        ⟨hShape, hPlace, hNumber⟩

------------------------------------------------------------
-- Launches Of Two Shapes
------------------------------------------------------------

/- A stream with as many arrivals in its first slice. -/
def arrivedCells (count : BitVec 32) : List Record :=
  ([20000, count, 500, 0, 0, 0, 0, 0, 0, 0, 0, 0] :
    List (BitVec 32)).map cellRecord

/-
  One rank with a launch of one block of two warps, and one of
  two blocks of a warp each.  In the first warp 1 has an
  arrival, in the second one of the blocks.
-/
def shapesDir
    (first second : BitVec 32) :
    TraceDir ThroughputRecords where
  hasReader := true
  hasResult := true
  loadReader :=
    .ok (fun file =>
      .ok
        { fabricperfThroughput :=
            some
              (if file.path = "0.bin" then
                [[arrivedCells 0, arrivedCells 1]]
              else
                [[arrivedCells first], [arrivedCells second]])
          fabricperfThroughputMeta := none })
  resultFiles :=
    [ResultFile.empty "0.bin", ResultFile.empty "1.bin"]
  parseRank := .ok 0

/- A root that is the directory itself. -/
def shapesRoot
    (first second : BitVec 32) :
    TraceRoot ThroughputRecords where
  path := "trace/rank0"
  name := "rank0"
  parentName := "trace"
  own := shapesDir first second
  children := []

/- Warp 1 and block 0 have different numbers. -/
theorem one_stream_iff_block_zero :
    ∃ aggregates csvRows,
      readThroughputRoot (shapesRoot 1 0) "gmem" (some 4) =
        .ok (aggregates, csvRows) ∧
        aggregates.length = 2 ∧
        ∀ aggregate ∈ aggregates,
          OneStream (shapesRoot 1 0) "gmem" aggregate := by
  have hRead :
      readThroughputRoot (shapesRoot 1 0) "gmem" (some 4) =
        .ok (_, _) :=
    rfl
  have hNone : NoClashes (shapesRoot 1 0) := by
    unfold NoClashes Clash
    decide
  exact ⟨_, _, hRead, rfl, (one_stream_iff hRead).mpr hNone⟩

/- Warp 1 of the first and block 1 of the second share an id. -/
theorem not_one_stream :
    ∃ aggregates csvRows,
      readThroughputRoot (shapesRoot 0 1) "gmem" (some 4) =
        .ok (aggregates, csvRows) ∧
        ¬ ∀ aggregate ∈ aggregates,
          OneStream (shapesRoot 0 1) "gmem" aggregate := by
  have hTwo :
      ∃ x ∈ launchesOf (shapesRoot 0 1) ("trace", 0, 4),
        ∃ y ∈ launchesOf (shapesRoot 0 1) ("trace", 0, 4),
          x.position ≠ y.position := by
    decide
  refine ⟨_, _, rfl, ?_⟩
  intro hOne
  rcases hTwo with ⟨x, hX, y, hY, hNe⟩
  have hSame := (hOne _ List.mem_cons_self).position
  exact hNe (hSame x hX y hY)

end Throughput

end FabricPerf
