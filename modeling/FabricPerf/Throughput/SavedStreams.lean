import FabricPerf.Throughput.Conservation
import FabricPerf.Throughput.OwnedSlices

/-
  The warps of all launches of all ranks, side by side, and
  the result files that hold their streams.

  Every warp has a stream of its own.  The streams of a file
  are found at the places of the warps in the grid, and those
  whose leaders have returned give the launches of their
  histories.

  Main declarations:
    * `Throughput.throughputMachine`
    * `Throughput.WorldState.table`
    * `Throughput.historyRows`
    * `Throughput.found_foundStream`
-/

------------------------------------------------------------
-- Warps And Launches
------------------------------------------------------------

namespace FabricPerf

namespace Throughput

open Analysis Raising

/- A warp of a launch of a rank. -/
structure StreamPlace where
  rank : Nat
  launch : Nat
  block : Nat
  warp : Nat
deriving DecidableEq, Repr

/- The stream of each warp. -/
abbrev ThroughputWorld : Type := StreamPlace → SharedStream

/- The streams and their leaders. -/
abbrev WorldState (world : ThroughputWorld) : Type :=
  (place : StreamPlace) → StreamState (world place).groups

/- All interleavings of the leaders of all warps. -/
def throughputMachine (world : ThroughputWorld) :
    Machine (WorldState world)
      (Σ place, StreamAction (world place).groups) :=
  Machine.product (fun place => sharedMachine (world place))

/- The acting leader is within the range of its count cell. -/
def WorldShort
    {world : ThroughputWorld}
    (s : WorldState world)
    (a : Σ place, StreamAction (world place).groups) : Prop :=
  Short (s a.1) a.2

/- A launch of a rank, its grid and its result file. -/
structure SavedLaunch where
  launch : Nat
  blocks : Nat
  warps : Nat
  file : ResultFile

/- A warp of the launch. -/
def SavedLaunch.place
    (saved : SavedLaunch)
    (rank block warp : Nat) : StreamPlace where
  rank := rank
  launch := saved.launch
  block := block
  warp := warp

namespace WorldState

variable {world : ThroughputWorld}

/- The cells of a warp as they are read back. -/
def cells
    (s : WorldState world)
    (place : StreamPlace) : List Record :=
  (s place).rawCells (world place).toStream

/- The table of streams of a launch. -/
def table
    (s : WorldState world)
    (rank : Nat)
    (saved : SavedLaunch) : RecordTable :=
  (List.range saved.blocks).map (fun block =>
    (List.range saved.warps).map (fun warp =>
      s.cells (saved.place rank block warp)))

/-
  All leaders of a launch have returned, and no two leaders
  of one slice have received.
-/
def Settled
    (s : WorldState world)
    (rank : Nat)
    (saved : SavedLaunch) : Prop :=
  ∀ block < saved.blocks, ∀ warp < saved.warps,
    (s (saved.place rank block warp)).Closed ∧
      (s (saved.place rank block warp)).Alone

/- The receive-hook executions of a launch. -/
def launchArrivals
    (s : WorldState world)
    (rank : Nat)
    (saved : SavedLaunch) : Nat :=
  ((List.range saved.blocks).map (fun block =>
    ((List.range saved.warps).map (fun warp =>
      ∑ g, ((s (saved.place rank block warp)).leader
        g).times.length)).sum)).sum

end WorldState

/- The rows of the arrivals that a leader has stored. -/
def historyRows
    (variant : String)
    (key : WorkgroupKey)
    (file : ResultFile)
    (leader : Leader) : List ArrivalRow :=
  (leader.times.take 1022).mapIdx (fun i time =>
    { trace := key.1
      rank := key.2.1
      variant := variant
      resultFile := file.name
      workgroup := key.2.2
      sequence := i
      deltaTicks := ticks leader.start time
      binNs := throughputBinNs
      binIndex :=
        (ticks leader.start time : Int) / throughputBinNs })

------------------------------------------------------------
-- Launches Of Histories
------------------------------------------------------------

/- A launch of a history, found in a stream. -/
def FoundStream.foundCell
    (stream : FoundStream)
    (launch : CellLaunch) : FoundLaunch :=
  ⟨stream, launch.toLaunch⟩

section Histories

variable {groups base : Nat} {s : StreamState groups}
variable {w : Fin 4} {leader : Leader} {launch : CellLaunch}

/- What the launch of a history is. -/
theorem ofLeader_eq_some_iff :
    CellLaunch.ofLeader base w leader = some launch ↔
      leader.times ≠ [] ∧
        launch =
          { workgroup := base + w.val
            accepted :=
              (leader.times.take 1022).mapIdx
                (fun i time =>
                  (i, (ticks leader.start time : Int)))
            totalArrivals := leader.times.length
            durationTicks :=
              leader.flushed.elim 0
                (fun time =>
                  (ticks leader.start time : Int))
            capacity := 1022 } := by
  unfold CellLaunch.ofLeader
  split
  case isTrue hNone => simp [hNone]
  case isFalse hSome =>
      rw [Option.some_inj]
      exact ⟨fun h => ⟨hSome, h.symm⟩, fun h => h.2.symm⟩

/- The launches of a slice come from its leaders. -/
theorem mem_launches_iff :
    launch ∈ s.launches base w ↔
      ∃ leader ∈ s.leadersOf w,
        CellLaunch.ofLeader base w leader = some launch :=
  List.mem_filterMap

/- They have the number of the slice. -/
theorem workgroup_of_mem_launches
    (hMem : launch ∈ s.launches base w) :
    launch.workgroup = base + w.val := by
  rcases mem_launches_iff.mp hMem with ⟨leader, _, hSome⟩
  rw [(ofLeader_eq_some_iff.mp hSome).2]

/- None of them is skipped. -/
theorem counted_of_mem_launches
    (hMem : launch ∈ s.launches base w) :
    launch.toLaunch.counted = true := by
  rcases mem_launches_iff.mp hMem with ⟨leader, _, hSome⟩
  rcases ofLeader_eq_some_iff.mp hSome with ⟨hTimes, hLaunch⟩
  rw [hLaunch]
  simp [Launch.counted, CellLaunch.toLaunch, hTimes]

/- A launch has the arrivals of its history. -/
theorem arrivals_ofLeader
    (hSome : CellLaunch.ofLeader base w leader = some launch)
    (stream : FoundStream) :
    (stream.foundCell launch).arrivals = leader.times.length := by
  rw [(ofLeader_eq_some_iff.mp hSome).2]
  simp only [FoundLaunch.arrivals, FoundStream.foundCell,
    CellLaunch.toLaunch, Launch.dropped, List.length_map,
    List.length_mapIdx, List.length_take]
  omega

/- The launches of a slice have all its arrivals. -/
theorem sum_arrivals_launches (stream : FoundStream) :
    (((s.launches base w).map stream.foundCell).map
        FoundLaunch.arrivals).sum =
      (s.arrivals w : Int) := by
  unfold StreamState.launches StreamState.arrivals
  induction s.leadersOf w with
  | nil => rfl
  | cons leader rest ih =>
      rw [List.map_cons, List.sum_cons, Nat.cast_add, ← ih]
      cases hSome : CellLaunch.ofLeader base w leader with
      | none =>
          have hTimes := ofLeader_eq_none_iff.mp hSome
          rw [List.filterMap_cons_none hSome, hTimes]
          simp
      | some launch =>
          rw [List.filterMap_cons_some hSome, List.map_cons,
            List.map_cons, List.sum_cons,
            arrivals_ofLeader hSome]

/- There are some exactly if the slice has arrivals. -/
theorem launches_eq_nil_iff :
    s.launches base w = [] ↔ s.arrivals w = 0 := by
  unfold StreamState.launches StreamState.arrivals
  rw [List.filterMap_eq_nil_iff, List.sum_eq_zero_iff]
  constructor
  · intro hNone n hMem
    rcases List.mem_map.mp hMem with ⟨leader, hLeader, rfl⟩
    exact
      congrArg List.length
        (ofLeader_eq_none_iff.mp (hNone leader hLeader))
  · intro hZero leader hLeader
    apply ofLeader_eq_none_iff.mpr
    apply List.eq_nil_of_length_eq_zero
    exact hZero _ (List.mem_map_of_mem hLeader)

/- The rows of the launches are those of the histories. -/
theorem rows_launches
    (variant : String)
    (stream : FoundStream)
    {key : WorkgroupKey}
    (hTrace : key.1 = stream.traceName)
    (hRank : key.2.1 = stream.rank)
    (hWorkgroup : key.2.2 = base + w.val)
    {file : ResultFile}
    (hFile : stream.resultFile = file.name) :
    ((s.launches base w).map stream.foundCell).flatMap
        (FoundLaunch.rows variant) =
      (s.leadersOf w).flatMap (historyRows variant key file) := by
  unfold StreamState.launches
  induction s.leadersOf w with
  | nil => rfl
  | cons leader rest ih =>
      rw [List.flatMap_cons, ← ih]
      cases hSome : CellLaunch.ofLeader base w leader with
      | none =>
          have hTimes := ofLeader_eq_none_iff.mp hSome
          rw [List.filterMap_cons_none hSome]
          simp [historyRows, hTimes]
      | some launch =>
          rw [List.filterMap_cons_some hSome, List.map_cons,
            List.flatMap_cons]
          congr 1
          rw [(ofLeader_eq_some_iff.mp hSome).2]
          unfold historyRows FoundLaunch.rows
          simp only [FoundStream.foundCell,
            CellLaunch.toLaunch, List.mapIdx_eq_zipIdx_map,
            hTrace, hRank, hWorkgroup, hFile, List.map_map]
          rfl

/- The slices have all arrivals of a stream. -/
theorem sum_arrivals (s : StreamState groups) :
    ((List.finRange 4).map s.arrivals).sum =
      ∑ g, (s.leader g).times.length := by
  have hSlices :
      ∀ g ∈ List.finRange groups, sliceOf g ∈ List.finRange 4 :=
    fun g _ => List.mem_finRange (sliceOf g)
  have hSum :=
    Keyed.sum_filter_key (List.nodup_finRange 4) hSlices
      (fun g => (s.leader g).times.length)
  rw [← List.sum_ofFn, List.ofFn_eq_map, ← hSum]
  congr 1
  apply List.map_congr_left
  intro w _
  unfold StreamState.arrivals StreamState.leadersOf
  rw [List.map_map]
  rfl

end Histories

------------------------------------------------------------
-- The Streams Of A Result File
------------------------------------------------------------

section Files

variable {world : ThroughputWorld} {s : WorldState world}
variable {trace variant : String} {rank : Nat}
variable {saved : SavedLaunch}

/- The stream of a warp as it is found in its file. -/
def WorldState.foundStream
    (s : WorldState world)
    (trace : String)
    (rank : Nat)
    (saved : SavedLaunch)
    (block warp : Nat) : FoundStream where
  traceName := trace
  rank := rank
  resultFile := saved.file.name
  metaRecords := none
  blockIndex := block
  blockCount := saved.blocks
  warpIndex := warp
  warpCount := saved.warps
  rawSlots := s.cells (saved.place rank block warp)

/- The streams of a block are those of its warps. -/
theorem warpRecordStreams_table
    {block : Nat}
    (hBlock : block < saved.blocks) :
    warpRecordStreams (s.table rank saved) block =
      (List.range saved.warps).map (fun warp =>
        (warp, s.cells (saved.place rank block warp))) := by
  have hRow :
      (s.table rank saved)[block]? =
        some ((List.range saved.warps).map (fun warp =>
          s.cells (saved.place rank block warp))) := by
    simp [WorldState.table, hBlock]
  unfold warpRecordStreams
  rw [hRow]
  simp only
  have hStreams :
      ((List.range saved.warps).map (fun warp =>
          s.cells (saved.place rank block warp))).mapIdx
            (fun warp rawSlots => (warp, rawSlots)) =
        (List.range saved.warps).map (fun warp =>
          (warp, s.cells (saved.place rank block warp))) := by
    apply List.ext_getElem
    · simp
    · intro i _ _
      simp
  rw [hStreams, List.filter_eq_self]
  intro stream hMem
  rcases List.mem_map.mp hMem with ⟨warp, _, rfl⟩
  have hLength :
      (s.cells (saved.place rank block warp)).length = 4096 :=
    StreamState.length_rawCells
  cases hCells : s.cells (saved.place rank block warp) with
  | nil =>
      rw [hCells] at hLength
      cases hLength
  | cons record rest => rfl

/- Every block of a launch has all its warps. -/
theorem warpCount_table
    {block : Nat}
    (hBlock : block < saved.blocks) :
    warpCount (s.table rank saved) block = saved.warps := by
  simp [warpCount, WorldState.table, hBlock]

/- The streams of a file are those of all warps. -/
theorem fileStreams_table :
    fileStreams trace rank saved.file
        ⟨some (s.table rank saved), none⟩ =
      (List.range saved.blocks).flatMap (fun block =>
        (List.range saved.warps).map
          (s.foundStream trace rank saved block)) := by
  have hBlocks :
      (s.table rank saved).length = saved.blocks := by
    simp [WorldState.table]
  unfold fileStreams
  simp only
  rw [hBlocks]
  apply List.flatMap_congr
  intro block hMem
  have hBlock := List.mem_range.mp hMem
  rw [warpRecordStreams_table hBlock, List.map_map,
    warpCount_table hBlock]
  apply List.map_congr_left
  intro warp _
  simp only [Function.comp_apply, WorldState.foundStream]

/- The slots of a stream are its cells. -/
theorem rawSlots_foundStream (block warp : Nat) :
    (s.foundStream trace rank saved block warp).rawSlots =
      (s (saved.place rank block warp)).rawCells
        (world (saved.place rank block warp)).toStream := by
  simp only [WorldState.foundStream, WorldState.cells]

/- The number of a stream is that of its warp. -/
theorem workgroupBase_foundStream (block warp : Nat) :
    (s.foundStream trace rank saved block
        warp).workgroupBase =
      workgroupBaseForWarp block saved.blocks saved.warps
        warp := by
  simp only [FoundStream.workgroupBase, WorldState.foundStream]

/- The stream of a warp is one of cells. -/
theorem hasCells_foundStream (block warp : Nat) :
    (s.foundStream trace rank saved block warp).hasCells =
      true := by
  have hHead :
      (s.foundStream trace rank saved block
          warp).rawSlots.head? =
        some
          (cellRecord
            ((s (saved.place rank block warp)).memory
              (cellAddr
                (world (saved.place rank block warp)).map1
                0))) := by
    rw [rawSlots_foundStream, StreamState.rawCells,
      List.head?_map, List.head?_range]
    rfl
  unfold FoundStream.hasCells
  rw [hHead]
  rfl

/- So it is read whatever the partitions are. -/
theorem launches_foundStream
    (block warp partitions : Nat) :
    ∃ launches,
      (s.foundStream trace rank saved block warp).launches
        partitions = .ok launches := by
  unfold FoundStream.launches
  rw [hasCells_foundStream, if_pos rfl]
  exact ⟨_, pure_eq_ok _⟩

/- A settled stream gives the launches of its histories. -/
theorem found_foundStream
    (hReach : (throughputMachine world).Reach WorldShort s)
    (hSettled : s.Settled rank saved)
    {block warp : Nat}
    (hBlock : block < saved.blocks)
    (hWarp : warp < saved.warps) :
    (s.foundStream trace rank saved block warp).found =
      (List.finRange 4).flatMap (fun w =>
        ((s (saved.place rank block warp)).launches
          (workgroupBaseForWarp block saved.blocks saved.warps
            warp) w).map
          (s.foundStream trace rank saved block
            warp).foundCell) := by
  rcases hSettled block hBlock warp hWarp with ⟨hClosed, hAlone⟩
  have hStream :=
    Machine.Reach.component (fun _ => Short) hReach
      (saved.place rank block warp)
  have hRecords :
      throughputWorkgroupCellRecords
          (s.foundStream trace rank saved block warp).rawSlots
          (s.foundStream trace rank saved block
            warp).blockIndex
          (some
            (s.foundStream trace rank saved block
              warp).workgroupBase) =
        (List.finRange 4).flatMap
          ((s (saved.place rank block warp)).launches
            (workgroupBaseForWarp block saved.blocks
              saved.warps warp)) := by
    rw [rawSlots_foundStream, workgroupBase_foundStream]
    exact records_owned hStream hAlone hClosed _ _
  unfold FoundStream.found FoundStream.launches
  rw [hasCells_foundStream, if_pos rfl, hRecords, pure_eq_ok]
  simp only
  rw [List.map_map, List.map_flatMap]
  apply List.flatMap_congr
  intro w _
  apply List.map_congr_left
  intro launch _
  simp only [Function.comp_apply, FoundStream.foundCell]

end Files

end Throughput

end FabricPerf
