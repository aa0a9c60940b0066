import FabricPerf.Throughput.Slices
import FabricPerf.Throughput.Records
import Mathlib.Data.BitVec

/-
  From the arrivals of four leaders to the decoded launches.

  The cells of a stream whose leaders have all returned are
  read back as records and decoded; the outcome is a function
  of the arrival histories alone.

  Main declarations:
    * `Throughput.StreamState.rawCells`
    * `Throughput.CellLaunch.ofLeader`
    * `Throughput.round_trip`
-/

------------------------------------------------------------
-- Reading The Cells Back
------------------------------------------------------------

namespace FabricPerf

namespace Throughput

open Analysis

/- The record type of the map: one `u32` named `value`. -/
def cellType : RecordType where
  names := ["value"]
  distinct := by decide

/- The record of a cell, read as unsigned. -/
def cellRecord (value : BitVec 32) : Record where
  type := cellType
  values := [value.toNat]
  arity := rfl

/- The value of a cell's record. -/
theorem cellRecord_value (value : BitVec 32) :
    (cellRecord value).attr "value" = value.toNat := rfl

namespace StreamState

variable {groups : Nat}

/- The stream as the generated reader yields it. -/
def rawCells
    (s : StreamState groups)
    (stream : Stream) : List Record :=
  (List.range 4096).map
    (fun cell => cellRecord (s.memory (cellAddr stream.map1 cell)))

/- The reader yields every cell of the stream. -/
theorem length_rawCells
    {s : StreamState groups}
    {stream : Stream} :
    (s.rawCells stream).length = 4096 := by
  unfold rawCells
  rw [List.length_map, List.length_range]

end StreamState

/- A stretch of time modulo the width of a cell. -/
def ticks (start time : BitVec 64) : Nat :=
  (time - start).toNat % 2 ^ 32

/- The launch that the history of a leader stands for. -/
def CellLaunch.ofLeader
    (base : Nat)
    (w : Fin 4)
    (leader : Leader) : Option CellLaunch :=
  if leader.times = [] then
    none
  else
    some
      { workgroup := base + w.val
        accepted :=
          (leader.times.take 1022).mapIdx
            (fun i time => (i, (ticks leader.start time : Int)))
        totalArrivals := leader.times.length
        durationTicks :=
          leader.flushed.elim 0
            (fun time => (ticks leader.start time : Int))
        capacity := 1022 }

------------------------------------------------------------
-- Decoding A Closed Stream
------------------------------------------------------------

variable {stream : Stream} {s : StreamState 4} {w : Fin 4}

/- A delta is read back as its ticks. -/
theorem toNat_delta (leader : Leader) (time : BitVec 64) :
    (leader.delta time).toNat = ticks leader.start time :=
  BitVec.toNat_setWidth _ _

/- The value of the record of a cell. -/
theorem attr_rawCells
    {i : Nat}
    (hI : i < (s.rawCells stream).length) :
    (s.rawCells stream)[i].attr "value" =
      (s.memory (cellAddr stream.map1 i)).toNat := by
  simp only [StreamState.rawCells, List.getElem_map,
    List.getElem_range, cellRecord_value]

/- In a closed stream the memory is what was intended. -/
theorem memory_closed
    (hInv : SlicesHold stream s)
    (hClosed : s.Closed)
    {k : Nat}
    (hK : k < 1024) :
    s.memory (cellAddr stream.map1 (1024 * w.val + k)) =
      (s.leader w).cell k := by
  have hHolds := (hInv w).holds k hK
  rw [(hClosed w).1] at hHolds
  exact hHolds

/- The header of a closed slice: the count. -/
theorem toNat_total
    (hInv : SlicesHold stream s)
    (hClosed : s.Closed) :
    ((s.leader w).cell 1).toNat =
      (s.leader w).times.length := by
  simp only [Leader.cell, Leader.total,
    if_neg (hClosed w).2, BitVec.toNat_ofNat]
  exact Nat.mod_eq_of_lt (hInv w).ok.short

/- The header of a closed slice: the duration. -/
theorem toNat_duration
    (hClosed : s.Closed)
    (hSome : (s.leader w).times ≠ []) :
    (((s.leader w).cell 0).toNat : Int) =
      (s.leader w).flushed.elim 0
        (fun time =>
          (ticks (s.leader w).start time : Int)) := by
  simp only [Leader.cell, Leader.duration, if_neg hSome]
  cases hFlushed : (s.leader w).flushed with
  | none =>
      exact absurd hFlushed (hClosed w).2
  | some time =>
      simp only [Option.elim_some, toNat_delta]

/- The payload of a closed slice. -/
theorem acceptedCells_rawCells
    (hInv : SlicesHold stream s)
    (hClosed : s.Closed) :
    acceptedCells (s.rawCells stream)
        (1024 * w.val + 2)
        (min (s.leader w).times.length 1022) =
      ((s.leader w).times.take 1022).mapIdx
        (fun i time =>
          (i, (ticks (s.leader w).start time : Int))) := by
  have hW := w.isLt
  have hLength : (s.rawCells stream).length = 4096 :=
    StreamState.length_rawCells
  unfold acceptedCells
  apply List.ext_getElem
  · simp only [List.length_mapIdx, List.length_take,
      List.length_drop, hLength]
    omega
  · intro i hLeft hRight
    simp only [List.length_mapIdx, List.length_take]
      at hLeft hRight
    have hCell :
        s.memory
            (cellAddr stream.map1
              (1024 * w.val + (i + 2))) =
          (s.leader w).cell (i + 2) :=
      memory_closed hInv hClosed (by omega)
    have hTime : i < (s.leader w).times.length := by omega
    simp only [List.getElem_mapIdx, List.getElem_take,
      List.getElem_drop, attr_rawCells]
    have hSame :
        1024 * w.val + 2 + i = 1024 * w.val + (i + 2) := by
      omega
    rw [hSame, hCell]
    simp only [Leader.cell, List.getElem?_eq_getElem hTime,
      Option.elim_some, toNat_delta]

/- One turn of the decoder over a closed stream. -/
theorem decodeWorkgroup_rawCells
    (hInv : SlicesHold stream s)
    (hClosed : s.Closed)
    (base : Nat)
    {cellsPerWorkgroup : Nat}
    (hCells : cellsPerWorkgroup = 1024)
    (hLength :
      throughputWorkgroups * cellsPerWorkgroup ≤
        (s.rawCells stream).length)
    (hHeader : throughputHeaderCells < cellsPerWorkgroup) :
    decodeWorkgroup (s.rawCells stream) base
        cellsPerWorkgroup hLength hHeader w =
      CellLaunch.ofLeader base w (s.leader w) := by
  subst hCells
  have hDuration :
      (s.memory (cellAddr stream.map1 (w.val * 1024))) =
        (s.leader w).cell 0 := by
    rw [Nat.mul_comm w.val 1024]
    exact memory_closed (k := 0) hInv hClosed (by omega)
  have hTotal :
      (s.memory (cellAddr stream.map1 (w.val * 1024 + 1))) =
        (s.leader w).cell 1 := by
    rw [Nat.mul_comm w.val 1024]
    exact memory_closed hInv hClosed (by omega)
  have hCount := toNat_total (w := w) hInv hClosed
  simp only [decodeWorkgroup, cellValue, List.get_eq_getElem,
    attr_rawCells, hDuration, hTotal, hCount]
  unfold CellLaunch.ofLeader
  by_cases hEmpty : (s.leader w).times = []
  · rw [if_pos hEmpty, if_pos]
    simp [hEmpty]
  · have hPos := List.length_pos_iff.mpr hEmpty
    rw [if_neg hEmpty, if_neg (by omega),
      toNat_duration hClosed hEmpty, Int.toNat_natCast,
      Nat.mul_comm w.val 1024]
    have hAccepted :=
      acceptedCells_rawCells (w := w) hInv hClosed
    simp only [throughputHeaderCells]
    rw [hAccepted]

/- A launch with its exact count drops the overflow. -/
theorem dropped_addCellLaunch
    (aggregate : ThroughputAggregate)
    {launch : CellLaunch}
    {count : Nat}
    (hCount : launch.totalArrivals = count) :
    (aggregate.addCellLaunch launch).dropped =
      aggregate.dropped +
        (count - min count launch.capacity : Nat) := by
  simp only [ThroughputAggregate.addCellLaunch,
    ThroughputAggregate.addLaunch, hCount]
  omega

/-
  The round trip: no leader stores outside its slice, and a
  closed stream decodes to one launch for each workgroup with
  arrivals, whose overflow is counted exactly.
-/
theorem round_trip
    (hReach : (streamMachine stream).Reach Short s)
    (blockIndex : Nat)
    (workgroupBase : Option Nat) :
    (∀ w, ∀ store ∈ (s.leader w).pending,
      InSlice stream w store) ∧
    (s.Closed →
      let launches :=
        throughputWorkgroupCellRecords (s.rawCells stream)
          blockIndex workgroupBase
      launches =
        (List.finRange 4).filterMap
          (fun w =>
            CellLaunch.ofLeader
              (workgroupBase.getD (blockIndex * 4)) w
              (s.leader w)) ∧
      ∀ w, ∀ launch ∈ launches,
        launch.workgroup =
            workgroupBase.getD (blockIndex * 4) + w.val →
          ∀ aggregate : ThroughputAggregate,
            (aggregate.addCellLaunch launch).dropped =
              aggregate.dropped +
                ((s.leader w).times.length -
                  min (s.leader w).times.length 1022 :
                  Nat)) := by
  have hInv := slicesHold_of_reach hReach
  constructor
  · intro w
    exact (hInv w).own
  · intro hClosed
    have hLength : (s.rawCells stream).length = 4096 :=
      StreamState.length_rawCells
    have hDecode :
        throughputWorkgroupCellRecords (s.rawCells stream)
            blockIndex workgroupBase =
          (List.finRange 4).filterMap
            (fun w =>
              CellLaunch.ofLeader
                (workgroupBase.getD (blockIndex * 4)) w
                (s.leader w)) := by
      unfold throughputWorkgroupCellRecords
      rw [if_neg (by rw [hLength]; decide),
        dif_neg (by rw [hLength]; decide)]
      have hCells :
          (s.rawCells stream).length / throughputWorkgroups =
            1024 := by
        rw [hLength]
        rfl
      apply List.filterMap_congr
      intro w _
      exact decodeWorkgroup_rawCells hInv hClosed _ hCells _ _
    constructor
    · exact hDecode
    · intro w launch hMem hWorkgroup aggregate
      rw [hDecode] at hMem
      rcases List.mem_filterMap.mp hMem with ⟨v, -, hSome⟩
      unfold CellLaunch.ofLeader at hSome
      split at hSome
      · cases hSome
      · have hLaunch := (Option.some.inj hSome).symm
        have hSame : v = w := by
          rw [hLaunch] at hWorkgroup
          exact Fin.ext (Nat.add_left_cancel hWorkgroup)
        have hCount :
            launch.totalArrivals =
              ((s.leader w).times.length : Nat) := by
          rw [hLaunch, hSame]
        rw [dropped_addCellLaunch aggregate hCount, hLaunch]

------------------------------------------------------------
-- A Run Of Two Workgroups
------------------------------------------------------------

/- A stream of four workgroups of 32 threads. -/
def oneStream : Stream where
  map1 := 0x7000
  groupThreads := 32

/-
  Workgroups 0 and 2 receive, one of them beyond the range of
  a cell, and all four leaders return.
-/
def twoGroups : List (StreamAction 4) :=
  [.recv 0 600, .recv 2 250, .store 2, .store 0,
    .recv 0 (2 ^ 32 + 107), .flush 2 300, .store 2,
    .flush 1 310, .store 0, .flush 0 (2 ^ 32 + 120),
    .store 0, .store 2, .store 0, .flush 3 400]

/- The two workgroups with arrivals are decoded. -/
theorem round_trip_twoGroups :
    ∃ s : StreamState 4,
      (streamMachine oneStream).Reach Short s ∧
      s.Closed ∧
      throughputWorkgroupCellRecords (s.rawCells oneStream) 3
          none =
        [⟨12, [(0, 500), (1, 7)], 2, 20, 1022⟩,
          ⟨14, [(0, 150)], 1, 200, 1022⟩] := by
  have hRun :
      (oneStream.shortRun twoGroups).any
        (fun s =>
          decide
            ((∀ w, (s.leader w).pending = [] ∧
              (s.leader w).flushed ≠ none) ∧
            (List.finRange 4).filterMap
                (fun w =>
                  CellLaunch.ofLeader 12 w (s.leader w)) =
              [⟨12, [(0, 500), (1, 7)], 2, 20, 1022⟩,
                ⟨14, [(0, 150)], 1, 200, 1022⟩])) = true := by
    decide +kernel
  rcases (Option.any_eq_true _ _).mp hRun with
    ⟨s, hSome, hFinal⟩
  rcases of_decide_eq_true hFinal with ⟨hClosed, hLaunches⟩
  have hReach := reach_of_shortRun hSome
  have hDecode := ((round_trip hReach 3 none).2 hClosed).1
  exact ⟨s, hReach, hClosed, hDecode.trans hLaunches⟩

end Throughput

end FabricPerf
