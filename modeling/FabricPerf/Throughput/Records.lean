import FabricPerf.Analysis.Record
import FabricPerf.Lib.Dict
import Mathlib.Tactic

/-
  The decoder of `analysis/throughput.py` for the layout of
  four workgroups, and the aggregate it feeds.

  Main declarations:
    * `Throughput.throughputWorkgroupCellRecords`
    * `Throughput.ThroughputAggregate.addLaunch`
-/

------------------------------------------------------------
-- Constants
------------------------------------------------------------

namespace FabricPerf

namespace Throughput

open Analysis

/- `THROUGHPUT_WORKGROUPS`. -/
abbrev throughputWorkgroups : Nat := 4

/- `THROUGHPUT_HEADER_CELLS`. -/
abbrev throughputHeaderCells : Nat := 2

/- `THROUGHPUT_BIN_NS`. -/
abbrev throughputBinNs : Int := 8000

------------------------------------------------------------
-- Decoding Cells
------------------------------------------------------------

/- One entry of the decoded list. -/
structure CellLaunch where
  workgroup : Nat
  accepted : List (Nat × Int)
  totalArrivals : Int
  durationTicks : Int
  capacity : Nat
deriving DecidableEq, Repr

/- `int(getattr(raw_cells[i], "value", 0))`. -/
def cellValue
    (rawCells : List Record)
    (i : Fin rawCells.length) : Int :=
  (rawCells.get i).attr "value"

/- `enumerate` over the accepted slice of the payload. -/
def acceptedCells
    (rawCells : List Record)
    (payloadStart limit : Nat) : List (Nat × Int) :=
  ((rawCells.drop payloadStart).take limit).mapIdx
    (fun sequence record =>
      (sequence, record.attr "value"))

/- Both header cells of every slice are in the list. -/
theorem header_lt_length
    {length cellsPerWorkgroup : Nat}
    (hLength :
      throughputWorkgroups * cellsPerWorkgroup ≤ length)
    (hHeader : throughputHeaderCells < cellsPerWorkgroup)
    (workgroupId : Fin throughputWorkgroups) :
    workgroupId.val * cellsPerWorkgroup + 1 < length := by
  have hLast : workgroupId.val ≤ 3 :=
    Nat.le_of_lt_succ workgroupId.isLt
  have hStart := Nat.mul_le_mul_right cellsPerWorkgroup hLast
  simp only [throughputWorkgroups] at hLength
  simp only [throughputHeaderCells] at hHeader
  omega

/-
  One turn of the loop over the workgroups.  The hypotheses
  are the guards above the loop; they keep both header cells
  within the list.
-/
def decodeWorkgroup
    (rawCells : List Record)
    (base cellsPerWorkgroup : Nat)
    (hLength :
      throughputWorkgroups * cellsPerWorkgroup ≤
        rawCells.length)
    (hHeader : throughputHeaderCells < cellsPerWorkgroup)
    (workgroupId : Fin throughputWorkgroups) :
    Option CellLaunch :=
  have hFits := header_lt_length hLength hHeader workgroupId
  let start := workgroupId.val * cellsPerWorkgroup
  let durationTicks :=
    cellValue rawCells ⟨start, Nat.lt_of_succ_lt hFits⟩
  let totalArrivals := cellValue rawCells ⟨start + 1, hFits⟩
  if totalArrivals ≤ 0 then
    none
  else
    let capacity := cellsPerWorkgroup - throughputHeaderCells
    let limit := min totalArrivals.toNat capacity
    some
      { workgroup := base + workgroupId.val
        accepted :=
          acceptedCells rawCells
            (start + throughputHeaderCells) limit
        totalArrivals := totalArrivals
        durationTicks := durationTicks
        capacity := capacity }

/- `throughput_workgroup_cell_records`. -/
def throughputWorkgroupCellRecords
    (rawCells : List Record)
    (blockIndex : Nat)
    (workgroupBase : Option Nat) : List CellLaunch :=
  if rawCells.length <
      throughputWorkgroups * throughputHeaderCells then
    []
  else
    let cellsPerWorkgroup :=
      rawCells.length / throughputWorkgroups
    if hHeader : cellsPerWorkgroup ≤ throughputHeaderCells then
      []
    else
      let base :=
        workgroupBase.getD (blockIndex * throughputWorkgroups)
      (List.finRange throughputWorkgroups).filterMap
        (decodeWorkgroup rawCells base cellsPerWorkgroup
          (Nat.mul_div_le rawCells.length throughputWorkgroups)
          (Nat.lt_of_not_le hHeader))

------------------------------------------------------------
-- Aggregating Launches
------------------------------------------------------------

/- The counters of a `ThroughputAggregate`. -/
structure ThroughputAggregate where
  captured : Nat
  dropped : Int
  droppedUnknown : Bool
  durationTicks : Int
  binCounts : Dict Int Nat

namespace ThroughputAggregate

/- The counters of a new aggregate. -/
def new : ThroughputAggregate where
  captured := 0
  dropped := 0
  droppedUnknown := false
  durationTicks := 0
  binCounts := Dict.empty

/- The ticks a launch adds to the duration. -/
def launchTicks
    (deltas : List Int)
    (durationTicks : Option Int) : Int :=
  match durationTicks with
  | some ticks =>
      if 0 < ticks then ticks else deltas.max?.getD 0
  | none => deltas.max?.getD 0

/- `add_launch`. -/
def addLaunch
    (aggregate : ThroughputAggregate)
    (deltas : List Int)
    (totalArrivals : Option Int)
    (durationTicks : Option Int)
    (capacity : Nat) : ThroughputAggregate where
  captured := aggregate.captured + deltas.length
  dropped :=
    match totalArrivals with
    | some total =>
        aggregate.dropped + max 0 (total - min total capacity)
    | none => aggregate.dropped
  droppedUnknown :=
    match totalArrivals with
    | some _ => aggregate.droppedUnknown
    | none =>
        aggregate.droppedUnknown ||
          decide (capacity ≤ deltas.length)
  durationTicks :=
    aggregate.durationTicks + launchTicks deltas durationTicks
  binCounts :=
    deltas.foldl
      (fun counts delta =>
        counts.update 0 (delta / throughputBinNs) (· + 1))
      aggregate.binCounts

/- The deltas that `read_throughput_root` hands over. -/
def addCellLaunch
    (aggregate : ThroughputAggregate)
    (launch : CellLaunch) : ThroughputAggregate :=
  aggregate.addLaunch (launch.accepted.map Prod.snd)
    (some launch.totalArrivals) (some launch.durationTicks)
    launch.capacity

end ThroughputAggregate

end Throughput

end FabricPerf
