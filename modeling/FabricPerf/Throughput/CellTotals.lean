import FabricPerf.Throughput.Records
import Mathlib.Algebra.BigOperators.Fin

/-
  The totals of a decoded cell stream.

  Each slice of a stream that is long enough yields its
  count, if positive, as the captured cells of one launch and
  the arrivals that did not fit.

  Main declarations:
    * `Throughput.CellLaunch.dropped`
    * `Throughput.captured_add_dropped`
    * `Throughput.sum_totalArrivals`
-/

------------------------------------------------------------
-- Headers
------------------------------------------------------------

namespace FabricPerf

namespace Throughput

open Analysis

/- The streams that the decoder does not refuse. -/
def Decodable (rawCells : List Record) : Prop :=
  throughputHeaderCells < rawCells.length / throughputWorkgroups

instance (rawCells : List Record) :
    Decidable (Decodable rawCells) :=
  inferInstanceAs (Decidable (_ < _))

/- The count in the header of a slice. -/
def headerTotal
    (rawCells : List Record)
    (slice : Fin throughputWorkgroups) : Int :=
  (rawCells[slice.val *
    (rawCells.length / throughputWorkgroups) + 1]?).elim 0
      (fun record => record.attr "value")

/- The positive counts in the headers of a stream. -/
def positiveTotals (rawCells : List Record) : Int :=
  if Decodable rawCells then
    ∑ slice, max 0 (headerTotal rawCells slice)
  else
    0

/- The arrivals of a launch that did not fit. -/
def CellLaunch.dropped (launch : CellLaunch) : Int :=
  max 0
    (launch.totalArrivals -
      min launch.totalArrivals launch.capacity)

------------------------------------------------------------
-- One Slice
------------------------------------------------------------

/- What the decoder says of a stream, slice by slice. -/
theorem records_of_decodable
    {rawCells : List Record}
    (hDecodable : Decodable rawCells)
    (blockIndex : Nat)
    (workgroupBase : Option Nat) :
    throughputWorkgroupCellRecords rawCells blockIndex
        workgroupBase =
      (List.finRange throughputWorkgroups).filterMap
        (decodeWorkgroup rawCells
          (workgroupBase.getD
            (blockIndex * throughputWorkgroups))
          (rawCells.length / throughputWorkgroups)
          (Nat.mul_div_le rawCells.length throughputWorkgroups)
          hDecodable) := by
  have hLong :
      ¬ rawCells.length <
        throughputWorkgroups * throughputHeaderCells := by
    unfold Decodable at hDecodable
    simp only [throughputWorkgroups, throughputHeaderCells]
      at hDecodable ⊢
    omega
  unfold throughputWorkgroupCellRecords
  rw [if_neg hLong, dif_neg (Nat.not_le_of_lt hDecodable)]

/- Other streams have no launches. -/
theorem records_of_not_decodable
    {rawCells : List Record}
    (hRefused : ¬ Decodable rawCells)
    (blockIndex : Nat)
    (workgroupBase : Option Nat) :
    throughputWorkgroupCellRecords rawCells blockIndex
        workgroupBase = [] := by
  unfold throughputWorkgroupCellRecords
  split
  · rfl
  · exact dif_pos (Nat.le_of_not_lt hRefused)

variable {rawCells : List Record} {base cells : Nat}
variable
  {hLength :
    throughputWorkgroups * cells ≤ rawCells.length}
variable {hHeader : throughputHeaderCells < cells}
variable {slice : Fin throughputWorkgroups}

/- The cells of a slice lie within the stream. -/
theorem slice_end_le
    (hLength : throughputWorkgroups * cells ≤ rawCells.length)
    (slice : Fin throughputWorkgroups) :
    slice.val * cells + cells ≤ rawCells.length := by
  have hEnd :
      (slice.val + 1) * cells ≤ throughputWorkgroups * cells :=
    Nat.mul_le_mul_right cells slice.isLt
  rw [Nat.add_mul, Nat.one_mul] at hEnd
  omega

/- The accepted cells are as many as the slice has room for. -/
theorem length_acceptedCells
    {limit : Nat}
    (hLimit : limit ≤ cells - throughputHeaderCells)
    (hLength : throughputWorkgroups * cells ≤ rawCells.length)
    (hHeader : throughputHeaderCells < cells)
    (slice : Fin throughputWorkgroups) :
    (acceptedCells rawCells
        (slice.val * cells + throughputHeaderCells)
        limit).length =
      limit := by
  have hEnd := slice_end_le hLength slice
  simp only [throughputHeaderCells] at hLimit hHeader ⊢
  simp only [acceptedCells, List.length_mapIdx,
    List.length_take, List.length_drop]
  omega

/- A slice with a positive count yields a launch with it. -/
theorem totalArrivals_decodeWorkgroup :
    (decodeWorkgroup rawCells base cells hLength hHeader
        slice).elim 0 CellLaunch.totalArrivals =
      max 0
        ((rawCells[slice.val * cells + 1]?).elim 0
          (fun record => record.attr "value")) := by
  have hFits := header_lt_length hLength hHeader slice
  have hValue :
      (rawCells[slice.val * cells + 1]?).elim 0
          (fun record => record.attr "value") =
        cellValue rawCells ⟨slice.val * cells + 1, hFits⟩ := by
    rw [List.getElem?_eq_getElem hFits]
    rfl
  rw [hValue]
  unfold decodeWorkgroup
  by_cases hNone :
      cellValue rawCells ⟨slice.val * cells + 1, hFits⟩ ≤ 0
  · simp only [if_pos hNone, max_eq_left hNone]
    rfl
  · simp only [if_neg hNone, max_eq_right (le_of_not_ge hNone)]
    rfl

/- What is known of a launch: its count, room and cells. -/
theorem decodeWorkgroup_eq_some
    {launch : CellLaunch}
    (hSome :
      decodeWorkgroup rawCells base cells hLength hHeader slice =
        some launch) :
    0 < launch.totalArrivals ∧
      launch.workgroup = base + slice.val ∧
      launch.accepted.length =
        min launch.totalArrivals.toNat launch.capacity := by
  unfold decodeWorkgroup at hSome
  simp only at hSome
  split at hSome
  · cases hSome
  · rename_i hPositive
    cases hSome
    refine ⟨lt_of_not_ge hPositive, rfl, ?_⟩
    exact length_acceptedCells (Nat.min_le_right _ _) hLength
      hHeader slice

------------------------------------------------------------
-- A Whole Stream
------------------------------------------------------------

/- What is known of the launches of any stream. -/
theorem mem_records
    {blockIndex : Nat}
    {workgroupBase : Option Nat}
    {launch : CellLaunch}
    (hMem :
      launch ∈
        throughputWorkgroupCellRecords rawCells blockIndex
          workgroupBase) :
    0 < launch.totalArrivals ∧
      (∃ slice : Fin throughputWorkgroups,
        launch.workgroup =
          workgroupBase.getD
              (blockIndex * throughputWorkgroups) +
            slice.val) ∧
      launch.accepted.length =
        min launch.totalArrivals.toNat launch.capacity := by
  by_cases hDecodable : Decodable rawCells
  · rw [records_of_decodable hDecodable] at hMem
    rcases List.mem_filterMap.mp hMem with ⟨slice, _, hSome⟩
    rcases decodeWorkgroup_eq_some hSome with
      ⟨hPositive, hWorkgroup, hAccepted⟩
    exact ⟨hPositive, ⟨slice, hWorkgroup⟩, hAccepted⟩
  · rw [records_of_not_decodable hDecodable] at hMem
    cases hMem

/- Captured and dropped arrivals make up the count. -/
theorem captured_add_dropped
    {blockIndex : Nat}
    {workgroupBase : Option Nat}
    {launch : CellLaunch}
    (hMem :
      launch ∈
        throughputWorkgroupCellRecords rawCells blockIndex
          workgroupBase) :
    (launch.accepted.length : Int) + launch.dropped =
      launch.totalArrivals := by
  rcases mem_records hMem with ⟨hPositive, _, hAccepted⟩
  rw [hAccepted]
  unfold CellLaunch.dropped
  omega

/- Summing over the entries that a filter keeps. -/
theorem sum_map_filterMap
    {α β : Type}
    (f : α → Option β)
    (g : β → Int)
    (l : List α) :
    ((l.filterMap f).map g).sum =
      (l.map (fun a => (f a).elim 0 g)).sum := by
  induction l with
  | nil => rfl
  | cons a rest ih =>
      cases hF : f a with
      | none => simp [hF, ih]
      | some b => simp [hF, ih]

/- The counts of the launches are the positive headers. -/
theorem sum_totalArrivals
    (rawCells : List Record)
    (blockIndex : Nat)
    (workgroupBase : Option Nat) :
    ((throughputWorkgroupCellRecords rawCells blockIndex
        workgroupBase).map CellLaunch.totalArrivals).sum =
      positiveTotals rawCells := by
  unfold positiveTotals
  split
  case isTrue hDecodable =>
      rw [records_of_decodable hDecodable, sum_map_filterMap,
        Fin.sum_univ_def]
      congr 1
      apply List.map_congr_left
      intro slice _
      exact totalArrivals_decodeWorkgroup
  case isFalse hRefused =>
      rw [records_of_not_decodable hRefused]
      rfl

end Throughput

end FabricPerf
