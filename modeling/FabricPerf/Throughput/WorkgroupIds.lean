import FabricPerf.Lib.RowMajor
import FabricPerf.Throughput.Records

/-
  The public workgroup ids of `analysis/throughput.py`.

  Warp zero of every block keeps its legacy id; the other
  warps are numbered block by block after all of these.
  Every stream has four slices.

  Main declarations:
    * `Throughput.workgroupBaseForWarp`
    * `Throughput.bijOn_streamIndex`
    * `Throughput.workgroupId_bijOn`
-/

------------------------------------------------------------
-- Ids
------------------------------------------------------------

namespace FabricPerf

namespace Throughput

/- `workgroup_base_for_warp`. -/
def workgroupBaseForWarp
    (blockIndex blockCount warpCount warpIndex : Nat) : Nat :=
  if warpIndex = 0 then
    blockIndex * throughputWorkgroups
  else
    let extraStream :=
      blockIndex * max 0 (warpCount - 1) + (warpIndex - 1)
    (blockCount + extraStream) * throughputWorkgroups

/- The number of a stream among those of its file. -/
def streamIndex
    (blockCount warpCount blockIndex warpIndex : Nat) : Nat :=
  if warpIndex = 0 then
    blockIndex
  else
    blockCount +
      RowMajor.index (warpCount - 1) blockIndex (warpIndex - 1)

variable {B W b w s : Nat}

/- The id of a slice is its place in a table of streams. -/
theorem workgroupBaseForWarp_add (B W b w s : Nat) :
    workgroupBaseForWarp b B W w + s =
      RowMajor.index throughputWorkgroups
        (streamIndex B W b w) s := by
  unfold workgroupBaseForWarp streamIndex RowMajor.index
  split
  case isTrue => rfl
  case isFalse => simp

/- The streams of all warps fit behind those of warp zero. -/
theorem size_eq (B : Nat) (hW : 1 ≤ W) :
    B + B * (W - 1) = B * W := by
  rw [Nat.mul_sub, Nat.mul_one]
  have hLe : B * 1 ≤ B * W := Nat.mul_le_mul_left B hW
  omega

/- Streams of warp zero come first. -/
theorem streamIndex_zero (B W b : Nat) :
    streamIndex B W b 0 = b := rfl

/- Streams of other warps come after them. -/
theorem streamIndex_succ (B W b w : Nat) :
    streamIndex B W b (w + 1) =
      B + RowMajor.index (W - 1) b w := by
  simp [streamIndex]

/- Stream numbers are below the number of streams. -/
theorem streamIndex_lt (hB : b < B) (hW : w < W) :
    streamIndex B W b w < B * W := by
  have hSize := size_eq B (Nat.one_le_of_lt hW)
  cases w with
  | zero =>
      rw [streamIndex_zero]
      omega
  | succ w =>
      have hIndex :
          RowMajor.index (W - 1) b w < B * (W - 1) :=
        RowMajor.index_lt hB (Nat.lt_sub_of_add_lt hW)
      rw [streamIndex_succ]
      omega

/- Different streams have different numbers. -/
theorem streamIndex_inj
    {b' w' : Nat}
    (hB : b < B)
    (hW : w < W)
    (hB' : b' < B)
    (hW' : w' < W)
    (hEq : streamIndex B W b w = streamIndex B W b' w') :
    b = b' ∧ w = w' := by
  cases w with
  | zero =>
      cases w' with
      | zero =>
          exact ⟨hEq, rfl⟩
      | succ w' =>
          rw [streamIndex_zero, streamIndex_succ] at hEq
          omega
  | succ w =>
      cases w' with
      | zero =>
          rw [streamIndex_zero, streamIndex_succ] at hEq
          omega
      | succ w' =>
          rw [streamIndex_succ, streamIndex_succ] at hEq
          have hParts :=
            RowMajor.index_inj (Nat.lt_sub_of_add_lt hW)
              (Nat.lt_sub_of_add_lt hW')
              (Nat.add_left_cancel hEq)
          exact ⟨hParts.1, congrArg Nat.succ hParts.2⟩

/- Every number is that of a stream. -/
theorem exists_streamIndex
    {k : Nat}
    (hW : 1 ≤ W)
    (hK : k < B * W) :
    ∃ b w, b < B ∧ w < W ∧ streamIndex B W b w = k := by
  by_cases hFirst : k < B
  · exact ⟨k, 0, hFirst, hW, rfl⟩
  · have hSize := size_eq B hW
    have hRest : k - B < B * (W - 1) := by omega
    have hWarp := RowMajor.mod_lt hRest
    refine ⟨(k - B) / (W - 1), (k - B) % (W - 1) + 1,
      RowMajor.div_lt hRest, by omega, ?_⟩
    rw [streamIndex_succ, RowMajor.index_div_mod]
    omega

/- The streams of a file and their numbers. -/
theorem bijOn_streamIndex (B : Nat) (hW : 1 ≤ W) :
    Set.BijOn
      (fun p : Nat × Nat => streamIndex B W p.1 p.2)
      {p | p.1 < B ∧ p.2 < W} (Set.Iio (B * W)) := by
  refine ⟨?_, ?_, ?_⟩
  · rintro ⟨b, w⟩ ⟨hB, hW⟩
    exact streamIndex_lt hB hW
  · rintro ⟨b, w⟩ ⟨hB, hW⟩ ⟨b', w'⟩ ⟨hB', hW'⟩ hEq
    rcases streamIndex_inj hB hW hB' hW' hEq with
      ⟨hBlock, hWarp⟩
    exact Prod.ext hBlock hWarp
  · intro k hK
    rcases exists_streamIndex hW hK with
      ⟨b, w, hB, hW, hIndex⟩
    exact ⟨(b, w), ⟨hB, hW⟩, hIndex⟩

/-
  The ids of the slices of a file are the numbers below
  their count, and warp zero keeps its legacy ids.
-/
theorem workgroupId_bijOn
    (B W : Nat)
    (hW : 1 ≤ W) :
    Set.BijOn
        (fun t : (Nat × Nat) × Nat =>
          workgroupBaseForWarp t.1.1 B W t.1.2 + t.2)
        {t | (t.1.1 < B ∧ t.1.2 < W) ∧ t.2 < 4}
        (Set.Iio (4 * B * W)) ∧
      ∀ b s, b < B → s < 4 →
        workgroupBaseForWarp b B W 0 + s = 4 * b + s := by
  constructor
  · have hStreams :
        Set.BijOn
          (fun t : (Nat × Nat) × Nat =>
            (streamIndex B W t.1.1 t.1.2, t.2))
          {t | (t.1.1 < B ∧ t.1.2 < W) ∧ t.2 < 4}
          {c | c.1 < B * W ∧ c.2 < 4} :=
      (bijOn_streamIndex B hW).prodMap
        (Set.bijOn_id (Set.Iio 4))
    have hIds := (RowMajor.bijOn_index (B * W) 4).comp hStreams
    have hSize : B * W * 4 = 4 * B * W := by ring
    rw [hSize] at hIds
    refine hIds.congr ?_
    rintro ⟨⟨b, w⟩, s⟩ _
    exact (workgroupBaseForWarp_add B W b w s).symm
  · intro b s _ _
    rw [workgroupBaseForWarp_add, streamIndex_zero]
    unfold RowMajor.index
    rw [Nat.mul_comm]

/- Two blocks of three warps. -/
theorem workgroupId_bijOn_two_three :
    Set.BijOn
        (fun t : (Nat × Nat) × Nat =>
          workgroupBaseForWarp t.1.1 2 3 t.1.2 + t.2)
        {t | (t.1.1 < 2 ∧ t.1.2 < 3) ∧ t.2 < 4}
        (Set.Iio 24) ∧
      workgroupBaseForWarp 1 2 3 0 + 3 = 7 := by
  have hIds := workgroupId_bijOn 2 3 (by decide)
  exact ⟨hIds.1, hIds.2 1 3 (by decide) (by decide)⟩

end Throughput

end FabricPerf
