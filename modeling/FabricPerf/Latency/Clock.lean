import FabricPerf.Latency.Hooks
import FabricPerf.Ptp.Handshake

/-
  Clock correction from the last PTP sample to a saved
  latency.

  The follower halves a difference that holds twice its
  skew, so a raw difference outside the signed range costs a
  multiple of 2^63 (`Calibration.wraps`).  When both ranks
  lose the same multiple modulo 2^64, the saved latency is
  the elapsed time up to the asymmetry of the delays.

  Main declarations:
    * `Latency.Calibration`
    * `Latency.offsetSlot_eq`
    * `Latency.savedLatency_error`
-/

------------------------------------------------------------
-- Rank Clocks
------------------------------------------------------------

namespace FabricPerf

namespace Latency

/-
  A rank's clock and the last PTP sample it was calibrated
  with: the skew against the root clock, the one-way delays
  from and to the root, and the root times at which the
  follow-up and the delay request were stamped.  Rank 0 is
  the root.
-/
structure Calibration where
  rank : Nat
  skew : Int
  fromRoot : Int
  toRoot : Int
  followUpAt : Int
  delayRequestAt : Int
  root_skew : rank = 0 → skew = 0

namespace Calibration

/- The reading of the rank's clock at a root time. -/
def clock (c : Calibration) (time : Int) : BitVec 64 :=
  BitVec.ofInt 64 (time + c.skew)

/- The reading of the root clock at a root time. -/
def rootClock (time : Int) : BitVec 64 :=
  BitVec.ofInt 64 time

/-
  Offset slot 0: never written on rank 0, and the follower's
  offset of the last sample elsewhere.
-/
def offsetSlot (c : Calibration) : BitVec 64 :=
  if c.rank = 0 then
    0
  else
    Ptp.ptpOffset (rootClock c.followUpAt)
      (c.clock (c.followUpAt + c.fromRoot))
      (c.clock c.delayRequestAt)
      (rootClock (c.delayRequestAt + c.toRoot))

/- The difference the follower halves, before any wrapping. -/
def rawDifference (c : Calibration) : Int :=
  if c.rank = 0 then 0
    else 2 * c.skew + c.fromRoot - c.toRoot

/- How often the raw difference leaves the signed range. -/
def wraps (c : Calibration) : Int :=
  (c.rawDifference + 2 ^ 63) / 2 ^ 64

/- What the wrapped difference misses, and its parity. -/
def halvingLoss (c : Calibration) : Int :=
  (c.rawDifference.bmod (2 ^ 64)).tmod 2

/- A raw difference in the signed range does not wrap. -/
theorem wraps_eq_zero
    (c : Calibration)
    (hLow : -2 ^ 63 ≤ c.rawDifference)
    (hHigh : c.rawDifference < 2 ^ 63) :
    c.wraps = 0 := by
  unfold wraps
  omega

end Calibration

/- Wrapping takes off the wraps. -/
theorem Calibration.bmod_rawDifference (c : Calibration) :
    c.rawDifference.bmod (2 ^ 64) =
      c.rawDifference - c.wraps * 2 ^ 64 := by
  unfold Calibration.wraps
  rw [Int.bmod_eq_emod]
  split <;> omega

/- Twice the offset slot, as a signed integer. -/
theorem two_mul_toInt_offsetSlot (c : Calibration) :
    2 * c.offsetSlot.toInt =
      c.rawDifference - c.wraps * 2 ^ 64 - c.halvingLoss := by
  rw [← c.bmod_rawDifference]
  unfold Calibration.offsetSlot Calibration.halvingLoss
  by_cases hRoot : c.rank = 0
  · have hRaw : c.rawDifference = 0 := if_pos hRoot
    rw [if_pos hRoot, hRaw]
    decide
  · rw [if_neg hRoot, Ptp.ptpOffset,
      SignedWord.two_mul_toInt_halve]
    have hRaw :
        c.rawDifference =
          (c.followUpAt + c.fromRoot + c.skew -
              c.followUpAt) -
            (c.delayRequestAt + c.toRoot -
              (c.delayRequestAt + c.skew)) := by
      unfold Calibration.rawDifference
      rw [if_neg hRoot]
      omega
    have hWord :
        (c.clock (c.followUpAt + c.fromRoot) -
            Calibration.rootClock c.followUpAt -
          (Calibration.rootClock (c.delayRequestAt + c.toRoot) -
            c.clock c.delayRequestAt)).toInt =
          c.rawDifference.bmod (2 ^ 64) := by
      rw [hRaw]
      simp only [Calibration.clock, Calibration.rootClock,
        ← SignedWord.ofInt_sub]
      exact BitVec.toInt_ofInt _
    rw [hWord]

/- The parity lost by halving is at most one in size. -/
theorem natAbs_halvingLoss_le (c : Calibration) :
    c.halvingLoss.natAbs ≤ 1 :=
  SignedWord.natAbs_tmod_two_le _

/- Symmetric delays and no wraps lose nothing. -/
theorem halvingLoss_of_symmetric
    (c : Calibration)
    (hSymmetric : c.fromRoot = c.toRoot) :
    c.halvingLoss = 0 := by
  unfold Calibration.halvingLoss
  rw [c.bmod_rawDifference]
  unfold Calibration.rawDifference
  have hEven :
      ∃ k : Int,
        (if c.rank = 0 then 0
          else 2 * c.skew + c.fromRoot - c.toRoot) = 2 * k := by
    split
    · exact ⟨0, rfl⟩
    · exact ⟨c.skew, by omega⟩
  rcases hEven with ⟨k, hEven⟩
  rw [hEven]
  have hDouble :
      2 * k - c.wraps * 2 ^ 64 =
        2 * (k - c.wraps * 2 ^ 63) := by
    omega
  rw [hDouble]
  exact Int.mul_tmod_right 2 _

------------------------------------------------------------
-- Saved Latencies
------------------------------------------------------------

/-
  The latency saved for a message sent and received at the
  given root times.
-/
def correctedLatency
    (s r : Calibration)
    (sendTime recvTime : Int) : BitVec 64 :=
  savedLatency (r.clock recvTime)
    (publishedTime (s.clock sendTime) s.offsetSlot)
    r.offsetSlot

/- The error against the true elapsed time, read as signed. -/
def latencyError
    (s r : Calibration)
    (sendTime recvTime : Int) : Int :=
  (correctedLatency s r sendTime recvTime -
    BitVec.ofInt 64 (recvTime - sendTime)).toInt

/- What is left of a rank's skew after its correction. -/
def Calibration.residual (c : Calibration) : Int :=
  c.skew - c.offsetSlot.toInt

/- Twice the residual: asymmetry, parity and wraps. -/
theorem two_mul_residual (c : Calibration) :
    2 * c.residual =
      (if c.rank = 0 then 0 else c.toRoot - c.fromRoot) +
        c.halvingLoss + c.wraps * 2 ^ 64 := by
  have hOffset := two_mul_toInt_offsetSlot c
  have hRoot := c.root_skew
  unfold Calibration.residual
  unfold Calibration.rawDifference at hOffset
  by_cases hRank : c.rank = 0
  · rw [if_pos hRank] at hOffset ⊢
    have hSkew := hRoot hRank
    omega
  · rw [if_neg hRank] at hOffset ⊢
    omega

/- The error is the wrapped difference of the residuals. -/
theorem latencyError_eq
    (s r : Calibration)
    (sendTime recvTime : Int) :
    latencyError s r sendTime recvTime =
      (r.residual - s.residual).bmod (2 ^ 64) := by
  have hOffset :
      ∀ c : Calibration,
        c.offsetSlot = BitVec.ofInt 64 c.offsetSlot.toInt :=
    fun c => (BitVec.ofInt_toInt).symm
  have hWord :
      correctedLatency s r sendTime recvTime -
          BitVec.ofInt 64 (recvTime - sendTime) =
        BitVec.ofInt 64 (r.residual - s.residual) := by
    unfold correctedLatency savedLatency correctedSenderTime
      publishedTime
    rw [hOffset s, hOffset r]
    simp only [Calibration.clock, ← SignedWord.ofInt_sub,
      ← BitVec.ofInt_add]
    congr 1
    unfold Calibration.residual
    omega
  unfold latencyError
  rw [hWord]
  exact BitVec.toInt_ofInt _

/-
  Wraps of equal parity cancel, and what is left is at most
  half the asymmetries and parities.
-/
theorem exists_latencyError_eq
    (s r : Calibration)
    (sendTime recvTime : Int)
    (hWraps : s.wraps % 2 = r.wraps % 2) :
    ∃ y : Int,
      latencyError s r sendTime recvTime =
          y.bmod (2 ^ 64) ∧
        2 * y =
          (if r.rank = 0 then 0 else r.toRoot - r.fromRoot) +
              r.halvingLoss -
            ((if s.rank = 0 then 0
                else s.toRoot - s.fromRoot) +
              s.halvingLoss) := by
  have hEven : ∃ k : Int, r.wraps - s.wraps = 2 * k :=
    ⟨(r.wraps - s.wraps) / 2, by omega⟩
  rcases hEven with ⟨k, hEven⟩
  have hR := two_mul_residual r
  have hS := two_mul_residual s
  refine ⟨r.residual - s.residual - 2 ^ 64 * k, ?_, ?_⟩
  · rw [latencyError_eq]
    exact_mod_cast
      (Int.sub_mul_bmod_self_left (r.residual - s.residual)
        (2 ^ 64) k).symm
  · omega

/- A rank counts with its asymmetry at most. -/
theorem natAbs_asymmetry_le (c : Calibration) :
    (if c.rank = 0 then 0
        else c.toRoot - c.fromRoot).natAbs ≤
      (c.fromRoot - c.toRoot).natAbs := by
  split
  · exact Nat.zero_le _
  · omega

/-
  The saved latency of a message between two ranks whose raw
  differences wrap equally often modulo 2: its error is at
  most half the asymmetries of their delays, rounded up, and
  zero for symmetric delays.
-/
theorem savedLatency_error
    (s r : Calibration)
    (sendTime recvTime : Int)
    (hWraps : s.wraps % 2 = r.wraps % 2) :
    |2 * latencyError s r sendTime recvTime| ≤
        |s.fromRoot - s.toRoot| + |r.fromRoot - r.toRoot| +
          2 ∧
      (s.fromRoot = s.toRoot →
        r.fromRoot = r.toRoot →
          correctedLatency s r sendTime recvTime =
            BitVec.ofInt 64 (recvTime - sendTime)) := by
  rcases exists_latencyError_eq s r sendTime recvTime hWraps
    with ⟨y, hError, hTwice⟩
  have hLossS := natAbs_halvingLoss_le s
  have hLossR := natAbs_halvingLoss_le r
  refine ⟨?_, ?_⟩
  · have hLe := SignedWord.natAbs_bmod_le y
    have hS := natAbs_asymmetry_le s
    have hR := natAbs_asymmetry_le r
    have hTwo : (2 : Int).natAbs = 2 := rfl
    have hSum := congrArg Int.natAbs hTwice
    rw [Int.natAbs_mul, hTwo] at hSum
    have hSplit :=
      (Int.natAbs_sub_le _ _).trans
        (Nat.add_le_add
          (Int.natAbs_add_le
            (if r.rank = 0 then 0 else r.toRoot - r.fromRoot)
            r.halvingLoss)
          (Int.natAbs_add_le
            (if s.rank = 0 then 0 else s.toRoot - s.fromRoot)
            s.halvingLoss))
    rw [← hSum] at hSplit
    rw [hError]
    simp only [Int.abs_eq_natAbs, Int.natAbs_mul, hTwo]
    omega
  · intro hSymS hSymR
    have hNone : y = 0 := by
      rw [halvingLoss_of_symmetric s hSymS,
        halvingLoss_of_symmetric r hSymR, hSymS, hSymR]
        at hTwice
      simpa using hTwice
    rw [hNone] at hError
    have hZero :
        correctedLatency s r sendTime recvTime -
            BitVec.ofInt 64 (recvTime - sendTime) = 0 := by
      apply BitVec.eq_of_toInt_eq
      exact hError
    rw [BitVec.sub_eq_iff_eq_add] at hZero
    rw [hZero]
    exact BitVec.zero_add _

/- The root, calibrated by convention. -/
def rootRank : Calibration where
  rank := 0
  skew := 0
  fromRoot := 0
  toRoot := 0
  followUpAt := 0
  delayRequestAt := 0
  root_skew := fun _ => rfl

/- A rank ahead of the root by the given skew. -/
def skewedRank (skew fromRoot toRoot : Int) : Calibration where
  rank := 1
  skew := skew
  fromRoot := fromRoot
  toRoot := toRoot
  followUpAt := 1000
  delayRequestAt := 5000
  root_skew := fun hRoot => absurd hRoot Nat.one_ne_zero

/- From the root to a rank with asymmetric delays. -/
theorem savedLatency_error_skewedRank :
    |2 * latencyError rootRank (skewedRank 77 30 35)
        9000 9500| ≤
      |(0 : Int) - 0| + |(30 : Int) - 35| + 2 :=
  (savedLatency_error rootRank (skewedRank 77 30 35)
    9000 9500 (by decide)).1

/-
  A skew of 2^62 doubles to a value outside the signed range
  and is halved to its negation.
-/
theorem not_savedLatency_error :
    ¬ ∀ (s r : Calibration) (sendTime recvTime : Int),
      |2 * latencyError s r sendTime recvTime| ≤
          |s.fromRoot - s.toRoot| + |r.fromRoot - r.toRoot| +
            2 ∧
        (s.fromRoot = s.toRoot →
          r.fromRoot = r.toRoot →
            correctedLatency s r sendTime recvTime =
              BitVec.ofInt 64 (recvTime - sendTime)) := by
  intro hAll
  have hExact :=
    (hAll rootRank (skewedRank (2 ^ 62) 0 0) 0 0).2 rfl rfl
  exact absurd hExact (by decide)

end Latency

end FabricPerf
