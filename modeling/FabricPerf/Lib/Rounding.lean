import Mathlib.Algebra.Order.Field.Power
import Mathlib.Data.Int.Log
import Mathlib.Data.Rat.Floor
import Mathlib.Tactic.Linarith
import Mathlib.Tactic.Positivity

/-
  Rounding to floating point numbers of a given precision,
  ties to even. Exponents are unbounded.

  Main declarations:
    * `Rounding.halfEven`
    * `Rounding.nearest`
    * `Rounding.nearest_mono`
    * `Rounding.nearest_intCast`
-/

namespace Rounding

------------------------------------------------------------
-- Integers
------------------------------------------------------------

/- The nearest integer, the even one of two. -/
def halfEven (q : ℚ) : ℤ :=
  if q - ⌊q⌋ < 1 / 2 then
    ⌊q⌋
  else if 1 / 2 < q - ⌊q⌋ then
    ⌊q⌋ + 1
  else if ⌊q⌋ % 2 = 0 then
    ⌊q⌋
  else
    ⌊q⌋ + 1

/- It is one of the two integers around. -/
theorem floor_le_halfEven (q : ℚ) : ⌊q⌋ ≤ halfEven q := by
  unfold halfEven
  split
  · exact le_rfl
  · split
    · omega
    · split <;> omega

theorem halfEven_le_floor_succ (q : ℚ) :
    halfEven q ≤ ⌊q⌋ + 1 := by
  unfold halfEven
  split
  · omega
  · split
    · exact le_rfl
    · split <;> omega

/- Integers stay. -/
theorem halfEven_intCast (n : ℤ) : halfEven n = n := by
  unfold halfEven
  rw [Int.floor_intCast, sub_self, if_pos (by norm_num)]

/- The order is kept. -/
theorem halfEven_mono {q q' : ℚ} (hLe : q ≤ q') :
    halfEven q ≤ halfEven q' := by
  rcases (Int.floor_mono hLe).lt_or_eq with hLess | hSame
  · have hHigh := halfEven_le_floor_succ q
    have hLow := floor_le_halfEven q'
    omega
  · have hRest : q - ⌊q⌋ ≤ q' - ⌊q'⌋ := by
      rw [hSame]
      linarith
    unfold halfEven
    rw [hSame] at hRest ⊢
    by_cases hSmall : q - ⌊q'⌋ < 1 / 2
    · rw [if_pos hSmall]
      exact floor_le_halfEven q'
    · have hNotSmall : ¬ q' - ⌊q'⌋ < 1 / 2 := by linarith
      rw [if_neg hSmall, if_neg hNotSmall]
      by_cases hLarge : 1 / 2 < q - ⌊q'⌋
      · have hNext : 1 / 2 < q' - ⌊q'⌋ := by linarith
        rw [if_pos hLarge, if_pos hNext]
      · rw [if_neg hLarge]
        split
        · split <;> omega
        · split <;> omega

------------------------------------------------------------
-- Positive Numbers
------------------------------------------------------------

/- The exponent of the last bit. -/
def lastBit (bits : ℕ) (q : ℚ) : ℤ :=
  Int.log 2 q - bits

/-
  A positive number with a leading bit and the given number
  of bits behind it.
-/
def nearestPos (bits : ℕ) (q : ℚ) : ℚ :=
  halfEven (q / 2 ^ lastBit bits q) * 2 ^ lastBit bits q

section

variable {bits : ℕ} {q q' : ℚ}

/- A power of two at the last bit. -/
theorem zpow_lastBit_pos : (0 : ℚ) < 2 ^ lastBit bits q := by
  positivity

/- The leading bit stays or moves up. -/
theorem zpow_log_le_nearestPos (hPos : 0 < q) :
    (2 : ℚ) ^ Int.log 2 q ≤ nearestPos bits q := by
  have hSplit :
      (2 : ℚ) ^ Int.log 2 q =
        ((2 ^ bits : ℤ) : ℚ) * 2 ^ lastBit bits q := by
    push_cast
    rw [← zpow_natCast, ← zpow_add₀ (by norm_num), lastBit]
    congr 1
    omega
  have hLow : ((2 ^ bits : ℤ) : ℚ) ≤ q / 2 ^ lastBit bits q := by
    rw [le_div_iff₀ zpow_lastBit_pos, ← hSplit]
    exact Int.zpow_log_le_self (by norm_num) hPos
  have hRound := halfEven_mono hLow
  rw [halfEven_intCast] at hRound
  rw [nearestPos, hSplit]
  exact
    mul_le_mul_of_nonneg_right (by exact_mod_cast hRound)
      zpow_lastBit_pos.le

theorem nearestPos_le_zpow_log :
    nearestPos bits q ≤ (2 : ℚ) ^ (Int.log 2 q + 1) := by
  have hSplit :
      (2 : ℚ) ^ (Int.log 2 q + 1) =
        ((2 ^ (bits + 1) : ℤ) : ℚ) * 2 ^ lastBit bits q := by
    push_cast
    rw [← zpow_natCast, ← zpow_add₀ (by norm_num), lastBit]
    congr 1
    push_cast
    omega
  have hHigh :
      q / 2 ^ lastBit bits q ≤ ((2 ^ (bits + 1) : ℤ) : ℚ) := by
    rw [div_le_iff₀ zpow_lastBit_pos, ← hSplit]
    exact (Int.lt_zpow_succ_log_self (by norm_num) q).le
  have hRound := halfEven_mono hHigh
  rw [halfEven_intCast] at hRound
  rw [nearestPos, hSplit]
  exact
    mul_le_mul_of_nonneg_right (by exact_mod_cast hRound)
      zpow_lastBit_pos.le

/- Positive numbers stay positive. -/
theorem nearestPos_pos (hPos : 0 < q) : 0 < nearestPos bits q :=
  lt_of_lt_of_le (by positivity) (zpow_log_le_nearestPos hPos)

/- The order is kept. -/
theorem nearestPos_mono (hPos : 0 < q) (hLe : q ≤ q') :
    nearestPos bits q ≤ nearestPos bits q' := by
  rcases (Int.log_mono_right (b := 2) hPos hLe).lt_or_eq with
    hLess | hSame
  · calc
      nearestPos bits q ≤ (2 : ℚ) ^ (Int.log 2 q + 1) :=
        nearestPos_le_zpow_log
      _ ≤ (2 : ℚ) ^ Int.log 2 q' :=
        zpow_le_zpow_right₀ (by norm_num) (by omega)
      _ ≤ nearestPos bits q' :=
        zpow_log_le_nearestPos (hPos.trans_le hLe)
  · have hBit : lastBit bits q = lastBit bits q' := by
      rw [lastBit, lastBit, hSame]
    have hUnit : (0 : ℚ) < 2 ^ lastBit bits q' :=
      zpow_lastBit_pos
    unfold nearestPos
    rw [hBit]
    have hRound :=
      halfEven_mono (div_le_div_of_nonneg_right hLe hUnit.le)
    exact
      mul_le_mul_of_nonneg_right (by exact_mod_cast hRound)
        hUnit.le

/- Natural numbers with few bits stay. -/
theorem nearestPos_natCast
    {n : ℕ}
    (hPos : 0 < n)
    (hLe : n ≤ 2 ^ (bits + 1)) :
    nearestPos bits n = n := by
  have hLog : Int.log 2 (n : ℚ) = Nat.log 2 n :=
    Int.log_natCast 2 n
  have hInt :
      ∃ m : ℤ, (n : ℚ) / 2 ^ lastBit bits (n : ℚ) = m := by
    rcases Nat.lt_or_ge bits (Nat.log 2 n) with hMore | hFew
    · -- Only the next power of two has one bit more.
      have hPower : 2 ^ (bits + 1) ≤ n :=
        (Nat.pow_le_pow_right (by decide) hMore).trans
          (Nat.pow_log_le_self 2 hPos.ne')
      have hSame : n = 2 ^ (bits + 1) := Nat.le_antisymm hLe hPower
      have hBit : lastBit bits (n : ℚ) = 1 := by
        rw [lastBit, hLog, hSame, Nat.log_pow (by decide)]
        push_cast
        omega
      refine ⟨2 ^ bits, ?_⟩
      rw [hBit, hSame, zpow_one, div_eq_iff (by norm_num)]
      push_cast
      rw [pow_succ]
    · have hBit :
          lastBit bits (n : ℚ) =
            -((bits - Nat.log 2 n : ℕ) : ℤ) := by
        rw [lastBit, hLog]
        omega
      refine ⟨n * 2 ^ (bits - Nat.log 2 n), ?_⟩
      rw [hBit, zpow_neg, div_inv_eq_mul, zpow_natCast]
      push_cast
      rfl
  rcases hInt with ⟨m, hM⟩
  rw [nearestPos, hM, halfEven_intCast, ← hM,
    div_mul_cancel₀ _ zpow_lastBit_pos.ne']

end

------------------------------------------------------------
-- All Numbers
------------------------------------------------------------

/- The nearest number, by the sign. -/
def nearest (bits : ℕ) (q : ℚ) : ℚ :=
  if 0 < q then
    nearestPos bits q
  else if q < 0 then
    -nearestPos bits (-q)
  else
    0

section

variable {bits : ℕ} {q q' : ℚ}

theorem nearest_of_pos (hPos : 0 < q) :
    nearest bits q = nearestPos bits q :=
  if_pos hPos

theorem nearest_of_neg (hNeg : q < 0) :
    nearest bits q = -nearestPos bits (-q) := by
  rw [nearest, if_neg (not_lt.mpr hNeg.le), if_pos hNeg]

@[simp] theorem nearest_zero : nearest bits 0 = 0 := by
  rw [nearest, if_neg (lt_irrefl _), if_neg (lt_irrefl _)]

/- The order is kept. -/
theorem nearest_mono (hLe : q ≤ q') :
    nearest bits q ≤ nearest bits q' := by
  have hHigh : ∀ r : ℚ, 0 ≤ r → 0 ≤ nearest bits r := by
    intro r hR
    rcases hR.lt_or_eq with hPos | hZero
    · rw [nearest_of_pos hPos]
      exact (nearestPos_pos hPos).le
    · rw [← hZero, nearest_zero]
  have hLow : ∀ r : ℚ, r ≤ 0 → nearest bits r ≤ 0 := by
    intro r hR
    rcases hR.lt_or_eq with hNeg | hZero
    · rw [nearest_of_neg hNeg]
      have hPos : 0 < nearestPos bits (-r) :=
        nearestPos_pos (neg_pos.mpr hNeg)
      linarith
    · rw [hZero, nearest_zero]
  rcases lt_or_ge 0 q with hPos | hNot
  · rw [nearest_of_pos hPos, nearest_of_pos (hPos.trans_le hLe)]
    exact nearestPos_mono hPos hLe
  · rcases lt_or_ge q' 0 with hNeg | hNotNeg
    · have hNegLe : -q' ≤ -q := by linarith
      rw [nearest_of_neg hNeg, nearest_of_neg (hLe.trans_lt hNeg),
        neg_le_neg_iff]
      exact nearestPos_mono (neg_pos.mpr hNeg) hNegLe
    · exact (hLow q hNot).trans (hHigh q' hNotNeg)

/- Integers with few bits stay. -/
theorem nearest_intCast
    {n : ℤ}
    (hLe : n.natAbs ≤ 2 ^ (bits + 1)) :
    nearest bits n = n := by
  rcases Int.lt_trichotomy n 0 with hNeg | hZero | hPos
  · have hCast : -(n : ℚ) = (n.natAbs : ℚ) := by
      rw [← Int.cast_natCast, Int.ofNat_natAbs_of_nonpos hNeg.le]
      push_cast
      rfl
    rw [nearest_of_neg (by exact_mod_cast hNeg), hCast,
      nearestPos_natCast (Int.natAbs_pos.mpr hNeg.ne) hLe,
      ← hCast, neg_neg]
  · rw [hZero, Int.cast_zero, nearest_zero]
  · have hCast : (n : ℚ) = (n.natAbs : ℚ) := by
      rw [← Int.cast_natCast, Int.natAbs_of_nonneg hPos.le]
    rw [nearest_of_pos (by exact_mod_cast hPos), hCast,
      nearestPos_natCast (Int.natAbs_pos.mpr hPos.ne') hLe]

/- What lies within a representable bound stays within it. -/
theorem nearest_mem_bounds
    {n : ℤ}
    (hLe : n.natAbs ≤ 2 ^ (bits + 1))
    (hLow : -(n : ℚ) ≤ q)
    (hHigh : q ≤ n) :
    -(n : ℚ) ≤ nearest bits q ∧ nearest bits q ≤ n := by
  have hNeg : nearest bits (-(n : ℚ)) = -(n : ℚ) := by
    have hOwn : nearest bits ((-n : ℤ) : ℚ) = ((-n : ℤ) : ℚ) := by
      apply nearest_intCast
      rw [Int.natAbs_neg]
      exact hLe
    push_cast at hOwn
    exact hOwn
  constructor
  · rw [← hNeg]
    exact nearest_mono hLow
  · rw [← nearest_intCast hLe]
    exact nearest_mono hHigh

end

end Rounding
