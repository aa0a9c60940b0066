import Mathlib.Tactic

/-
  Signed readings of 64-bit machine words.

  Main declarations:
    * `SignedWord.toInt_halve`: adding the sign bit before an
      arithmetic right shift rounds a half toward zero
    * `SignedWord.natAbs_bmod_le`: a wrapped value is no
      larger than the value that was wrapped
-/

------------------------------------------------------------
-- Halving Toward Zero
------------------------------------------------------------

namespace SignedWord

/- Add the sign bit, then shift right arithmetically. -/
def halve (x : BitVec 64) : BitVec 64 :=
  (x + x >>> 63).sshiftRight 1

/- The logical shift by 63 leaves the sign bit. -/
theorem toNat_sign (x : BitVec 64) :
    (x >>> 63).toNat = if x.toInt < 0 then 1 else 0 := by
  have hBound := x.isLt
  rw [BitVec.toNat_ushiftRight, Nat.shiftRight_eq_div_pow]
  by_cases hNeg : x.toInt < 0
  · rw [if_pos hNeg]
    rw [BitVec.toInt_eq_toNat_cond] at hNeg
    split at hNeg <;> omega
  · rw [if_neg hNeg]
    rw [BitVec.toInt_eq_toNat_cond] at hNeg
    split at hNeg <;> omega

/- Adding the sign bit never leaves the signed range. -/
theorem toInt_add_sign (x : BitVec 64) :
    (x + x >>> 63).toInt =
      x.toInt + if x.toInt < 0 then 1 else 0 := by
  have hLow := BitVec.le_toInt x
  have hHigh := BitVec.toInt_lt (x := x)
  have hSign : (x >>> 63).toInt =
      if x.toInt < 0 then 1 else 0 := by
    rw [BitVec.toInt_eq_toNat_cond, toNat_sign]
    split <;> simp
  rw [BitVec.toInt_add, hSign]
  apply Int.bmod_eq_of_le
  · split <;> omega
  · split <;> omega

/- The halved word reads as the quotient toward zero. -/
theorem toInt_halve (x : BitVec 64) :
    (halve x).toInt = x.toInt.tdiv 2 := by
  rw [halve, BitVec.toInt_sshiftRight, toInt_add_sign,
    Int.shiftRight_eq_div_pow]
  have hTwo : (2 : Int).sign = 1 := rfl
  rw [Int.tdiv_eq_ediv, hTwo]
  split <;> split <;> omega

/- Doubling a half loses at most the parity. -/
theorem two_mul_toInt_halve (x : BitVec 64) :
    2 * (halve x).toInt = x.toInt - x.toInt.tmod 2 := by
  rw [toInt_halve]
  have hSplit := Int.mul_tdiv_add_tmod x.toInt 2
  omega

/- The parity lost by halving is at most one in size. -/
theorem natAbs_tmod_two_le (i : Int) :
    (i.tmod 2).natAbs ≤ 1 := by
  have hUpper := Int.tmod_lt_of_pos i (show (0 : Int) < 2 by decide)
  have hLower := Int.lt_tmod_of_pos i (show (0 : Int) < 2 by decide)
  omega

------------------------------------------------------------
-- Wrapped Integers
------------------------------------------------------------

/- Wrapping commutes with subtraction. -/
theorem ofInt_sub (i j : Int) :
    BitVec.ofInt 64 (i - j) =
      BitVec.ofInt 64 i - BitVec.ofInt 64 j := by
  apply BitVec.eq_of_toInt_eq
  rw [BitVec.toInt_sub]
  simp only [BitVec.toInt_ofInt]
  rw [Int.sub_bmod_bmod, Int.bmod_sub_bmod]

/- Wrapping never increases the absolute value. -/
theorem natAbs_bmod_le (i : Int) :
    (i.bmod (2 ^ 64)).natAbs ≤ i.natAbs := by
  rw [Int.bmod_eq_emod]
  split <;> omega

end SignedWord
