import Mathlib.Tactic
import Mathlib.Data.Int.Bitwise
import Mathlib.Data.Nat.Bitwise

/-
  Fields packed into machine words by shifts and ors.

  Main declarations:
    * `BitField.shiftLeft_and_of_lt`
    * `BitField.toNat_shiftLeft_or`
    * `BitField.toNat_unpack`
    * `BitField.ldiff_flag`, `BitField.and_flag`
    * `BitField.land_two_pow_sub_one`
-/

------------------------------------------------------------
-- Shifted Fields
------------------------------------------------------------

namespace BitField

variable {w : Nat}

/- A field shifted past a mask is invisible to the mask. -/
theorem shiftLeft_and_of_lt
    (x mask : BitVec w)
    {n : Nat}
    (hMask : mask.toNat < 2 ^ n) :
    x <<< n &&& mask = 0#w := by
  apply BitVec.eq_of_getLsbD_eq
  intro i _
  by_cases hLow : i < n
  · simp [BitVec.getLsbD_and, BitVec.getLsbD_shiftLeft, hLow]
  · have hBit : mask.getLsbD i = false := by
      apply Nat.testBit_lt_two_pow
      exact lt_of_lt_of_le hMask
        (Nat.pow_le_pow_right (by decide) (by omega))
    rw [BitVec.getLsbD_and, hBit, Bool.and_false,
      BitVec.getLsbD_zero]

/- A word below the shift sits beside the shifted field. -/
theorem toNat_shiftLeft_or
    (x y : BitVec w)
    {n : Nat}
    (hField : x.toNat * 2 ^ n < 2 ^ w)
    (hLow : y.toNat < 2 ^ n) :
    (x <<< n ||| y).toNat = x.toNat * 2 ^ n + y.toNat := by
  rw [BitVec.toNat_or, BitVec.toNat_shiftLeft,
    Nat.shiftLeft_eq, Nat.mod_eq_of_lt hField,
    ← Nat.shiftLeft_eq,
    ← Nat.shiftLeft_add_eq_or_of_lt hLow x.toNat,
    Nat.shiftLeft_eq]

/-
  Shifting a packed word back logically gives the bits of
  the field that fitted, read without a sign.
-/
theorem toNat_unpack
    (x y : BitVec w)
    {n : Nat}
    (hShift : n ≤ w)
    (hLow : y.toNat < 2 ^ n) :
    ((x <<< n ||| y) >>> n).toNat =
      x.toNat % 2 ^ (w - n) := by
  have hWidth : 2 ^ w = 2 ^ (w - n) * 2 ^ n := by
    rw [← Nat.pow_add, Nat.sub_add_cancel hShift]
  have hField :
      (x.toNat <<< n % 2 ^ w) >>> n =
        x.toNat % 2 ^ (w - n) := by
    rw [Nat.shiftLeft_eq, Nat.shiftRight_eq_div_pow, hWidth,
      Nat.mul_mod_mul_right,
      Nat.mul_div_cancel _ (Nat.two_pow_pos n)]
  have hGone : y.toNat >>> n = 0 := by
    rw [Nat.shiftRight_eq_div_pow, Nat.div_eq_of_lt hLow]
  rw [BitVec.toNat_ushiftRight, BitVec.toNat_or,
    BitVec.toNat_shiftLeft, Nat.shiftRight_or_distrib, hField,
    hGone, Nat.or_zero]

------------------------------------------------------------
-- A Flag Above A Field
------------------------------------------------------------

/- The number of a field below an optional flag bit. -/
def flagged (flag : Bool) (n low : Nat) : Nat :=
  (if flag then 2 ^ n else 0) + low

/- The bits of a flagged field. -/
theorem testBit_flagged
    {n low : Nat}
    (hLow : low < 2 ^ n)
    (flag : Bool)
    (i : Nat) :
    (flagged flag n low).testBit i =
      if n = i then flag else low.testBit i := by
  unfold flagged
  cases flag with
  | false =>
      simp only [Bool.false_eq_true, if_false, Nat.zero_add]
      split
      · rename_i hBit
        subst hBit
        exact Nat.testBit_lt_two_pow hLow
      · rfl
  | true =>
      have hOr := Nat.two_pow_add_eq_or_of_lt hLow 1
      rw [Nat.mul_one] at hOr
      simp only [if_true]
      rw [hOr, Nat.testBit_or, Nat.testBit_two_pow]
      split
      · rename_i hBit
        rw [decide_eq_true hBit, Bool.true_or]
      · rename_i hBit
        rw [decide_eq_false hBit, Bool.false_or]

/- Clearing the flag leaves the field. -/
theorem ldiff_flag
    {n low : Nat}
    (hLow : low < 2 ^ n)
    (flag : Bool) :
    Nat.ldiff (flagged flag n low) (2 ^ n) = low := by
  apply Nat.eq_of_testBit_eq
  intro i
  rw [Nat.testBit_ldiff, Nat.testBit_two_pow,
    testBit_flagged hLow]
  by_cases hBit : n = i
  · subst hBit
    simp [Nat.testBit_lt_two_pow hLow]
  · simp [hBit]

/- Masking the flag shows whether it is set. -/
theorem and_flag
    {n low : Nat}
    (hLow : low < 2 ^ n)
    (flag : Bool) :
    flagged flag n low &&& 2 ^ n =
      if flag then 2 ^ n else 0 := by
  rw [Nat.and_two_pow, testBit_flagged hLow, if_pos rfl]
  cases flag with
  | false =>
      simp
  | true =>
      simp

------------------------------------------------------------
-- Masks Of Unbounded Integers
------------------------------------------------------------

/- The low ones without the bits of a number. -/
theorem ldiff_two_pow_sub_one
    (m n : Nat) :
    Nat.ldiff (2 ^ n - 1) m = 2 ^ n - (m % 2 ^ n + 1) := by
  have hLow : m % 2 ^ n < 2 ^ n :=
    Nat.mod_lt _ (Nat.two_pow_pos n)
  apply Nat.eq_of_testBit_eq
  intro i
  rw [Nat.testBit_ldiff, Nat.testBit_two_pow_sub_succ hLow,
    Nat.testBit_two_pow_sub_one, Nat.testBit_mod_two_pow]
  cases decide (i < n) with
  | false =>
      simp
  | true =>
      simp

/- The mask of low ones as a natural number. -/
theorem two_pow_sub_one_eq_cast (n : Nat) :
    (2 ^ n - 1 : Int) = ((2 ^ n - 1 : Nat) : Int) := by
  rw [Nat.cast_sub (Nat.two_pow_pos n)]
  simp

/- A mask of low ones takes the remainder, of any sign. -/
theorem land_two_pow_sub_one
    (x : Int)
    (n : Nat) :
    Int.land x (2 ^ n - 1) = x % 2 ^ n := by
  rw [two_pow_sub_one_eq_cast]
  cases x with
  | ofNat m =>
      have hNat := Nat.and_two_pow_sub_one_eq_mod m n
      exact congrArg Int.ofNat hNat
  | negSucc m =>
      have hNat := ldiff_two_pow_sub_one m n
      have hLow : m % 2 ^ n + 1 ≤ 2 ^ n :=
        Nat.mod_lt _ (Nat.two_pow_pos n)
      have hInt :
          Int.land (Int.negSucc m) ((2 ^ n - 1 : Nat) : Int) =
            ((2 ^ n - (m % 2 ^ n + 1) : Nat) : Int) :=
        congrArg Int.ofNat hNat
      rw [hInt, Int.negSucc_emod m (by positivity),
        Nat.cast_sub hLow]
      push_cast
      ring

/- Masking one bit sees only the bits up to it. -/
theorem land_two_pow_emod
    (x : Int)
    (n : Nat) :
    Int.land (x % 2 ^ (n + 1)) (2 ^ n) =
      Int.land x (2 ^ n) := by
  have hBit : ∀ m : Nat,
      (m % 2 ^ (n + 1)).testBit n = m.testBit n := by
    intro m
    rw [Nat.testBit_mod_two_pow, decide_eq_true (by omega),
      Bool.true_and]
  have hPow : (2 ^ n : Int) = ((2 ^ n : Nat) : Int) := by
    simp
  rw [hPow]
  cases x with
  | ofNat m =>
      have hNat :
          m % 2 ^ (n + 1) &&& 2 ^ n = m &&& 2 ^ n := by
        rw [Nat.and_two_pow, Nat.and_two_pow, hBit]
      exact congrArg Int.ofNat hNat
  | negSucc m =>
      have hLow : m % 2 ^ (n + 1) < 2 ^ (n + 1) :=
        Nat.mod_lt _ (Nat.two_pow_pos (n + 1))
      have hNat :
          (2 ^ (n + 1) - (m % 2 ^ (n + 1) + 1)) &&& 2 ^ n =
            Nat.ldiff (2 ^ n) m := by
        apply Nat.eq_of_testBit_eq
        intro i
        rw [Nat.testBit_and, Nat.testBit_ldiff,
          Nat.testBit_two_pow_sub_succ hLow,
          Nat.testBit_two_pow]
        by_cases hAt : n = i
        · subst hAt
          simp [hBit]
        · simp [hAt]
      rw [← ldiff_two_pow_sub_one] at hNat
      rw [← land_two_pow_sub_one, two_pow_sub_one_eq_cast]
      exact congrArg Int.ofNat hNat

/- A number split at a flag bit. -/
theorem eq_flagged
    {x n : Nat}
    (hBound : x < 2 ^ (n + 1)) :
    x = flagged (decide (2 ^ n ≤ x)) n (x % 2 ^ n) := by
  have hPow : 2 ^ (n + 1) = 2 * 2 ^ n := Nat.pow_succ'
  unfold flagged
  by_cases hFlag : 2 ^ n ≤ x
  · have hMod : x % 2 ^ n = x - 2 ^ n := by
      rw [Nat.mod_eq_sub_mod hFlag, Nat.mod_eq_of_lt]
      omega
    simp only [hFlag, decide_true, if_true, hMod]
    omega
  · simp only [hFlag, decide_false, Bool.false_eq_true,
      if_false, Nat.zero_add]
    exact (Nat.mod_eq_of_lt (by omega)).symm

end BitField
