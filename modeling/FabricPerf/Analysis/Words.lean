import Mathlib.Tactic

/-
  How a generated reader reads the 64-bit words of a map.

  A map declares `u64` registers; whether the reader unpacks
  them with or without a sign is not the probes' choice, so
  that results hold for both readings.

  Main declarations:
    * `Analysis.WordReading`, `Analysis.WordReading.Fits`
    * `Analysis.WordReading.read_sub_iff`
    * `Analysis.WordReading.fits_upper`
-/

------------------------------------------------------------
-- Readings
------------------------------------------------------------

namespace FabricPerf

namespace Analysis

/- How a generated reader reads a word. -/
inductive WordReading where
| signed
| unsigned
deriving DecidableEq, Repr

namespace WordReading

/- The integer that is read. -/
def read : WordReading → BitVec 64 → Int
| .signed, word => word.toInt
| .unsigned, word => word.toNat

/- Whether some word of a width is read as the integer. -/
def Fits : WordReading → Nat → Int → Prop
| .signed, width, i => -2 ^ (width - 1) ≤ i ∧ i < 2 ^ (width - 1)
| .unsigned, width, i => 0 ≤ i ∧ i < 2 ^ width

instance (reading : WordReading) (width : Nat) (i : Int) :
    Decidable (reading.Fits width i) := by
  cases reading with
  | signed => exact inferInstanceAs (Decidable (_ ∧ _))
  | unsigned => exact inferInstanceAs (Decidable (_ ∧ _))

variable (reading : WordReading)

/- Reading loses nothing. -/
theorem ofInt_read (word : BitVec 64) :
    BitVec.ofInt 64 (reading.read word) = word := by
  cases reading with
  | signed => exact BitVec.ofInt_toInt
  | unsigned =>
      apply BitVec.eq_of_toNat_eq
      simp [read]

/- A word modulo 2^64. -/
theorem read_emod (word : BitVec 64) :
    reading.read word % 2 ^ 64 = word.toNat := by
  have hNat := congrArg BitVec.toNat (reading.ofInt_read word)
  rw [BitVec.toNat_ofInt] at hNat
  omega

/- What is read fits a word. -/
theorem fits_read (word : BitVec 64) :
    reading.Fits 64 (reading.read word) := by
  cases reading with
  | signed =>
      have hLow := BitVec.le_toInt word
      have hHigh := BitVec.toInt_lt (x := word)
      exact ⟨hLow, hHigh⟩
  | unsigned =>
      have hLt := word.isLt
      exact ⟨Int.natCast_nonneg _, by simp only [read]; omega⟩

variable {reading}

/- Integers that fit and agree modulo 2^width are the same. -/
theorem Fits.eq_of_emod
    {width : Nat}
    (hPos : 0 < width)
    {i j : Int}
    (hI : reading.Fits width i)
    (hJ : reading.Fits width j)
    (hMod : i % 2 ^ width = j % 2 ^ width) :
    i = j := by
  have hTwice : (2 : Int) ^ width = 2 * 2 ^ (width - 1) := by
    rw [← pow_succ', Nat.sub_add_cancel hPos]
  have hNear : |i - j| < 2 ^ width := by
    rw [abs_lt]
    cases reading with
    | signed =>
        simp only [Fits] at hI hJ
        constructor
        · linarith [hI.1, hJ.2]
        · linarith [hI.2, hJ.1]
    | unsigned =>
        simp only [Fits] at hI hJ
        constructor
        · linarith [hI.1, hJ.2]
        · linarith [hI.2, hJ.1]
  have hDvd : (2 : Int) ^ width ∣ i - j :=
    Int.ModEq.dvd hMod.symm
  have hZero := Int.eq_zero_of_abs_lt_dvd hDvd hNear
  omega

/- Only the zero word is read as zero. -/
theorem read_eq_zero_iff {word : BitVec 64} :
    reading.read word = 0 ↔ word = 0 := by
  constructor
  · intro hZero
    rw [← reading.ofInt_read word, hZero]
    rfl
  · intro hZero
    rw [hZero]
    cases reading with
    | signed => rfl
    | unsigned => rfl

/- A difference is read as such when it fits. -/
theorem read_sub_iff
    (reading : WordReading)
    (x y : BitVec 64) :
    reading.read x - reading.read y = reading.read (x - y) ↔
      reading.Fits 64 (reading.read x - reading.read y) := by
  constructor
  · intro hSame
    rw [hSame]
    exact reading.fits_read _
  · intro hFits
    apply hFits.eq_of_emod (by decide) (reading.fits_read _)
    have hX := reading.read_emod x
    have hY := reading.read_emod y
    rw [reading.read_emod, BitVec.toNat_sub]
    have hLtX := x.isLt
    have hLtY := y.isLt
    omega

/- A number is read as itself when it fits. -/
theorem read_ofNat_eq_iff {n : Nat} :
    reading.read (BitVec.ofNat 64 n) = n ↔
      reading.Fits 64 n := by
  constructor
  · intro hSame
    rw [← hSame]
    exact reading.fits_read _
  · intro hFits
    apply (reading.fits_read _).eq_of_emod (by decide) hFits
    rw [reading.read_emod, BitVec.toNat_ofNat]
    omega

/- It is never read as more. -/
theorem read_ofNat_le (n : Nat) :
    reading.read (BitVec.ofNat 64 n) ≤ n := by
  have hNat : (BitVec.ofNat 64 n).toNat ≤ n := by
    rw [BitVec.toNat_ofNat]
    exact Nat.mod_le n _
  cases reading with
  | signed =>
      simp only [read, BitVec.toInt_eq_toNat_cond]
      split
      · omega
      · omega
  | unsigned =>
      simp only [read]
      omega

/- A 32-bit word stored in 64 bits is read as itself. -/
theorem read_setWidth (word : BitVec 32) :
    reading.read (word.setWidth 64) = word.toNat := by
  have hLt := word.isLt
  have hNat : (word.setWidth 64).toNat = word.toNat := by
    rw [BitVec.toNat_setWidth]
    omega
  cases reading with
  | signed =>
      simp only [read, BitVec.toInt_eq_toNat_cond, hNat]
      omega
  | unsigned =>
      simp only [read, hNat]

/- The upper half of a word. -/
def upper (reading : WordReading) (word : BitVec 64) : Int :=
  reading.read word >>> (32 : Nat)

/- It fits half a word. -/
theorem fits_upper (word : BitVec 64) :
    reading.Fits 32 (reading.upper word) := by
  have hFits := reading.fits_read word
  unfold upper
  rw [Int.shiftRight_eq_div_pow]
  cases reading with
  | signed =>
      simp only [Fits] at hFits ⊢
      omega
  | unsigned =>
      simp only [Fits] at hFits ⊢
      omega

end WordReading

end Analysis

end FabricPerf
