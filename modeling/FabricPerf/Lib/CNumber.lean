import Mathlib.Tactic

/-
  The number conversions of the C library.

  `strtol` and `strtoull` skip white space, take a sign and
  the longest run of digits of the base, and convert the
  integer this denotes.  An integer outside the type becomes
  the nearest limit; `strtoull` negates within the type.

  Main declarations:
    * `CNumber.Subject`, `CNumber.subject`
    * `CNumber.strtoull`, `CNumber.strtol`
    * `CNumber.toNat_toULL`, `CNumber.toInt_toLong`
-/

------------------------------------------------------------
-- The Subject Sequence
------------------------------------------------------------

namespace CNumber

/- `isspace` of the C locale. -/
def isSpace (c : Char) : Bool :=
  [9, 10, 11, 12, 13, 32].contains c.toNat

/- The value of a digit or a letter. -/
def digitOf (c : Char) : Nat :=
  if c.isDigit then
    c.toNat - 48
  else if c.isLower then
    c.toNat - 87
  else if c.isUpper then
    c.toNat - 55
  else
    36

/- The number of digits in a base. -/
def magnitudeOf (base : Nat) (digits : List Char) : Nat :=
  digits.foldl (fun n c => base * n + digitOf c) 0

/- The sign of a text and what follows it. -/
def signOf : List Char → Bool × List Char
| '-' :: rest => (true, rest)
| '+' :: rest => (false, rest)
| text => (false, text)

/- Base zero reads the base from the prefix. -/
def baseOf : List Char → Nat × List Char
| '0' :: x :: d :: rest =>
    if (x = 'x' ∨ x = 'X') ∧ digitOf d < 16 then
      (16, d :: rest)
    else
      (8, '0' :: x :: d :: rest)
| '0' :: rest => (8, '0' :: rest)
| text => (10, text)

/- A sign, a magnitude, and the text after the digits. -/
structure Subject where
  negative : Bool
  magnitude : Nat
  rest : List Char
deriving DecidableEq, Repr

/- The number at the start of a text, if there is one. -/
def subject (base : Nat) (text : List Char) :
    Option Subject :=
  let signed := signOf (text.dropWhile isSpace)
  let based :=
    if base = 0 then baseOf signed.2 else (base, signed.2)
  let digits :=
    based.2.takeWhile (fun c => decide (digitOf c < based.1))
  let rest :=
    based.2.dropWhile (fun c => decide (digitOf c < based.1))
  if digits.isEmpty then
    none
  else
    some
      { negative := signed.1
        magnitude := magnitudeOf based.1 digits
        rest := rest }

namespace Subject

/- The integer a subject sequence denotes. -/
def integer (s : Subject) : Int :=
  if s.negative then -s.magnitude else s.magnitude

/- As an `unsigned long long`. -/
def toULL (s : Subject) : BitVec 64 :=
  if 2 ^ 64 ≤ s.magnitude then
    BitVec.ofNat 64 (2 ^ 64 - 1)
  else
    BitVec.ofInt 64 s.integer

/- As a `long`. -/
def toLong (s : Subject) : BitVec 64 :=
  BitVec.ofInt 64 (max (-2 ^ 63) (min (2 ^ 63 - 1) s.integer))

end Subject

/- `strtoull`: the value and what `end` points to. -/
def strtoull (base : Nat) (text : List Char) :
    Option (BitVec 64 × List Char) :=
  (subject base text).map (fun s => (s.toULL, s.rest))

/- `strtol`: the value and what `end` points to. -/
def strtol (base : Nat) (text : List Char) :
    Option (BitVec 64 × List Char) :=
  (subject base text).map (fun s => (s.toLong, s.rest))

/- The whole text denotes an integer. -/
def denoted (base : Nat) (text : List Char) : Option Int :=
  (subject base text).bind (fun s =>
    if s.rest.isEmpty then some s.integer else none)

/- The integer at the start of the text. -/
def leading (base : Nat) (text : List Char) : Option Int :=
  (subject base text).map Subject.integer

------------------------------------------------------------
-- Conversions
------------------------------------------------------------

/-
  What `strtoull` makes of an integer: its residue below the
  limit, and the limit from there on.
-/
def unsignedOf (n : Int) : Int :=
  if -2 ^ 64 < n ∧ n < 2 ^ 64 then n % 2 ^ 64 else 2 ^ 64 - 1

/- What `strtol` makes of an integer. -/
def signedOf (n : Int) : Int :=
  max (-2 ^ 63) (min (2 ^ 63 - 1) n)

/- The conversion without a sign. -/
theorem toNat_toULL (s : Subject) :
    (s.toULL.toNat : Int) = unsignedOf s.integer := by
  have hInteger :
      2 ^ 64 ≤ s.magnitude ↔
        ¬ (-2 ^ 64 < s.integer ∧ s.integer < 2 ^ 64) := by
    unfold Subject.integer
    split
    · omega
    · omega
  unfold Subject.toULL unsignedOf
  by_cases hLimit : 2 ^ 64 ≤ s.magnitude
  · rw [if_pos hLimit, if_neg (hInteger.mp hLimit)]
    rfl
  · rw [if_neg hLimit,
      if_pos (not_not.mp (mt hInteger.mpr hLimit)),
      BitVec.toNat_ofInt]
    omega

/- The conversion with a sign. -/
theorem toInt_toLong (s : Subject) :
    s.toLong.toInt = signedOf s.integer := by
  unfold Subject.toLong signedOf
  apply BitVec.toInt_ofInt_eq_self (by decide)
  · omega
  · omega

/- Integers the type holds are kept. -/
theorem unsignedOf_eq
    {n : Int}
    (hRange : 0 ≤ n ∧ n < 2 ^ 64) :
    unsignedOf n = n := by
  unfold unsignedOf
  rw [if_pos (by omega)]
  omega

/- Casting a `long` to an `int`. -/
theorem toInt_setWidth_toLong (s : Subject) :
    (s.toLong.setWidth 32).toInt =
      (signedOf s.integer).bmod (2 ^ 32) := by
  rw [← toInt_toLong, BitVec.toInt_setWidth,
    BitVec.toInt_eq_toNat_bmod]
  exact (Int.bmod_bmod_of_dvd (by decide)).symm

end CNumber
