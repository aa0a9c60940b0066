import Mathlib.Data.BitVec
import Mathlib.Tactic

/-
  Fixed-width integers packed into little-endian bytes.

  A format is a list of codes.  Only formats in which every
  code is aligned without padding have the layout described
  here.

  Main declarations:
    * `StructFormat.Code`
    * `StructFormat.unpack`
    * `StructFormat.unpack_eq_some_iff`
-/

------------------------------------------------------------
-- Codes
------------------------------------------------------------

namespace StructFormat

/- The number that little-endian bytes stand for. -/
def toNat : List UInt8 → Nat
| [] => 0
| b :: rest => b.toNat + 256 * toNat rest

/- The codes `i`, `I`, `q` and `Q`. -/
inductive Code where
| int32
| uint32
| int64
| uint64
deriving DecidableEq, Repr

namespace Code

/- The number of bytes of a code. -/
def size : Code → Nat
| int32 | uint32 => 4
| int64 | uint64 => 8

/- The value of the bytes of a code. -/
def value (code : Code) (payload : List UInt8) : Int :=
  match code with
  | int32 => (toNat payload : Int).bmod (2 ^ 32)
  | int64 => (toNat payload : Int).bmod (2 ^ 64)
  | uint32 | uint64 => toNat payload

end Code

------------------------------------------------------------
-- Formats
------------------------------------------------------------

/- The number of bytes of a format. -/
def calcsize (format : List Code) : Nat :=
  (format.map Code.size).sum

/- The values of a format's codes in the payload. -/
def values : List Code → List UInt8 → List Int
| [], _ => []
| code :: rest, payload =>
    code.value (payload.take code.size) ::
      values rest (payload.drop code.size)

/- Unpack a payload that has the size of the format. -/
def unpack
    (format : List Code)
    (payload : List UInt8) : Option (List Int) :=
  if payload.length = calcsize format then
    some (values format payload)
  else
    none

/- Unpacking succeeds exactly at the size of the format. -/
theorem unpack_eq_some_iff
    {format : List Code}
    {payload : List UInt8}
    {found : List Int} :
    unpack format payload = some found ↔
      payload.length = calcsize format ∧
        values format payload = found := by
  unfold unpack
  split
  · rename_i hSize
    simp [hSize]
  · rename_i hSize
    simp [hSize]

end StructFormat
