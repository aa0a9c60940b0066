import FabricPerf.Analysis.Record
import FabricPerf.Lib.Raising
import FabricPerf.Lib.StructFormat

/-
  Exceptions, attributes and files, as far as the analyzers
  meet them.

  Main declarations:
    * `Analysis.PyErr`
    * `Analysis.Record.getAttr`
    * `Analysis.ResultFile.read`, `Analysis.structUnpack`
-/

------------------------------------------------------------
-- Exceptions
------------------------------------------------------------

namespace FabricPerf

namespace Analysis

/- The exceptions, with the texts that handlers look at. -/
inductive PyErr where
| osError
| fileNotFoundError (text : String)
| structError
| valueError (text : String)
| indexError
| keyError
| attributeError
| typeError
| nameError
| zeroDivisionError
deriving DecidableEq, Repr

/- `record.name`. -/
def Record.getAttr
    (record : Record)
    (name : String) : Except PyErr Int :=
  match record.attr? name with
  | some value => .ok value
  | none => .error .attributeError

/- Call a `namedtuple` class. -/
def RecordType.call
    (type : RecordType)
    (values : List Int) : Except PyErr Record :=
  match type.make values with
  | some record => .ok record
  | none => .error .typeError

------------------------------------------------------------
-- Files
------------------------------------------------------------

/- A file; its offsets fit a signed 64-bit integer. -/
structure ResultFile where
  path : String
  contents : List UInt8
  short : contents.length < 2 ^ 63
deriving Repr

/- A file without contents. -/
def ResultFile.empty (path : String) : ResultFile where
  path := path
  contents := []
  short := Nat.two_pow_pos 63

/- Read up to a number of bytes from a position. -/
def ResultFile.read
    (file : ResultFile)
    (position count : Nat) : List UInt8 :=
  (file.contents.drop position).take count

/- `struct.unpack`. -/
def structUnpack
    (format : List StructFormat.Code)
    (payload : List UInt8) : Except PyErr (List Int) :=
  match StructFormat.unpack format payload with
  | some values => .ok values
  | none => .error .structError

/- A full read takes its bytes from the file. -/
theorem ResultFile.length_read
    (file : ResultFile)
    (position count : Nat) :
    (file.read position count).length =
      min count (file.contents.length - position) := by
  unfold ResultFile.read
  rw [List.length_take, List.length_drop]

end Analysis

end FabricPerf
