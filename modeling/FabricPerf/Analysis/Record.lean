import Mathlib.Data.List.Nodup

/-
  The records a generated reader hands to the analyzers.

  A record type is a `namedtuple` class, a record one of its
  instances.  Fields are read by name, directly or with a
  default.

  Main declarations:
    * `Analysis.RecordType`
    * `Analysis.Record`
    * `Analysis.Record.attr`
    * `Analysis.Record.exists_attr?_iff`
-/

------------------------------------------------------------
-- Named Tuples
------------------------------------------------------------

namespace FabricPerf

namespace Analysis

/- A `namedtuple` class: field names, all distinct. -/
structure RecordType where
  names : List String
  distinct : names.Nodup
deriving DecidableEq, Repr

/- One instance: a value for each field name. -/
structure Record where
  type : RecordType
  values : List Int
  arity : values.length = type.names.length
deriving DecidableEq, Repr

namespace RecordType

/- Call the class with positional values. -/
def make (type : RecordType) (values : List Int) :
    Option Record :=
  if hArity : values.length = type.names.length then
    some { type := type, values := values, arity := hArity }
  else
    none

end RecordType

namespace Record

/- The value of a field, if the record has it. -/
def attr? (record : Record) (name : String) : Option Int :=
  ((record.type.names.zip record.values).find?
    (fun field => field.1 = name)).map Prod.snd

/- A record has the fields its class names. -/
theorem exists_attr?_iff
    {record : Record}
    {name : String} :
    (∃ value, record.attr? name = some value) ↔
      name ∈ record.type.names := by
  have hNames :
      (record.type.names.zip record.values).map Prod.fst =
        record.type.names := by
    apply List.map_fst_zip
    exact Nat.le_of_eq record.arity.symm
  constructor
  · rintro ⟨value, hValue⟩
    rcases Option.map_eq_some_iff.mp hValue with
      ⟨field, hField, -⟩
    have hMem := List.mem_of_find?_eq_some hField
    have hName : field.1 = name := by
      simpa using List.find?_some hField
    rw [← hNames, ← hName]
    exact List.mem_map_of_mem hMem
  · intro hMem
    rw [← hNames] at hMem
    rcases List.mem_map.mp hMem with ⟨field, hField, hName⟩
    cases hFind :
        (record.type.names.zip record.values).find?
          (fun field => field.1 = name) with
    | none =>
        rw [List.find?_eq_none] at hFind
        exact absurd (decide_eq_true hName)
          (hFind field hField)
    | some found =>
        exact ⟨found.2, by rw [attr?, hFind]; rfl⟩

/- `getattr(record, name, 0)`. -/
def attr (record : Record) (name : String) : Int :=
  (record.attr? name).getD 0

end Record

end Analysis

end FabricPerf
