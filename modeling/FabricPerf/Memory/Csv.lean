import FabricPerf.Lib.KeyValues
import FabricPerf.Lib.Scanner

/-
  The CSV files of the memory analyzer (`analysis/common.py`).

  A row maps columns to texts.  Reading and writing a CSV file
  are exact, so a file is its field names and its rows, each
  with exactly the fields of the header.  The `raw_metrics`
  column holds an ordered map.

  Main declarations:
    * `Memory.Csv`, `Memory.writeWideCsv`
    * `Memory.parseRawMetrics`, `Memory.formatRawMetrics`
    * `Memory.parseRawMetrics_eq`
    * `Memory.parse_format_assign`
-/

namespace FabricPerf

namespace Memory

------------------------------------------------------------
-- Rows
------------------------------------------------------------

/- A row of a CSV file: the text in each column. -/
abbrev Row := Dict String Text

/- `{field: row.get(field, "") for field in fieldnames}` -/
def project (fieldnames : List String) (row : Row) : Row :=
  fieldnames.foldl
    (fun d field => d.set field (row.get [] field)) Dict.empty

/- A written row has the fields of the header. -/
theorem find?_project
    (fieldnames : List String)
    (row : Row)
    (column : String) :
    (project fieldnames row).find? column =
      if column ∈ fieldnames then some (row.get [] column)
      else none := by
  have hFold (d : Row) :
      (fieldnames.foldl
        (fun d field => d.set field (row.get [] field))
        d).find? column =
        if column ∈ fieldnames then some (row.get [] column)
        else d.find? column := by
    induction fieldnames generalizing d with
    | nil => simp
    | cons field rest ih =>
        rw [List.foldl_cons, ih]
        by_cases hField : column = field
        · subst hField
          simp [Dict.find?_set_self]
        · simp [Dict.find?_set_of_ne hField, hField]
  exact hFold Dict.empty

/- Only the fields of the header are written. -/
theorem project_congr
    {fieldnames : List String}
    {row row' : Row}
    (hSame :
      ∀ field ∈ fieldnames, row.get [] field = row'.get [] field) :
    project fieldnames row = project fieldnames row' := by
  have hFold (d : Row) :
      fieldnames.foldl
          (fun d field => d.set field (row.get [] field)) d =
        fieldnames.foldl
          (fun d field => d.set field (row'.get [] field)) d := by
    induction fieldnames generalizing d with
    | nil => rfl
    | cons field rest ih =>
        have hRest :=
          ih (fun other hMem =>
            hSame other (List.mem_cons_of_mem _ hMem))
        rw [List.foldl_cons, List.foldl_cons,
          hSame field List.mem_cons_self, hRest]
  exact hFold Dict.empty

/- A written field reads as it was. -/
theorem get_project_of_mem
    {fieldnames : List String}
    (row : Row)
    {field : String}
    (hField : field ∈ fieldnames) :
    (project fieldnames row).get [] field = row.get [] field := by
  unfold Dict.get
  rw [find?_project, if_pos hField]
  rfl

/- Writing a row again changes nothing. -/
theorem project_project
    (fieldnames : List String)
    (row : Row) :
    project fieldnames (project fieldnames row) =
      project fieldnames row :=
  project_congr (fun _ hField => get_project_of_mem row hField)

------------------------------------------------------------
-- Files
------------------------------------------------------------

/- A CSV file; each row has the fields of the header. -/
structure Csv where
  fieldnames : List String
  rows : List Row
  complete : ∀ row ∈ rows, project fieldnames row = row

/- `write_wide_csv` -/
def writeWideCsv
    (fieldnames : List String)
    (rows : List Row) : Csv where
  fieldnames := fieldnames
  rows := rows.map (project fieldnames)
  complete := by
    intro row hMem
    rcases List.mem_map.mp hMem with ⟨old, _, rfl⟩
    exact project_project fieldnames old

/- A file whose rows do not change is written as it is. -/
theorem writeWideCsv_eq
    {csv : Csv}
    {rows : List Row}
    (hSame : rows.map (project csv.fieldnames) = csv.rows) :
    writeWideCsv csv.fieldnames rows = csv := by
  cases csv
  simp only [writeWideCsv, Csv.mk.injEq, true_and]
  exact hSame

------------------------------------------------------------
-- Numbers
------------------------------------------------------------

/-
  What Python does with numbers in texts: `int()` and
  `float()`, without a result on a `ValueError`, the test
  `<= 0.0`, and the quotient of an integer and a float in the
  format `.17g`.
-/
structure Numbers where
  Number : Type
  int : Text → Option Int
  float : Text → Option Number
  nonPositive : Number → Bool
  quotient : Int → Number → Text

/- `number_field` of an integer. -/
def numberField : Int → Text
| .ofNat n => Nat.toDigits 10 n
| .negSucc n => '-' :: Nat.toDigits 10 (n + 1)

/- A number holds no separator. -/
theorem notMem_numberField (value : Int) :
    ';' ∉ numberField value := by
  have hDigits (n : Nat) : ';' ∉ Nat.toDigits 10 n := by
    intro hMem
    have hDigit :=
      Nat.isDigit_of_mem_toDigits (by omega) (by omega) hMem
    exact absurd hDigit (by decide)
  cases value with
  | ofNat n => exact hDigits n
  | negSucc n => simp [numberField, hDigits]

/- `float_field` -/
def floatField
    (numbers : Numbers)
    (raw : Option Text) : Option numbers.Number :=
  match raw with
  | none => none
  | some raw => if raw.isEmpty then none else numbers.float raw

/- `bps_from_bytes` -/
def bpsFromBytes
    (numbers : Numbers)
    (byteCount : Int)
    (durationS : Option numbers.Number) : Text :=
  match durationS with
  | none => []
  | some durationS =>
      if numbers.nonPositive durationS then []
      else numbers.quotient byteCount durationS

------------------------------------------------------------
-- Raw Metrics
------------------------------------------------------------

/- An order of keys, and a value for each of them. -/
structure RawMetrics where
  order : List Text
  values : Dict Text Text
  known : ∀ key ∈ order, key ∈ values.keys

namespace RawMetrics

/- The metrics of a dictionary in its own order. -/
def ofValues (values : Dict Text Text) : RawMetrics where
  order := values.keys
  values := values
  known := fun _ hMem => hMem

@[simp] theorem order_ofValues (values : Dict Text Text) :
    (ofValues values).order = values.keys := rfl

@[simp] theorem values_ofValues (values : Dict Text Text) :
    (ofValues values).values = values := rfl

/- Enter a part, at the end where its key is new. -/
def addPart (raw : RawMetrics) (part : Text) : RawMetrics where
  order :=
    if raw.values.keys.contains (KeyValues.entry '=' part).1 then
      raw.order
    else
      raw.order ++ [(KeyValues.entry '=' part).1]
  values :=
    raw.values.set (KeyValues.entry '=' part).1
      (KeyValues.entry '=' part).2
  known := by
    intro key hMem
    have hThere :
        key = (KeyValues.entry '=' part).1 ∨ key ∈ raw.order := by
      split at hMem
      · exact Or.inr hMem
      · rcases List.mem_append.mp hMem with hOld | hNew
        · exact Or.inr hOld
        · exact Or.inl (List.mem_singleton.mp hNew)
    apply Dict.mem_keys_update.mpr
    exact hThere.imp_right (raw.known key)

/- Assign values; the order stays as it is. -/
def assign
    (raw : RawMetrics)
    (new : Dict Text Text) : RawMetrics where
  order := raw.order
  values := raw.values.setAll new
  known := by
    intro key hMem
    rw [Dict.keys_setAll]
    exact List.mem_append_left _ (raw.known key hMem)

/- A new part at the end of its own order. -/
theorem addPart_ofValues
    (values : Dict Text Text)
    (part : Text) :
    (ofValues values).addPart part =
      ofValues
        (values.set (KeyValues.entry '=' part).1
          (KeyValues.entry '=' part).2) := by
  simp only [addPart, ofValues, RawMetrics.mk.injEq, and_true]
  rw [Dict.keys_set]
  simp

end RawMetrics

/- `parse_raw_metrics` -/
def parseRawMetrics (raw : Text) : RawMetrics :=
  (raw.splitOn ';').foldl
    (fun metrics part =>
      if part.isEmpty then metrics else metrics.addPart part)
    (RawMetrics.ofValues Dict.empty)

/- `format_raw_metrics` -/
def formatRawMetrics (raw : RawMetrics) : Text :=
  let order := Dict.appendMissing raw.order raw.values.keys
  -- `known` gives every key of the order its value
  [';'].intercalate
    (order.map (fun key =>
      KeyValues.part '=' (key, raw.values.get [] key)))

/- Reading keeps the keys in the order of the dictionary. -/
theorem parseRawMetrics_eq (raw : Text) :
    parseRawMetrics raw =
      RawMetrics.ofValues (KeyValues.parse ';' '=' raw) := by
  have hFold (parts : List Text) (values : Dict Text Text) :
      parts.foldl
          (fun metrics part =>
            if part.isEmpty then metrics
            else metrics.addPart part)
          (RawMetrics.ofValues values) =
        RawMetrics.ofValues
          (((parts.filter (fun part => !part.isEmpty)).map
            (KeyValues.entry '=')).foldl
            (fun d e => d.set e.1 e.2) values) := by
    induction parts generalizing values with
    | nil => rfl
    | cons part rest ih =>
        rw [List.foldl_cons]
        split
        case isTrue hEmpty =>
            rw [ih, List.filter_cons_of_neg (by simp [hEmpty])]
        case isFalse hSome =>
            rw [RawMetrics.addPart_ofValues, ih,
              List.filter_cons_of_pos (by simpa using hSome)]
            rfl
  exact hFold _ Dict.empty

/- Assigned keys are written after those that were read. -/
theorem formatRawMetrics_assign
    (values new : Dict Text Text) :
    formatRawMetrics ((RawMetrics.ofValues values).assign new) =
      KeyValues.format ';' '=' (values.setAll new) := by
  have hOrder :
      Dict.appendMissing values.keys (values.setAll new).keys =
        (values.setAll new).keys := by
    rw [Dict.appendMissing_eq (values.setAll new).nodup_keys,
      Dict.keys_setAll]
    simp [List.filter_append, List.filter_filter]
  have hParts :
      (values.setAll new).keys.map
          (fun key =>
            KeyValues.part '='
              (key, (values.setAll new).get [] key)) =
        (values.setAll new).entries.map (KeyValues.part '=') := by
    unfold Dict.keys
    rw [List.map_map]
    apply List.map_congr_left
    rintro ⟨key, value⟩ hMem
    have hGet : (values.setAll new).get [] key = value := by
      unfold Dict.get
      rw [Dict.find?_eq_some_iff.mpr hMem]
      rfl
    simp only [Function.comp_apply, hGet]
  unfold KeyValues.format
  rw [← hParts]
  conv_rhs => rw [← hOrder]
  rfl

/-
  Reading back metrics with assigned entries: the new keys
  stand after the old ones.
-/
theorem parse_format_assign
    {values new : Dict Text Text}
    (hOld : ∀ e ∈ values.entries, KeyValues.Clean ';' '=' e)
    (hNew : ∀ e ∈ new.entries, KeyValues.Clean ';' '=' e) :
    parseRawMetrics
        (formatRawMetrics
          ((RawMetrics.ofValues values).assign new)) =
      RawMetrics.ofValues (values.setAll new) := by
  rw [formatRawMetrics_assign, parseRawMetrics_eq,
    KeyValues.parse_format (by decide)
      (Dict.forall_entries_setAll hOld hNew)]

end Memory

end FabricPerf
