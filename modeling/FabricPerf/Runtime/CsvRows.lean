import FabricPerf.Lib.Rfc4180
import FabricPerf.Runtime.Launches
import Mathlib.Tactic

/-
  The lines that `memory.cc` appends to its CSV file.

  `write_csv_row_locked` escapes every field and writes it
  with `fputs`, which stops at a NUL character.  A reader of
  RFC 4180 finds the fields of each line again.

  Main declarations:
    * `Runtime.csvEscape`, `Runtime.writeFields`
    * `Runtime.read_writeFields`
    * `Runtime.rowFields`
-/

------------------------------------------------------------
-- Lines
------------------------------------------------------------

namespace FabricPerf

namespace Runtime

/- The character that ends a C string. -/
def nul : Char := Char.ofNat 0

/- A text up to its first NUL character. -/
def cString (text : Text) : Text :=
  text.takeWhile (fun c => c != nul)

/- A text that is whole as a C string. -/
def NulFree (text : Text) : Prop :=
  text.all (fun c => c != nul) = true

instance (text : Text) : Decidable (NulFree text) :=
  inferInstanceAs
    (Decidable (text.all (fun c => c != nul) = true))

/- A whole text has no NUL in it. -/
theorem nulFree_iff {text : Text} :
    NulFree text ↔ nul ∉ text := by
  unfold NulFree
  rw [List.all_eq_true]
  constructor
  · intro hAll hMem
    have hNe := hAll nul hMem
    simp at hNe
  · intro hNone c hMem
    have hNe : c ≠ nul := fun hEq => hNone (hEq ▸ hMem)
    simpa using hNe

/- `csv_escape`. -/
def csvEscape (value : Text) : Text :=
  if value.any [',', '"', '\n', '\r'].contains then
    '"' ::
      value.flatMap
        (fun c => if c = '"' then ['"', '"'] else [c]) ++
      ['"']
  else
    value

/-
  The loop of `write_csv_row_locked`: a comma before every
  field but the first, and a line feed at the end.
-/
def writeFields (fields : List Text) : Text :=
  fields.zipIdx.flatMap
      (fun field =>
        (if field.2 ≠ 0 then [','] else []) ++
          cString (csvEscape field.1)) ++
    ['\n']

/- A C string without NUL is written whole. -/
theorem cString_eq {text : Text} (hFree : NulFree text) :
    cString text = text := by
  exact List.takeWhile_eq_self_iff.mpr
    (List.all_eq_true.mp hFree)

/- Cutting a text leaves no NUL. -/
theorem nulFree_cString (text : Text) :
    NulFree (cString text) := by
  apply List.all_eq_true.mpr
  intro c hMem
  have hKept := List.mem_takeWhile_imp hMem
  exact hKept

/- Escaping adds no NUL. -/
theorem nulFree_csvEscape
    {value : Text}
    (hFree : NulFree value) :
    NulFree (csvEscape value) := by
  have hQuote : nul ≠ '"' := by decide
  rw [nulFree_iff] at hFree ⊢
  unfold csvEscape
  split
  · intro hMem
    simp only [List.cons_append, List.mem_cons,
      List.mem_append, List.mem_flatMap, List.not_mem_nil,
      or_false, hQuote, false_or] at hMem
    rcases hMem with ⟨c, hC, hIn⟩
    split at hIn
    · simp [hQuote] at hIn
    · rw [List.mem_singleton] at hIn
      exact hFree (hIn ▸ hC)
  · exact hFree

/- An escaped field is the field, plainly or in quotes. -/
theorem encodes_csvEscape (value : Text) :
    Rfc4180.Encodes value (csvEscape value) := by
  unfold csvEscape
  split
  case isTrue => exact Rfc4180.Encodes.quoted
  case isFalse hNone =>
      apply Rfc4180.Encodes.plain
      intro c hMem
      rw [List.any_eq_true, not_exists] at hNone
      have hPlain : [',', '"', '\n', '\r'].contains c = false := by
        have hNot := hNone c
        simpa [hMem] using hNot
      simpa [Rfc4180.isSpecial, and_assoc] using hPlain

/- The loop writes the fields with commas between them. -/
theorem writeFields_eq {fields : List Text} :
    writeFields fields =
      Rfc4180.line
        (fields.map (fun field => cString (csvEscape field))) := by
  have hRest (k : Nat) (rest : List Text) :
      (rest.zipIdx (k + 1)).flatMap
          (fun field =>
            (if field.2 ≠ 0 then [','] else []) ++
              cString (csvEscape field.1)) =
        (rest.map (fun field => cString (csvEscape field))).flatMap
          (fun t => ',' :: t) := by
    induction rest generalizing k with
    | nil => rfl
    | cons field rest ih =>
        rw [List.zipIdx_cons, List.flatMap_cons, ih (k + 1)]
        simp
  unfold writeFields Rfc4180.line
  cases fields with
  | nil => rfl
  | cons field rest =>
      rw [List.zipIdx_cons, List.flatMap_cons, hRest 0,
        List.map_cons, Rfc4180.joinFields_cons]
      rfl

/- Every text of a line encodes its field. -/
theorem forall₂_encodes
    {fields : List Text}
    (hFree : ∀ field ∈ fields, NulFree field) :
    List.Forall₂ Rfc4180.Encodes fields
      (fields.map (fun field => cString (csvEscape field))) := by
  rw [List.forall₂_map_right_iff, List.forall₂_same]
  intro field hMem
  rw [cString_eq (nulFree_csvEscape (hFree field hMem))]
  exact encodes_csvEscape field

/-
  Lines of at least one field each are read as the lists of
  fields they were built from, row by row.
-/
theorem read_writeFields
    (rows : List (List Text))
    (hRows :
      ∀ row ∈ rows, row ≠ [] ∧ ∀ field ∈ row, NulFree field) :
    Rfc4180.read (rows.flatMap writeFields) = some rows := by
  have hLines :
      rows.flatMap writeFields =
        rows.flatMap
          (fun row =>
            Rfc4180.line
              (row.map
                (fun field => cString (csvEscape field)))) := by
    congr 1
    funext row
    exact writeFields_eq
  have hRead :=
    Rfc4180.read_flatMap_line id
      (fun row => row.map (fun field => cString (csvEscape field)))
      rows
      (fun row hMem =>
        ⟨(hRows row hMem).1,
          forall₂_encodes (hRows row hMem).2⟩)
  rw [hLines, hRead, List.map_id]

/- A row appended to whole lines is one more record. -/
theorem complete_append_writeFields
    {text : Text}
    {records : List (List Text)}
    {fields : List Text}
    (hComplete : Rfc4180.Complete text records)
    (hNonempty : fields ≠ [])
    (hFree : ∀ field ∈ fields, NulFree field) :
    Rfc4180.Complete (text ++ writeFields fields)
      (records ++ [fields]) := by
  rw [writeFields_eq]
  exact hComplete.append_line hNonempty (forall₂_encodes hFree)

/- A kernel name with quotes, and a line of one empty field. -/
theorem read_writeFields_quoted :
    Rfc4180.read
        ([["a,\"b\"".toList, "1,2".toList], [[]]].flatMap
          writeFields) =
      some [["a,\"b\"".toList, "1,2".toList], [[]]] := by
  apply read_writeFields
  decide

------------------------------------------------------------
-- The Fields Of A Row
------------------------------------------------------------

/-
  What the streams print: numbers with seventeen digits and
  the texts of `cupti_status`, and the sampling interval.
-/
structure RowFormat (V : Type) where
  isNan : V → Bool
  number : V → Text
  status : Nat → Text
  interval : Nat
  nulFree_number : ∀ value, NulFree (number value)
  nulFree_status : ∀ code, NulFree (status code)

/- `std::to_string`. -/
def decimal (n : Nat) : Text :=
  Nat.toDigits 10 n

/- The three numbers of a grid or a block. -/
def dimField (dim : Nat × Nat × Nat) : Text :=
  decimal dim.1 ++ [','] ++ decimal dim.2.1 ++ [','] ++
    decimal dim.2.2

section Fields

variable {V : Type}
variable (format : RowFormat V)

/- `double_field` -/
def doubleField (value : V) : Text :=
  if format.isNan value then [] else format.number value

/- The field of a value that may be absent. -/
def counterField (counter : Option (Counter V)) : Text :=
  match counter with
  | some counter => doubleField format counter.val
  | none => []

/- What `raw_metrics_field_locked` prints for a metric. -/
def metricCell : MetricCell V → Text
| .value counter => format.number counter.val
| .unsupported code =>
    "UNSUPPORTED:".toList ++ format.status code
| .evalError code => "EVAL_ERROR:".toList ++ format.status code
| .missing => "MISSING".toList

/- One metric; its name is a C string. -/
def metricEntry (entry : Text × MetricCell V) : Text :=
  cString entry.1 ++ ['='] ++ metricCell format entry.2

/- `raw_metrics_field_locked` -/
def rawMetricsField (row : CsvRow V) : Text :=
  [';'].intercalate (row.rawMetrics.map (metricEntry format)) ++
    ";cupti_backend=pm_sampling".toList ++
    ";pm_samples_total=".toList ++ decimal row.samplesTotal ++
    ";pm_samples_populated=".toList ++
    decimal row.samplesPopulated ++
    ";pm_samples_completed=".toList ++
    decimal row.samplesCompleted ++
    ";pm_overflow=".toList ++
    (if row.overflow then ['1'] else ['0']) ++
    ";pm_interval=".toList ++ decimal format.interval ++
    ";event_duration_s=".toList ++
    format.number row.eventDuration

/- The launch result, unless it is `CUDA_SUCCESS`. -/
def launchResultField (row : CsvRow V) : Text :=
  if row.launchResult ≠ 0 then
    ";launch_result=CUDA_".toList ++ decimal row.launchResult
  else
    []

/- The fields of `write_csv_row_locked`. -/
def rowFields (row : CsvRow V) : List Text :=
  [decimal row.rank,
    decimal row.device,
    decimal row.launch.launchIndex,
    cString (row.launch.kernelName.getD []),
    dimField row.launch.gridDim,
    dimField row.launch.blockDim,
    decimal row.launch.sharedMemBytes,
    counterField format row.duration,
    counterField format row.dramRead,
    counterField format row.dramWrite,
    counterField format row.nvlinkRx,
    counterField format row.nvlinkTx,
    [], [], [], [],
    rawMetricsField format row ++ launchResultField row]

end Fields

------------------------------------------------------------
-- Rows Without NUL
------------------------------------------------------------

namespace NulFree

/- Texts without NUL make a text without NUL. -/
theorem append
    {text rest : Text}
    (hLeft : NulFree text)
    (hRight : NulFree rest) :
    NulFree (text ++ rest) := by
  unfold NulFree at *
  rw [List.all_append, hLeft, hRight]
  rfl

/- So do texts with a separator between them. -/
theorem intercalate
    {separator : Text}
    {texts : List Text}
    (hSeparator : NulFree separator)
    (hTexts : ∀ text ∈ texts, NulFree text) :
    NulFree (separator.intercalate texts) := by
  induction texts with
  | nil => rfl
  | cons text rest ih =>
      have hText := hTexts text List.mem_cons_self
      have hRest :=
        ih (fun other hMem =>
          hTexts other (List.mem_cons_of_mem _ hMem))
      cases rest with
      | nil =>
          simpa using hText
      | cons next rest =>
          rw [List.intercalate_cons_cons]
          exact append (append hText hSeparator) hRest

/- Digits are not NUL. -/
theorem decimal (n : Nat) : NulFree (decimal n) := by
  rw [nulFree_iff]
  intro hMem
  have hDigit :=
    Nat.isDigit_of_mem_toDigits (by decide) (by decide) hMem
  exact absurd hDigit (by decide)

end NulFree

section Fields

variable {V : Type}
variable {format : RowFormat V}

/- The fields of dimensions. -/
theorem nulFree_dimField (dim : Nat × Nat × Nat) :
    NulFree (dimField dim) := by
  have hComma : NulFree [','] := by decide
  exact
    (((NulFree.decimal _).append hComma).append
      (NulFree.decimal _)).append hComma |>.append
        (NulFree.decimal _)

/- The fields of counters. -/
theorem nulFree_counterField (counter : Option (Counter V)) :
    NulFree (counterField format counter) := by
  unfold counterField doubleField
  cases counter with
  | none => rfl
  | some counter =>
      simp only
      split
      · rfl
      · exact format.nulFree_number _

/- What is printed for a metric. -/
theorem nulFree_metricCell (cell : MetricCell V) :
    NulFree (metricCell format cell) := by
  cases cell with
  | value counter => exact format.nulFree_number _
  | unsupported code =>
      have hLabel : NulFree "UNSUPPORTED:".toList := by decide
      exact hLabel.append (format.nulFree_status code)
  | evalError code =>
      have hLabel : NulFree "EVAL_ERROR:".toList := by decide
      exact hLabel.append (format.nulFree_status code)
  | missing =>
      have hLabel : NulFree "MISSING".toList := by decide
      exact hLabel

/- The raw metrics. -/
theorem nulFree_rawMetricsField (row : CsvRow V) :
    NulFree (rawMetricsField format row) := by
  have hEntries :
      NulFree
        ([';'].intercalate
          (row.rawMetrics.map (metricEntry format))) := by
    apply NulFree.intercalate (by decide)
    intro text hMem
    rcases List.mem_map.mp hMem with ⟨entry, _, rfl⟩
    have hEquals : NulFree ['='] := by decide
    exact ((nulFree_cString entry.1).append hEquals).append
      (nulFree_metricCell entry.2)
  have hFlag :
      NulFree (if row.overflow then ['1'] else ['0']) := by
    split <;> decide
  unfold rawMetricsField
  repeat' apply NulFree.append
  all_goals first
    | exact hEntries
    | exact hFlag
    | exact NulFree.decimal _
    | exact format.nulFree_number _
    | decide

/- No field of a row holds a NUL character. -/
theorem nulFree_rowFields (row : CsvRow V) :
    ∀ field ∈ rowFields format row, NulFree field := by
  have hResult : NulFree (launchResultField row) := by
    unfold launchResultField
    split
    · have hLabel : NulFree ";launch_result=CUDA_".toList := by
        decide
      exact hLabel.append (NulFree.decimal _)
    · rfl
  simp only [rowFields, List.forall_mem_cons,
    List.not_mem_nil, false_imp_iff, implies_true, and_true]
  refine
    ⟨NulFree.decimal _, NulFree.decimal _, NulFree.decimal _,
      nulFree_cString _, nulFree_dimField _,
      nulFree_dimField _, NulFree.decimal _,
      nulFree_counterField _, nulFree_counterField _,
      nulFree_counterField _, nulFree_counterField _,
      nulFree_counterField _, ?_, ?_, ?_, ?_,
      (nulFree_rawMetricsField row).append hResult⟩ <;>
    rfl

end Fields

end Runtime

end FabricPerf
