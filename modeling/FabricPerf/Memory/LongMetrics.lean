import FabricPerf.Memory.Csv

/-
  `write_long_metrics_csv` of `analysis/common.py`: one line
  for each key of each row, in one of two files.

  Opening and writing the files is assumed to succeed; the
  `OSError` branch only reports a failure.

  Main declarations:
    * `Memory.isDiagnosticRawMetric`
    * `Memory.writeLongMetricsCsv`
    * `Memory.metrics_writeLongMetricsCsv`
    * `Memory.diagnose_writeLongMetricsCsv`
    * `Memory.rawMetrics_survives`
-/

------------------------------------------------------------
-- Diagnostics
------------------------------------------------------------

namespace FabricPerf

namespace Memory

/- `exact_diagnostics` -/
def exactDiagnostics : List Text :=
  ["cupti_backend".toList, "event_duration_s".toList,
    "pm_samples_total".toList, "pm_samples_populated".toList,
    "pm_samples_completed".toList, "pm_overflow".toList,
    "pm_interval".toList, "fabricperf_probe_backend".toList,
    "probe_merge_key".toList, "probe_records".toList]

/- `is_diagnostic_raw_metric` -/
def isDiagnosticRawMetric (metric : Text) : Bool :=
  exactDiagnostics.contains metric

------------------------------------------------------------
-- The Two Writers
------------------------------------------------------------

/- `fieldnames` of both files. -/
def longFieldnames : List String :=
  ["rank", "device", "launch_index", "kernel", "metric",
    "value"]

theorem nodup_longFieldnames : longFieldnames.Nodup := by
  decide

/- The line of one key of a row. -/
def longRow
    (row : Row)
    (values : Dict Text Text)
    (metric : Text) : Row where
  entries :=
    [("rank", row.get [] "rank"),
      ("device", row.get [] "device"),
      ("launch_index", row.get [] "launch_index"),
      ("kernel", row.get [] "kernel"),
      ("metric", metric),
      ("value", values.get [] metric)]
  distinct := nodup_longFieldnames

/- A line has exactly the fields of the header. -/
theorem project_longRow
    (row : Row)
    (values : Dict Text Text)
    (metric : Text) :
    project longFieldnames (longRow row values metric) =
      longRow row values metric := rfl

/- What a writer has written: lines under the header. -/
structure LongFile where
  rows : List Row
  complete : ∀ row ∈ rows, project longFieldnames row = row

namespace LongFile

/- A file with its header only. -/
def start : LongFile where
  rows := []
  complete := fun _ hMem => absurd hMem List.not_mem_nil

/- `writer.writerow` of the line of one key. -/
def writerow
    (file : LongFile)
    (row : Row)
    (values : Dict Text Text)
    (metric : Text) : LongFile where
  rows := file.rows ++ [longRow row values metric]
  complete := by
    intro line hMem
    rcases List.mem_append.mp hMem with hOld | hNew
    · exact file.complete line hOld
    · rw [List.mem_singleton.mp hNew]
      exact project_longRow row values metric

/- The file as a CSV file. -/
def csv (file : LongFile) : Csv where
  fieldnames := longFieldnames
  rows := file.rows
  complete := file.complete

end LongFile

/- `metrics_writer` and `diagnose_writer`. -/
structure LongWriters where
  metrics : LongFile
  diagnose : LongFile

namespace LongWriters

/- Both files with their headers. -/
def start : LongWriters where
  metrics := LongFile.start
  diagnose := LongFile.start

/- One turn of the loop over the keys of a row. -/
def writeMetric
    (row : Row)
    (values : Dict Text Text)
    (writers : LongWriters)
    (metric : Text) : LongWriters :=
  if isDiagnosticRawMetric metric then
    { writers with
      diagnose :=
        writers.diagnose.writerow row values metric }
  else
    { writers with
      metrics := writers.metrics.writerow row values metric }

/- One turn of the loop over the rows. -/
def writeRow (writers : LongWriters) (row : Row) :
    LongWriters :=
  let raw := parseRawMetrics (row.get [] "raw_metrics")
  raw.order.foldl (writeMetric row raw.values) writers

end LongWriters

/- `write_long_metrics_csv`: the metrics and the diagnose file. -/
def writeLongMetricsCsv (rows : List Row) : Csv × Csv :=
  let writers :=
    rows.foldl LongWriters.writeRow LongWriters.start
  (writers.metrics.csv, writers.diagnose.csv)

------------------------------------------------------------
-- The Lines Of Both Files
------------------------------------------------------------

/- The distinct keys of a row, in the order of its text. -/
def rowKeys (row : Row) : List Text :=
  (parseRawMetrics (row.get [] "raw_metrics")).order

/- The value of a key of a row. -/
def rowValue (row : Row) (metric : Text) : Text :=
  (parseRawMetrics (row.get [] "raw_metrics")).values.get []
    metric

/- The line of a key of a row with its parsed value. -/
def rowLine (row : Row) (metric : Text) : Row :=
  longRow row
    (parseRawMetrics (row.get [] "raw_metrics")).values metric

/- The lines of the keys of a row that satisfy a test. -/
def linesOf (wanted : Text → Bool) (row : Row) : List Row :=
  ((rowKeys row).filter wanted).map (rowLine row)

/- The keys of a row are distinct, and those of its parts. -/
theorem nodup_rowKeys (row : Row) : (rowKeys row).Nodup := by
  unfold rowKeys
  rw [parseRawMetrics_eq]
  exact Dict.nodup_keys _

theorem mem_rowKeys {row : Row} {metric : Text} :
    metric ∈ rowKeys row ↔
      ∃ part ∈ KeyValues.parts ';' (row.get [] "raw_metrics"),
        (KeyValues.entry '=' part).1 = metric := by
  unfold rowKeys
  rw [parseRawMetrics_eq]
  exact KeyValues.mem_keys_parse

/- The value of a key is that of its last part. -/
theorem rowValue_eq (row : Row) (metric : Text) :
    rowValue row metric =
      ((((KeyValues.parts ';' (row.get [] "raw_metrics")).map
        (KeyValues.entry '=')).reverse.find?
          (fun e => e.1 = metric)).map Prod.snd).getD [] := by
  unfold rowValue Dict.get
  rw [parseRawMetrics_eq]
  exact congrArg (Option.getD · [])
    (KeyValues.find?_parse ';' '=' _ metric)

/- Lines of different keys differ in their metric field. -/
theorem metric_rowLine (row : Row) (metric : Text) :
    (rowLine row metric).get [] "metric" = metric := rfl

/- The keys of one row, each into its file. -/
theorem rows_foldl_writeMetric
    (row : Row)
    (values : Dict Text Text)
    (order : List Text)
    (writers : LongWriters) :
    let after :=
      order.foldl (LongWriters.writeMetric row values) writers
    after.metrics.rows =
        writers.metrics.rows ++
          (order.filter
            (fun metric => !isDiagnosticRawMetric metric)).map
              (longRow row values) ∧
      after.diagnose.rows =
        writers.diagnose.rows ++
          (order.filter isDiagnosticRawMetric).map
            (longRow row values) := by
  induction order generalizing writers with
  | nil => simp
  | cons metric rest ih =>
      have hRest :=
        ih (LongWriters.writeMetric row values writers metric)
      cases hDiagnostic : isDiagnosticRawMetric metric with
      | true =>
          simpa [LongWriters.writeMetric, LongFile.writerow,
            hDiagnostic] using hRest
      | false =>
          simpa [LongWriters.writeMetric, LongFile.writerow,
            hDiagnostic] using hRest

/- All rows, each with its keys. -/
theorem rows_foldl_writeRow
    (rows : List Row)
    (writers : LongWriters) :
    let after := rows.foldl LongWriters.writeRow writers
    after.metrics.rows =
        writers.metrics.rows ++
          rows.flatMap
            (linesOf
              (fun metric => !isDiagnosticRawMetric metric)) ∧
      after.diagnose.rows =
        writers.diagnose.rows ++
          rows.flatMap (linesOf isDiagnosticRawMetric) := by
  induction rows generalizing writers with
  | nil => simp
  | cons row rest ih =>
      have hRow :=
        rows_foldl_writeMetric row
          (parseRawMetrics (row.get [] "raw_metrics")).values
          (rowKeys row) writers
      have hRest := ih (LongWriters.writeRow writers row)
      constructor
      · rw [List.foldl_cons, hRest.1, List.flatMap_cons,
          ← List.append_assoc]
        exact congrArg (· ++ _) hRow.1
      · rw [List.foldl_cons, hRest.2, List.flatMap_cons,
          ← List.append_assoc]
        exact congrArg (· ++ _) hRow.2

/- The metrics file: rows in order, keys in order. -/
theorem metrics_writeLongMetricsCsv (rows : List Row) :
    (writeLongMetricsCsv rows).1.rows =
      rows.flatMap
        (linesOf
          (fun metric => !isDiagnosticRawMetric metric)) :=
  (rows_foldl_writeRow rows LongWriters.start).1

/- The diagnose file, with the other keys. -/
theorem diagnose_writeLongMetricsCsv (rows : List Row) :
    (writeLongMetricsCsv rows).2.rows =
      rows.flatMap (linesOf isDiagnosticRawMetric) :=
  (rows_foldl_writeRow rows LongWriters.start).2

/- The lines of a row are divided among the files. -/
theorem linesOf_perm
    (wanted : Text → Bool)
    (row : Row) :
    (linesOf (fun metric => !wanted metric) row ++
        linesOf wanted row).Perm
      ((rowKeys row).map (rowLine row)) := by
  unfold linesOf
  rw [← List.map_append]
  apply List.Perm.map
  apply List.perm_append_comm.trans
  exact List.filter_append_perm wanted (rowKeys row)

/- And so are the lines of all rows. -/
theorem flatMap_linesOf_perm
    (wanted : Text → Bool)
    (rows : List Row) :
    (rows.flatMap (linesOf (fun metric => !wanted metric)) ++
        rows.flatMap (linesOf wanted)).Perm
      (rows.flatMap
        (fun row => (rowKeys row).map (rowLine row))) := by
  apply (List.flatMap_append_perm rows _ _).trans
  apply List.Perm.flatMap_left
  intro row _
  exact linesOf_perm wanted row

------------------------------------------------------------
-- Reading And Writing Again
------------------------------------------------------------

/- Parsing, formatting and parsing is parsing. -/
theorem parse_format_parse
    {raw : Text}
    (hNamed :
      ∀ part ∈ KeyValues.parts ';' raw,
        (KeyValues.entry '=' part).1 ≠ []) :
    parseRawMetrics (formatRawMetrics (parseRawMetrics raw)) =
      parseRawMetrics raw := by
  have hKeys : [] ∉ (KeyValues.parse ';' '=' raw).keys := by
    intro hMem
    rcases KeyValues.mem_keys_parse.mp hMem with
      ⟨part, hPart, hEmpty⟩
    exact hNamed part hPart hEmpty
  have hNothing :=
    parse_format_assign (KeyValues.clean_parse hKeys)
      (fun e (hMem : e ∈ (Dict.empty : Dict Text Text).entries) =>
        absurd hMem List.not_mem_nil)
  rw [parseRawMetrics_eq raw]
  exact hNothing

/-
  The raw metrics of a row survive: formatting and parsing
  again keeps keys and values, and the two long files divide
  the keys of every row among them, in order.
-/
theorem rawMetrics_survives
    (raw : Text)
    (hNamed :
      ∀ part ∈ KeyValues.parts ';' raw,
        (KeyValues.entry '=' part).1 ≠ [])
    (rows : List Row) :
    parseRawMetrics (formatRawMetrics (parseRawMetrics raw)) =
        parseRawMetrics raw ∧
      (writeLongMetricsCsv rows).1.rows =
        rows.flatMap (fun row =>
          ((rowKeys row).filter (fun metric =>
            !isDiagnosticRawMetric metric)).map
              (rowLine row)) ∧
      (writeLongMetricsCsv rows).2.rows =
        rows.flatMap (fun row =>
          ((rowKeys row).filter isDiagnosticRawMetric).map
            (rowLine row)) ∧
      ((writeLongMetricsCsv rows).1.rows ++
          (writeLongMetricsCsv rows).2.rows).Perm
        (rows.flatMap (fun row =>
          (rowKeys row).map (rowLine row))) ∧
      ∀ row ∈ rows,
        (rowKeys row).Nodup ∧
          (∀ metric,
            metric ∈ rowKeys row ↔
              ∃ part ∈
                  KeyValues.parts ';' (row.get [] "raw_metrics"),
                (KeyValues.entry '=' part).1 = metric) ∧
          ∀ metric,
            (rowLine row metric).get [] "metric" = metric ∧
              (rowLine row metric).get [] "value" =
                ((((KeyValues.parts ';'
                    (row.get [] "raw_metrics")).map
                      (KeyValues.entry '=')).reverse.find?
                        (fun e => e.1 = metric)).map
                          Prod.snd).getD [] := by
  refine ⟨parse_format_parse hNamed,
    metrics_writeLongMetricsCsv rows,
    diagnose_writeLongMetricsCsv rows, ?_, ?_⟩
  · rw [metrics_writeLongMetricsCsv,
      diagnose_writeLongMetricsCsv]
    exact flatMap_linesOf_perm isDiagnosticRawMetric rows
  · intro row _
    exact ⟨nodup_rowKeys row, fun _ => mem_rowKeys,
      fun metric =>
        ⟨metric_rowLine row metric, rowValue_eq row metric⟩⟩

/- A CSV row of rank 0 with the given raw metrics. -/
def metricsRow (raw : Text) : Row where
  entries :=
    [("rank", "0".toList), ("launch_index", "3".toList),
      ("kernel", "k".toList), ("raw_metrics", raw)]
  distinct :=
    show
      ["rank", "launch_index", "kernel", "raw_metrics"].Nodup
      by decide

/- A repeated key, a value with a mark and a bare key. -/
def repeatedRaw : Text :=
  "a=1;pm_interval=5;b;a=x=y".toList

/- The lines of the first file, of two rows. -/
theorem rawMetrics_survives_repeated :
    parseRawMetrics
          (formatRawMetrics (parseRawMetrics repeatedRaw)) =
        parseRawMetrics repeatedRaw ∧
      (writeLongMetricsCsv
            [metricsRow repeatedRaw,
              metricsRow "pm_overflow=0;c=7".toList]).1.rows.map
          (fun line =>
            (line.get [] "metric", line.get [] "value")) =
        [("a".toList, "x=y".toList), ("b".toList, []),
          ("c".toList, "7".toList)] := by
  have hNamed :
      ∀ part ∈ KeyValues.parts ';' repeatedRaw,
        (KeyValues.entry '=' part).1 ≠ [] := by
    decide +kernel
  have hSurvives :=
    rawMetrics_survives repeatedRaw hNamed
      [metricsRow repeatedRaw,
        metricsRow "pm_overflow=0;c=7".toList]
  refine ⟨hSurvives.1, ?_⟩
  rw [hSurvives.2.1]
  decide +kernel

end Memory

end FabricPerf
