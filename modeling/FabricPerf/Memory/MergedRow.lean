import FabricPerf.Memory.Csv
import FabricPerf.Memory.ProbeBytes

/-
  Merging the probe byte totals of a launch into a row of the
  memory CSV (`analysis/memory.py`).

  A merge assigns seven columns; its entries in `raw_metrics`
  stand after those of the profiler.  Merging a merged row
  again changes nothing, once the row has been written.

  Main declarations:
    * `Memory.mergeProbeBytesIntoRow`
    * `Memory.parse_mergedMetrics`
    * `Memory.find?_written`
    * `Memory.mergeRow_written`
-/

namespace FabricPerf

namespace Memory

------------------------------------------------------------
-- One Row
------------------------------------------------------------

/- The keys of the probe in `raw_metrics`. -/
def probeKeys : List Text :=
  ["fabricperf_probe_backend".toList,
    "probe_merge_key".toList,
    "probe_records".toList,
    "probe_ld_global_bytes".toList,
    "probe_st_global_bytes".toList,
    "probe_cp_async_bytes".toList,
    "probe_read_bytes".toList,
    "probe_write_bytes".toList]

/- The columns that a merge assigns. -/
def probeColumns : List String :=
  ["dram_read_Bps", "dram_write_Bps",
    "xbar_read_Bps", "xbar_write_Bps",
    "xbar_metric", "xbar_value", "raw_metrics"]

theorem nodup_probeKeys : probeKeys.Nodup := by
  decide

theorem nodup_probeColumns : probeColumns.Nodup := by
  decide

/- What a merge assigns in `raw_metrics`. -/
def probeMetrics (probe : ProbeByteRow) : Dict Text Text where
  entries :=
    [("fabricperf_probe_backend".toList,
        "neutrino_probe".toList),
      ("probe_merge_key".toList, "launch_index".toList),
      ("probe_records".toList, numberField probe.records),
      ("probe_ld_global_bytes".toList,
        numberField probe.ldGlobalBytes),
      ("probe_st_global_bytes".toList,
        numberField probe.stGlobalBytes),
      ("probe_cp_async_bytes".toList,
        numberField probe.cpAsyncBytes),
      ("probe_read_bytes".toList, numberField probe.readBytes),
      ("probe_write_bytes".toList,
        numberField probe.writeBytes)]
  distinct := nodup_probeKeys

theorem keys_probeMetrics (probe : ProbeByteRow) :
    (probeMetrics probe).keys = probeKeys := rfl

/- The `raw_metrics` of a merged row. -/
def mergedMetrics (raw : Text) (probe : ProbeByteRow) : Text :=
  formatRawMetrics
    ((parseRawMetrics raw).assign (probeMetrics probe))

/- What a merge assigns in a row. -/
def mergedColumns
    (numbers : Numbers)
    (durationS : Option numbers.Number)
    (rawMetrics : Text)
    (probe : ProbeByteRow) : Dict String Text where
  entries :=
    [("dram_read_Bps",
        bpsFromBytes numbers probe.readBytes durationS),
      ("dram_write_Bps",
        bpsFromBytes numbers probe.writeBytes durationS),
      ("xbar_read_Bps",
        bpsFromBytes numbers probe.readBytes durationS),
      ("xbar_write_Bps",
        bpsFromBytes numbers probe.writeBytes durationS),
      ("xbar_metric", "fabricperf_probe_read_bytes".toList),
      ("xbar_value", numberField probe.readBytes),
      ("raw_metrics", rawMetrics)]
  distinct := nodup_probeColumns

/- The assignments of a merge, from the row as it is read. -/
def assignments
    (numbers : Numbers)
    (row : Row)
    (probe : ProbeByteRow) : Dict String Text :=
  let durationS := floatField numbers (row.find? "duration_s")
  let rawMetrics :=
    mergedMetrics (row.get [] "raw_metrics") probe
  mergedColumns numbers durationS rawMetrics probe

/- `merge_probe_bytes_into_row` -/
def mergeProbeBytesIntoRow
    (numbers : Numbers)
    (row : Row)
    (probe : ProbeByteRow) : Row :=
  row.setAll (assignments numbers row probe)

/- A row with the totals of its launch, if there are any. -/
def mergeRow
    (numbers : Numbers)
    (probe : Option ProbeByteRow)
    (row : Row) : Row :=
  match probe with
  | none => row
  | some probe => mergeProbeBytesIntoRow numbers row probe

theorem mergeRow_some
    (numbers : Numbers)
    (probe : ProbeByteRow)
    (row : Row) :
    mergeRow numbers (some probe) row =
      row.setAll (assignments numbers row probe) := rfl

/- `int(row.get(column, "0") or "0")`, or 0 if it fails. -/
def intField
    (numbers : Numbers)
    (row : Row)
    (column : String) : Int :=
  let raw := row.get ['0'] column
  (numbers.int (if raw.isEmpty then ['0'] else raw)).getD 0

------------------------------------------------------------
-- Merging Again
------------------------------------------------------------

/- The entries of the probe are read back as they are. -/
theorem clean_probeMetrics (probe : ProbeByteRow) :
    ∀ e ∈ (probeMetrics probe).entries,
      KeyValues.Clean ';' '=' e := by
  have hKeys :
      ∀ key ∈ probeKeys, key ≠ [] ∧ ';' ∉ key ∧ '=' ∉ key := by
    decide
  have hValues :
      ∀ e ∈ (probeMetrics probe).entries, ';' ∉ e.2 := by
    simp [probeMetrics, notMem_numberField]
  intro e hMem
  have hKey := hKeys e.1 (List.mem_map_of_mem hMem)
  exact ⟨hKey.1, hKey.2.1, hKey.2.2, hValues e hMem⟩

/- No entry of `raw_metrics` has an empty key. -/
def Named (raw : Text) : Prop :=
  [] ∉ (parseRawMetrics raw).order

instance decidableNamed (raw : Text) : Decidable (Named raw) :=
  decidable_of_iff
    ((parseRawMetrics raw).order.contains [] = false)
    (by simp [Named])

/- Reading merged metrics. -/
theorem parse_mergedMetrics
    {raw : Text}
    (hNamed : Named raw)
    (probe : ProbeByteRow) :
    parseRawMetrics (mergedMetrics raw probe) =
      RawMetrics.ofValues
        ((parseRawMetrics raw).values.setAll
          (probeMetrics probe)) := by
  unfold Named at hNamed
  unfold mergedMetrics
  rw [parseRawMetrics_eq raw] at hNamed ⊢
  exact
    parse_format_assign (KeyValues.clean_parse hNamed)
      (clean_probeMetrics probe)

/- Merging metrics again changes nothing. -/
theorem mergedMetrics_mergedMetrics
    {raw : Text}
    (hNamed : Named raw)
    (probe : ProbeByteRow) :
    mergedMetrics (mergedMetrics raw probe) probe =
      mergedMetrics raw probe := by
  have hAgain :
      mergedMetrics (mergedMetrics raw probe) probe =
        formatRawMetrics
          ((parseRawMetrics (mergedMetrics raw probe)).assign
            (probeMetrics probe)) := rfl
  rw [hAgain, parse_mergedMetrics hNamed,
    formatRawMetrics_assign, Dict.setAll_setAll,
    ← formatRawMetrics_assign]
  unfold mergedMetrics
  rw [parseRawMetrics_eq raw]
  rfl

/- A merge assigns the columns of the probe only. -/
theorem find?_mergeRow
    (numbers : Numbers)
    (probe : Option ProbeByteRow)
    (row : Row)
    {column : String}
    (hColumn : column ∉ probeColumns) :
    (mergeRow numbers probe row).find? column =
      row.find? column := by
  cases probe with
  | none => rfl
  | some probe => exact Dict.find?_setAll_of_notMem hColumn

/- A column after a merge, once the row has been written. -/
theorem find?_written
    {fieldnames : List String}
    {row : Row}
    (hComplete : project fieldnames row = row)
    (numbers : Numbers)
    (probe : Option ProbeByteRow)
    {column : String}
    (hColumn : column ∉ probeColumns) :
    (project fieldnames (mergeRow numbers probe row)).find?
        column =
      row.find? column := by
  have hGet :
      (mergeRow numbers probe row).get [] column =
        row.get [] column := by
    unfold Dict.get
    rw [find?_mergeRow numbers probe row hColumn]
  conv_rhs => rw [← hComplete]
  rw [find?_project, find?_project, hGet]

/- What a merge assigns to `raw_metrics`. -/
theorem find?_assignments_metrics
    (numbers : Numbers)
    (row : Row)
    (probe : ProbeByteRow) :
    (assignments numbers row probe).find? "raw_metrics" =
      some (mergedMetrics (row.get [] "raw_metrics") probe) := by
  rw [Dict.find?_eq_some_iff]
  simp [assignments, mergedColumns]

/- What a merge assigns depends on two columns only. -/
theorem assignments_congr
    {row row' : Row}
    {probe : ProbeByteRow}
    (hDuration :
      row'.find? "duration_s" = row.find? "duration_s")
    (hMetrics :
      mergedMetrics (row'.get [] "raw_metrics") probe =
        mergedMetrics (row.get [] "raw_metrics") probe)
    (numbers : Numbers) :
    assignments numbers row' probe =
      assignments numbers row probe := by
  unfold assignments
  rw [hDuration, hMetrics]

/- The metrics of a merged row, once it has been written. -/
theorem get_written
    {fieldnames : List String}
    {row : Row}
    (hComplete : project fieldnames row = row)
    (numbers : Numbers)
    (probe : ProbeByteRow) :
    (project fieldnames
        (mergeRow numbers (some probe) row)).get []
          "raw_metrics" =
      if "raw_metrics" ∈ fieldnames then
        mergedMetrics (row.get [] "raw_metrics") probe
      else
        row.get [] "raw_metrics" := by
  have hRow := find?_project fieldnames row "raw_metrics"
  rw [hComplete] at hRow
  split
  case isTrue hField =>
      rw [get_project_of_mem _ hField]
      exact
        Dict.get_setAll
          (find?_assignments_metrics numbers row probe)
  case isFalse hField =>
      rw [if_neg hField] at hRow
      unfold Dict.get
      rw [find?_project, if_neg hField, hRow]

/- A merge of a written row assigns what it did before. -/
theorem project_setAll_project
    (fieldnames : List String)
    (row : Row)
    (new : Dict String Text) :
    project fieldnames
        ((project fieldnames (row.setAll new)).setAll new) =
      project fieldnames (row.setAll new) := by
  apply Eq.trans _ (project_project fieldnames (row.setAll new))
  apply project_congr
  intro field hField
  unfold Dict.get
  rw [Dict.find?_setAll, find?_project, if_pos hField]
  cases hNew : new.find? field with
  | none => rfl
  | some v => exact (Dict.get_setAll hNew).symm

/- Merging a written row again changes nothing. -/
theorem mergeRow_written
    {fieldnames : List String}
    {row : Row}
    (hComplete : project fieldnames row = row)
    (hNamed : Named (row.get [] "raw_metrics"))
    (numbers : Numbers)
    (probe : Option ProbeByteRow) :
    project fieldnames
        (mergeRow numbers probe
          (project fieldnames (mergeRow numbers probe row))) =
      project fieldnames (mergeRow numbers probe row) := by
  have hDuration :=
    find?_written hComplete numbers probe
      (show "duration_s" ∉ probeColumns by decide)
  cases probe with
  | none => exact project_project fieldnames row
  | some probe =>
      have hMetrics :
          mergedMetrics
              ((project fieldnames
                (mergeRow numbers (some probe) row)).get []
                  "raw_metrics") probe =
            mergedMetrics (row.get [] "raw_metrics") probe := by
        rw [get_written hComplete]
        split
        · exact mergedMetrics_mergedMetrics hNamed probe
        · rfl
      have hSame := assignments_congr hDuration hMetrics numbers
      rw [mergeRow_some numbers probe (project _ _), hSame]
      exact project_setAll_project fieldnames row _

end Memory

end FabricPerf
