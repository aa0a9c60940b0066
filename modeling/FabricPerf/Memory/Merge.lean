import FabricPerf.Memory.MergedRow
import Mathlib.Logic.Function.Iterate

/-
  Merging probe byte totals into the memory CSV of a trace root
  (`analysis/memory.py`).

  The first run joins the rows of each rank's CSV file with the
  totals of its directory and writes the root CSV.  Later runs
  join the rows of the root CSV by rank and launch.  Where the
  ranks of the directories are distinct, both come to one
  function of the row.

  Main declarations:
    * `Memory.mergeExistingRootMemoryCsv`
    * `Memory.mergeOnePassProbeOutput`
    * `Memory.ByteTraceRoot.aggregate`
    * `Memory.rerun_stable`
-/

namespace FabricPerf

namespace Memory

open Analysis Raising

------------------------------------------------------------
-- Trace Roots
------------------------------------------------------------

/- A trace directory and its CSV file, if there is one. -/
structure TraceItem where
  dir : ByteTraceDir
  csv : Option Csv

/- The rows of the CSV file of a directory. -/
def TraceItem.rows (item : TraceItem) : List Row :=
  match item.csv with
  | none => []
  | some csv => csv.rows

/- A trace root, its own CSV file, and what is in it. -/
structure MemoryRoot where
  path : String
  name : String
  parentName : String
  own : ByteTraceDir
  csv : Option Csv
  children : List TraceItem

namespace MemoryRoot

/- The root without its CSV files. -/
def traceRoot (root : MemoryRoot) : ByteTraceRoot where
  path := root.path
  name := root.name
  parentName := root.parentName
  own := root.own
  children := root.children.map (·.dir)

/- The trace directories with their CSV files. -/
def traceItems (root : MemoryRoot) : List TraceItem :=
  if root.own.hasReader && root.own.hasResult then
    [{ dir := root.own, csv := root.csv }]
  else
    root.children.filter (·.dir.hasReader)

/- `list(iter_trace_dirs(trace_root))` -/
def iterTraceItems (root : MemoryRoot) :
    Except PyErr (List TraceItem) := do
  let _ ← root.traceRoot.iterTraceDirs
  pure root.traceItems

/- The root with another CSV file of its own. -/
def withCsv (root : MemoryRoot) (csv : Csv) : MemoryRoot :=
  { root with csv := some csv }

/- The rows of all directories in order. -/
def rankRows (root : MemoryRoot) : List Row :=
  root.traceItems.flatMap TraceItem.rows

/- The items are those of the trace directories. -/
theorem dirs_traceRoot (root : MemoryRoot) :
    root.traceRoot.dirs = root.traceItems.map (·.dir) := by
  unfold ByteTraceRoot.dirs TraceRoot.traceDirs traceItems
    traceRoot
  split
  · rfl
  · simp [List.filter_map, Function.comp_def]

/- Iterating gives the items, if it does not raise. -/
theorem iterTraceItems_ok
    {root : MemoryRoot}
    {items : List TraceItem}
    (hIter : root.iterTraceItems = .ok items) :
    items = root.traceItems := by
  unfold iterTraceItems at hIter
  rcases bind_eq_ok_iff.mp hIter with ⟨_, _, hSame⟩
  cases hSame
  rfl

end MemoryRoot

------------------------------------------------------------
-- Runs
------------------------------------------------------------

/- The totals that `lookup` has for the rank and launch. -/
def rankProbe
    (numbers : Numbers)
    (lookup : Nat → Int → Option ProbeByteRow)
    (row : Row) : Option ProbeByteRow :=
  (intField numbers row "rank").toNat?.bind (fun rank =>
    lookup rank (intField numbers row "launch_index"))

/-
  `merge_existing_root_memory_csv`: the root CSV as rewritten,
  or `none` where `False` is returned.
-/
def mergeExistingRootMemoryCsv
    (numbers : Numbers)
    (root : MemoryRoot) : Except PyErr (Option Csv) :=
  match root.csv with
  | none => pure none
  | some csv =>
      if csv.rows.isEmpty then
        pure none
      else do
        let probeByRank ←
          collectProbeByteStatsByRank root.traceRoot
        let lookup := fun rank launch =>
          probeByRank.find? (rank, launch)
        let rows :=
          csv.rows.map (fun row =>
            mergeRow numbers (rankProbe numbers lookup row) row)
        pure (some (writeWideCsv csv.fieldnames rows))

/- Append the merged rows of one directory. -/
def mergeItem
    (numbers : Numbers)
    (merged : Option (List String) × List Row)
    (item : TraceItem) :
    Except PyErr (Option (List String) × List Row) :=
  match item.csv with
  | none => pure merged
  | some csv => do
      let probeStats ← readProbeByteStats item.dir
      let lookup := fun launch : Int =>
        probeStats.bind (fun byLaunch => byLaunch.find? launch)
      let rows :=
        csv.rows.map (fun row =>
          mergeRow numbers
            (lookup (intField numbers row "launch_index")) row)
      pure
        (merged.1.or (some csv.fieldnames), merged.2 ++ rows)

/-
  `merge_one_pass_probe_output`: the root CSV as written, or
  `none` where `False` is returned.
-/
def mergeOnePassProbeOutput
    (numbers : Numbers)
    (root : MemoryRoot) : Except PyErr (Option Csv) := do
  match ← mergeExistingRootMemoryCsv numbers root with
  | some csv => pure (some csv)
  | none =>
      match root.iterTraceItems with
      | .error (.fileNotFoundError _) => pure none
      | .error err => throw err
      | .ok items => do
          let merged ← items.foldlM (mergeItem numbers) (none, [])
          match merged.1 with
          | none => pure none
          | some fieldnames =>
              if merged.2.isEmpty then
                pure none
              else
                pure (some (writeWideCsv fieldnames merged.2))

/- A trace root after a run, also after one that raises. -/
def afterRun
    (numbers : Numbers)
    (root : MemoryRoot) : MemoryRoot :=
  match mergeOnePassProbeOutput numbers root with
  | .ok (some csv) => root.withCsv csv
  | _ => root

------------------------------------------------------------
-- Totals By Rank
------------------------------------------------------------

/- The probe aggregate of a rank and a launch. -/
def ByteTraceRoot.aggregate
    (root : ByteTraceRoot)
    (rank : Nat)
    (launch : Int) : Option ProbeByteRow :=
  ProbeByteRow.total? launch
    (recordLists root.dirs rank launch).flatten

/- The ranks in the event logs of some directories. -/
def logRanks (dirs : List ByteTraceDir) : List Nat :=
  dirs.filterMap (fun dir => dir.parseRank.toOption)

/- Only a directory of the rank has records of it. -/
theorem parseRank_of_launchRecords
    {dir : ByteTraceDir}
    {rank : Nat}
    {launch : Int}
    (hSome : dir.launchRecords rank launch ≠ []) :
    dir.parseRank = .ok rank := by
  unfold ByteTraceDir.launchRecords at hSome
  split at hSome
  · split at hSome
    · rename_i own hParse hOwn
      rw [hParse, hOwn]
    · exact absurd rfl hSome
  · exact absurd rfl hSome

/- A rank read from one of the logs. -/
theorem mem_logRanks
    {dirs : List ByteTraceDir}
    {dir : ByteTraceDir}
    (hMem : dir ∈ dirs)
    {rank : Nat}
    (hRank : dir.parseRank = .ok rank) :
    rank ∈ logRanks dirs :=
  List.mem_filterMap.mpr ⟨dir, hMem, by rw [hRank]; rfl⟩

/- The rank of the first directory is in no later log. -/
theorem notMem_logRanks_tail
    {first : ByteTraceDir}
    {rest : List ByteTraceDir}
    (hRanks : (logRanks (first :: rest)).Nodup)
    {rank : Nat}
    (hRank : first.parseRank = .ok rank) :
    rank ∉ logRanks rest := by
  have hCons :
      logRanks (first :: rest) = rank :: logRanks rest := by
    simp [logRanks, hRank, Except.toOption]
  rw [hCons] at hRanks
  exact (List.nodup_cons.mp hRanks).1

/- The ranks of later directories are distinct. -/
theorem nodup_logRanks_tail
    {first : ByteTraceDir}
    {rest : List ByteTraceDir}
    (hRanks : (logRanks (first :: rest)).Nodup) :
    (logRanks rest).Nodup := by
  unfold logRanks at hRanks ⊢
  exact
    ((List.sublist_cons_self first rest).filterMap _).nodup
      hRanks

/- Directories of other ranks have no records of the rank. -/
theorem recordLists_eq_nil
    {dirs : List ByteTraceDir}
    {rank : Nat}
    (hRank : rank ∉ logRanks dirs)
    (launch : Int) :
    ∀ own ∈ recordLists dirs rank launch, own = [] := by
  intro own hMem
  rcases List.mem_map.mp hMem with ⟨dir, hDir, rfl⟩
  by_contra hSome
  exact
    hRank (mem_logRanks hDir (parseRank_of_launchRecords hSome))

/- A directory has all records of its rank. -/
theorem flatten_recordLists
    {dirs : List ByteTraceDir}
    (hRanks : (logRanks dirs).Nodup)
    {dir : ByteTraceDir}
    (hMem : dir ∈ dirs)
    {rank : Nat}
    (hRank : dir.parseRank = .ok rank)
    (launch : Int) :
    (recordLists dirs rank launch).flatten =
      dir.launchRecords rank launch := by
  induction dirs with
  | nil => cases hMem
  | cons first rest ih =>
      have hLists :
          (recordLists (first :: rest) rank launch).flatten =
            first.launchRecords rank launch ++
              (recordLists rest rank launch).flatten := rfl
      rw [hLists]
      rcases List.mem_cons.mp hMem with hFirst | hRest
      · subst hFirst
        have hOthers :=
          recordLists_eq_nil
            (notMem_logRanks_tail hRanks hRank) launch
        rw [List.flatten_eq_nil_iff.mpr hOthers,
          List.append_nil]
      · have hNone : first.launchRecords rank launch = [] := by
          by_contra hSome
          have hFirst := parseRank_of_launchRecords hSome
          exact
            notMem_logRanks_tail hRanks hFirst
              (mem_logRanks hRest hRank)
        rw [hNone, List.nil_append,
          ih (nodup_logRanks_tail hRanks) hRest]

/- At most one directory has records of a rank. -/
theorem length_recordLists_filter
    {dirs : List ByteTraceDir}
    (hRanks : (logRanks dirs).Nodup)
    (rank : Nat)
    (launch : Int) :
    ((recordLists dirs rank launch).filter
      (fun own => !own.isEmpty)).length ≤ 1 := by
  induction dirs with
  | nil => exact Nat.zero_le 1
  | cons first rest ih =>
      have hLists :
          recordLists (first :: rest) rank launch =
            first.launchRecords rank launch ::
              recordLists rest rank launch := rfl
      rw [hLists]
      cases hFirst : first.launchRecords rank launch with
      | nil => exact ih (nodup_logRanks_tail hRanks)
      | cons record more =>
          have hSome : first.launchRecords rank launch ≠ [] := by
            rw [hFirst]
            exact List.cons_ne_nil record more
          have hOthers :=
            recordLists_eq_nil
              (notMem_logRanks_tail hRanks
                (parseRank_of_launchRecords hSome)) launch
          have hNone :
              (recordLists rest rank launch).filter
                (fun own => !own.isEmpty) = [] := by
            rw [List.filter_eq_nil_iff]
            intro own hMem
            simp [hOthers own hMem]
          rw [List.filter_cons_of_pos (by rfl), hNone]
          rfl

/- What collecting enters for a rank and a launch. -/
theorem find?_collect
    {root : ByteTraceRoot}
    {statsByRank : Dict (Nat × Int) ProbeByteRow}
    (hCollect :
      collectProbeByteStatsByRank root = .ok statsByRank)
    (hRanks : (logRanks root.dirs).Nodup)
    (rank : Nat)
    (launch : Int) :
    statsByRank.find? (rank, launch) =
      root.aggregate rank launch := by
  have hFind :=
    find?_foldlM_collectDir (foldlM_of_collect hCollect) rank
      launch
  have hOne := length_recordLists_filter hRanks rank launch
  have hSome :
      ∀ own ∈ (recordLists root.dirs rank launch).filter
        (fun own => !own.isEmpty), own.isEmpty = false := by
    intro own hMem
    simpa using (List.mem_filter.mp hMem).2
  rw [hFind]
  unfold ByteTraceRoot.aggregate
  rw [← flatten_filter]
  generalize (recordLists root.dirs rank launch).filter
    (fun own => !own.isEmpty) = lists at hOne hSome
  cases lists with
  | nil => rfl
  | cons own rest =>
      cases rest with
      | nil =>
          have hOwn := hSome own List.mem_cons_self
          simp [ProbeByteRow.total?, hOwn]
      | cons next more => simp at hOne

/- The aggregate of a directory is that of its rank. -/
theorem aggregate_of_mem
    {root : ByteTraceRoot}
    (hRanks : (logRanks root.dirs).Nodup)
    {dir : ByteTraceDir}
    (hMem : dir ∈ root.dirs)
    {rank : Nat}
    (hRank : dir.parseRank = .ok rank)
    (launch : Int) :
    root.aggregate rank launch = dir.aggregate launch := by
  unfold ByteTraceRoot.aggregate
  rw [flatten_recordLists hRanks hMem hRank]
  exact ByteTraceDir.total?_launchRecords hRank launch

------------------------------------------------------------
-- Both Paths
------------------------------------------------------------

namespace MemoryRoot

/- The aggregate for the rank and launch that a row carries. -/
def rowProbe
    (numbers : Numbers)
    (root : MemoryRoot)
    (row : Row) : Option ProbeByteRow :=
  rankProbe numbers root.traceRoot.aggregate row

/- A row merged with that aggregate. -/
def mergedRow
    (numbers : Numbers)
    (root : MemoryRoot)
    (row : Row) : Row :=
  mergeRow numbers (root.rowProbe numbers row) row

/- The rows of the directories, merged and written. -/
def mergedCsv
    (numbers : Numbers)
    (root : MemoryRoot)
    (fieldnames : List String) : Csv :=
  writeWideCsv fieldnames
    (root.rankRows.map (root.mergedRow numbers))

/-
  The directories have distinct ranks, their CSV files share a
  header, each row carries the rank of its directory, and no
  entry of `raw_metrics` has an empty key.
-/
structure Uniform
    (numbers : Numbers)
    (root : MemoryRoot)
    (fieldnames : List String) : Prop where
  ranks : (logRanks root.traceRoot.dirs).Nodup
  header :
    ∀ item ∈ root.traceItems, ∀ csv, item.csv = some csv →
      csv.fieldnames = fieldnames
  rank :
    ∀ item ∈ root.traceItems, ∀ row ∈ item.rows,
      ∃ rank : Nat, item.dir.parseRank = .ok rank ∧
        intField numbers row "rank" = rank
  named :
    ∀ row ∈ root.rankRows, Named (row.get [] "raw_metrics")

/- The root has no CSV file yet, or one without rows. -/
def Unmerged (root : MemoryRoot) : Prop :=
  ∀ csv, root.csv = some csv → csv.rows = []

end MemoryRoot

open MemoryRoot

variable {numbers : Numbers} {root : MemoryRoot}
variable {fieldnames : List String}

/- The rows of a directory have the fields of the header. -/
theorem MemoryRoot.Uniform.complete
    (hUniform : Uniform numbers root fieldnames)
    {row : Row}
    (hRow : row ∈ root.rankRows) :
    project fieldnames row = row := by
  rcases List.mem_flatMap.mp hRow with ⟨item, hItem, hRow⟩
  unfold TraceItem.rows at hRow
  cases hCsv : item.csv with
  | none =>
      rw [hCsv] at hRow
      cases hRow
  | some csv =>
      rw [hCsv] at hRow
      rw [← hUniform.header item hItem csv hCsv]
      exact csv.complete row hRow

/- A directory's aggregate is that of the row's own rank. -/
theorem MemoryRoot.Uniform.aggregate
    (hUniform : Uniform numbers root fieldnames)
    {item : TraceItem}
    (hItem : item ∈ root.traceItems)
    {row : Row}
    (hRow : row ∈ item.rows) :
    item.dir.aggregate (intField numbers row "launch_index") =
      root.rowProbe numbers row := by
  rcases hUniform.rank item hItem row hRow with
    ⟨rank, hParse, hRank⟩
  have hDir : item.dir ∈ root.traceRoot.dirs := by
    rw [dirs_traceRoot]
    exact List.mem_map_of_mem hItem
  unfold MemoryRoot.rowProbe rankProbe
  rw [hRank]
  exact
    (aggregate_of_mem hUniform.ranks hDir hParse
      (intField numbers row "launch_index")).symm

/- Without rows in the root CSV there is nothing to rewrite. -/
theorem mergeExisting_unmerged
    (hUnmerged : root.Unmerged) :
    mergeExistingRootMemoryCsv numbers root = .ok none := by
  unfold mergeExistingRootMemoryCsv
  cases hCsv : root.csv with
  | none => rfl
  | some csv =>
      have hEmpty := hUnmerged csv hCsv
      simp only [hEmpty, List.isEmpty_nil, if_true]
      rfl

/- The rows of the root CSV are joined by rank and launch. -/
theorem mergeExisting_rows
    (hRanks : (logRanks root.traceRoot.dirs).Nodup)
    {csv : Csv}
    (hCsv : root.csv = some csv)
    (hSome : csv.rows ≠ [])
    {out : Option Csv}
    (hRun :
      mergeExistingRootMemoryCsv numbers root = .ok out) :
    out =
      some
        (writeWideCsv csv.fieldnames
          (csv.rows.map (root.mergedRow numbers))) := by
  unfold mergeExistingRootMemoryCsv at hRun
  rw [hCsv] at hRun
  have hRows : csv.rows.isEmpty = false := by
    simpa using hSome
  simp only [hRows, Bool.false_eq_true, if_false] at hRun
  rcases bind_eq_ok_iff.mp hRun with
    ⟨probeByRank, hCollect, hOut⟩
  cases hOut
  have hLookup :
      (fun rank launch => probeByRank.find? (rank, launch)) =
        root.traceRoot.aggregate :=
    funext (fun rank =>
      funext (fun launch =>
        find?_collect hCollect hRanks rank launch))
  rw [hLookup]
  rfl

/- A directory's rows are joined by rank and launch as well. -/
theorem mergeItem_ok
    (hUniform : Uniform numbers root fieldnames)
    {item : TraceItem}
    (hItem : item ∈ root.traceItems)
    {merged next : Option (List String) × List Row}
    (hMerge : mergeItem numbers merged item = .ok next)
    (hHeader : merged.1 = none ∨ merged.1 = some fieldnames) :
    (next.1 = none ∨ next.1 = some fieldnames) ∧
      next.2 =
        merged.2 ++ item.rows.map (root.mergedRow numbers) := by
  unfold mergeItem at hMerge
  cases hCsv : item.csv with
  | none =>
      rw [hCsv] at hMerge
      cases hMerge
      have hRows : item.rows = [] := by
        unfold TraceItem.rows
        rw [hCsv]
      exact ⟨hHeader, by simp [hRows]⟩
  | some csv =>
      rw [hCsv] at hMerge
      have hRows : item.rows = csv.rows := by
        unfold TraceItem.rows
        rw [hCsv]
      rcases bind_eq_ok_iff.mp hMerge with
        ⟨probeStats, hRead, hNext⟩
      cases hNext
      have hFields := hUniform.header item hItem csv hCsv
      constructor
      · rcases hHeader with hNone | hSome
        · exact Or.inr (by simp [hNone, hFields])
        · exact Or.inr (by simp [hSome])
      · rw [hRows]
        apply congrArg (merged.2 ++ ·)
        apply List.map_congr_left
        intro row hRow
        have hProbe :=
          (find?_readProbeByteStats hRead
            (intField numbers row "launch_index")).trans
            (hUniform.aggregate hItem (hRows ▸ hRow))
        exact congrArg (fun probe => mergeRow numbers probe row)
          hProbe

/- The rows of all directories, one after the other. -/
theorem foldlM_mergeItem
    (hUniform : Uniform numbers root fieldnames)
    {items : List TraceItem}
    (hItems : ∀ item ∈ items, item ∈ root.traceItems)
    {merged after : Option (List String) × List Row}
    (hFold : items.foldlM (mergeItem numbers) merged = .ok after)
    (hHeader : merged.1 = none ∨ merged.1 = some fieldnames) :
    (after.1 = none ∨ after.1 = some fieldnames) ∧
      after.2 =
        merged.2 ++
          (items.flatMap TraceItem.rows).map
            (root.mergedRow numbers) := by
  induction items generalizing merged with
  | nil =>
      cases hFold
      exact ⟨hHeader, (List.append_nil _).symm⟩
  | cons item rest ih =>
      rw [List.foldlM_cons] at hFold
      rcases bind_eq_ok_iff.mp hFold with ⟨next, hItem, hRest⟩
      have hStep :=
        mergeItem_ok hUniform (hItems item List.mem_cons_self)
          hItem hHeader
      have hAfter :=
        ih (fun other hMem =>
            hItems other (List.mem_cons_of_mem _ hMem))
          hRest hStep.1
      refine ⟨hAfter.1, ?_⟩
      rw [hAfter.2, hStep.2, List.flatMap_cons, List.map_append,
        List.append_assoc]

/- What the first run writes. -/
theorem mergeOnePass_first
    (hUniform : Uniform numbers root fieldnames)
    (hUnmerged : root.Unmerged)
    {csv : Csv}
    (hRun :
      mergeOnePassProbeOutput numbers root = .ok (some csv)) :
    csv = root.mergedCsv numbers fieldnames ∧
      root.rankRows ≠ [] := by
  unfold mergeOnePassProbeOutput at hRun
  rw [mergeExisting_unmerged hUnmerged] at hRun
  rcases bind_eq_ok_iff.mp hRun with ⟨out, hOut, hRun⟩
  cases hOut
  cases hIter : root.iterTraceItems with
  | error err =>
      simp only [hIter] at hRun
      cases err <;> cases hRun
  | ok items =>
      simp only [hIter] at hRun
      rw [iterTraceItems_ok hIter] at hRun
      rcases bind_eq_ok_iff.mp hRun with
        ⟨merged, hFold, hWrite⟩
      rcases foldlM_mergeItem hUniform (fun _ hMem => hMem) hFold
        (Or.inl rfl) with ⟨hHeader, hRows⟩
      rw [List.nil_append] at hRows
      rcases merged with ⟨fields, rows⟩
      simp only at hRows hHeader
      subst hRows
      rcases hHeader with hNone | hSome
      · subst hNone
        cases hWrite
      · subst hSome
        simp only at hWrite
        split at hWrite
        · cases hWrite
        · rename_i hRows
          cases hWrite
          refine ⟨rfl, ?_⟩
          intro hEmpty
          apply hRows
          change (root.rankRows.map _).isEmpty = true
          rw [hEmpty]
          rfl

------------------------------------------------------------
-- Reruns
------------------------------------------------------------

/- A column that is read as before gives the same number. -/
theorem intField_congr
    {row row' : Row}
    {column : String}
    (hColumn : row'.find? column = row.find? column) :
    intField numbers row' column = intField numbers row column := by
  unfold intField Dict.get
  rw [hColumn]

/- A written row carries the rank and launch it had. -/
theorem rowProbe_written
    {row : Row}
    (hComplete : project fieldnames row = row)
    (probe : Option ProbeByteRow) :
    root.rowProbe numbers
        (project fieldnames (mergeRow numbers probe row)) =
      root.rowProbe numbers row := by
  have hRank :=
    find?_written hComplete numbers probe
      (show "rank" ∉ probeColumns by decide)
  have hLaunch :=
    find?_written hComplete numbers probe
      (show "launch_index" ∉ probeColumns by decide)
  unfold MemoryRoot.rowProbe rankProbe
  rw [intField_congr hRank, intField_congr hLaunch]

/- Merging a merged and written row again changes nothing. -/
theorem mergedRow_written
    {row : Row}
    (hComplete : project fieldnames row = row)
    (hNamed : Named (row.get [] "raw_metrics")) :
    project fieldnames
        (root.mergedRow numbers
          (project fieldnames (root.mergedRow numbers row))) =
      project fieldnames (root.mergedRow numbers row) := by
  unfold mergedRow
  rw [rowProbe_written hComplete]
  exact mergeRow_written hComplete hNamed numbers _

/- A run over what the first run wrote writes the same. -/
theorem mergeExisting_written
    (hUniform : Uniform numbers root fieldnames)
    (hSome : root.rankRows ≠ [])
    {out : Option Csv}
    (hRun :
      mergeExistingRootMemoryCsv numbers
          (root.withCsv (root.mergedCsv numbers fieldnames)) =
        .ok out) :
    out = some (root.mergedCsv numbers fieldnames) := by
  have hRanks :
      (logRanks
        (root.withCsv
          (root.mergedCsv numbers
            fieldnames)).traceRoot.dirs).Nodup :=
    hUniform.ranks
  have hRows : (root.mergedCsv numbers fieldnames).rows ≠ [] := by
    simpa [mergedCsv, writeWideCsv] using hSome
  rw [mergeExisting_rows hRanks rfl hRows hRun]
  apply congrArg some
  apply writeWideCsv_eq
  simp only [mergedCsv, writeWideCsv, List.map_map]
  apply List.map_congr_left
  intro row hRow
  exact
    mergedRow_written (hUniform.complete hRow)
      (hUniform.named row hRow)

/- A second run leaves the root as the first run left it. -/
theorem afterRun_afterRun
    (hUniform : Uniform numbers root fieldnames)
    (hUnmerged : root.Unmerged) :
    afterRun numbers (afterRun numbers root) =
      afterRun numbers root := by
  cases hRun : mergeOnePassProbeOutput numbers root with
  | error err =>
      have hSame : afterRun numbers root = root := by
        unfold afterRun
        rw [hRun]
      rw [hSame, hSame]
  | ok out =>
      cases out with
      | none =>
          have hSame : afterRun numbers root = root := by
            unfold afterRun
            rw [hRun]
          rw [hSame, hSame]
      | some csv =>
          have hFirst : afterRun numbers root = root.withCsv csv := by
            unfold afterRun
            rw [hRun]
          rcases mergeOnePass_first hUniform hUnmerged hRun with
            ⟨hCsv, hSome⟩
          rw [hFirst, hCsv]
          unfold afterRun mergeOnePassProbeOutput
          cases hAgain :
              mergeExistingRootMemoryCsv numbers
                (root.withCsv
                  (root.mergedCsv numbers fieldnames)) with
          | error err => rfl
          | ok out =>
              rw [mergeExisting_written hUniform hSome hAgain]
              rfl

------------------------------------------------------------
-- Merged Rows
------------------------------------------------------------

/-
  A merged row: without an aggregate it is unchanged, and with
  one only the columns of the probe differ, where every other
  key of `raw_metrics` keeps its value and the order.
-/
structure MergedFrom
    (probe : Option ProbeByteRow)
    (row merged : Row) : Prop where
  unchanged : probe = none → merged = row
  columns :
    ∀ column, column ∉ probeColumns →
      merged.find? column = row.find? column
  values :
    ∀ key, key ∉ probeKeys →
      (parseRawMetrics
          (merged.get [] "raw_metrics")).values.find? key =
        (parseRawMetrics
          (row.get [] "raw_metrics")).values.find? key
  order :
    Dict.others probeKeys
        (parseRawMetrics (merged.get [] "raw_metrics")).order =
      Dict.others probeKeys
        (parseRawMetrics (row.get [] "raw_metrics")).order

/- Every written row is merged from the row it was. -/
theorem mergedFrom_written
    {row : Row}
    (hComplete : project fieldnames row = row)
    (hNamed : Named (row.get [] "raw_metrics"))
    (probe : Option ProbeByteRow) :
    MergedFrom probe row
      (project fieldnames (mergeRow numbers probe row)) := by
  cases probe with
  | none =>
      have hSame :
          project fieldnames (mergeRow numbers none row) = row :=
        hComplete
      rw [hSame]
      exact ⟨fun _ => rfl, fun _ _ => rfl, fun _ _ => rfl, rfl⟩
  | some probe =>
      have hGet := get_written hComplete numbers probe
      have hParse := parse_mergedMetrics hNamed probe
      have hOrder :
          (parseRawMetrics (row.get [] "raw_metrics")).order =
            (parseRawMetrics
              (row.get [] "raw_metrics")).values.keys := by
        rw [parseRawMetrics_eq, RawMetrics.order_ofValues,
          RawMetrics.values_ofValues]
      refine ⟨nofun, ?_, ?_, ?_⟩
      · intro column hColumn
        exact find?_written hComplete numbers (some probe) hColumn
      · intro key hKey
        rw [← keys_probeMetrics probe] at hKey
        rw [hGet]
        split
        · rw [hParse, RawMetrics.values_ofValues,
            Dict.find?_setAll_of_notMem hKey]
        · rfl
      · rw [hGet]
        split
        · rw [hParse, hOrder, RawMetrics.order_ofValues,
            ← keys_probeMetrics probe, Dict.others_keys_setAll]
        · rfl

/-
  However often the merge runs again, the trace root stays as
  the first run left it; and the first run writes one merged
  row for each row of the directories, in their order.
-/
theorem rerun_stable
    (numbers : Numbers)
    (root : MemoryRoot)
    (fieldnames : List String)
    (hUniform : Uniform numbers root fieldnames)
    (hUnmerged : root.Unmerged) :
    (∀ n, (afterRun numbers)^[n + 1] root =
        afterRun numbers root) ∧
      ∀ csv,
        mergeOnePassProbeOutput numbers root = .ok (some csv) →
        List.Forall₂
          (fun row merged =>
            MergedFrom (root.rowProbe numbers row) row merged)
          root.rankRows csv.rows := by
  constructor
  · intro n
    rw [Function.iterate_succ_apply]
    exact
      Function.iterate_fixed
        (afterRun_afterRun hUniform hUnmerged) n
  · intro csv hRun
    have hCsv :=
      (mergeOnePass_first hUniform hUnmerged hRun).1
    rw [hCsv]
    simp only [mergedCsv, writeWideCsv,
      List.forall₂_map_right_iff,
      List.forall₂_same]
    intro row hRow
    exact
      mergedFrom_written (hUniform.complete hRow)
        (hUniform.named row hRow) (root.rowProbe numbers row)

------------------------------------------------------------
-- One Rank With Two Launches
------------------------------------------------------------

/- `int()` of the digits below; no duration is parsed. -/
def smallNumbers : Numbers where
  Number := Unit
  int := fun text =>
    if text = ['0'] then some 0
    else if text = ['1'] then some 1
    else none
  float := fun _ => none
  nonPositive := fun _ => false
  quotient := fun _ _ => []

/- The header of a small CSV file. -/
def smallHeader : List String :=
  ["rank", "launch_index", "xbar_value", "raw_metrics"]

/- The row of one launch of rank 0. -/
def pmRow (launch : Text) : Row :=
  ((Dict.empty.set "rank" ['0']).set "launch_index" launch).set
    "raw_metrics" "cupti_backend=pm_sampling".toList

/- One directory of rank 0, with rows of launches 0 and 1. -/
def smallRoot : MemoryRoot where
  path := "trace"
  name := "trace"
  parentName := ""
  own := parentDir
  csv := none
  children :=
    [{ dir := loadDir
       csv :=
        some
          (writeWideCsv smallHeader [pmRow ['0'], pmRow ['1']]) }]

/- The `xbar_value` of each row after the first run. -/
def smallValues : Option (Option (List (Option Text))) :=
  (mergeOnePassProbeOutput smallNumbers smallRoot).toOption.map
    (fun out =>
      out.map (fun csv =>
        csv.rows.map (fun row => row.find? "xbar_value")))

/- Launch 0 is merged, launch 1 has no records. -/
theorem rerun_stable_oneRank :
    smallValues = some (some [some ['3', '2'], some []]) ∧
      ∀ n, (afterRun smallNumbers)^[n + 1] smallRoot =
        afterRun smallNumbers smallRoot := by
  refine ⟨by decide +kernel, ?_⟩
  have hStable :=
    rerun_stable smallNumbers smallRoot smallHeader
      { ranks := by decide
        header := by
          intro item hItem csv hCsv
          cases List.mem_singleton.mp hItem
          cases hCsv
          rfl
        rank := by
          intro item hItem row hRow
          cases List.mem_singleton.mp hItem
          refine ⟨0, rfl, ?_⟩
          revert row
          decide +kernel
        named := by decide +kernel }
      (by
        intro csv hCsv
        cases hCsv)
  exact hStable.1

end Memory

end FabricPerf
