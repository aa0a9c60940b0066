import FabricPerf.Analysis.TraceRoot
import FabricPerf.Lib.Dict
import Mathlib.Algebra.BigOperators.Group.List.Basic
import Mathlib.Tactic

/-
  The probe byte totals of the memory analyzer
  (`analysis/memory.py`).

  Every thread saves a record; the records of one directory
  are added up by launch, and the totals of all directories
  entered by rank and launch.

  Main declarations:
    * `Memory.readProbeByteStats`
    * `Memory.collectProbeByteStatsByRank`
    * `Memory.bytes_conserved_iff`
-/

namespace FabricPerf

namespace Memory

open Analysis Raising

------------------------------------------------------------
-- Totals
------------------------------------------------------------

/- A record of `fabricperf_probe_bytes`. -/
structure ByteRecord where
  launchIndex : Int
  ldGlobalBytes : Int
  stGlobalBytes : Int
  cpAsyncBytes : Int
deriving DecidableEq, Repr

/- The byte totals of one launch. -/
structure ProbeByteRow where
  launchIndex : Int
  ldGlobalBytes : Int
  stGlobalBytes : Int
  cpAsyncBytes : Int
  records : Nat
deriving DecidableEq, Repr

namespace ProbeByteRow

/- No records yet. -/
def new (launchIndex : Int) : ProbeByteRow where
  launchIndex := launchIndex
  ldGlobalBytes := 0
  stGlobalBytes := 0
  cpAsyncBytes := 0
  records := 0

/- `ProbeByteRow.add` -/
def add (row : ProbeByteRow) (record : ByteRecord) :
    ProbeByteRow :=
  { row with
    ldGlobalBytes := row.ldGlobalBytes + record.ldGlobalBytes
    stGlobalBytes := row.stGlobalBytes + record.stGlobalBytes
    cpAsyncBytes := row.cpAsyncBytes + record.cpAsyncBytes
    records := row.records + 1 }

/- `read_bytes`: loads and asynchronous copies. -/
def readBytes (row : ProbeByteRow) : Int :=
  row.ldGlobalBytes + row.cpAsyncBytes

/- `write_bytes`: stores. -/
def writeBytes (row : ProbeByteRow) : Int :=
  row.stGlobalBytes

/- The totals of some records of one launch. -/
def total (launchIndex : Int) (records : List ByteRecord) :
    ProbeByteRow where
  launchIndex := launchIndex
  ldGlobalBytes := (records.map (·.ldGlobalBytes)).sum
  stGlobalBytes := (records.map (·.stGlobalBytes)).sum
  cpAsyncBytes := (records.map (·.cpAsyncBytes)).sum
  records := records.length

/- One more record. -/
theorem total_concat
    (launchIndex : Int)
    (records : List ByteRecord)
    (record : ByteRecord) :
    total launchIndex (records ++ [record]) =
      (total launchIndex records).add record := by
  simp [total, add]

/- Records added one by one come to their total. -/
theorem foldl_add
    (launchIndex : Int)
    (records : List ByteRecord) :
    records.foldl add (new launchIndex) =
      total launchIndex records := by
  induction records using List.reverseRecOn with
  | nil => rfl
  | append_singleton records record ih =>
      simp only [List.foldl_append, ih, total_concat,
        List.foldl_cons, List.foldl_nil]

/- The totals of some records of a launch, if there are any. -/
def total?
    (launchIndex : Int)
    (records : List ByteRecord) : Option ProbeByteRow :=
  if records.isEmpty then none
  else some (total launchIndex records)

@[simp] theorem total?_nil (launchIndex : Int) :
    total? launchIndex [] = none := rfl

@[simp] theorem total?_cons
    (launchIndex : Int)
    (record : ByteRecord)
    (records : List ByteRecord) :
    total? launchIndex (record :: records) =
      some (total launchIndex (record :: records)) := rfl

/- Without totals there are no records. -/
theorem total?_eq_none_iff
    {launchIndex : Int}
    {records : List ByteRecord} :
    total? launchIndex records = none ↔ records = [] := by
  cases records <;> simp

end ProbeByteRow

/- `ProbeByteStats.by_launch` -/
abbrev ByLaunch := Dict Int ProbeByteRow

/- `ProbeByteStats.add` -/
def ByLaunch.add
    (byLaunch : ByLaunch)
    (record : ByteRecord) : ByLaunch :=
  byLaunch.update (ProbeByteRow.new record.launchIndex)
    record.launchIndex (fun row => row.add record)

------------------------------------------------------------
-- Trace Directories
------------------------------------------------------------

/- The records of each lane of each block. -/
abbrev ByteBlocks := List (List (List ByteRecord))

/-
  `parse` of the generated `read.py` of a directory, looked
  up for `fabricperf_probe_bytes`.
-/
abbrev ByteReader := ResultFile → Except PyErr (Option ByteBlocks)

/- A directory of a trace of the byte probe. -/
abbrev ByteTraceDir := TraceDir (Option ByteBlocks)

/- A trace root of the byte probe. -/
abbrev ByteTraceRoot := TraceRoot (Option ByteBlocks)

/- Its trace directories, without the name of the trace. -/
def ByteTraceRoot.dirs (root : ByteTraceRoot) :
    List ByteTraceDir :=
  root.traceDirs.map Prod.snd

------------------------------------------------------------
-- Reading
------------------------------------------------------------

/- Add the records of one result file. -/
def addFile
    (reader : ByteReader)
    (byLaunch : ByLaunch)
    (file : ResultFile) : Except PyErr ByLaunch := do
  match ← reader file with
  | none => pure byLaunch
  | some byteRecords =>
      pure (byteRecords.flatten.flatten.foldl ByLaunch.add
        byLaunch)

/- `read_probe_byte_stats` -/
def readProbeByteStats (dir : ByteTraceDir) :
    Except PyErr (Option ByLaunch) :=
  if dir.hasReader && dir.hasResult then do
    let reader ← dir.loadReader
    if dir.resultFiles.isEmpty then
      pure none
    else
      let stats ←
        dir.resultFiles.foldlM (addFile reader) Dict.empty
      pure (if stats.entries.isEmpty then none else some stats)
  else
    pure none

/- Enter the totals of one directory under its rank. -/
def collectDir
    (statsByRank : Dict (Nat × Int) ProbeByteRow)
    (dir : ByteTraceDir) :
    Except PyErr (Dict (Nat × Int) ProbeByteRow) := do
  match ← readProbeByteStats dir with
  | none => pure statsByRank
  | some byLaunch =>
      let rank ← dir.parseRank
      pure (byLaunch.enterAll (fun launch => (rank, launch))
        statsByRank)

/- `collect_probe_byte_stats_by_rank` -/
def collectProbeByteStatsByRank (root : ByteTraceRoot) :
    Except PyErr (Dict (Nat × Int) ProbeByteRow) := do
  let dirs ← root.iterTraceDirs
  dirs.foldlM (fun stats dir => collectDir stats dir.2)
    Dict.empty

------------------------------------------------------------
-- One Directory
------------------------------------------------------------

/- The records a file gives. -/
def ByteReader.records
    (reader : ByteReader)
    (file : ResultFile) : List ByteRecord :=
  match reader file with
  | .ok (some byteRecords) => byteRecords.flatten.flatten
  | _ => []

namespace ByteTraceDir

/- All records in all result files of a directory. -/
def records (dir : ByteTraceDir) : List ByteRecord :=
  match dir.hasReader && dir.hasResult, dir.loadReader with
  | true, .ok reader =>
      dir.resultFiles.flatMap (ByteReader.records reader)
  | _, _ => []

/- The records of one launch, if the directory has the rank. -/
def launchRecords
    (dir : ByteTraceDir)
    (rank : Nat)
    (launch : Int) : List ByteRecord :=
  match dir.parseRank with
  | .ok own =>
      if own = rank then
        dir.records.filter (fun record =>
          record.launchIndex = launch)
      else
        []
  | .error _ => []

end ByteTraceDir

/- Records added to a dictionary launch by launch. -/
theorem find?_foldl_add
    (records : List ByteRecord)
    (launch : Int) :
    (records.foldl ByLaunch.add Dict.empty).find? launch =
      ProbeByteRow.total? launch
        (records.filter (fun record =>
          record.launchIndex = launch)) := by
  have hFind :=
    Dict.find?_foldl_update ByteRecord.launchIndex
      ProbeByteRow.new (fun record row => row.add record)
      records Dict.empty launch
  have hFold :
      records.foldl ByLaunch.add Dict.empty =
        records.foldl
          (fun d record =>
            d.update (ProbeByteRow.new record.launchIndex)
              record.launchIndex (fun row => row.add record))
          Dict.empty := rfl
  rw [hFold, hFind]
  cases records.filter (fun record =>
      record.launchIndex = launch) with
  | nil => rfl
  | cons record rest =>
      have hTotal :=
        ProbeByteRow.foldl_add launch (record :: rest)
      simpa using hTotal

/- A file adds its records one by one. -/
theorem addFile_ok
    {reader : ByteReader}
    {file : ResultFile}
    {before after : ByLaunch}
    (hFile : addFile reader before file = .ok after) :
    after =
      (ByteReader.records reader file).foldl ByLaunch.add
        before := by
  unfold addFile at hFile
  rcases bind_eq_ok_iff.mp hFile with ⟨found, hParse, hAdd⟩
  cases found <;> cases hAdd <;>
    simp [ByteReader.records, hParse]

/- What is read of a directory are its records' totals. -/
theorem readProbeByteStats_ok
    {dir : ByteTraceDir}
    {found : Option ByLaunch}
    (hRead : readProbeByteStats dir = .ok found) :
    found.getD Dict.empty =
      dir.records.foldl ByLaunch.add Dict.empty := by
  unfold readProbeByteStats at hRead
  split at hRead
  case isFalse hMissing =>
    cases hRead
    have hNo : (dir.hasReader && dir.hasResult) = false := by
      simpa using hMissing
    simp [ByteTraceDir.records, hNo]
  case isTrue hThere =>
    rcases bind_eq_ok_iff.mp hRead with
      ⟨reader, hReader, hFiles⟩
    have hRecords :
        dir.records =
          dir.resultFiles.flatMap (ByteReader.records reader) := by
      simp [ByteTraceDir.records, hThere, hReader]
    rw [hRecords]
    split at hFiles
    case isTrue hEmpty =>
      cases hFiles
      rw [List.isEmpty_iff.mp hEmpty]
      rfl
    case isFalse hSome =>
      rcases bind_eq_ok_iff.mp hFiles with
        ⟨stats, hFold, hStats⟩
      have hAdded :=
        eq_foldl_flatMap_of_foldlM
          (fun _ _ _ hFile => addFile_ok hFile) hFold
      rw [← hAdded]
      cases hStats
      rcases stats with ⟨entries, hDistinct⟩
      cases entries <;> rfl

/- The probe aggregate of a launch in one directory. -/
def ByteTraceDir.aggregate
    (dir : ByteTraceDir)
    (launch : Int) : Option ProbeByteRow :=
  ProbeByteRow.total? launch
    (dir.records.filter (fun record =>
      record.launchIndex = launch))

/- What reading a directory finds for a launch. -/
theorem find?_readProbeByteStats
    {dir : ByteTraceDir}
    {found : Option ByLaunch}
    (hRead : readProbeByteStats dir = .ok found)
    (launch : Int) :
    (found.bind (fun byLaunch => byLaunch.find? launch)) =
      dir.aggregate launch := by
  have hStats := readProbeByteStats_ok hRead
  have hFind := find?_foldl_add dir.records launch
  rw [← hStats] at hFind
  have hBind :
      (found.bind (fun byLaunch => byLaunch.find? launch)) =
        (found.getD Dict.empty).find? launch := by
    cases found <;> rfl
  rw [hBind, hFind]
  rfl

------------------------------------------------------------
-- All Directories
------------------------------------------------------------

namespace ByteTraceDir

variable {dir : ByteTraceDir}
variable {own rank : Nat}

/- The totals of a directory of the rank. -/
theorem total?_launchRecords
    (hRank : dir.parseRank = .ok rank)
    (launch : Int) :
    ProbeByteRow.total? launch (dir.launchRecords rank launch) =
      dir.aggregate launch := by
  unfold launchRecords aggregate
  rw [hRank]
  simp

/- A directory of another rank has no records of the rank. -/
theorem launchRecords_of_ne
    (hRank : dir.parseRank = .ok own)
    (hNe : own ≠ rank)
    (launch : Int) :
    dir.launchRecords rank launch = [] := by
  unfold launchRecords
  rw [hRank]
  exact if_neg hNe

/- Without a total no rank has records of the launch. -/
theorem launchRecords_of_aggregate
    {launch : Int}
    (hNone : dir.aggregate launch = none)
    (rank : Nat) :
    dir.launchRecords rank launch = [] := by
  unfold launchRecords
  split
  · split
    · exact ProbeByteRow.total?_eq_none_iff.mp hNone
    · rfl
  · rfl

end ByteTraceDir

/- What one directory enters for a rank and a launch. -/
theorem find?_collectDir
    {before after : Dict (Nat × Int) ProbeByteRow}
    {dir : ByteTraceDir}
    (hCollect : collectDir before dir = .ok after)
    (rank : Nat)
    (launch : Int) :
    after.find? (rank, launch) =
      (ProbeByteRow.total? launch
        (dir.launchRecords rank launch)).or
        (before.find? (rank, launch)) := by
  unfold collectDir at hCollect
  rcases bind_eq_ok_iff.mp hCollect with ⟨found, hRead, hEnter⟩
  have hFound := find?_readProbeByteStats hRead launch
  cases found with
  | none =>
      cases hEnter
      rw [dir.launchRecords_of_aggregate hFound.symm rank]
      rfl
  | some byLaunch =>
      rcases bind_eq_ok_iff.mp hEnter with ⟨own, hRank, hDone⟩
      cases hDone
      by_cases hOwn : own = rank
      · subst hOwn
        have hInjective :
            Function.Injective (fun l : Int => (own, l)) := by
          intro l l' hSame
          exact (Prod.mk.inj hSame).2
        rw [ByteTraceDir.total?_launchRecords hRank, ← hFound]
        exact
          Dict.find?_enterAll hInjective byLaunch before launch
      · have hOther (l : Int) : (own, l) ≠ (rank, launch) := by
          intro hSame
          exact hOwn (Prod.mk.inj hSame).1
        rw [ByteTraceDir.launchRecords_of_ne hRank hOwn]
        exact Dict.find?_enterAll_of_ne hOther byLaunch before

/- The records of a rank and launch, directory by directory. -/
def recordLists
    (dirs : List ByteTraceDir)
    (rank : Nat)
    (launch : Int) : List (List ByteRecord) :=
  dirs.map (fun dir => dir.launchRecords rank launch)

/- Of several directories the last with records counts. -/
theorem find?_foldlM_collectDir
    {before after : Dict (Nat × Int) ProbeByteRow}
    {dirs : List ByteTraceDir}
    (hCollect : dirs.foldlM collectDir before = .ok after)
    (rank : Nat)
    (launch : Int) :
    after.find? (rank, launch) =
      ((((recordLists dirs rank launch).filter
          (fun own => !own.isEmpty)).getLast?).map
        (ProbeByteRow.total launch)).or
        (before.find? (rank, launch)) := by
  induction dirs generalizing before with
  | nil =>
      cases hCollect
      rfl
  | cons dir rest ih =>
      rw [List.foldlM_cons] at hCollect
      rcases bind_eq_ok_iff.mp hCollect with
        ⟨next, hDir, hRest⟩
      have hLists :
          recordLists (dir :: rest) rank launch =
            dir.launchRecords rank launch ::
              recordLists rest rank launch := rfl
      rw [ih hRest, find?_collectDir hDir, hLists]
      cases dir.launchRecords rank launch with
      | nil => rfl
      | cons record more =>
          rw [List.filter_cons_of_pos (by rfl),
            List.getLast?_cons]
          cases ((recordLists rest rank launch).filter
              (fun own => !own.isEmpty)).getLast? <;> rfl

------------------------------------------------------------
-- Conservation
------------------------------------------------------------

/-
  The totals entered for a rank and launch are those of all
  records of the rank and launch.
-/
def BytesConserved
    (root : ByteTraceRoot)
    (statsByRank : Dict (Nat × Int) ProbeByteRow)
    (rank : Nat)
    (launch : Int) : Prop :=
  statsByRank.get (ProbeByteRow.new launch) (rank, launch) =
    ProbeByteRow.total launch
      (recordLists root.dirs rank launch).flatten

/- Collecting goes through the trace directories. -/
theorem foldlM_of_collect
    {root : ByteTraceRoot}
    {statsByRank : Dict (Nat × Int) ProbeByteRow}
    (hCollect :
      collectProbeByteStatsByRank root = .ok statsByRank) :
    root.dirs.foldlM collectDir Dict.empty =
      .ok statsByRank := by
  unfold collectProbeByteStatsByRank at hCollect
  rcases bind_eq_ok_iff.mp hCollect with ⟨dirs, hDirs, hFold⟩
  rw [TraceRoot.iterTraceDirs_ok hDirs] at hFold
  rw [ByteTraceRoot.dirs, List.foldlM_map]
  exact hFold

/- What is entered: the totals of the last directory. -/
theorem get_collect
    {root : ByteTraceRoot}
    {statsByRank : Dict (Nat × Int) ProbeByteRow}
    (hCollect :
      collectProbeByteStatsByRank root = .ok statsByRank)
    (rank : Nat)
    (launch : Int) :
    statsByRank.get (ProbeByteRow.new launch) (rank, launch) =
      ProbeByteRow.total launch
        (((recordLists root.dirs rank launch).filter
          (fun own => !own.isEmpty)).getLast?.getD []) := by
  have hFind :=
    find?_foldlM_collectDir (foldlM_of_collect hCollect) rank
      launch
  unfold Dict.get
  rw [hFind]
  cases ((recordLists root.dirs rank launch).filter
      (fun own => !own.isEmpty)).getLast? <;> rfl

/- Dropping the empty lists changes no records. -/
theorem flatten_filter
    (lists : List (List ByteRecord)) :
    (lists.filter (fun own => !own.isEmpty)).flatten =
      lists.flatten := by
  induction lists with
  | nil => rfl
  | cons own rest ih =>
      cases own <;> simp [ih]

/-
  No bytes are lost for a rank and launch if and only if at
  most one directory of the rank has records of the launch.
-/
theorem bytes_conserved_iff
    (root : ByteTraceRoot)
    (statsByRank : Dict (Nat × Int) ProbeByteRow)
    (hCollect :
      collectProbeByteStatsByRank root = .ok statsByRank)
    (rank : Nat)
    (launch : Int) :
    BytesConserved root statsByRank rank launch ↔
      (root.dirs.filter (fun dir =>
        !(dir.launchRecords rank launch).isEmpty)).length ≤
          1 := by
  have hGet := get_collect hCollect rank launch
  have hFlatten :=
    flatten_filter (recordLists root.dirs rank launch)
  have hCount :
      (root.dirs.filter (fun dir =>
        !(dir.launchRecords rank launch).isEmpty)).length =
        ((recordLists root.dirs rank launch).filter
          (fun own => !own.isEmpty)).length := by
    simp [recordLists, List.filter_map, Function.comp_def]
  have hSome :
      ∀ own ∈ (recordLists root.dirs rank launch).filter
        (fun own => !own.isEmpty), own ≠ [] := by
    intro own hMem
    simpa using (List.mem_filter.mp hMem).2
  rw [hCount, BytesConserved, hGet, ← hFlatten]
  generalize (recordLists root.dirs rank launch).filter
    (fun own => !own.isEmpty) = lists at hSome
  constructor
  · intro hTotal
    have hLength := congrArg ProbeByteRow.records hTotal
    simp only [ProbeByteRow.total] at hLength
    cases lists using List.reverseRecOn with
    | nil => simp
    | append_singleton earlier last =>
        cases earlier with
        | nil => simp
        | cons first rest =>
            -- the records of the first directory are lost
            have hFirst : 0 < first.length :=
              List.length_pos_of_ne_nil (hSome first (by simp))
            have hLast :
                ((first :: rest) ++ [last]).getLast? =
                  some last :=
              List.getLast?_concat
            rw [hLast] at hLength
            simp at hLength
            omega
  · intro hOne
    cases lists with
    | nil => rfl
    | cons own rest =>
        cases rest with
        | nil => simp
        | cons next more => simp at hOne

------------------------------------------------------------
-- Two Runs In One Trace Root
------------------------------------------------------------

/- One record of launch 0 with 32 loaded bytes. -/
def loadRecord : ByteRecord where
  launchIndex := 0
  ldGlobalBytes := 32
  stGlobalBytes := 0
  cpAsyncBytes := 0

/- A directory of rank 0 whose one file has that record. -/
def loadDir : ByteTraceDir where
  hasReader := true
  hasResult := true
  loadReader := .ok (fun _ => .ok (some [[[loadRecord]]]))
  resultFiles :=
    [{ path := "result/0.bin"
       contents := []
       short := by simp }]
  parseRank := .ok 0

/- The trace root itself has neither reader nor results. -/
def parentDir : ByteTraceDir where
  hasReader := false
  hasResult := false
  loadReader := .error .osError
  resultFiles := []
  parseRank := .error .osError

/- A trace root with one such directory, and with two. -/
def loadRoot (count : Nat) : ByteTraceRoot where
  path := "trace"
  name := "trace"
  parentName := ""
  own := parentDir
  children := List.replicate count loadDir

/- What is collected there. -/
def loadTotals : Dict (Nat × Int) ProbeByteRow :=
  Dict.empty.update (ProbeByteRow.new 0) (0, 0)
    (fun _ => ProbeByteRow.total 0 [loadRecord])

/- One directory: its bytes are all there. -/
theorem bytes_conserved_iff_oneDir :
    BytesConserved (loadRoot 1) loadTotals 0 0 := by
  have hIff :=
    bytes_conserved_iff (loadRoot 1) loadTotals rfl 0 0
  rw [hIff]
  decide

/- Two directories of one rank: half of the bytes are lost. -/
theorem not_bytes_conserved :
    collectProbeByteStatsByRank (loadRoot 2) = .ok loadTotals ∧
      ¬ BytesConserved (loadRoot 2) loadTotals 0 0 := by
  constructor
  · rfl
  · intro hConserved
    have hBytes := congrArg ProbeByteRow.ldGlobalBytes hConserved
    exact absurd hBytes (by decide)

end Memory

end FabricPerf
