import FabricPerf.Analysis.Words
import FabricPerf.Memory.Merge
import FabricPerf.Memory.Threads

/-
  From the threads of the devices to the rows of the memory
  CSV file.

  The result files of a rank hold the records that the
  threads of its device have saved, in any order, beside
  unused slots.  A merged row of an ended launch then has the
  bytes of the launch, as far as a 64-bit word can count the
  bytes of one thread.

  Main declarations:
    * `Memory.DeviceDir`
    * `Memory.LaunchBytes`
    * `Memory.memory_report`
-/

------------------------------------------------------------
-- Records
------------------------------------------------------------

namespace FabricPerf

namespace Memory

open Analysis Raising

/- The index of a launch as the analyzer reads it. -/
def Kernels.index (kernels : Kernels) (launch : Nat) : Int :=
  (kernels.launchIndex launch).toNat

/- The record of what a thread has saved. -/
def SavedBytes.record
    (reading : WordReading)
    (saved : SavedBytes) : ByteRecord where
  launchIndex := reading.read saved.launchIndex
  ldGlobalBytes := reading.read saved.counters.nr0
  stGlobalBytes := reading.read saved.counters.nr1
  cpAsyncBytes := reading.read saved.counters.nr2

/- The record of an unused slot. -/
def ByteRecord.unused : ByteRecord where
  launchIndex := 0
  ldGlobalBytes := 0
  stGlobalBytes := 0
  cpAsyncBytes := 0

/- The bytes of a record, by probe. -/
def ByteRecord.bytes (record : ByteRecord) : ByteProbe → Int
| .load => record.ldGlobalBytes
| .store => record.stGlobalBytes
| .async => record.cpAsyncBytes

/- The bytes of a total, by probe. -/
def ProbeByteRow.bytes (row : ProbeByteRow) : ByteProbe → Int
| .load => row.ldGlobalBytes
| .store => row.stGlobalBytes
| .async => row.cpAsyncBytes

/- A total adds up the bytes of each probe. -/
theorem bytes_total
    (launchIndex : Int)
    (records : List ByteRecord)
    (probe : ByteProbe) :
    (ProbeByteRow.total launchIndex records).bytes probe =
      (records.map (fun record => record.bytes probe)).sum := by
  cases probe <;> rfl

/- The counter of a probe is read as its bytes. -/
theorem bytes_record
    (reading : WordReading)
    (saved : SavedBytes)
    (probe : ByteProbe) :
    (saved.record reading).bytes probe =
      reading.read (saved.counters.get probe) := by
  cases probe <;> rfl

/- Reordered records have the same totals. -/
theorem total_perm
    {records records' : List ByteRecord}
    (hPerm : records.Perm records')
    (launchIndex : Int) :
    ProbeByteRow.total launchIndex records =
      ProbeByteRow.total launchIndex records' := by
  unfold ProbeByteRow.total
  rw [(hPerm.map _).sum_eq, (hPerm.map _).sum_eq,
    (hPerm.map _).sum_eq, hPerm.length_eq]

------------------------------------------------------------
-- Devices And Directories
------------------------------------------------------------

/- A rank and the device it runs its kernels on. -/
structure RankDevice where
  rank : Nat
  kernels : Kernels
  state : DeviceState

/-
  The directory of a rank: its result files are readable and
  hold the saved records of the device, in any order, beside
  unused slots.
-/
structure DeviceDir
    (reading : WordReading)
    (dir : ByteTraceDir)
    (device : RankDevice) : Prop where
  hasReader : dir.hasReader = true
  hasResult : dir.hasResult = true
  parseRank : dir.parseRank = .ok device.rank
  files :
    ∃ reader, dir.loadReader = .ok reader ∧
      ∀ file ∈ dir.resultFiles,
        ∃ found, reader file = .ok found
  records :
    ∃ unused,
      dir.records.Perm
        (device.state.saved.map (SavedBytes.record reading) ++
          List.replicate unused ByteRecord.unused)

/- Launches of a device have indices of their own. -/
def RankDevice.Indexed (device : RankDevice) : Prop :=
  ∀ launch ≤ device.state.launch,
    ∀ launch' ≤ device.state.launch,
      device.kernels.launchIndex launch =
          device.kernels.launchIndex launch' →
        launch = launch'

/-
  The totals of an ended launch.  They never exceed what the
  launch has moved, and equal it exactly when the bytes of
  every thread fit the words they are counted in.
-/
structure LaunchBytes
    (reading : WordReading)
    (kernels : Kernels)
    (s : DeviceState)
    (launch : Nat)
    (row : ProbeByteRow) : Prop where
  bytes :
    ∀ probe,
      row.bytes probe =
        ∑ thread ∈ Finset.range (kernels.threads launch),
          reading.read
            (BitVec.ofNat 64
              (moved s.events launch thread probe))
  bounded :
    ∀ probe, row.bytes probe ≤ executed s.events launch probe
  exact :
    ∀ probe,
      row.bytes probe = executed s.events launch probe ↔
        ∀ thread < kernels.threads launch,
          reading.Fits 64 (moved s.events launch thread probe)
  records :
    kernels.launchIndex launch ≠ 0 →
      row.records = kernels.threads launch

section Totals

variable {reading : WordReading} {kernels : Kernels}
variable {s : DeviceState} {launch : Nat}

/- Totals with the right sums are like that. -/
theorem launchBytes_of_bytes
    (hOk : BytesOk kernels s)
    {row : ProbeByteRow}
    (hBytes :
      ∀ probe,
        row.bytes probe =
          ∑ thread ∈ Finset.range (kernels.threads launch),
            reading.read
              (BitVec.ofNat 64
                (moved s.events launch thread probe)))
    (hRecords :
      kernels.launchIndex launch ≠ 0 →
        row.records = kernels.threads launch) :
    LaunchBytes reading kernels s launch row := by
  have hExecuted :
      ∀ probe,
        (executed s.events launch probe : Int) =
          ∑ thread ∈ Finset.range (kernels.threads launch),
            (moved s.events launch thread probe : Int) := by
    intro probe
    rw [← sum_moved hOk launch probe]
    exact Nat.cast_sum _ _
  have hLe :
      ∀ probe, ∀ thread ∈
          Finset.range (kernels.threads launch),
        reading.read
            (BitVec.ofNat 64
              (moved s.events launch thread probe)) ≤
          (moved s.events launch thread probe : Int) :=
    fun probe thread _ => WordReading.read_ofNat_le _
  refine
    { bytes := hBytes, bounded := ?_, exact := ?_,
      records := hRecords }
  · intro probe
    rw [hBytes, hExecuted]
    exact Finset.sum_le_sum (hLe probe)
  · intro probe
    rw [hBytes, hExecuted,
      Finset.sum_eq_sum_iff_of_le (hLe probe)]
    constructor
    · intro hSame thread hLt
      exact
        WordReading.read_ofNat_eq_iff.mp
          (hSame thread (Finset.mem_range.mpr hLt))
    · intro hFits thread hMem
      exact
        WordReading.read_ofNat_eq_iff.mpr
          (hFits thread (Finset.mem_range.mp hMem))

/- The records of a launch are those with its index. -/
theorem filter_saved_launchIndex
    {device : RankDevice}
    (hOk : BytesOk device.kernels device.state)
    (hIndexed : device.Indexed)
    {launch : Nat}
    (hPast : launch ≤ device.state.launch) :
    (device.state.saved.map (SavedBytes.record reading)).filter
        (fun record =>
          record.launchIndex =
            device.kernels.index launch) =
      (device.state.recordsOf launch).map
        (SavedBytes.record reading) := by
  rw [List.filter_map]
  apply congrArg (List.map (SavedBytes.record reading))
  apply List.filter_congr
  intro saved hMem
  rcases hOk.records saved hMem with ⟨hLaunch, _, hIndex, _⟩
  have hRead :
      (saved.record reading).launchIndex =
        device.kernels.index saved.launch := by
    unfold SavedBytes.record
    rw [hIndex]
    exact WordReading.read_setWidth _
  rw [Function.comp_apply, hRead, decide_eq_decide]
  constructor
  · intro hSame
    apply hIndexed saved.launch hLaunch launch hPast
    apply BitVec.eq_of_toNat_eq
    unfold Kernels.index at hSame
    exact_mod_cast hSame
  · intro hSame
    rw [hSame]

/- What a directory adds up for an ended launch. -/
theorem launchBytes_of_deviceDir
    {dir : ByteTraceDir}
    {device : RankDevice}
    (hDir : DeviceDir reading dir device)
    (hReach :
      (byteMachine device.kernels).Reachable device.state)
    (hIndexed : device.Indexed)
    {launch : Nat}
    (hDone : device.state.Done device.kernels launch)
    (hThreads : 0 < device.kernels.threads launch) :
    ∃ row,
      dir.aggregate
          (device.kernels.index launch) =
        some row ∧
      LaunchBytes reading device.kernels device.state launch
        row := by
  have hOk := bytesOk_of_reachable hReach
  have hPast : launch ≤ device.state.launch := by
    rcases hDone with hBefore | ⟨hNow, _⟩
    · exact Nat.le_of_lt hBefore
    · exact Nat.le_of_eq hNow
  rcases hDir.records with ⟨unused, hPerm⟩
  have hOwn :=
    hPerm.filter
      (fun record =>
        record.launchIndex =
          device.kernels.index launch)
  rw [List.filter_append,
    filter_saved_launchIndex hOk hIndexed hPast,
    List.filter_replicate] at hOwn
  have hLength :
      (device.state.recordsOf launch).length =
        device.kernels.threads launch := by
    have hThreadPerm := perm_savedThreads hOk hDone
    rw [← List.length_map, hThreadPerm.length_eq,
      List.length_range]
  have hSome :
      dir.records.filter
          (fun record =>
            record.launchIndex =
              device.kernels.index launch) ≠
        [] := by
    intro hNone
    have hZero := hOwn.length_eq
    rw [hNone, List.length_append, List.length_map,
      hLength] at hZero
    simp only [List.length_nil] at hZero
    omega
  have hAggregate :
      dir.aggregate (device.kernels.index launch) =
        some
          (ProbeByteRow.total (device.kernels.index launch)
            (dir.records.filter
              (fun record =>
                record.launchIndex =
                  device.kernels.index launch))) := by
    unfold ByteTraceDir.aggregate ProbeByteRow.total?
    rw [if_neg]
    rw [List.isEmpty_iff]
    exact hSome
  refine ⟨_, hAggregate, ?_⟩
  rw [total_perm hOwn]
  apply launchBytes_of_bytes hOk
  · intro probe
    have hNone :
        ∀ n : Nat,
          ((List.replicate n ByteRecord.unused).map
            (fun record => record.bytes probe)).sum = 0 := by
      intro n
      rw [List.map_replicate, List.sum_replicate]
      cases probe <;> exact smul_zero n
    have hUnused :
        ((if decide
              (ByteRecord.unused.launchIndex =
                device.kernels.index launch) =
            true then
          List.replicate unused ByteRecord.unused
        else
          []).map (fun record => record.bytes probe)).sum =
          0 := by
      split
      · exact hNone unused
      · rfl
    rw [bytes_total, List.map_append, List.sum_append,
      hUnused, add_zero, List.map_map]
    have hSum := sum_recordsOf hOk hDone reading.read probe
    rw [← hSum]
    apply congrArg List.sum
    apply List.map_congr_left
    intro saved _
    exact bytes_record reading saved probe
  · intro hIndex
    have hNotUnused :
        ¬ decide
            (ByteRecord.unused.launchIndex =
              device.kernels.index launch) =
          true := by
      intro hZero
      apply hIndex
      apply BitVec.eq_of_toNat_eq
      have hNat := of_decide_eq_true hZero
      simp only [ByteRecord.unused, Kernels.index] at hNat
      exact_mod_cast hNat.symm
    change List.length _ = _
    rw [if_neg hNotUnused, List.append_nil, List.length_map,
      hLength]

end Totals

------------------------------------------------------------
-- Trace Roots
------------------------------------------------------------

section Roots

variable {reading : WordReading} {root : ByteTraceRoot}
variable {devices : List RankDevice}

/- The directory of a rank is read. -/
theorem readProbeByteStats_deviceDir
    {dir : ByteTraceDir}
    {device : RankDevice}
    (hDir : DeviceDir reading dir device) :
    ∃ found, readProbeByteStats dir = .ok found := by
  rcases hDir.files with ⟨reader, hReader, hFiles⟩
  have hAdd :
      ∀ byLaunch, ∀ file ∈ dir.resultFiles,
        ∃ next, addFile reader byLaunch file = .ok next := by
    intro byLaunch file hMem
    rcases hFiles file hMem with ⟨found, hParse⟩
    unfold addFile
    rw [hParse, ok_bind]
    cases found with
    | none => exact ⟨_, rfl⟩
    | some byteRecords => exact ⟨_, rfl⟩
  rcases exists_foldlM_ok hAdd Dict.empty with ⟨stats, hStats⟩
  unfold readProbeByteStats
  rw [hDir.hasReader, hDir.hasResult, Bool.and_self, if_pos rfl,
    hReader, ok_bind, hStats]
  split
  · exact ⟨_, rfl⟩
  · exact ⟨_, rfl⟩

/- So are all directories of a root. -/
theorem collect_deviceDirs
    (hDirs :
      List.Forall₂ (DeviceDir reading) root.dirs devices)
    (hSome : devices ≠ []) :
    ∃ stats, collectProbeByteStatsByRank root = .ok stats := by
  have hEach :
      ∀ stats, ∀ dir ∈ root.dirs,
        ∃ next, collectDir stats dir = .ok next := by
    intro stats dir hMem
    rcases List.forall₂_iff_get.mp hDirs with ⟨hLength, hAll⟩
    rcases List.mem_iff_get.mp hMem with ⟨i, rfl⟩
    have hDir :=
      hAll i.1 i.2 (Nat.lt_of_lt_of_eq i.2 hLength)
    rcases readProbeByteStats_deviceDir hDir with ⟨found, hRead⟩
    unfold collectDir
    rw [hRead, ok_bind]
    cases found with
    | none => exact ⟨_, rfl⟩
    | some byLaunch =>
        have hRank := hDir.parseRank
        simp only [List.get_eq_getElem, Fin.eta] at hRank ⊢
        rw [hRank]
        exact ⟨_, rfl⟩
  have hIter : root.iterTraceDirs = .ok root.traceDirs :=
    TraceRoot.iterTraceDirs_eq
      (List.forall₂_map_left_iff.mp hDirs) hSome
  rcases exists_foldlM_ok hEach Dict.empty with ⟨stats, hStats⟩
  rw [ByteTraceRoot.dirs, List.foldlM_map] at hStats
  unfold collectProbeByteStatsByRank
  rw [hIter, ok_bind]
  exact ⟨stats, hStats⟩

/- The ranks of the logs are those of the devices. -/
theorem logRanks_deviceDirs
    {dirs : List ByteTraceDir}
    (hDirs :
      List.Forall₂ (DeviceDir reading) dirs devices) :
    logRanks dirs = devices.map RankDevice.rank := by
  induction hDirs with
  | nil => rfl
  | cons hDir _ ih =>
      have hOption := congrArg Except.toOption hDir.parseRank
      unfold logRanks at ih ⊢
      rw [List.filterMap_cons, hOption, ih]
      rfl

end Roots

------------------------------------------------------------
-- The Report
------------------------------------------------------------

/-
  The merged row of an ended launch: it has the totals of the
  launch, whose read bytes are in `xbar_value`.
-/
def MergedLaunch
    (numbers : Numbers)
    (reading : WordReading)
    (fieldnames : List String)
    (devices : List RankDevice)
    (row merged : Row) : Prop :=
  ∀ device ∈ devices, ∀ launch,
    device.state.Done device.kernels launch →
    0 < device.kernels.threads launch →
    intField numbers row "rank" = device.rank →
    intField numbers row "launch_index" =
        device.kernels.index launch →
      ∃ total,
        LaunchBytes reading device.kernels device.state launch
            total ∧
          merged =
            project fieldnames
              (mergeRow numbers (some total) row) ∧
          ("xbar_value" ∈ fieldnames →
            merged.find? "xbar_value" =
              some
                (numberField
                  (total.bytes .load + total.bytes .async)))

/- A row merged with totals shows the bytes read. -/
theorem find?_xbarValue
    (numbers : Numbers)
    (total : ProbeByteRow)
    (row : Row)
    {fieldnames : List String}
    (hField : "xbar_value" ∈ fieldnames) :
    (project fieldnames
        (mergeRow numbers (some total) row)).find?
          "xbar_value" =
      some
        (numberField
          (total.bytes .load + total.bytes .async)) := by
  have hAssigned :
      (assignments numbers row total).find? "xbar_value" =
        some (numberField total.readBytes) := by
    rw [Dict.find?_eq_some_iff]
    simp [assignments, mergedColumns]
  rw [find?_project, if_pos hField, mergeRow_some,
    Dict.get_setAll hAssigned]
  rfl

/- The probe totals of a row of an ended launch. -/
theorem exists_rowProbe
    {numbers : Numbers}
    {root : MemoryRoot}
    {reading : WordReading}
    {devices : List RankDevice}
    (hRanks : (devices.map RankDevice.rank).Nodup)
    (hDirs :
      List.Forall₂ (DeviceDir reading) root.traceRoot.dirs
        devices)
    {device : RankDevice}
    (hDevice : device ∈ devices)
    (hReach :
      (byteMachine device.kernels).Reachable device.state)
    (hIndexed : device.Indexed)
    {launch : Nat}
    (hDone : device.state.Done device.kernels launch)
    (hThreads : 0 < device.kernels.threads launch)
    {row : Row}
    (hRank : intField numbers row "rank" = device.rank)
    (hLaunch :
      intField numbers row "launch_index" =
        device.kernels.index launch) :
    ∃ total,
      root.rowProbe numbers row = some total ∧
        LaunchBytes reading device.kernels device.state launch
          total := by
  have hLogs := hRanks
  rw [← logRanks_deviceDirs hDirs] at hLogs
  have hDir :
      ∃ dir ∈ root.traceRoot.dirs,
        DeviceDir reading dir device := by
    rcases List.forall₂_iff_get.mp hDirs with ⟨hLength, hAll⟩
    rcases List.mem_iff_get.mp hDevice with ⟨i, rfl⟩
    have hLt : i.1 < root.traceRoot.dirs.length :=
      Nat.lt_of_lt_of_eq i.2 hLength.symm
    exact ⟨_, List.get_mem _ ⟨i.1, hLt⟩, hAll i.1 hLt i.2⟩
  rcases hDir with ⟨dir, hMem, hDir⟩
  rcases launchBytes_of_deviceDir hDir hReach hIndexed hDone
    hThreads with ⟨total, hTotal, hBytes⟩
  refine ⟨total, ?_, hBytes⟩
  unfold MemoryRoot.rowProbe rankProbe
  rw [hRank, hLaunch, ← hTotal]
  exact
    aggregate_of_mem hLogs hMem hDir.parseRank
      (device.kernels.index launch)

/- Merging the root CSV file succeeds. -/
theorem mergeExisting_ok
    (numbers : Numbers)
    {root : MemoryRoot}
    {csv : Csv}
    (hCsv : root.csv = some csv)
    {stats : Dict (Nat × Int) ProbeByteRow}
    (hCollect :
      collectProbeByteStatsByRank root.traceRoot = .ok stats) :
    ∃ out, mergeExistingRootMemoryCsv numbers root =
      .ok out := by
  unfold mergeExistingRootMemoryCsv
  rw [hCsv]
  dsimp only
  rw [hCollect, ok_bind]
  split
  · exact ⟨_, rfl⟩
  · exact ⟨_, rfl⟩

/-
  The rows that are merged after any run of the devices, with
  the threads of every launch in any interleaving.
-/
theorem memory_report
    (numbers : Numbers)
    (root : MemoryRoot)
    (csv : Csv)
    (hCsv : root.csv = some csv)
    (hRows : csv.rows ≠ [])
    (reading : WordReading)
    (devices : List RankDevice)
    (hSome : devices ≠ [])
    (hReach :
      ∀ device ∈ devices,
        (byteMachine device.kernels).Reachable device.state)
    (hIndexed : ∀ device ∈ devices, device.Indexed)
    (hRanks : (devices.map RankDevice.rank).Nodup)
    (hDirs :
      List.Forall₂ (DeviceDir reading) root.traceRoot.dirs
        devices) :
    ∃ merged,
      mergeExistingRootMemoryCsv numbers root =
          .ok (some merged) ∧
        List.Forall₂
          (MergedLaunch numbers reading csv.fieldnames devices)
          csv.rows merged.rows := by
  have hLogs := hRanks
  rw [← logRanks_deviceDirs hDirs] at hLogs
  rcases collect_deviceDirs hDirs hSome with ⟨stats, hCollect⟩
  rcases mergeExisting_ok numbers hCsv hCollect with
    ⟨out, hOut⟩
  have hMerged := mergeExisting_rows hLogs hCsv hRows hOut
  rw [hMerged] at hOut
  refine ⟨_, hOut, ?_⟩
  change
    List.Forall₂ _ csv.rows
      ((csv.rows.map (root.mergedRow numbers)).map
        (project csv.fieldnames))
  rw [List.map_map, List.forall₂_map_right_iff,
    List.forall₂_same]
  intro row _ device hDevice launch hDone hThreads hRank hLaunch
  rcases exists_rowProbe hRanks hDirs hDevice
    (hReach device hDevice) (hIndexed device hDevice) hDone
    hThreads hRank hLaunch with ⟨total, hProbe, hBytes⟩
  have hRow :
      (project csv.fieldnames ∘ root.mergedRow numbers) row =
        project csv.fieldnames
          (mergeRow numbers (some total) row) := by
    rw [Function.comp_apply, MemoryRoot.mergedRow, hProbe]
  refine ⟨total, hBytes, hRow, ?_⟩
  intro hField
  rw [hRow]
  exact find?_xbarValue numbers total row hField

------------------------------------------------------------
-- Two Threads, Two Launches
------------------------------------------------------------

/- Launches of two threads, numbered from 0. -/
def twoThreads : Kernels where
  threads := fun _ => 2
  launchIndex := fun launch => BitVec.ofNat 32 launch

/- The threads of a launch take turns. -/
def threadsTakeTurns : List ByteAction :=
  [.init 1, .init 0, .move 1 .load 16, .move 0 .load 32,
    .move 1 .async 8, .save 1, .move 0 .store 4, .save 0,
    .nextLaunch, .init 0, .move 0 .load 64, .init 1, .save 0,
    .move 1 .load 1, .save 1]

/- The records of one file for each launch. -/
def turnsRecords (path : String) : ByteBlocks :=
  if path = "result/0.bin" then
    [[[⟨0, 32, 4, 0⟩], [⟨0, 16, 0, 8⟩]]]
  else
    [[[⟨1, 64, 0, 0⟩], [⟨1, 1, 0, 0⟩]],
      [[ByteRecord.unused]]]

/- The directory of the rank, with both files. -/
def turnsDir : ByteTraceDir where
  hasReader := true
  hasResult := true
  loadReader :=
    .ok (fun file => .ok (some (turnsRecords file.path)))
  resultFiles :=
    [ResultFile.empty "result/0.bin",
      ResultFile.empty "result/1.bin"]
  parseRank := .ok 0

/- The CSV rows of both launches. -/
def turnsCsv : Csv :=
  writeWideCsv smallHeader [pmRow ['0'], pmRow ['1']]

/- The trace root with the rows and the directory. -/
def turnsRoot : MemoryRoot :=
  { smallRoot with
    csv := some turnsCsv
    children := [{ dir := turnsDir, csv := none }] }

/- The `xbar_value` of the rows after a run. -/
def turnsValues : Option (Option (List (Option Text))) :=
  (mergeExistingRootMemoryCsv smallNumbers
      turnsRoot).toOption.map
    (fun out =>
      out.map (fun csv =>
        csv.rows.map (fun row => row.find? "xbar_value")))

/- The threads read 56 and 65 bytes in the two launches. -/
theorem memory_report_twoThreads :
    ∃ s merged,
      (byteMachine twoThreads).Reachable s ∧
      (s.Done twoThreads 0 ∧ s.Done twoThreads 1) ∧
      (executed s.events 0 .load = 48 ∧
        executed s.events 0 .async = 8 ∧
        executed s.events 1 .load = 65) ∧
      mergeExistingRootMemoryCsv smallNumbers turnsRoot =
        .ok (some merged) ∧
      List.Forall₂
        (MergedLaunch smallNumbers .unsigned smallHeader
          [⟨0, twoThreads, s⟩])
        turnsCsv.rows merged.rows ∧
      merged.rows.map (fun row => row.find? "xbar_value") =
        [some ['5', '6'], some ['6', '5']] := by
  have hRun :
      ((byteMachine twoThreads).run DeviceState.start
        threadsTakeTurns).any
        (fun s =>
          decide (s.launch = 1) &&
            decide (s.Ended twoThreads) &&
            decide
              (s.saved.map (SavedBytes.record .unsigned) =
                [⟨0, 16, 0, 8⟩, ⟨0, 32, 4, 0⟩,
                  ⟨1, 64, 0, 0⟩, ⟨1, 1, 0, 0⟩]) &&
            decide
              (executed s.events 0 .load = 48 ∧
                executed s.events 0 .async = 8 ∧
                executed s.events 1 .load = 65)) =
          true := by
    decide +kernel
  rcases (Option.any_eq_true _ _).mp hRun with
    ⟨s, hSome, hState⟩
  simp only [Bool.and_eq_true, decide_eq_true_eq] at hState
  rcases hState with
    ⟨⟨⟨hLaunch, hEnded⟩, hSaved⟩, hExecuted⟩
  have hReach : (byteMachine twoThreads).Reachable s :=
    Machine.reachable_of_run (Machine.Reach.init rfl) hSome
  have hDone : s.Done twoThreads 0 ∧ s.Done twoThreads 1 :=
    ⟨Or.inl (by omega), Or.inr ⟨hLaunch.symm, hEnded⟩⟩
  have hDir :
      DeviceDir .unsigned turnsDir ⟨0, twoThreads, s⟩ :=
    { hasReader := rfl
      hasResult := rfl
      parseRank := rfl
      files := ⟨_, rfl, fun _ _ => ⟨_, rfl⟩⟩
      records := by
        refine ⟨1, ?_⟩
        rw [hSaved]
        decide }
  have hIndexed :
      RankDevice.Indexed ⟨0, twoThreads, s⟩ := by
    intro launch hLe launch' hLe' hSame
    change launch ≤ s.launch at hLe
    change launch' ≤ s.launch at hLe'
    have hIndex := congrArg BitVec.toNat hSame
    simp only [twoThreads, BitVec.toNat_ofNat] at hIndex
    omega
  have hReport :=
    memory_report smallNumbers turnsRoot turnsCsv rfl
      (by decide) .unsigned [⟨0, twoThreads, s⟩]
      (List.cons_ne_nil _ _)
      (fun device hMem => by
        rw [List.mem_singleton.mp hMem]
        exact hReach)
      (fun device hMem => by
        rw [List.mem_singleton.mp hMem]
        exact hIndexed)
      (List.nodup_singleton 0)
      (List.Forall₂.cons hDir List.Forall₂.nil)
  rcases hReport with ⟨merged, hMerge, hRows⟩
  have hValues :
      turnsValues =
        some (some [some ['5', '6'], some ['6', '5']]) := by
    decide +kernel
  unfold turnsValues at hValues
  rw [hMerge] at hValues
  exact ⟨s, merged, hReach, hDone, hExecuted, hMerge, hRows,
    Option.some.inj (Option.some.inj hValues)⟩

end Memory

end FabricPerf
