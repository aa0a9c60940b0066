import FabricPerf.Throughput.ReadRoot

/-
  The launches that are read under a trace root, as one list.

  What `readThroughputRoot` returns is a function of this
  list: its rows are those of the launches in order, and the
  aggregate of a key is the total of the launches of the key.

  Main declarations:
    * `Throughput.rootStreams`, `Throughput.rootLaunches`
    * `Throughput.csvRows_eq`
    * `Throughput.mem_aggregates_iff`
    * `Throughput.nodup_keys_aggregates`
-/

------------------------------------------------------------
-- Streams And Launches Of A Root
------------------------------------------------------------

namespace FabricPerf

namespace Throughput

open Analysis Raising

/- The launches a stream gives. -/
def FoundStream.found (stream : FoundStream) :
    List FoundLaunch :=
  match stream.launches throughputWorkgroups with
  | .ok launches => launches.map (FoundLaunch.mk stream)
  | .error _ => []

/- The streams of the result files of a directory. -/
def dirStreams (dir : String × TraceDir ThroughputRecords) :
    List FoundStream :=
  match dir.2.loadReader, dir.2.parseRank with
  | .ok parse, .ok rank =>
      dir.2.resultFiles.flatMap (fun file =>
        match parse file with
        | .ok parsed => fileStreams dir.1 rank file parsed
        | .error _ => [])
  | _, _ => []

/- All streams under a trace root. -/
def rootStreams (root : TraceRoot ThroughputRecords) :
    List FoundStream :=
  root.traceDirs.flatMap dirStreams

/- All launches under a trace root that are not skipped. -/
def rootLaunches (root : TraceRoot ThroughputRecords) :
    List FoundLaunch :=
  ((rootStreams root).flatMap FoundStream.found).filter
    (fun found => found.launch.counted)

/- The launches that enter the aggregate of a key. -/
def launchesOf
    (root : TraceRoot ThroughputRecords)
    (key : WorkgroupKey) : List FoundLaunch :=
  (rootLaunches root).filter (fun found => found.key = key)

/- The aggregate of some launches of a key. -/
def WorkgroupAggregate.total
    (variant : String)
    (key : WorkgroupKey)
    (launches : List FoundLaunch) : WorkgroupAggregate :=
  launches.foldl
    (fun aggregate found => aggregate.addLaunch found.launch)
    (WorkgroupAggregate.new variant key)

/- Adding launches keeps what the aggregate is of. -/
theorem WorkgroupAggregate.key_total
    (variant : String)
    (key : WorkgroupKey)
    (launches : List FoundLaunch) :
    (WorkgroupAggregate.total variant key launches).key =
      key := by
  unfold WorkgroupAggregate.total
  induction launches using List.reverseRecOn with
  | nil => rfl
  | append_singleton earlier found ih =>
      rw [List.foldl_append]
      exact ih

------------------------------------------------------------
-- One Loop
------------------------------------------------------------

variable {variant : String}
variable {state state' : ReadState}

/- Only four partitions are accepted. -/
theorem throughputPartitions_ok
    {value : Option Int}
    {partitions : Nat}
    (hOk : throughputPartitions value = .ok partitions) :
    partitions = throughputWorkgroups := by
  unfold throughputPartitions at hOk
  split at hOk
  · cases hOk
    rfl
  · cases hOk

/- A stream adds its launches. -/
theorem addStream_ok
    {stream : FoundStream}
    (hOk :
      addStream variant throughputWorkgroups state stream =
        .ok state') :
    state' =
      stream.found.foldl (ReadState.addLaunch variant)
        state := by
  rcases bind_eq_ok_iff.mp hOk with ⟨launches, hLaunches, hSame⟩
  unfold FoundStream.found
  rw [hLaunches]
  exact (Except.ok.inj hSame).symm

/- A directory adds the launches of its streams. -/
theorem addDir_ok
    {dir : String × TraceDir ThroughputRecords}
    (hOk :
      addDir variant throughputWorkgroups state dir =
        .ok state') :
    state' =
      ((dirStreams dir).flatMap FoundStream.found).foldl
        (ReadState.addLaunch variant) state := by
  rcases bind_eq_ok_iff.mp hOk with ⟨parse, hReader, hParse⟩
  rcases bind_eq_ok_iff.mp hParse with ⟨rank, hRank, hFiles⟩
  unfold dirStreams
  rw [hReader, hRank, List.flatMap_assoc]
  refine eq_foldl_flatMap_of_foldlM ?_ hFiles
  intro file before after hFile
  rcases bind_eq_ok_iff.mp hFile with ⟨parsed, hParsed, hStreams⟩
  rw [hParsed]
  exact
    eq_foldl_flatMap_of_foldlM
      (fun _ _ _ hStream => addStream_ok hStream) hStreams

/- Reading goes through the launches of all streams. -/
theorem readThroughputRoot_ok
    {root : TraceRoot ThroughputRecords}
    {partitionsValue : Option Int}
    {aggregates : List WorkgroupAggregate}
    {csvRows : List ArrivalRow}
    (hRead :
      readThroughputRoot root variant partitionsValue =
        .ok (aggregates, csvRows)) :
    ∃ state : ReadState,
      state =
        ((rootStreams root).flatMap FoundStream.found).foldl
          (ReadState.addLaunch variant) ReadState.empty ∧
        aggregates = state.aggregates.values ∧
        csvRows = state.csvRows := by
  rcases bind_eq_ok_iff.mp hRead with
    ⟨partitions, hPartitions, hRest⟩
  rcases bind_eq_ok_iff.mp hRest with ⟨dirs, hDirs, hLoop⟩
  rcases bind_eq_ok_iff.mp hLoop with ⟨state, hState, hSame⟩
  rw [throughputPartitions_ok hPartitions,
    TraceRoot.iterTraceDirs_ok hDirs] at hState
  refine ⟨state, ?_, ?_⟩
  · unfold rootStreams
    rw [List.flatMap_assoc]
    exact
      eq_foldl_flatMap_of_foldlM
        (fun _ _ _ hDir => addDir_ok hDir) hState
  · have hPair := Except.ok.inj hSame
    exact
      ⟨(congrArg Prod.fst hPair).symm,
        (congrArg Prod.snd hPair).symm⟩

------------------------------------------------------------
-- Rows And Aggregates
------------------------------------------------------------

/- The rows after a run over launches. -/
theorem csvRows_foldl
    (launches : List FoundLaunch)
    (state : ReadState) :
    (launches.foldl (ReadState.addLaunch variant)
        state).csvRows =
      state.csvRows ++
        (launches.filter (fun found =>
          found.launch.counted)).flatMap
            (FoundLaunch.rows variant) := by
  induction launches generalizing state with
  | nil => simp
  | cons found rest ih =>
      rw [List.foldl_cons, ih]
      cases hCounted : found.launch.counted <;>
        simp [ReadState.addLaunch, hCounted]

/- A launch that is skipped has no rows. -/
theorem flatMap_rows_filter (launches : List FoundLaunch) :
    (launches.filter (fun found =>
        found.launch.counted)).flatMap
          (FoundLaunch.rows variant) =
      launches.flatMap (FoundLaunch.rows variant) := by
  induction launches with
  | nil => rfl
  | cons found rest ih =>
      rw [List.flatMap_cons, ← ih]
      cases hCounted : found.launch.counted with
      | true => simp [hCounted]
      | false =>
          have hNone : found.launch.accepted = [] := by
            simpa [Launch.counted] using
              (Bool.or_eq_false_iff.mp hCounted).1
          simp [hCounted, FoundLaunch.rows, hNone]

/- The aggregates after a run over launches. -/
theorem aggregates_foldl
    (launches : List FoundLaunch)
    (state : ReadState) :
    (launches.foldl (ReadState.addLaunch variant)
        state).aggregates =
      (launches.filter (fun found =>
        found.launch.counted)).foldl
          (fun aggregates found =>
            aggregates.update
              (WorkgroupAggregate.new variant found.key)
              found.key
              (fun aggregate =>
                aggregate.addLaunch found.launch))
          state.aggregates := by
  induction launches generalizing state with
  | nil => rfl
  | cons found rest ih =>
      rw [List.foldl_cons, ih]
      cases hCounted : found.launch.counted <;>
        simp [ReadState.addLaunch, hCounted]

/- The aggregates of a root, entered launch by launch. -/
def enterLaunches
    (variant : String)
    (launches : List FoundLaunch) :
    Dict WorkgroupKey WorkgroupAggregate :=
  launches.foldl
    (fun aggregates found =>
      aggregates.update
        (WorkgroupAggregate.new variant found.key) found.key
        (fun aggregate => aggregate.addLaunch found.launch))
    Dict.empty

/- A key has the total of its launches, if there are any. -/
theorem find?_enterLaunches
    (root : TraceRoot ThroughputRecords)
    (key : WorkgroupKey) :
    (enterLaunches variant (rootLaunches root)).find? key =
      if (launchesOf root key).isEmpty then
        none
      else
        some
          (WorkgroupAggregate.total variant key
            (launchesOf root key)) := by
  have hFind :=
    Dict.find?_foldl_update FoundLaunch.key
      (WorkgroupAggregate.new variant)
      (fun found aggregate => aggregate.addLaunch found.launch)
      (rootLaunches root) Dict.empty key
  refine Eq.trans hFind ?_
  unfold launchesOf
  cases (rootLaunches root).filter
      (fun found => found.key = key) <;> rfl

/- An entry is the total of the launches of its key. -/
theorem mem_entries_enterLaunches_iff
    {root : TraceRoot ThroughputRecords}
    {key : WorkgroupKey}
    {aggregate : WorkgroupAggregate} :
    (key, aggregate) ∈
        (enterLaunches variant (rootLaunches root)).entries ↔
      launchesOf root key ≠ [] ∧
        aggregate =
          WorkgroupAggregate.total variant key
            (launchesOf root key) := by
  rw [← Dict.find?_eq_some_iff, find?_enterLaunches]
  split
  case isTrue hNone =>
      have hEmpty : launchesOf root key = [] := by
        simpa using hNone
      simp [hEmpty]
  case isFalse hSome =>
      have hThere : launchesOf root key ≠ [] := by
        simpa using hSome
      rw [Option.some_inj]
      constructor
      · intro hTotal
        exact ⟨hThere, hTotal.symm⟩
      · intro hTotal
        exact hTotal.2.symm

/- An aggregate stands under its own key. -/
theorem key_of_mem_entries
    {root : TraceRoot ThroughputRecords}
    {key : WorkgroupKey}
    {aggregate : WorkgroupAggregate}
    (hMem :
      (key, aggregate) ∈
        (enterLaunches variant (rootLaunches root)).entries) :
    aggregate.key = key := by
  rw [(mem_entries_enterLaunches_iff.mp hMem).2]
  exact WorkgroupAggregate.key_total variant key _

------------------------------------------------------------
-- What Is Returned
------------------------------------------------------------

variable {root : TraceRoot ThroughputRecords}
variable {partitionsValue : Option Int}
variable {aggregates : List WorkgroupAggregate}
variable {csvRows : List ArrivalRow}

/- The rows are those of the launches, in order. -/
theorem csvRows_eq
    (hRead :
      readThroughputRoot root variant partitionsValue =
        .ok (aggregates, csvRows)) :
    csvRows =
      (rootLaunches root).flatMap
        (FoundLaunch.rows variant) := by
  rcases readThroughputRoot_ok hRead with
    ⟨state, hState, _, hRows⟩
  rw [hRows, hState, csvRows_foldl]
  rfl

/- The aggregates are those entered for the launches. -/
theorem aggregates_eq
    (hRead :
      readThroughputRoot root variant partitionsValue =
        .ok (aggregates, csvRows)) :
    aggregates =
      (enterLaunches variant (rootLaunches root)).values := by
  rcases readThroughputRoot_ok hRead with
    ⟨state, hState, hValues, _⟩
  rw [hValues, hState, aggregates_foldl]
  rfl

/-
  The aggregates are the totals of the launches of a key, for
  the keys that have any.
-/
theorem mem_aggregates_iff
    (hRead :
      readThroughputRoot root variant partitionsValue =
        .ok (aggregates, csvRows))
    {aggregate : WorkgroupAggregate} :
    aggregate ∈ aggregates ↔
      launchesOf root aggregate.key ≠ [] ∧
        aggregate =
          WorkgroupAggregate.total variant aggregate.key
            (launchesOf root aggregate.key) := by
  rw [aggregates_eq hRead, Dict.mem_values_iff]
  constructor
  · rintro ⟨key, hMem⟩
    rw [key_of_mem_entries hMem]
    exact mem_entries_enterLaunches_iff.mp hMem
  · intro hTotal
    exact
      ⟨aggregate.key, mem_entries_enterLaunches_iff.mpr hTotal⟩

/- No two aggregates have one key. -/
theorem nodup_keys_aggregates
    (hRead :
      readThroughputRoot root variant partitionsValue =
        .ok (aggregates, csvRows)) :
    (aggregates.map WorkgroupAggregate.key).Nodup := by
  have hKeys :
      aggregates.map WorkgroupAggregate.key =
        (enterLaunches variant (rootLaunches root)).keys := by
    rw [aggregates_eq hRead]
    unfold Dict.values Dict.keys
    rw [List.map_map]
    apply List.map_congr_left
    rintro ⟨key, aggregate⟩ hMem
    exact key_of_mem_entries hMem
  rw [hKeys]
  exact Dict.nodup_keys _

/- Every launch has an aggregate of its key. -/
theorem key_mem_aggregates
    (hRead :
      readThroughputRoot root variant partitionsValue =
        .ok (aggregates, csvRows))
    {found : FoundLaunch}
    (hMem : found ∈ rootLaunches root) :
    found.key ∈ aggregates.map WorkgroupAggregate.key := by
  have hThere : launchesOf root found.key ≠ [] := by
    apply List.ne_nil_of_mem (a := found)
    exact List.mem_filter.mpr ⟨hMem, decide_eq_true rfl⟩
  have hKey :=
    WorkgroupAggregate.key_total variant found.key
      (launchesOf root found.key)
  rw [List.mem_map]
  refine ⟨_, (mem_aggregates_iff hRead).mpr ⟨?_, ?_⟩, hKey⟩
  · rw [hKey]
    exact hThere
  · rw [hKey]

end Throughput

end FabricPerf
