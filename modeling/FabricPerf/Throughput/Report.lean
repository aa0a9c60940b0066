import FabricPerf.Throughput.SavedStreams

/-
  From the leaders of all launches to the aggregates and rows
  of the throughput analysis.

  Once the leaders have returned, a result file holds the
  streams of a launch, and the analyzer reports what their
  histories say.

  Main declarations:
    * `Throughput.SavedDir`
    * `Throughput.WorkgroupReport`
    * `Throughput.rootLaunches_eq`, `Throughput.launchesOf_eq`
    * `Throughput.throughput_report`
-/

------------------------------------------------------------
-- Directories And Reports
------------------------------------------------------------

namespace FabricPerf

namespace Throughput

open Analysis Raising

/- The launches of a rank, in the order of their files. -/
structure RankResults where
  rank : Nat
  launches : List SavedLaunch

/- The receive-hook executions of all ranks. -/
def WorldState.arrivals
    {world : ThroughputWorld}
    (s : WorldState world)
    (results : List RankResults) : Nat :=
  (results.map (fun result =>
    (result.launches.map
      (s.launchArrivals result.rank)).sum)).sum

/- The directory of a rank, with a file for each launch. -/
structure SavedDir
    {world : ThroughputWorld}
    (s : WorldState world)
    (dir : TraceDir ThroughputRecords)
    (results : RankResults) : Prop where
  parseRank : dir.parseRank = .ok results.rank
  resultFiles :
    dir.resultFiles = results.launches.map SavedLaunch.file
  reader :
    ∃ parse, dir.loadReader = .ok parse ∧
      ∀ saved ∈ results.launches,
        parse saved.file =
          .ok ⟨some (s.table results.rank saved), none⟩

/- The key of a slice of a stream. -/
def workgroupKey
    (trace : String)
    (results : RankResults)
    (base : Nat)
    (w : Fin 4) : WorkgroupKey :=
  (trace, results.rank, base + w.val)

/-
  What is reported of a slice of the streams at one place of
  the grids of a rank: the rows of its leaders' histories,
  file by file, and the counters of their launches.
-/
structure WorkgroupReport
    {world : ThroughputWorld}
    (s : WorldState world)
    (variant trace : String)
    (results : RankResults)
    (block warp base : Nat)
    (w : Fin 4)
    (aggregates : List WorkgroupAggregate)
    (csvRows : List ArrivalRow) : Prop where
  rows :
    csvRows.filter
        (fun row =>
          row.key = workgroupKey trace results base w) =
      results.launches.flatMap (fun saved =>
        ((s (saved.place results.rank block
            warp)).leadersOf w).flatMap
          (historyRows variant
            (workgroupKey trace results base w) saved.file))
  reported :
    (∃ aggregate ∈ aggregates,
        aggregate.key = workgroupKey trace results base w) ↔
      ∃ saved ∈ results.launches,
        (s (saved.place results.rank block warp)).arrivals w ≠ 0
  arrivals :
    ∀ aggregate ∈ aggregates,
      aggregate.key = workgroupKey trace results base w →
        aggregate.arrivals =
          ((results.launches.map (fun saved =>
            (s (saved.place results.rank block
              warp)).arrivals w)).sum : Nat)
  counters :
    ∀ aggregate ∈ aggregates,
      aggregate.key = workgroupKey trace results base w →
        aggregate.counters =
          (results.launches.flatMap (fun saved =>
            (s (saved.place results.rank block warp)).launches
              base w)).foldl
                ThroughputAggregate.addCellLaunch
                ThroughputAggregate.new

------------------------------------------------------------
-- The Launches Of A Root
------------------------------------------------------------

section Roots

variable {world : ThroughputWorld} {s : WorldState world}
variable {root : TraceRoot ThroughputRecords}
variable {results : List RankResults}
variable {variant : String}

namespace WorldState

/- The launches of a slice of a warp, as they are found. -/
def sliceFound
    (s : WorldState world)
    (trace : String)
    (rank : Nat)
    (saved : SavedLaunch)
    (block warp : Nat)
    (w : Fin 4) : List FoundLaunch :=
  ((s (saved.place rank block warp)).launches
    (workgroupBaseForWarp block saved.blocks saved.warps warp)
    w).map (s.foundStream trace rank saved block warp).foundCell

/- The launches of a result file. -/
def fileFound
    (s : WorldState world)
    (trace : String)
    (rank : Nat)
    (saved : SavedLaunch) : List FoundLaunch :=
  (List.range saved.blocks).flatMap (fun block =>
    (List.range saved.warps).flatMap (fun warp =>
      (List.finRange 4).flatMap
        (s.sliceFound trace rank saved block warp)))

/- The launches of a directory. -/
def dirFound
    (s : WorldState world)
    (trace : String)
    (result : RankResults) : List FoundLaunch :=
  result.launches.flatMap (s.fileFound trace result.rank)

end WorldState

/- The key and the kind of a launch that is found. -/
theorem of_mem_sliceFound
    {trace : String}
    {rank block warp : Nat}
    {saved : SavedLaunch}
    {w : Fin 4}
    {found : FoundLaunch}
    (hMem :
      found ∈ s.sliceFound trace rank saved block warp w) :
    found.key =
        (trace, rank,
          workgroupBaseForWarp block saved.blocks saved.warps
            warp + w.val) ∧
      found.launch.counted = true := by
  rcases List.mem_map.mp hMem with ⟨launch, hLaunch, rfl⟩
  constructor
  · have hNumber := workgroup_of_mem_launches hLaunch
    exact congrArg (fun number => (trace, rank, number)) hNumber
  · exact counted_of_mem_launches hLaunch

/- A launch of a file is one of a slice. -/
theorem mem_fileFound_iff
    {trace : String}
    {rank : Nat}
    {saved : SavedLaunch}
    {found : FoundLaunch} :
    found ∈ s.fileFound trace rank saved ↔
      ∃ block < saved.blocks, ∃ warp < saved.warps, ∃ w,
        found ∈ s.sliceFound trace rank saved block warp w := by
  simp [WorldState.fileFound]

/- The streams of a directory give the launches of its files. -/
theorem found_dirStreams
    (hReach : (throughputMachine world).Reach WorldShort s)
    {dir : String × TraceDir ThroughputRecords}
    {result : RankResults}
    (hDir : SavedDir s dir.2 result)
    (hSettled :
      ∀ saved ∈ result.launches, s.Settled result.rank saved) :
    (dirStreams dir).flatMap FoundStream.found =
      s.dirFound dir.1 result := by
  rcases hDir.reader with ⟨parse, hReader, hParse⟩
  unfold dirStreams WorldState.dirFound
  rw [hReader, hDir.parseRank, hDir.resultFiles]
  simp only
  rw [List.flatMap_map, List.flatMap_assoc]
  apply List.flatMap_congr
  intro saved hSaved
  simp only [hParse saved hSaved]
  rw [fileStreams_table, List.flatMap_assoc]
  unfold WorldState.fileFound
  apply List.flatMap_congr
  intro block hBlock
  rw [List.flatMap_map]
  apply List.flatMap_congr
  intro warp hWarp
  exact
    found_foundStream hReach (hSettled saved hSaved)
      (List.mem_range.mp hBlock) (List.mem_range.mp hWarp)

/- Parts of related lists are parts of the pairs. -/
theorem flatMap_of_forall₂
    {α β γ : Type}
    {R : α → β → Prop}
    {l : List α}
    {l' : List β}
    (hAll : List.Forall₂ R l l')
    {f : α → List γ}
    {g : α × β → List γ}
    (hEq : ∀ a, ∀ b ∈ l', R a b → f a = g (a, b)) :
    l.flatMap f = (l.zip l').flatMap g := by
  induction hAll with
  | nil => rfl
  | @cons a b l l' hHead hTail ih =>
      rw [List.zip_cons_cons, List.flatMap_cons,
        List.flatMap_cons, hEq a b List.mem_cons_self hHead,
        ih (fun a b hMem =>
          hEq a b (List.mem_cons_of_mem _ hMem))]

/- Sums over the parts add up over the whole. -/
theorem sum_flatMap_cast
    {α β : Type}
    {l : List α}
    {f : α → List β}
    {weight : β → Int}
    {n : α → Nat}
    (hEach :
      ∀ a ∈ l, ((f a).map weight).sum = (n a : Int)) :
    ((l.flatMap f).map weight).sum =
      ((l.map n).sum : Nat) := by
  induction l with
  | nil => rfl
  | cons a rest ih =>
      rw [List.flatMap_cons, List.map_append, List.sum_append,
        hEach a List.mem_cons_self,
        ih (fun b hMem => hEach b (List.mem_cons_of_mem _ hMem)),
        List.map_cons, List.sum_cons, Nat.cast_add]

/- The launches of a root are those of its directories. -/
theorem rootLaunches_eq
    (hReach : (throughputMachine world).Reach WorldShort s)
    (hDirs :
      List.Forall₂ (fun dir result => SavedDir s dir.2 result)
        root.traceDirs results)
    (hSettled :
      ∀ result ∈ results, ∀ saved ∈ result.launches,
        s.Settled result.rank saved) :
    rootLaunches root =
      (root.traceDirs.zip results).flatMap
        (fun p => s.dirFound p.1.1 p.2) := by
  have hFound :
      root.traceDirs.flatMap
          (fun dir => (dirStreams dir).flatMap
            FoundStream.found) =
        (root.traceDirs.zip results).flatMap
          (fun p => s.dirFound p.1.1 p.2) :=
    flatMap_of_forall₂ hDirs
      (fun dir result hMem hDir =>
        found_dirStreams hReach hDir (hSettled result hMem))
  unfold rootLaunches rootStreams
  rw [List.flatMap_assoc, hFound, List.filter_eq_self]
  intro found hMem
  rcases List.mem_flatMap.mp hMem with ⟨p, _, hDir⟩
  rcases List.mem_flatMap.mp hDir with ⟨saved, _, hFile⟩
  rcases mem_fileFound_iff.mp hFile with
    ⟨block, _, warp, _, w, hSlice⟩
  exact (of_mem_sliceFound hSlice).2

/- The launches of a file with the key of a slice. -/
theorem filter_fileFound
    {trace : String}
    {rank block warp : Nat}
    {saved : SavedLaunch}
    (hBlock : block < saved.blocks)
    (hWarp : warp < saved.warps)
    (w : Fin 4) :
    (s.fileFound trace rank saved).filter
        (fun found =>
          found.key =
            (trace, rank,
              workgroupBaseForWarp block saved.blocks
                saved.warps warp + w.val)) =
      s.sliceFound trace rank saved block warp w := by
  -- A launch with this key is one of this slice.
  have hPlace :
      ∀ block' < saved.blocks, ∀ warp' < saved.warps, ∀ v,
        ∀ found ∈ s.sliceFound trace rank saved block' warp' v,
          found.key =
              (trace, rank,
                workgroupBaseForWarp block saved.blocks
                  saved.warps warp + w.val) →
            block' = block ∧ warp' = warp ∧ v = w := by
    intro block' hBlock' warp' hWarp' v found hMem hKey
    rw [(of_mem_sliceFound hMem).1, Prod.mk.injEq,
      Prod.mk.injEq] at hKey
    have hNumber := hKey.2.2
    rw [workgroupBaseForWarp_add, workgroupBaseForWarp_add]
      at hNumber
    rcases RowMajor.index_inj v.isLt w.isLt hNumber with
      ⟨hStream, hSlice⟩
    rcases streamIndex_inj hBlock' hWarp' hBlock hWarp
        hStream with ⟨hB, hW⟩
    exact ⟨hB, hW, Fin.ext hSlice⟩
  unfold WorldState.fileFound
  rw [List.filter_flatMap,
    Keyed.flatMap_eq_of_mem List.nodup_range
      (List.mem_range.mpr hBlock),
    List.filter_flatMap,
    Keyed.flatMap_eq_of_mem List.nodup_range
      (List.mem_range.mpr hWarp),
    List.filter_flatMap,
    Keyed.flatMap_eq_of_mem (List.nodup_finRange 4)
      (List.mem_finRange w),
    List.filter_eq_self]
  · intro found hMem
    exact decide_eq_true (of_mem_sliceFound hMem).1
  · intro v _ hNe
    rw [List.filter_eq_nil_iff]
    intro found hMem hKey
    exact hNe
      (hPlace block hBlock warp hWarp v found hMem
        (of_decide_eq_true hKey)).2.2
  · intro warp' hMem' hNe
    rw [List.filter_eq_nil_iff]
    intro found hMem hKey
    rcases List.mem_flatMap.mp hMem with ⟨v, _, hSlice⟩
    exact hNe
      (hPlace block hBlock warp' (List.mem_range.mp hMem') v
        found hSlice (of_decide_eq_true hKey)).2.1
  · intro block' hMem' hNe
    rw [List.filter_eq_nil_iff]
    intro found hMem hKey
    rcases List.mem_flatMap.mp hMem with ⟨warp', hIn, hRest⟩
    rcases List.mem_flatMap.mp hRest with ⟨v, _, hSlice⟩
    exact hNe
      (hPlace block' (List.mem_range.mp hMem') warp'
        (List.mem_range.mp hIn) v found hSlice
        (of_decide_eq_true hKey)).1

/- Launches of another rank have other keys. -/
theorem rank_of_mem_dirFound
    {trace : String}
    {result : RankResults}
    {found : FoundLaunch}
    (hMem : found ∈ s.dirFound trace result) :
    found.key.2.1 = result.rank := by
  rcases List.mem_flatMap.mp hMem with ⟨saved, _, hFile⟩
  rcases mem_fileFound_iff.mp hFile with
    ⟨block, _, warp, _, w, hSlice⟩
  rw [(of_mem_sliceFound hSlice).1]

/- The launches of the key of a slice, file by file. -/
theorem launchesOf_eq
    (hRoot :
      rootLaunches root =
        (root.traceDirs.zip results).flatMap
          (fun p => s.dirFound p.1.1 p.2))
    (hLength : root.traceDirs.length = results.length)
    (hRanks : (results.map RankResults.rank).Nodup)
    {p : (String × TraceDir ThroughputRecords) × RankResults}
    (hMem : p ∈ root.traceDirs.zip results)
    {blocks warps : Nat}
    (hShape :
      ∀ saved ∈ p.2.launches,
        saved.blocks = blocks ∧ saved.warps = warps)
    {block warp : Nat}
    (hBlock : block < blocks)
    (hWarp : warp < warps)
    (w : Fin 4) :
    launchesOf root
        (workgroupKey p.1.1 p.2
          (workgroupBaseForWarp block blocks warps warp) w) =
      p.2.launches.flatMap (fun saved =>
        s.sliceFound p.1.1 p.2.rank saved block warp w) := by
  have hNodup :
      ((root.traceDirs.zip results).map
        (fun p => p.2.rank)).Nodup := by
    have hSnd :=
      List.map_snd_zip (Nat.le_of_eq hLength.symm)
    rw [← hSnd, List.map_map] at hRanks
    exact hRanks
  unfold launchesOf
  rw [hRoot, List.filter_flatMap,
    Keyed.flatMap_eq_of_key hNodup hMem]
  · unfold WorldState.dirFound
    rw [List.filter_flatMap]
    apply List.flatMap_congr
    intro saved hSaved
    rcases hShape saved hSaved with ⟨hBlocks, hWarps⟩
    subst hBlocks
    subst hWarps
    exact filter_fileFound hBlock hWarp w
  · intro q _ hOther
    rw [List.filter_eq_nil_iff]
    intro found hFound hKey
    apply hOther
    rw [← rank_of_mem_dirFound hFound, of_decide_eq_true hKey]
    rfl

/- All arrivals of the launches of a root. -/
theorem sum_rootLaunches
    (hRoot :
      rootLaunches root =
        (root.traceDirs.zip results).flatMap
          (fun p => s.dirFound p.1.1 p.2))
    (hLength : root.traceDirs.length = results.length) :
    ((rootLaunches root).map FoundLaunch.arrivals).sum =
      (s.arrivals results : Int) := by
  have hStream :
      ∀ trace rank (saved : SavedLaunch) block warp,
        (((List.finRange 4).flatMap
            (s.sliceFound trace rank saved block warp)).map
              FoundLaunch.arrivals).sum =
          ((∑ g, ((s (saved.place rank block warp)).leader
            g).times.length : Nat) : Int) := by
    intro trace rank saved block warp
    rw [← sum_arrivals]
    exact sum_flatMap_cast
      (fun w _ => sum_arrivals_launches _)
  have hFile :
      ∀ trace rank saved,
        ((s.fileFound trace rank saved).map
            FoundLaunch.arrivals).sum =
          (s.launchArrivals rank saved : Int) := by
    intro trace rank saved
    apply sum_flatMap_cast
    intro block _
    apply sum_flatMap_cast
    intro warp _
    exact hStream trace rank saved block warp
  have hSnd := List.map_snd_zip (Nat.le_of_eq hLength.symm)
  unfold WorldState.arrivals
  rw [hRoot]
  conv_rhs => rw [← hSnd, List.map_map]
  apply sum_flatMap_cast
  intro p _
  apply sum_flatMap_cast
  intro saved _
  exact hFile p.1.1 p.2.rank saved

------------------------------------------------------------
-- The Report
------------------------------------------------------------

/- The streams of a file are read. -/
theorem addFile_saved
    {trace : String}
    {rank : Nat}
    {saved : SavedLaunch}
    {parse : ResultFile → Except PyErr ThroughputRecords}
    (hParse :
      parse saved.file = .ok ⟨some (s.table rank saved), none⟩)
    (state : ReadState) :
    ∃ next,
      addFile variant throughputWorkgroups trace rank parse
        state saved.file = .ok next := by
  unfold addFile
  rw [hParse, ok_bind, fileStreams_table]
  apply exists_foldlM_ok
  intro state stream hMem
  rcases List.mem_flatMap.mp hMem with ⟨block, _, hBlock⟩
  rcases List.mem_map.mp hBlock with ⟨warp, _, rfl⟩
  have hStream :
      ∃ launches,
        (s.foundStream trace rank saved block warp).launches
          throughputWorkgroups = .ok launches :=
    launches_foundStream block warp throughputWorkgroups
  rcases hStream with ⟨launches, hLaunches⟩
  unfold addStream
  rw [hLaunches, ok_bind]
  exact ⟨_, pure_eq_ok _⟩

/- So the root is read. -/
theorem read_savedDirs
    (hDirs :
      List.Forall₂ (fun dir result => SavedDir s dir.2 result)
        root.traceDirs results)
    (hSome : results ≠ [])
    (variant : String) :
    ∃ aggregates csvRows,
      readThroughputRoot root variant (some 4) =
        .ok (aggregates, csvRows) := by
  have hEach :
      ∀ state, ∀ dir ∈ root.traceDirs,
        ∃ next,
          addDir variant throughputWorkgroups state dir =
            .ok next := by
    intro state dir hMem
    rcases List.forall₂_iff_get.mp hDirs with ⟨hLength, hAll⟩
    rcases List.mem_iff_get.mp hMem with ⟨i, rfl⟩
    have hDir :=
      hAll i.1 i.2 (Nat.lt_of_lt_of_eq i.2 hLength)
    rcases hDir.reader with ⟨parse, hReader, hParse⟩
    have hRank := hDir.parseRank
    have hFiles := hDir.resultFiles
    simp only [List.get_eq_getElem] at hReader hRank hFiles
    unfold addDir
    simp only [List.get_eq_getElem]
    rw [hReader, ok_bind, hRank, ok_bind, hFiles]
    apply exists_foldlM_ok
    intro state file hFile
    rcases List.mem_map.mp hFile with ⟨saved, hSaved, rfl⟩
    exact addFile_saved (hParse saved hSaved) state
  rcases exists_foldlM_ok hEach ReadState.empty with
    ⟨state, hState⟩
  refine ⟨state.aggregates.values, state.csvRows, ?_⟩
  unfold readThroughputRoot throughputPartitions
  rw [if_pos rfl, pure_eq_ok, ok_bind,
    TraceRoot.iterTraceDirs_eq hDirs hSome, ok_bind, hState,
    ok_bind, pure_eq_ok]

/- The counters of a total are those of its launches. -/
theorem counters_total
    (key : WorkgroupKey)
    (launches : List FoundLaunch) :
    (WorkgroupAggregate.total variant key launches).counters =
      (launches.map FoundLaunch.launch).foldl
        (fun counters launch =>
          counters.addLaunch launch.deltas launch.totalArrivals
            launch.durationTicks launch.capacity)
        ThroughputAggregate.new := by
  unfold WorkgroupAggregate.total
  rw [List.foldl_map]
  induction launches using List.reverseRecOn with
  | nil => rfl
  | append_singleton earlier found ih =>
      rw [List.foldl_append, List.foldl_append, ← ih]
      rfl

/- The arrivals of a total are those of its launches. -/
theorem arrivals_total
    (key : WorkgroupKey)
    (launches : List FoundLaunch) :
    (WorkgroupAggregate.total variant key launches).arrivals =
      (launches.map FoundLaunch.arrivals).sum := by
  unfold WorkgroupAggregate.total
  induction launches using List.reverseRecOn with
  | nil => rfl
  | append_singleton earlier found ih =>
      rw [List.foldl_append, List.map_append, List.sum_append,
        ← ih]
      exact (arrivals_addLaunch found _).trans (by simp)

/- A decoded launch adds what it adds as a launch of cells. -/
theorem addLaunch_toLaunch
    (counters : ThroughputAggregate)
    (launch : CellLaunch) :
    counters.addLaunch launch.toLaunch.deltas
        launch.toLaunch.totalArrivals
        launch.toLaunch.durationTicks
        launch.toLaunch.capacity =
      counters.addCellLaunch launch := by
  have hDeltas :
      launch.toLaunch.deltas =
        launch.accepted.map Prod.snd := by
    simp [Launch.deltas, CellLaunch.toLaunch]
  rw [hDeltas]
  rfl

/- What the launches of a key make of a workgroup. -/
theorem workgroupReport_of_launchesOf
    {partitionsValue : Option Int}
    {aggregates : List WorkgroupAggregate}
    {csvRows : List ArrivalRow}
    (hRead :
      readThroughputRoot root variant partitionsValue =
        .ok (aggregates, csvRows))
    {trace : String}
    {result : RankResults}
    {blocks warps : Nat}
    (hShape :
      ∀ saved ∈ result.launches,
        saved.blocks = blocks ∧ saved.warps = warps)
    {block warp : Nat}
    {w : Fin 4}
    (hLaunches :
      launchesOf root
          (workgroupKey trace result
            (workgroupBaseForWarp block blocks warps warp) w) =
        result.launches.flatMap (fun saved =>
          s.sliceFound trace result.rank saved block warp w)) :
    WorkgroupReport s variant trace result block warp
      (workgroupBaseForWarp block blocks warps warp) w
      aggregates csvRows := by
  have hTotal :
      ∀ aggregate ∈ aggregates,
        aggregate.key =
            workgroupKey trace result
              (workgroupBaseForWarp block blocks warps warp)
              w →
          aggregate =
            WorkgroupAggregate.total variant
              (workgroupKey trace result
                (workgroupBaseForWarp block blocks warps warp)
                w)
              (result.launches.flatMap (fun saved =>
                s.sliceFound trace result.rank saved block
                  warp w)) := by
    intro aggregate hMem hKey
    have hSame := ((mem_aggregates_iff hRead).mp hMem).2
    rw [hKey, hLaunches] at hSame
    exact hSame
  constructor
  · rw [csvRows_eq hRead, filter_rows]
    change (launchesOf root _).flatMap _ = _
    rw [hLaunches, List.flatMap_assoc]
    apply List.flatMap_congr
    intro saved hSaved
    rcases hShape saved hSaved with ⟨hBlocks, hWarps⟩
    apply rows_launches
    · rfl
    · rfl
    · rw [hBlocks, hWarps]
      rfl
    · rfl
  · constructor
    · rintro ⟨aggregate, hMem, hKey⟩
      have hThere := ((mem_aggregates_iff hRead).mp hMem).1
      rw [hKey, hLaunches] at hThere
      by_contra hNone
      apply hThere
      rw [List.flatMap_eq_nil_iff]
      intro saved hSaved
      have hZero :
          (s (saved.place result.rank block warp)).arrivals
              w = 0 := by
        by_contra hSome
        exact hNone ⟨saved, hSaved, hSome⟩
      unfold WorldState.sliceFound
      rw [launches_eq_nil_iff.mpr hZero]
      rfl
    · rintro ⟨saved, hSaved, hSome⟩
      have hThere :
          s.sliceFound trace result.rank saved block warp w ≠
            [] := by
        intro hNil
        exact hSome
          (launches_eq_nil_iff.mp (List.map_eq_nil_iff.mp hNil))
      rcases List.exists_mem_of_ne_nil _ hThere with
        ⟨found, hFound⟩
      have hIn :
          found ∈ launchesOf root
            (workgroupKey trace result
              (workgroupBaseForWarp block blocks warps warp)
              w) := by
        rw [hLaunches]
        exact List.mem_flatMap.mpr ⟨saved, hSaved, hFound⟩
      rcases List.mem_filter.mp hIn with ⟨hRoot, hKey⟩
      rcases List.mem_map.mp (key_mem_aggregates hRead hRoot)
        with ⟨aggregate, hMem, hSame⟩
      exact
        ⟨aggregate, hMem,
          hSame.trans (of_decide_eq_true hKey)⟩
  · intro aggregate hMem hKey
    rw [hTotal aggregate hMem hKey, arrivals_total]
    exact sum_flatMap_cast
      (fun saved _ => sum_arrivals_launches _)
  · intro aggregate hMem hKey
    rw [hTotal aggregate hMem hKey, counters_total,
      List.map_flatMap]
    have hCells :
        (result.launches.flatMap (fun saved =>
            (s.sliceFound trace result.rank saved block warp
              w).map FoundLaunch.launch)) =
          (result.launches.flatMap (fun saved =>
            (s (saved.place result.rank block
              warp)).launches
                (workgroupBaseForWarp block blocks warps
                  warp) w)).map CellLaunch.toLaunch := by
      rw [List.map_flatMap]
      apply List.flatMap_congr
      intro saved hSaved
      rcases hShape saved hSaved with ⟨hBlocks, hWarps⟩
      unfold WorldState.sliceFound
      rw [List.map_map, hBlocks, hWarps]
      rfl
    rw [hCells, List.foldl_map]
    congr 1
    funext counters launch
    exact addLaunch_toLaunch counters launch

/-
  The analyzer reads what the leaders of all launches have
  left in the result files.  Its aggregates have all their
  receive-hook executions; and where the grids of a rank have
  one shape, each slice of each warp has the rows and the
  counters of its own history, over all launches.
-/
theorem throughput_report
    (hReach : (throughputMachine world).Reach WorldShort s)
    (hDirs :
      List.Forall₂ (fun dir result => SavedDir s dir.2 result)
        root.traceDirs results)
    (hSome : results ≠ [])
    (hSettled :
      ∀ result ∈ results, ∀ saved ∈ result.launches,
        s.Settled result.rank saved)
    (variant : String) :
    ∃ aggregates csvRows,
      readThroughputRoot root variant (some 4) =
          .ok (aggregates, csvRows) ∧
        (aggregates.map WorkgroupAggregate.arrivals).sum =
          (s.arrivals results : Int) ∧
        ((results.map RankResults.rank).Nodup →
          ∀ p ∈ root.traceDirs.zip results,
            ∀ blocks warps,
              (∀ saved ∈ p.2.launches,
                saved.blocks = blocks ∧
                  saved.warps = warps) →
                ∀ block < blocks, ∀ warp < warps, ∀ w,
                  WorkgroupReport s variant p.1.1 p.2 block
                    warp
                    (workgroupBaseForWarp block blocks warps
                      warp)
                    w aggregates csvRows) := by
  have hRoot := rootLaunches_eq hReach hDirs hSettled
  have hLength := hDirs.length_eq
  rcases read_savedDirs hDirs hSome variant with
    ⟨aggregates, csvRows, hRead⟩
  refine ⟨aggregates, csvRows, hRead, ?_, ?_⟩
  · rw [sum_aggregates hRead]
    exact sum_rootLaunches hRoot hLength
  · intro hRanks p hMem blocks warps hShape block hBlock warp
      hWarp w
    exact
      workgroupReport_of_launchesOf hRead hShape
        (launchesOf_eq hRoot hLength hRanks hMem hShape hBlock
          hWarp w)

end Roots

------------------------------------------------------------
-- One Launch Of One Rank
------------------------------------------------------------

/- Every warp has five workgroups. -/
def fiveWorld : ThroughputWorld := fun _ => fiveGroups

/- A launch of one warp. -/
def oneLaunchFile : SavedLaunch where
  launch := 0
  blocks := 1
  warps := 1
  file := ResultFile.empty "result/0.bin"

/- The only launch of rank 0. -/
def oneLaunchResults : RankResults where
  rank := 0
  launches := [oneLaunchFile]

/- A root with the directory of rank 0. -/
def oneLaunchRoot (s : WorldState fiveWorld) :
    TraceRoot ThroughputRecords where
  path := "run"
  name := "run"
  parentName := ""
  own :=
    { hasReader := false
      hasResult := false
      loadReader := .error .nameError
      resultFiles := []
      parseRank := .error .nameError }
  children :=
    [{ hasReader := true
       hasResult := true
       loadReader :=
        .ok (fun _ => .ok ⟨some (s.table 0 oneLaunchFile), none⟩)
       resultFiles := [oneLaunchFile.file]
       parseRank := .ok 0 }]

/- The state of the only warp when its leaders returned. -/
theorem exists_oneClamped :
    ∃ t : StreamState fiveGroups.groups,
      (sharedMachine fiveGroups).Reach Short t ∧
        t.Closed ∧ t.Alone ∧
        ∑ g, (t.leader g).times.length = 2 ∧
        (t.leadersOf 3).flatMap
            (historyRows "all" ("run", 0, 3)
              oneLaunchFile.file) =
          [⟨"run", 0, "all", "0.bin", 3, 0, 600, 8000, 0⟩] := by
  have hRun :
      (fiveGroups.shortRun oneClamped).any
        (fun t =>
          decide
            ((∀ g, (t.leader g).pending = [] ∧
              (t.leader g).flushed ≠ none) ∧
            (∀ g h : Fin fiveGroups.groups,
              sliceOf g = sliceOf h →
                (t.leader g).times ≠ [] →
                  (t.leader h).times ≠ [] → g = h) ∧
            ∑ g, (t.leader g).times.length = 2 ∧
            (t.leadersOf 3).flatMap
                (historyRows "all" ("run", 0, 3)
                  oneLaunchFile.file) =
              [⟨"run", 0, "all", "0.bin", 3, 0, 600, 8000,
                0⟩])) = true := by
    decide +kernel
  rcases (Option.any_eq_true _ _).mp hRun with
    ⟨t, hSome, hFinal⟩
  rcases of_decide_eq_true hFinal with
    ⟨hClosed, hAlone, hCount, hRows⟩
  exact
    ⟨t, reach_of_shortRun hSome, hClosed, hAlone, hCount, hRows⟩

/- Workgroup 4 is reported in the last slice. -/
theorem throughput_report_oneClamped :
    ∃ (s : WorldState fiveWorld) (aggregates : _)
      (csvRows : _),
      (throughputMachine fiveWorld).Reach WorldShort s ∧
        readThroughputRoot (oneLaunchRoot s) "all" (some 4) =
          .ok (aggregates, csvRows) ∧
        (aggregates.map WorkgroupAggregate.arrivals).sum = 2 ∧
        csvRows.filter (fun row => row.key = ("run", 0, 3)) =
          [⟨"run", 0, "all", "0.bin", 3, 0, 600, 8000, 0⟩] := by
  rcases exists_oneClamped with
    ⟨t, hStream, hClosed, hAlone, hCount, hRows⟩
  let place : StreamPlace := oneLaunchFile.place 0 0 0
  let start : WorldState fiveWorld :=
    fun _ => StreamState.start fiveGroups.groups
  let s : WorldState fiveWorld := Function.update start place t
  have hPlace : s place = t := Function.update_self ..
  have hStart :
      ∀ p, (sharedMachine (fiveWorld p)).init (start p) :=
    fun _ => ⟨fun _ _ => rfl, fun _ => ⟨100, rfl⟩⟩
  have hReach :
      (throughputMachine fiveWorld).Reach WorldShort s :=
    Machine.Reach.lift (fun _ => Short) hStart hStream
  have hDirs :
      List.Forall₂ (fun dir result => SavedDir s dir.2 result)
        (oneLaunchRoot s).traceDirs [oneLaunchResults] := by
    refine List.Forall₂.cons ⟨rfl, rfl, _, rfl, ?_⟩ .nil
    intro saved hMem
    rw [List.mem_singleton.mp hMem]
    rfl
  have hSettled :
      ∀ result ∈ [oneLaunchResults],
        ∀ saved ∈ result.launches,
          s.Settled result.rank saved := by
    intro result hResult saved hSaved
    rw [List.mem_singleton.mp hResult] at hSaved ⊢
    rw [List.mem_singleton.mp hSaved]
    intro block hBlock warp hWarp
    rw [Nat.lt_one_iff.mp hBlock, Nat.lt_one_iff.mp hWarp]
    change (s place).Closed ∧ (s place).Alone
    rw [hPlace]
    exact ⟨hClosed, hAlone⟩
  rcases throughput_report hReach hDirs (by simp) hSettled "all"
    with ⟨aggregates, csvRows, hRead, hSum, hReports⟩
  refine ⟨s, aggregates, csvRows, hReach, hRead, ?_, ?_⟩
  · have hTotal :
        s.arrivals [oneLaunchResults] =
          ∑ g, (t.leader g).times.length :=
      congrArg
        (fun u : StreamState fiveGroups.groups =>
          ∑ g, (u.leader g).times.length) hPlace
    rw [hSum, hTotal, hCount]
    rfl
  · have hReport :=
      hReports (by simp) (_, oneLaunchResults)
        List.mem_cons_self 1 1
        (by simp [oneLaunchResults, oneLaunchFile]) 0 (by decide)
        0 (by decide) 3
    refine hReport.rows.trans ?_
    change ((s place).leadersOf 3).flatMap _ ++ [] = _
    rw [hPlace, List.append_nil]
    exact hRows

end Throughput

end FabricPerf
