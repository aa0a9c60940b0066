import FabricPerf.Latency.SavedRows
import Mathlib.Data.BitVec
import Mathlib.Data.List.ReduceOption

/-
  From saved rows to the samples of the channels.

  The loops of `read_trace` sort the rows of all files into
  their channels and count them file by file; `channelStats`
  says what they should arrive at.

  Main declarations:
    * `Latency.channelStats`
    * `Latency.TallyOk`, `Latency.StatsOk`
    * `Latency.read_trace_saved`
-/

------------------------------------------------------------
-- What The Channels Should Hold
------------------------------------------------------------

namespace FabricPerf

namespace Latency

open Analysis

/- The rows of a channel. -/
def ofChannel
    (rows : List SavedRow)
    (c : Channel) : List SavedRow :=
  rows.filter (fun saved => saved.channel = c)

/-
  The samples of a channel: the valid rows with their
  latencies and steps, and the steps of the others.
-/
def channelStats
    (rows : List SavedRow)
    (c : Channel) : ChannelStats where
  latencies :=
    ((ofChannel rows c).filter SavedRow.valid).map
      (fun saved => saved.latency.toInt)
  steps :=
    ((ofChannel rows c).filter SavedRow.valid).map
      SavedRow.recordedStep
  invalidSteps :=
    ((ofChannel rows c).filter (fun saved => !saved.valid)).map
      SavedRow.recordedStep

/- What the analyzer does to the channel of a row. -/
def SavedRow.sample
    (saved : SavedRow)
    (channel : ChannelStats) : ChannelStats :=
  if saved.valid then
    channel.add saved.latency.toInt saved.recordedStep
  else
    channel.addInvalid saved.recordedStep

/- A row adds its sample to its own channel. -/
theorem channelStats_snoc_self
    (rows : List SavedRow)
    (saved : SavedRow) :
    channelStats (rows ++ [saved]) saved.channel =
      saved.sample (channelStats rows saved.channel) := by
  unfold channelStats ofChannel SavedRow.sample
  cases hValid : saved.valid with
  | false =>
      simp [List.filter_append, hValid,
        ChannelStats.addInvalid]
  | true =>
      simp [List.filter_append, hValid, ChannelStats.add]

/- A row leaves every other channel alone. -/
theorem channelStats_snoc_of_ne
    (rows : List SavedRow)
    {saved : SavedRow}
    {c : Channel}
    (hNe : c ≠ saved.channel) :
    channelStats (rows ++ [saved]) c = channelStats rows c := by
  unfold channelStats ofChannel
  simp [List.filter_append, hNe.symm]

/- Valid and invalid samples make up the rows of a channel. -/
theorem length_channelStats
    (rows : List SavedRow)
    (c : Channel) :
    (channelStats rows c).latencies.length +
        (channelStats rows c).invalidSteps.length =
      (ofChannel rows c).length := by
  simp only [channelStats, List.length_map]
  exact (List.length_eq_length_filter_add _).symm

------------------------------------------------------------
-- The Loop Over The Records
------------------------------------------------------------

/- The tally after a saved row. -/
def tallyRow
    (dir : TraceDir)
    (tally : Tally)
    (saved : SavedRow) : Tally where
  stats :=
    some
      ((tally.stats.getD
        (TraceStats.new dir.name dir.rank "vblock")).record
          saved.channel saved.sample)
  fileCounts := tally.fileCounts.update 0 saved.channel (· + 1)

/- The tally after a slot. -/
def tallySlot
    (dir : TraceDir)
    (tally : Tally)
    (slot : Option SavedRow) : Tally :=
  slot.elim tally (tallyRow dir tally)

/- One turn of the loop over the records. -/
theorem readRecord_slotRecord
    (dir : TraceDir)
    (tally : Tally)
    (slot : Option SavedRow) :
    readRecord dir "vblock" tally (slotRecord slot) =
      .ok (tallySlot dir tally slot) := by
  unfold readRecord
  rw [isUnwritten_slotRecord]
  cases slot with
  | none =>
      rfl
  | some saved =>
      have hStep :
          (slotRecord (some saved)).getAttr "step" =
            .ok saved.recordedStep := by
        rw [slotRecord_some, getAttr_step]
      have hLatency :
          (slotRecord (some saved)).getAttr "latency" =
            .ok saved.latency.toInt := by
        rw [slotRecord_some, getAttr_latency]
      simp only [Raising.ok_bind, hStep, hLatency,
        split_slotRecord, isInvalid_slotRecord,
        Option.isNone_some, Bool.false_eq_true, if_false]
      unfold tallySlot tallyRow
      cases hValid : saved.valid with
      | false =>
          have hSample :
              saved.sample =
                (·.addInvalid saved.recordedStep) := by
            funext channel
            simp [SavedRow.sample, hValid]
          rw [Option.elim_some, hSample]
          rfl
      | true =>
          have hSample :
              saved.sample =
                (·.add saved.latency.toInt
                  saved.recordedStep) := by
            funext channel
            simp [SavedRow.sample, hValid]
          rw [Option.elim_some, hSample]
          rfl

/- The unused slots of a file change nothing. -/
theorem foldl_tallySlot
    (dir : TraceDir)
    (tally : Tally)
    (slots : List (Option SavedRow)) :
    slots.foldl (tallySlot dir) tally =
      slots.reduceOption.foldl (tallyRow dir) tally := by
  induction slots generalizing tally with
  | nil =>
      rfl
  | cons slot rest ih =>
      cases slot with
      | none =>
          rw [List.reduceOption_cons_of_none]
          exact ih tally
      | some saved =>
          rw [List.reduceOption_cons_of_some]
          exact ih (tallyRow dir tally saved)

/- The number of samples of a channel in the files so far. -/
def perFileTotal (stats : TraceStats) (c : Channel) : Nat :=
  (stats.perFileCounts.map (fun counts => counts.get 0 c)).sum

/- The keys of a dictionary are the channels of the rows. -/
def KeysOf
    {ν : Type}
    (d : Dict Channel ν)
    (rows : List SavedRow) : Prop :=
  ∀ c, c ∈ d.keys ↔ ∃ saved ∈ rows, saved.channel = c

/- Updating the channel of a row adds it to the keys. -/
theorem keysOf_update
    {ν : Type}
    {d : Dict Channel ν}
    {rows : List SavedRow}
    (hKeys : KeysOf d rows)
    (saved : SavedRow)
    {default : ν}
    {f : ν → ν} :
    KeysOf (d.update default saved.channel f)
      (rows ++ [saved]) := by
  intro c
  rw [Dict.mem_keys_update, hKeys]
  simp only [List.mem_append, List.mem_singleton]
  constructor
  · rintro (hNew | ⟨other, hMem, hChannel⟩)
    · exact ⟨saved, Or.inr rfl, hNew.symm⟩
    · exact ⟨other, Or.inl hMem, hChannel⟩
  · rintro ⟨other, hMem | hSame, hChannel⟩
    · exact Or.inr ⟨other, hMem, hChannel⟩
    · rw [← hChannel, hSame]
      exact Or.inl rfl

/- The statistics hold exactly the samples of the rows. -/
structure Holds
    (stats : TraceStats)
    (rows : List SavedRow) : Prop where
  field : stats.channelField = "vblock"
  keys : KeysOf stats.channels rows
  samples :
    ∀ c, stats.channels.get ChannelStats.empty c =
      channelStats rows c

/- The counts of a file are those of its rows. -/
def Counts
    (counts : Dict Channel Nat)
    (rows : List SavedRow) : Prop :=
  KeysOf counts rows ∧
    ∀ c, counts.get 0 c = (ofChannel rows c).length

/- A row joins the samples. -/
theorem Holds.record
    {stats : TraceStats}
    {rows : List SavedRow}
    (hHolds : Holds stats rows)
    (saved : SavedRow) :
    Holds (stats.record saved.channel saved.sample)
      (rows ++ [saved]) where
  field := hHolds.field
  keys := keysOf_update hHolds.keys saved
  samples := by
    intro c
    simp only [TraceStats.record]
    by_cases hSame : c = saved.channel
    · rw [hSame, Dict.get_update_self, hHolds.samples,
        channelStats_snoc_self]
    · rw [Dict.get_update_of_ne hSame, hHolds.samples,
        channelStats_snoc_of_ne rows hSame]

/- A row joins the counts. -/
theorem Counts.update
    {counts : Dict Channel Nat}
    {rows : List SavedRow}
    (hCounts : Counts counts rows)
    (saved : SavedRow) :
    Counts (counts.update 0 saved.channel (· + 1))
      (rows ++ [saved]) := by
  rcases hCounts with ⟨hKeys, hGet⟩
  constructor
  · exact keysOf_update hKeys saved
  · intro c
    by_cases hSame : c = saved.channel
    · rw [hSame, Dict.get_update_self, hGet]
      simp [ofChannel, List.filter_append]
    · rw [Dict.get_update_of_ne hSame, hGet]
      simp [ofChannel, List.filter_append, Ne.symm hSame]

/-
  The tally in the middle of a file: the statistics hold the
  rows of the files before and of this one, and the counts of
  the files before are complete.
-/
structure TallyOk
    (tally : Tally)
    (before rows : List SavedRow) : Prop where
  none_iff : tally.stats = none ↔ before ++ rows = []
  holds :
    ∀ stats, tally.stats = some stats →
      Holds stats (before ++ rows) ∧
        ∀ c, perFileTotal stats c =
          (ofChannel before c).length
  counts : Counts tally.fileCounts rows

/- Fresh statistics hold no samples. -/
theorem holds_new (traceName : String) (rank : Int) :
    Holds (TraceStats.new traceName rank "vblock") [] where
  field := rfl
  keys := by
    intro c
    simp [TraceStats.new, Dict.keys, Dict.empty]
  samples := fun _ => rfl

/- A saved row keeps the tally. -/
theorem TallyOk.row
    (dir : TraceDir)
    {tally : Tally}
    {before rows : List SavedRow}
    (hOk : TallyOk tally before rows)
    (saved : SavedRow) :
    TallyOk (tallyRow dir tally saved) before
      (rows ++ [saved]) where
  none_iff := by
    simp [tallyRow]
  holds := by
    intro stats hSome
    have hStats := (Option.some.inj hSome).symm
    rw [hStats, ← List.append_assoc]
    cases hOld : tally.stats with
    | none =>
        have hEmpty := hOk.none_iff.mp hOld
        have hBefore := (List.append_eq_nil_iff.mp hEmpty).1
        rw [hEmpty, hBefore]
        constructor
        · exact (holds_new dir.name dir.rank).record saved
        · intro c
          rfl
    | some old =>
        rcases hOk.holds old hOld with ⟨hHolds, hTotal⟩
        constructor
        · exact hHolds.record saved
        · exact hTotal
  counts := hOk.counts.update saved

/- The rows of a file keep the tally. -/
theorem TallyOk.foldl
    (dir : TraceDir)
    {before : List SavedRow}
    (more : List SavedRow)
    {tally : Tally}
    {rows : List SavedRow}
    (hOk : TallyOk tally before rows) :
    TallyOk (more.foldl (tallyRow dir) tally) before
      (rows ++ more) := by
  induction more generalizing tally rows with
  | nil =>
      rw [List.append_nil]
      exact hOk
  | cons saved rest ih =>
      have hNext := ih (hOk.row dir saved)
      rw [List.append_assoc] at hNext
      exact hNext

------------------------------------------------------------
-- The Loop Over The Files
------------------------------------------------------------

/- A dictionary without entries has no keys. -/
theorem Counts.entries_eq_nil_iff
    {counts : Dict Channel Nat}
    {rows : List SavedRow}
    (hCounts : Counts counts rows) :
    counts.entries = [] ↔ rows = [] := by
  constructor
  · intro hEmpty
    rw [List.eq_nil_iff_forall_not_mem]
    intro saved hMem
    have hKey := (hCounts.1 saved.channel).mpr ⟨saved, hMem, rfl⟩
    unfold Dict.keys at hKey
    rw [hEmpty] at hKey
    exact absurd hKey List.not_mem_nil
  · intro hEmpty
    rw [List.eq_nil_iff_forall_not_mem]
    intro entry hMem
    have hKey : entry.1 ∈ counts.keys :=
      List.mem_map_of_mem hMem
    rcases (hCounts.1 _).mp hKey with ⟨saved, hIn, -⟩
    rw [hEmpty] at hIn
    exact absurd hIn List.not_mem_nil

/- The statistics between two files. -/
structure StatsOk
    (stats : Option TraceStats)
    (rows : List SavedRow) : Prop where
  none_iff : stats = none ↔ rows = []
  holds :
    ∀ found, stats = some found →
      Holds found rows ∧
        ∀ c, perFileTotal found c = (ofChannel rows c).length

/- A file begins with empty counts. -/
theorem StatsOk.start
    {stats : Option TraceStats}
    {rows : List SavedRow}
    (hOk : StatsOk stats rows) :
    TallyOk { stats := stats, fileCounts := Dict.empty } rows
      [] where
  none_iff := by
    rw [List.append_nil]
    exact hOk.none_iff
  holds := by
    rw [List.append_nil]
    exact hOk.holds
  counts := by
    constructor
    · intro c
      simp [Dict.keys, Dict.empty]
    · intro c
      rfl

/- A file ends by handing its counts over. -/
theorem TallyOk.finish
    {tally : Tally}
    {before rows : List SavedRow}
    (hOk : TallyOk tally before rows) :
    StatsOk tally.finish (before ++ rows) := by
  unfold Tally.finish
  cases hStats : tally.stats with
  | none =>
      have hEmpty := hOk.none_iff.mp hStats
      constructor
      · simp [hEmpty]
      · intro found hSome
        cases hSome
  | some stats =>
      rcases hOk.holds stats hStats with ⟨hHolds, hTotal⟩
      have hSome : before ++ rows ≠ [] := by
        intro hEmpty
        rw [hOk.none_iff.mpr hEmpty] at hStats
        cases hStats
      by_cases hEmpty : tally.fileCounts.entries = []
      · have hRows := hOk.counts.entries_eq_nil_iff.mp hEmpty
        simp only [if_pos hEmpty]
        constructor
        · simp [hSome]
        · intro found hFound
          rw [← Option.some.inj hFound]
          constructor
          · exact hHolds
          · intro c
            rw [hTotal, hRows, List.append_nil]
      · simp only [if_neg hEmpty]
        constructor
        · simp [hSome]
        · intro found hFound
          rw [← Option.some.inj hFound]
          constructor
          · exact
              { field := hHolds.field
                keys := hHolds.keys
                samples := hHolds.samples }
          · intro c
            have hBefore := hTotal c
            unfold perFileTotal at hBefore ⊢
            simp only [List.map_append, List.map_cons,
              List.map_nil, List.sum_append, List.sum_singleton,
              hBefore, hOk.counts.2]
            simp [ofChannel, List.filter_append]

/- A slot's record names its channel `vblock`. -/
theorem channelFieldFor_slotRecord
    (slot : Option SavedRow)
    (traceName : String) :
    channelFieldFor (slotRecord slot) traceName =
      .ok "vblock" := by
  cases slot with
  | none =>
      exact channelFieldFor_srLatencyRecord _ _ _ _
  | some saved =>
      exact channelFieldFor_srLatencyRecord _ _ _ _

/- The records of a file add its rows to the statistics. -/
theorem readRecords_slotRecord
    (dir : TraceDir)
    {stats : Option TraceStats}
    {before : List SavedRow}
    (hOk : StatsOk stats before)
    (slots : List (Option SavedRow)) :
    ∃ next,
      readRecords dir stats (slots.map slotRecord) =
          .ok next ∧
        StatsOk next (before ++ slots.reduceOption) := by
  cases slots with
  | nil =>
      constructor
      · exact ⟨rfl, by simpa using hOk⟩
  | cons slot rest =>
      have hFold :
          ((slot :: rest).map slotRecord).foldlM
              (readRecord dir "vblock")
              { stats := stats, fileCounts := Dict.empty } =
            .ok
              ((slot :: rest).reduceOption.foldl
                (tallyRow dir)
                { stats := stats
                  fileCounts := Dict.empty }) := by
        rw [List.foldlM_map, ← foldl_tallySlot]
        exact
          Raising.foldlM_ok
            (fun tally slot _ =>
              readRecord_slotRecord dir tally slot) _
      have hTally :=
        (hOk.start.foldl dir
          (slot :: rest).reduceOption).finish
      rw [List.nil_append] at hTally
      have hField :
          channelFieldFor (slotRecord slot) dir.name =
            .ok "vblock" :=
        channelFieldFor_slotRecord slot dir.name
      refine ⟨_, ?_, hTally⟩
      rw [List.map_cons] at hFold ⊢
      have hCheck :
          checkChannelField dir stats "vblock" = .ok () := by
        unfold checkChannelField
        cases hStats : stats with
        | none =>
            rfl
        | some old =>
            have hOld := (hOk.holds old hStats).1.field
            simp only [hOld, if_true, Raising.pure_eq_ok]
      unfold readRecords
      simp only [hField, hCheck, hFold, Raising.ok_bind,
        Raising.pure_eq_ok]

/- A result file of the three-map probe. -/
structure SavedFile where
  file : ResultFile
  slots : List (List (List (Option SavedRow)))
  threeMaps :
    ∃ header, readHeader file = .ok header ∧
      header.numProbes = 3

namespace SavedFile

/- The slots of a file in the order of the reader. -/
def flat (saved : SavedFile) : List (Option SavedRow) :=
  saved.slots.flatten.flatten

/- The rows of a file in the order of the reader. -/
def rows (saved : SavedFile) : List SavedRow :=
  saved.flat.reduceOption

end SavedFile

/- The generated reader yields every slot of a file. -/
def Delivers (reader : Reader) (saved : SavedFile) : Prop :=
  ∃ records,
    reader.parse saved.file = .ok records ∧
      records "sr_latency" =
        some (saved.slots.map (·.map (·.map slotRecord)))

/- A delivered file is decoded to its slots. -/
theorem Delivers.parse
    {reader : Reader}
    {saved : SavedFile}
    (hDelivers : Delivers reader saved) :
    parseSrLatencyRecords reader saved.file =
      .ok (saved.flat.map slotRecord) := by
  rcases hDelivers with ⟨records, hParse, hRecords⟩
  rcases saved.threeMaps with ⟨header, hHeader, hProbes⟩
  have hGenerated :
      ¬(header.numProbes = 1 ∨ header.numProbes = 2) := by
    omega
  unfold parseSrLatencyRecords parseGeneratedSrLatency
  rw [hHeader, Raising.ok_bind, if_neg hGenerated, hParse]
  simp only [hRecords, SavedFile.flat, List.map_flatten]

/- The files of a trace add their rows to the statistics. -/
theorem foldlM_readFile
    {reader : Reader}
    (dir : TraceDir)
    {files : List SavedFile}
    (hDelivers : ∀ saved ∈ files, Delivers reader saved)
    (progress : Progress)
    {before : List SavedRow}
    (hOk : StatsOk progress.stats before) :
    ∃ next,
      (files.map SavedFile.file).foldlM (readFile reader dir)
          progress = .ok next ∧
        StatsOk next.stats
          (before ++ files.flatMap SavedFile.rows) := by
  induction files generalizing progress before with
  | nil =>
      exact ⟨progress, rfl, by simpa using hOk⟩
  | cons saved rest ih =>
      have hParse :=
        (hDelivers saved List.mem_cons_self).parse
      rcases readRecords_slotRecord dir hOk
        saved.flat with ⟨stats, hRead, hStats⟩
      have hRest :=
        ih
          (fun other hMem =>
            hDelivers other (List.mem_cons_of_mem _ hMem))
          { progress with stats := stats }
          hStats
      rcases hRest with ⟨next, hFold, hNext⟩
      refine ⟨next, ?_, ?_⟩
      · rw [List.map_cons, List.foldlM_cons]
        unfold readFile
        simp only [hParse, hRead, Raising.ok_bind,
          Raising.pure_eq_ok]
        exact hFold
      · rw [List.flatMap_cons, ← List.append_assoc]
        exact hNext

/-
  Every saved row is found in its own channel, and nothing
  else is.
-/
theorem read_trace_saved
    (reader : Reader)
    (dir : TraceDir)
    (files : List SavedFile)
    (hDelivers : ∀ saved ∈ files, Delivers reader saved) :
    let rows := files.flatMap SavedFile.rows
    let outcome :=
      readTrace reader dir (files.map SavedFile.file)
    (∀ slot, isUnwrittenLatencyRecord (slotRecord slot)
      "vblock" = .ok slot.isNone) ∧
    (rows = [] →
      ∃ text,
        outcome = .error (.fileNotFoundError text) ∨
          outcome = .error (.valueError text)) ∧
    (rows ≠ [] →
      ∃ stats, outcome = .ok stats ∧
        ∀ c,
          (c ∈ stats.channels.keys ↔
            ∃ saved ∈ rows, saved.channel = c) ∧
          stats.channels.get ChannelStats.empty c =
            channelStats rows c ∧
          perFileTotal stats c =
            (channelStats rows c).latencies.length +
              (channelStats rows c).invalidSteps.length) := by
  have hStart :
      StatsOk ({ stats := none, skippedMalformed := 0 } :
        Progress).stats [] := by
    constructor
    · simp
    · intro found hSome
      cases hSome
  rcases foldlM_readFile dir hDelivers
    { stats := none, skippedMalformed := 0 } hStart with
    ⟨next, hFold, hNext⟩
  rw [List.nil_append] at hNext
  intro rows outcome
  constructor
  · exact isUnwritten_slotRecord
  constructor
  · intro hEmpty
    have hNone := hNext.none_iff.mpr hEmpty
    simp only [outcome, readTrace]
    split
    · exact ⟨_, Or.inl rfl⟩
    · rw [hFold, Raising.ok_bind, hNone]
      exact ⟨_, Or.inr rfl⟩
  · intro hSome
    have hFiles : files.map SavedFile.file ≠ [] := by
      intro hEmpty
      apply hSome
      have hNil := List.map_eq_nil_iff.mp hEmpty
      simp only [rows, hNil, List.flatMap_nil]
    cases hStats : next.stats with
    | none =>
        exact absurd (hNext.none_iff.mp hStats) hSome
    | some found =>
        rcases hNext.holds found hStats with ⟨hHolds, hTotal⟩
        refine
          ⟨{ found with
              skippedMalformed := next.skippedMalformed },
            ?_, ?_⟩
        · simp only [outcome, readTrace, if_neg hFiles, hFold,
            hStats, Raising.ok_bind, Raising.pure_eq_ok]
        · intro c
          refine ⟨hHolds.keys c, hHolds.samples c, ?_⟩
          rw [length_channelStats]
          exact hTotal c

------------------------------------------------------------
-- A Trace Of One File
------------------------------------------------------------

/- A row of source 5 and vblock 7. -/
def sampleRow
    (latency step : BitVec 64)
    (invalid : Bool) : SavedRow where
  source := 5
  vblock := 7
  latency := latency
  step := step
  invalid := invalid
  source_lt := by decide
  vblock_lt := by decide

/- A negative latency, an unused slot and a flagged row. -/
def oneFile : SavedFile where
  file :=
    { path := "result/0.bin"
      contents := List.replicate 28 0 ++ [3, 0, 0, 0]
      short := by decide }
  slots :=
    [[[some (sampleRow (-120) (2 ^ 32 + 42) false), none],
      [some (sampleRow 900 43 true)]]]
  threeMaps := by
    refine ⟨⟨0, 0, 0, 0, 0, 0, 0, 3⟩, ?_, ?_⟩
    · decide +kernel
    · rfl

/- The reader of the file. -/
def oneFileReader : Reader where
  srLatency := some srLatencyType
  parse := fun _ =>
    .ok
      (fun name =>
        if name = "sr_latency" then
          some (oneFile.slots.map (·.map (·.map slotRecord)))
        else
          none)

/- One valid and one invalid sample of the channel. -/
theorem read_trace_saved_oneFile :
    ∃ stats,
      readTrace oneFileReader ⟨"trace", "trace/rank0", 0⟩
          [oneFile.file] = .ok stats ∧
        stats.channels.get ChannelStats.empty (5, 7) =
            ⟨[-120], [42], [43]⟩ ∧
          perFileTotal stats (5, 7) = 2 := by
  have hDelivers :
      ∀ saved ∈ [oneFile], Delivers oneFileReader saved := by
    intro saved hMem
    rw [List.mem_singleton.mp hMem]
    exact ⟨_, rfl, rfl⟩
  have hRows :
      [oneFile].flatMap SavedFile.rows =
        [sampleRow (-120) (2 ^ 32 + 42) false,
          sampleRow 900 43 true] := rfl
  have hSome : [oneFile].flatMap SavedFile.rows ≠ [] := by
    rw [hRows]
    exact List.cons_ne_nil _ _
  have hChannel :
      channelStats ([oneFile].flatMap SavedFile.rows) (5, 7) =
        ⟨[-120], [42], [43]⟩ := by
    rw [hRows]
    decide
  rcases
    (read_trace_saved oneFileReader
      ⟨"trace", "trace/rank0", 0⟩ [oneFile] hDelivers).2.2
      hSome with ⟨stats, hOk, hAll⟩
  rcases hAll (5, 7) with ⟨-, hSamples, hTotal⟩
  rw [hChannel] at hSamples hTotal
  exact ⟨stats, hOk, hSamples, hTotal⟩

end Latency

end FabricPerf
