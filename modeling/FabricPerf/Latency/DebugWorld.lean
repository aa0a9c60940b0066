import FabricPerf.Analysis.Words
import FabricPerf.Latency.DebugReport
import FabricPerf.Latency.Report

/-
  The debug report of a whole world: what the mailbox
  analyzer counts when the debug maps hold the rows that the
  receive hooks of all ranks have saved.

  The generated reader may read the words of a map with or
  without a sign.  A count of mismatches then only shows
  which values the reading cannot tell apart.

  Main declarations:
    * `Latency.debugRecord_of_seen`
    * `Latency.debug_report`
-/

------------------------------------------------------------
-- Words Of The Receive Hook
------------------------------------------------------------

namespace FabricPerf

namespace Latency

open Analysis Raising

/- The sentinel is the same word in both readings. -/
theorem read_eq_sentinel_iff
    {reading : WordReading}
    {word : BitVec 64} :
    reading.read word = latencyInvalidSentinel ↔
      word.toInt = latencyInvalidSentinel := by
  have hLt := word.isLt
  cases reading with
  | signed => exact Iff.rfl
  | unsigned =>
      simp only [WordReading.read, latencyInvalidSentinel,
        BitVec.toInt_eq_toNat_cond]
      omega

/-
  The step in a tag is the step that was recorded, unless
  the latter does not fit half a word.
-/
theorem upper_mailboxTag_eq_iff
    {reading : WordReading}
    {step : BitVec 64}
    {runId : BitVec 32} :
    reading.upper (mailboxTag step runId) = reading.read step ↔
      reading.Fits 32 (reading.read step) := by
  constructor
  · intro hSame
    rw [← hSame]
    exact WordReading.fits_upper _
  · intro hFits
    apply (WordReading.fits_upper _).eq_of_emod (by decide) hFits
    have hTag := reading.read_emod (mailboxTag step runId)
    have hStep := reading.read_emod step
    rw [toNat_mailboxTag] at hTag
    unfold WordReading.upper
    rw [Int.shiftRight_eq_div_pow]
    omega

------------------------------------------------------------
-- Rows Of The Map
------------------------------------------------------------

/- The generated class of the map `sr_latency_debug`. -/
def srLatencyDebugType : RecordType where
  names :=
    ["latency", "meta", "step", "tag", "sender_time", "offset",
      "corrected_sender_time", "local_time"]
  distinct := by decide

/- The words of a row in the order of its fields. -/
def SrLatencyDebug.words (row : SrLatencyDebug) :
    List (BitVec 64) :=
  [row.latency, row.info, row.step, row.tag, row.senderTime,
    row.offset, row.correctedSenderTime, row.localTime]

/- The row of an unused slot. -/
def SrLatencyDebug.unused : SrLatencyDebug where
  latency := 0
  info := 0
  step := 0
  tag := 0
  senderTime := 0
  offset := 0
  correctedSenderTime := 0
  localTime := 0

/- The record of a row. -/
def srLatencyDebugRecord
    (reading : WordReading)
    (row : SrLatencyDebug) : Record where
  type := srLatencyDebugType
  values := row.words.map reading.read
  arity := rfl

/- The record of a slot; an unused slot is zero. -/
def debugSlotRecord
    (reading : WordReading)
    (slot : Option SrLatencyDebug) : Record :=
  srLatencyDebugRecord reading (slot.getD .unused)

/- The debug row of a record of a slot. -/
def SlotTaken.debugRow (row : SlotTaken) : SrLatencyDebug :=
  row.2.hit.srLatencyDebugRow

/- Whether the latency analyzer takes it for a sample. -/
def SlotTaken.sampled (row : SlotTaken) : Bool :=
  row.2.row.sampled

/-
  What the debug analyzer should say about a record that a
  slot has saved.
-/
def SlotTaken.debugRecord
    (reading : WordReading)
    (world : MailWorld)
    (traceName : String)
    (row : SlotTaken) : DebugRecord :=
  let slot := row.1
  let hit := row.2.hit
  let runId := world.runId row.2.launch
  { trace := traceName
    rank := slot.receiver.toNat
    src := slot.source.toNat
    vblock := slot.vblock.toNat
    pollCount := hit.misses
    latency :=
      reading.read
        (savedLatency hit.localTime hit.time hit.offset)
    step := reading.read hit.step
    tag := reading.read (mailboxTag hit.step runId)
    tagStep := reading.upper (mailboxTag hit.step runId)
    tagRunId := (runId.toNat % 2 ^ 24 : Nat)
    tagKind := tagKind
    senderTime := reading.read hit.time
    offset := reading.read hit.offset
    correctedSenderTime :=
      reading.read (correctedSenderTime hit.time hit.offset)
    localTime := reading.read hit.localTime
    invalid := !row.sampled }

/- What is decoded from the words of a row. -/
def SrLatencyDebug.decoded
    (reading : WordReading)
    (traceName : String)
    (rank : Nat)
    (row : SrLatencyDebug) : DebugRecord :=
  let info := reading.read row.info
  let tag := reading.read row.tag
  { trace := traceName
    rank := rank
    src := (decodeMeta info).2.1
    vblock := (decodeMeta info).2.2
    pollCount := (decodeMeta info).1
    latency := reading.read row.latency
    step := reading.read row.step
    tag := tag
    tagStep := (decodeTag tag).1
    tagRunId := (decodeTag tag).2.1
    tagKind := (decodeTag tag).2.2
    senderTime := reading.read row.senderTime
    offset := reading.read row.offset
    correctedSenderTime := reading.read row.correctedSenderTime
    localTime := reading.read row.localTime
    invalid := decodeInvalid info (reading.read row.latency) }

section OneRow

variable {reading : WordReading}

/- Every row of the class is decoded. -/
theorem debugRecord_ok
    (traceName : String)
    (rank : Nat)
    (row : SrLatencyDebug) :
    debugRecord traceName rank
        (srLatencyDebugRecord reading row) =
      .ok (row.decoded reading traceName rank) := rfl

/- A row with a tag has been written. -/
theorem isUnwritten_of_tag
    {row : SrLatencyDebug}
    (hTag : row.tag ≠ 0) :
    isUnwrittenDebugRecord (srLatencyDebugRecord reading row) =
      false := by
  have hRead : reading.read row.tag ≠ 0 :=
    fun hZero => hTag (WordReading.read_eq_zero_iff.mp hZero)
  rw [← Bool.not_eq_true]
  intro hAll
  have hName : "tag" ∈ srLatencyDebugType.names := by decide
  have hEach := List.all_eq_true.mp hAll "tag" hName
  exact hRead (of_decide_eq_true hEach)

/- An unused slot has not. -/
theorem isUnwritten_unused :
    isUnwrittenDebugRecord
        (srLatencyDebugRecord reading .unused) =
      true := by
  cases reading with
  | signed => rfl
  | unsigned => rfl

/- A tag in either reading shows run id and kind. -/
theorem decodeTag_read
    (step : BitVec 64)
    (runId : BitVec 32) :
    decodeTag (reading.read (mailboxTag step runId)) =
      (reading.upper (mailboxTag step runId),
        ((runId.toNat % 2 ^ 24 : Nat) : Int), tagKind) := by
  have hTag := reading.read_emod (mailboxTag step runId)
  rw [toNat_mailboxTag] at hTag
  have hRun := Nat.mod_lt runId.toNat (Nat.two_pow_pos 24)
  have hKind :
      reading.read (mailboxTag step runId) % 2 ^ 8 = 160 := by
    omega
  have hLow :
      reading.read (mailboxTag step runId) % 2 ^ 32 =
        (runId.toNat % 2 ^ 24 * 2 ^ 8 + 160 : Nat) := by
    omega
  simp only [decodeTag, WordReading.upper, tagKind,
    BitField.land_two_pow_sub_one, Int.shiftRight_eq_div_pow,
    Prod.mk.injEq]
  refine ⟨trivial, ?_, hKind⟩
  omega

/- Whether a hit counts, from its words. -/
theorem sampled_eq
    (reading : WordReading)
    {slot : MailboxSlot}
    {hit : Hit}
    (hOf : hit.Of slot) :
    hit.srLatencyRow.sampled =
      (!invalidHit hit.time hit.misses &&
        decide
          (reading.read
              (savedLatency hit.localTime hit.time hit.offset) ≠
            latencyInvalidSentinel)) := by
  rcases exists_savedRow hOf with ⟨saved, hRow, _, hInvalid⟩
  have hLatency :
      saved.latency =
        savedLatency hit.localTime hit.time hit.offset :=
    congrArg SrLatency.latency hRow
  rw [← hRow, saved.sampled_row, SavedRow.valid, hInvalid,
    hLatency]
  congr 1
  rw [Bool.eq_iff_iff, bne_iff_ne, decide_eq_true_iff]
  exact not_congr read_eq_sentinel_iff.symm

/-
  The row of a hit is decoded to what it was made from; it is
  invalid exactly when the latency analyzer does not count
  it.
-/
theorem decoded_of_seen
    {world : MailWorld}
    {row : SlotTaken}
    (hSeen : row.2.hit.Seen (world.box row.1) row.2.launch)
    (traceName : String) :
    row.debugRow.decoded reading traceName
        row.1.receiver.toNat =
      row.debugRecord reading world traceName := by
  rcases row with ⟨slot, taken⟩
  rcases hSeen with ⟨⟨hSource, hVblock⟩, hTag, hMisses⟩
  change taken.hit.source = slot.source at hSource
  change taken.hit.vblock = slot.vblock at hVblock
  change
    taken.hit.tag =
      mailboxTag taken.hit.step (world.runId taken.launch)
    at hTag
  change taken.hit.misses < 1048576 at hMisses
  have hBounds := slot.bounds
  have hSmall : taken.hit.source.toNat < 2 ^ 15 - 1 := by
    rw [hSource]
    omega
  have hNarrow : taken.hit.vblock.toNat < 2 ^ 16 := by
    rw [hVblock]
    omega
  have hInfo :=
    reading.ofInt_read taken.hit.srLatencyDebugRow.info
  have hPoll :
      (BitVec.ofNat 32 taken.hit.misses).toNat =
        taken.hit.misses := by
    rw [BitVec.toNat_ofNat]
    omega
  have hMeta := decodeMeta_metaWord hSmall hNarrow hInfo
  rw [hPoll, hSource, hVblock] at hMeta
  have hOf : taken.hit.Of slot := ⟨hSource, hVblock⟩
  have hSampled := sampled_eq reading hOf
  have hInvalid :
      decodeInvalid
          (reading.read taken.hit.srLatencyDebugRow.info)
          (reading.read taken.hit.srLatencyDebugRow.latency) =
        !taken.hit.srLatencyRow.sampled := by
    rw [hSampled]
    by_cases hLatency :
        reading.read taken.hit.srLatencyDebugRow.latency =
          latencyInvalidSentinel
    · have hSame :
          reading.read
              (savedLatency taken.hit.localTime taken.hit.time
                taken.hit.offset) =
            latencyInvalidSentinel := hLatency
      simp [decodeInvalid, hLatency, hSame]
    · have hSame :
          reading.read
              (savedLatency taken.hit.localTime taken.hit.time
                taken.hit.offset) ≠
            latencyInvalidSentinel := hLatency
      rw [decodeInvalid_metaWord hSmall hNarrow hInfo hLatency]
      simp [hSame]
  simp only [SrLatencyDebug.decoded, SlotTaken.debugRow,
    SlotTaken.debugRecord, hMeta, hInvalid]
  simp only [Hit.srLatencyDebugRow, SlotTaken.sampled,
    Taken.row, hTag, decodeTag_read]

end OneRow

------------------------------------------------------------
-- Result Files
------------------------------------------------------------

/- The records of a map in the output of a parser. -/
def mapRecords : Option MapOutput → List Record
| none => []
| some output => flattenRecords output

/- The rows in the slots of a file. -/
abbrev DebugSlots := List (Option SrLatencyDebug)

section Files

variable {reading : WordReading} {traceName : String}
variable {rank : Nat}

/- The written slots are decoded, the unused ones skipped. -/
theorem mapM_debugRecord
    (reading : WordReading)
    (traceName : String)
    (rank : Nat)
    {slots : DebugSlots}
    (hTags : ∀ row, some row ∈ slots → row.tag ≠ 0) :
    ((slots.map (debugSlotRecord reading)).filter
        (fun record => !isUnwrittenDebugRecord record)).mapM
          (debugRecord traceName rank) =
      .ok
        (slots.reduceOption.map
          (SrLatencyDebug.decoded reading traceName rank)) := by
  have hFilter :
      (slots.map (debugSlotRecord reading)).filter
          (fun record => !isUnwrittenDebugRecord record) =
        slots.reduceOption.map (srLatencyDebugRecord reading) := by
    induction slots with
    | nil => rfl
    | cons slot rest ih =>
        have hRest :=
          ih (fun row hMem =>
            hTags row (List.mem_cons_of_mem _ hMem))
        cases slot with
        | none =>
            have hUnused :
                isUnwrittenDebugRecord
                    (debugSlotRecord reading none) = true :=
              isUnwritten_unused
            rw [List.map_cons, List.filter_cons_of_neg
                (by simp [hUnused]),
              List.reduceOption_cons_of_none, hRest]
        | some row =>
            have hWritten :
                isUnwrittenDebugRecord
                    (debugSlotRecord reading (some row)) =
                  false :=
              isUnwritten_of_tag
                (hTags row List.mem_cons_self)
            rw [List.map_cons, List.filter_cons_of_pos
                (by simp [hWritten]),
              List.reduceOption_cons_of_some, List.map_cons,
              hRest]
            rfl
  rw [hFilter, List.mapM_map]
  exact mapM_ok (fun row _ => debugRecord_ok traceName rank row)

/- A file whose map has the rows of the slots. -/
def FileRows
    (reading : WordReading)
    (parse : ResultFile → Except PyErr DebugMaps)
    (file : ResultFile)
    (slots : DebugSlots) : Prop :=
  ∃ maps, parse file = .ok maps ∧
    mapRecords (maps "sr_latency_debug") =
      slots.map (debugSlotRecord reading)

/- The records of such a file. -/
theorem readDebugFile_ok
    {parse : ResultFile → Except PyErr DebugMaps}
    {file : ResultFile}
    {slots : DebugSlots}
    (hRows : FileRows reading parse file slots)
    (hTags : ∀ row, some row ∈ slots → row.tag ≠ 0) :
    readDebugFile traceName rank parse file =
      .ok
        (slots.reduceOption.map
          (SrLatencyDebug.decoded reading traceName rank)) := by
  rcases hRows with ⟨maps, hParse, hMap⟩
  have hAll :=
    mapM_debugRecord reading traceName rank hTags
  unfold readDebugFile
  rw [hParse, ok_bind]
  cases hOutput : maps "sr_latency_debug" with
  | none =>
      rw [hOutput] at hMap
      rw [← hMap] at hAll
      exact hAll
  | some output =>
      rw [hOutput] at hMap
      rw [← hMap] at hAll
      exact hAll

/-
  The files of the directory of a rank: together they hold
  the rows of the rank, in any order, among unused slots.
-/
structure RankFiles
    (reading : WordReading)
    (s : MailWorldState)
    (dir : String × Analysis.TraceDir DebugMaps)
    (rank : BitVec 32) : Prop where
  parseRank : dir.2.parseRank = .ok rank.toNat
  files :
    ∃ parse, dir.2.loadReader = .ok parse ∧
      ∃ slots : List DebugSlots,
        List.Forall₂ (FileRows reading parse)
            dir.2.resultFiles slots ∧
          slots.flatten.reduceOption.Perm
            ((s.rows rank).map SlotTaken.debugRow)

end Files

section World

variable {reading : WordReading} {world : MailWorld}
variable {s : MailWorldState}

/- A row of a rank has seen the tag of its launch and step. -/
theorem seen_of_mem_rows
    (hReach : (mailWorldMachine world).Reachable s)
    {rank : BitVec 32}
    {row : SlotTaken}
    (hMem : row ∈ s.rows rank) :
    row.2.hit.Seen (world.box row.1) row.2.launch := by
  rcases mem_saved_of_mem_rows hReach hMem with
    ⟨_, hDevices, hSaved⟩
  exact
    (slotHits_of_reachable
      (reachable_view hReach hDevices)).saved row.2 hSaved

/- The records of the directory of a rank. -/
theorem readDebugDir_perm
    (hReach : (mailWorldMachine world).Reachable s)
    {dir : String × Analysis.TraceDir DebugMaps}
    {rank : BitVec 32}
    (hFiles : RankFiles reading s dir rank) :
    ∃ records, readDebugDir dir = .ok records ∧
      records.Perm
        ((s.rows rank).map
          (SlotTaken.debugRecord reading world dir.1)) := by
  rcases hFiles.files with
    ⟨parse, hReader, slots, hRows, hPerm⟩
  have hTags :
      ∀ own ∈ slots, ∀ row, some row ∈ own → row.tag ≠ 0 := by
    intro own hOwn row hRow
    have hIn : row ∈ slots.flatten.reduceOption := by
      rw [List.reduceOption_mem_iff]
      exact List.mem_flatten.mpr ⟨own, hOwn, hRow⟩
    rw [hPerm.mem_iff] at hIn
    rcases List.mem_map.mp hIn with ⟨saved, hSaved, rfl⟩
    have hTag := (seen_of_mem_rows hReach hSaved).2.1
    rw [SlotTaken.debugRow, Hit.srLatencyDebugRow, hTag]
    exact mailboxTag_ne_zero _ _
  have hEach :
      List.Forall₂
        (fun file own =>
          readDebugFile dir.1 rank.toNat parse file =
            .ok
              (own.reduceOption.map
                (SrLatencyDebug.decoded reading dir.1
                  rank.toNat)))
        dir.2.resultFiles slots := by
    have hBoth :=
      (List.forall₂_and_left slots dir.2.resultFiles).mpr
        ⟨hTags, hRows.flip⟩
    exact
      (hBoth.imp
        (fun _ _ hOwn => readDebugFile_ok hOwn.2 hOwn.1)).flip
  have hFlat :
      (slots.map
          (fun own =>
            own.reduceOption.map
              (SrLatencyDebug.decoded reading dir.1
                rank.toNat))).flatten =
        slots.flatten.reduceOption.map
          (SrLatencyDebug.decoded reading dir.1 rank.toNat) := by
    simp only [List.reduceOption, List.filterMap_flatten,
      List.map_flatten, List.map_map, Function.comp_def]
  have hDecoded :
      ((s.rows rank).map SlotTaken.debugRow).map
          (SrLatencyDebug.decoded reading dir.1 rank.toNat) =
        (s.rows rank).map
          (SlotTaken.debugRecord reading world dir.1) := by
    rw [List.map_map]
    apply List.map_congr_left
    intro row hMem
    have hRank := (mem_saved_of_mem_rows hReach hMem).1
    rw [← decoded_of_seen (seen_of_mem_rows hReach hMem),
      hRank]
    rfl
  refine
    ⟨slots.flatten.reduceOption.map
      (SrLatencyDebug.decoded reading dir.1 rank.toNat),
      ?_, ?_⟩
  · unfold readDebugDir
    rw [hFiles.parseRank, ok_bind, hReader, ok_bind,
      mapM_ok_of_forall₂ hEach, ok_bind, pure_eq_ok, hFlat]
  · rw [← hDecoded]
    exact hPerm.map _

end World

------------------------------------------------------------
-- The Report Of A World
------------------------------------------------------------

/- The records that the trace directories of ranks have. -/
def worldRecords
    (reading : WordReading)
    (world : MailWorld)
    (s : MailWorldState)
    (names : List String)
    (ranks : List (BitVec 32)) : List DebugRecord :=
  (names.zip ranks).flatMap
    (fun dir =>
      (s.rows dir.2).map
        (SlotTaken.debugRecord reading world dir.1))

/- The pair of a saved record. -/
def SlotTaken.key (row : SlotTaken) : Int × Nat :=
  (row.1.source.toNat, row.1.receiver.toNat)

/-
  What the first table says of saved records.  No record has
  another kind or a time of its own; a step or a difference
  of times is only reported where the reading does not show
  it.
-/
structure CountsOf
    (reading : WordReading)
    (rows : List SlotTaken)
    (counts : DebugCounts) : Prop where
  records : counts.records = rows.length
  invalid :
    counts.invalid = rows.countP (fun row => !row.sampled)
  kind : counts.kindMismatch = 0
  step :
    counts.stepMismatch =
      rows.countP
        (fun row =>
          ¬ reading.Fits 32 (reading.read row.2.hit.step))
  recompute :
    counts.recomputeMismatch =
      rows.countP
        (fun row =>
          row.sampled ∧
            ¬ reading.Fits 64
              (reading.read row.2.hit.localTime -
                reading.read
                  (correctedSenderTime row.2.hit.time
                    row.2.hit.offset)))
  future :
    reading = .unsigned →
      counts.futureSender = counts.recomputeMismatch
  zero : counts.zeroSender ≤ counts.invalid

/-
  What the second table says of them: a row for each pair of
  ranks with saved records, about exactly these.
-/
structure PairsOf
    (rows : List SlotTaken)
    (pairs : List PairRow) : Prop where
  keys :
    ∀ key,
      key ∈ pairs.map PairRow.key ↔
        ∃ row ∈ rows, row.key = key
  total :
    ∀ pair ∈ pairs,
      pair.summary.total =
        rows.countP (fun row => row.key = pair.key)
  invalid :
    ∀ pair ∈ pairs,
      pair.summary.invalid =
        rows.countP
          (fun row => row.key = pair.key ∧ !row.sampled)

/- The order of the records does not matter for the counts. -/
theorem debugCounts_perm
    {bounds : DebugBounds}
    {records records' : List DebugRecord}
    (hPerm : records.Perm records') :
    debugCounts bounds records = debugCounts bounds records' := by
  have hValid :=
    hPerm.filter (fun record => !record.invalid)
  simp only [debugCounts, hPerm.length_eq, hPerm.countP_eq,
    hValid.length_eq, hValid.countP_eq]

section Counts

variable {reading : WordReading} {world : MailWorld}
variable {s : MailWorldState} {names : List String}
variable {ranks : List (BitVec 32)} {bounds : DebugBounds}

/- Counting records is counting the rows behind them. -/
theorem countP_worldRecords
    (hLength : names.length = ranks.length)
    {p : DebugRecord → Bool}
    {q : SlotTaken → Bool}
    (hSame :
      ∀ row ∈ ranks.flatMap s.rows, ∀ name,
        p (row.debugRecord reading world name) = q row) :
    (worldRecords reading world s names ranks).countP p =
      (ranks.flatMap s.rows).countP q := by
  induction ranks generalizing names with
  | nil =>
      rw [List.length_eq_zero_iff.mp hLength]
      rfl
  | cons rank rest ih =>
      rcases names with _ | ⟨name, more⟩
      · cases hLength
      have hRest :=
        ih (Nat.succ.inj hLength)
          (fun row hMem => hSame row (by
            rw [List.flatMap_cons]
            exact List.mem_append_right _ hMem))
      have hOwn :
          ((s.rows rank).map
              (SlotTaken.debugRecord reading world name)).countP
                p =
            (s.rows rank).countP q := by
        rw [List.countP_map]
        apply List.countP_congr
        intro row hMem
        rw [Function.comp_apply, hSame row (by
          rw [List.flatMap_cons]
          exact List.mem_append_left _ hMem)]
      unfold worldRecords at hRest ⊢
      rw [List.zip_cons_cons, List.flatMap_cons,
        List.flatMap_cons, List.countP_append,
        List.countP_append, hOwn, hRest]

/- The counts of the records of a world. -/
theorem countsOf_worldRecords
    (hReach : (mailWorldMachine world).Reachable s)
    (hLength : names.length = ranks.length) :
    CountsOf reading (ranks.flatMap s.rows)
      (debugCounts bounds
        (worldRecords reading world s names ranks)) := by
  have hOf :
      ∀ row ∈ ranks.flatMap s.rows, row.2.hit.Of row.1 := by
    intro row hMem
    rcases List.mem_flatMap.mp hMem with ⟨rank, _, hRow⟩
    exact (seen_of_mem_rows hReach hRow).1
  have hInvalid :
      (debugCounts bounds
          (worldRecords reading world s names ranks)).invalid =
        (ranks.flatMap s.rows).countP
          (fun row => !row.sampled) := by
    have hSplit :=
      length_validLatencies
        (worldRecords reading world s names ranks)
    have hCount :
        (worldRecords reading world s names ranks).countP
            DebugRecord.invalid =
          (ranks.flatMap s.rows).countP
            (fun row => !row.sampled) :=
      countP_worldRecords hLength (fun _ _ _ => rfl)
    rw [validLatencies, List.length_map] at hSplit
    rw [← hCount]
    change _ - _ = _
    omega
  have hRecompute :
      (debugCounts bounds
          (worldRecords reading world s names
            ranks)).recomputeMismatch =
        (ranks.flatMap s.rows).countP
          (fun row =>
            row.sampled ∧
              ¬ reading.Fits 64
                (reading.read row.2.hit.localTime -
                  reading.read
                    (correctedSenderTime row.2.hit.time
                      row.2.hit.offset))) := by
    change List.countP _ (List.filter _ _) = _
    rw [List.countP_filter]
    apply countP_worldRecords hLength
    intro row _ name
    have hSame :=
      reading.read_sub_iff row.2.hit.localTime
        (correctedSenderTime row.2.hit.time row.2.hit.offset)
    rw [Bool.eq_iff_iff, Bool.and_eq_true, decide_eq_true_iff,
      decide_eq_true_iff, ← hSame, and_comm]
    simp [SlotTaken.debugRecord, savedLatency]
  refine
    { records := ?_, invalid := hInvalid, kind := ?_,
      step := ?_, recompute := hRecompute, future := ?_,
      zero := ?_ }
  · change List.length _ = _
    have hAll :
        (worldRecords reading world s names ranks).countP
            (fun _ => true) =
          (ranks.flatMap s.rows).countP (fun _ => true) :=
      countP_worldRecords hLength (fun _ _ _ => rfl)
    rwa [List.countP_true, List.countP_true] at hAll
  · change List.countP _ _ = 0
    rw [countP_worldRecords (q := fun _ => false) hLength
      (fun _ _ _ => rfl)]
    rw [List.countP_false]
    rfl
  · change List.countP _ _ = _
    apply countP_worldRecords hLength
    intro row _ name
    exact
      decide_eq_decide.mpr
        (not_congr upper_mailboxTag_eq_iff)
  · intro hUnsigned
    subst hUnsigned
    rw [hRecompute]
    change List.countP _ (List.filter _ _) = _
    rw [List.countP_filter]
    apply countP_worldRecords hLength
    intro row _ name
    have hLocal := row.2.hit.localTime.isLt
    rw [Bool.eq_iff_iff, Bool.and_eq_true, decide_eq_true_iff,
      decide_eq_true_iff, and_comm]
    simp only [SlotTaken.debugRecord, WordReading.read,
      WordReading.Fits, Bool.not_not]
    refine and_congr_right (fun _ => ?_)
    omega
  · rw [hInvalid]
    change List.countP _ _ ≤ _
    rw [countP_worldRecords
      (q := fun row => row.2.hit.time = 0) hLength
      (fun row _ name =>
        decide_eq_decide.mpr WordReading.read_eq_zero_iff)]
    apply List.countP_mono_left
    intro row hMem hZero
    rw [Bool.not_eq_true', ← Bool.not_eq_true]
    intro hSampled
    exact
      time_ne_zero_of_sampled (hOf row hMem) hSampled
        (of_decide_eq_true hZero)

/- The pairs of records that a world has in some order. -/
theorem pairsOf_of_perm
    {records : List DebugRecord}
    (hLength : names.length = ranks.length)
    (hPerm :
      records.Perm
        (worldRecords reading world s names ranks)) :
    PairsOf (ranks.flatMap s.rows) (pairRows bounds records) := by
  have hKey :
      ∀ row ∈ ranks.flatMap s.rows, ∀ name,
        (row.debugRecord reading world name).key = row.key :=
    fun _ _ _ => rfl
  have hCount :
      ∀ key,
        records.countP (fun record => record.key = key) =
          (ranks.flatMap s.rows).countP
            (fun row => row.key = key) := by
    intro key
    rw [hPerm.countP_eq]
    exact countP_worldRecords hLength (fun _ _ _ => rfl)
  constructor
  · intro key
    rw [perm_keys_pairRows.mem_iff, mem_pairGroups_keys]
    have hFound :=
      List.countP_pos_iff (l := records)
        (p := fun record => decide (record.key = key))
    have hSaved :=
      List.countP_pos_iff (l := ranks.flatMap s.rows)
        (p := fun row => decide (row.key = key))
    rw [hCount] at hFound
    simp only [decide_eq_true_eq] at hFound hSaved
    exact hFound.symm.trans hSaved
  · intro pair hMem
    have hLengths :=
      length_validLatencies (ofPair records pair.key)
    rw [summary_of_mem hMem, ← hCount]
    refine hLengths.trans ?_
    exact List.countP_eq_length_filter.symm
  · intro pair hMem
    rw [summary_of_mem hMem]
    change List.countP _ (List.filter _ _) = _
    rw [List.countP_filter, hPerm.countP_eq]
    apply countP_worldRecords hLength
    intro row _ name
    rw [Bool.eq_iff_iff, Bool.and_eq_true, decide_eq_true_iff,
      decide_eq_true_iff, and_comm]
    rfl

end Counts

/-
  The debug report of a world after any run of its mailboxes,
  for any trace root whose directories hold the rows of ranks
  in any order, and in either reading.
-/
theorem debug_report
    (world : MailWorld)
    (s : MailWorldState)
    (hReach : (mailWorldMachine world).Reachable s)
    (reading : WordReading)
    (bounds : DebugBounds)
    (root : TraceRoot DebugMaps)
    (ranks : List (BitVec 32))
    (hDirs :
      List.Forall₂ (RankFiles reading s) root.traceDirs ranks)
    (hSome : ranks ≠ []) :
    ∃ records, readDebugRecords root = .ok records ∧
      records.Perm
        (worldRecords reading world s
          (root.traceDirs.map Prod.fst) ranks) ∧
      CountsOf reading (ranks.flatMap s.rows)
        (debugCounts bounds records) ∧
      PairsOf (ranks.flatMap s.rows)
        (pairRows bounds records) := by
  have hLength := hDirs.length_eq
  have hEach :=
    hDirs.imp
      (fun _ _ hFiles =>
        readDebugDir_perm hReach hFiles)
  rcases mapM_flatten_perm hEach with ⟨parts, hParts, hPerm⟩
  have hIter := TraceRoot.iterTraceDirs_eq hDirs hSome
  have hWorld :
      parts.flatten.Perm
        (worldRecords reading world s
          (root.traceDirs.map Prod.fst) ranks) := by
    have hZip :
        (root.traceDirs.map Prod.fst).zip ranks =
          (root.traceDirs.zip ranks).map
            (Prod.map Prod.fst id) := by
      rw [List.zip_map_left]
    unfold worldRecords
    rw [hZip, List.flatMap_map]
    exact hPerm
  have hNames :
      (root.traceDirs.map Prod.fst).length = ranks.length := by
    rw [List.length_map, hLength]
  refine ⟨parts.flatten, ?_, hWorld, ?_, ?_⟩
  · unfold readDebugRecords
    rw [hIter, ok_bind, hParts]
    rfl
  · rw [debugCounts_perm hWorld]
    exact countsOf_worldRecords hReach hNames
  · exact pairsOf_of_perm hNames hWorld

------------------------------------------------------------
-- A World Of Two Ranks
------------------------------------------------------------

/- A trace root with one file, of the rows of rank 0. -/
def debugRoot (rows : List SlotTaken) :
    TraceRoot DebugMaps where
  path := "traces/run"
  name := "run"
  parentName := "traces"
  own :=
    { hasReader := true
      hasResult := true
      loadReader :=
        .ok
          (fun _ =>
            .ok
              (fun name =>
                if name = "sr_latency_debug" then
                  some
                    (.items
                      (rows.map
                        (fun row =>
                          .record
                            (srLatencyDebugRecord .signed
                              row.debugRow))))
                else
                  none))
      resultFiles := [ResultFile.empty "rank0.bin"]
      parseRank := .ok 0 }
  children := []

/- Its directory is the one of rank 0. -/
theorem rankFiles_debugRoot (s : MailWorldState) :
    List.Forall₂ (RankFiles .signed s)
      (debugRoot (s.rows 0)).traceDirs [0] := by
  have hFlat :
      ∀ rows : List SlotTaken,
        flattenItems
            (rows.map
              (fun row =>
                .record
                  (srLatencyDebugRecord .signed
                    row.debugRow))) =
          (rows.map (fun row => some row.debugRow)).map
            (debugSlotRecord .signed) := by
    intro rows
    induction rows with
    | nil => rfl
    | cons row rest ih =>
        rw [List.map_cons, flattenItems, ih]
        rfl
  refine List.Forall₂.cons ⟨rfl, _, rfl, ?_⟩ List.Forall₂.nil
  refine
    ⟨[(s.rows 0).map (fun row => some row.debugRow)], ?_, ?_⟩
  · refine List.Forall₂.cons ⟨_, rfl, ?_⟩ List.Forall₂.nil
    exact hFlat (s.rows 0)
  · apply List.Perm.of_eq
    simp [List.reduceOption, List.filterMap_map]

/- After a whole publish the receiver's record is counted. -/
theorem debug_report_wholePublish :
    ∃ s records,
      (mailWorldMachine twoRankMail).Reachable s ∧
      s.rows 0 ≠ [] ∧
      readDebugRecords (debugRoot (s.rows 0)) = .ok records ∧
      CountsOf .signed ([0].flatMap s.rows)
        (debugCounts .default records) ∧
      PairsOf ([0].flatMap s.rows)
        (pairRows .default records) := by
  have hRun :
      ((mailWorldMachine twoRankMail).run MailWorldState.start
        (wholePublish.map
          (fun a => ⟨oneLaunch.slot, a⟩))).any
        (fun s => !(s.rows 0).isEmpty) =
          true := by
    decide +kernel
  rcases (Option.any_eq_true _ _).mp hRun with
    ⟨s, hSome, hRows⟩
  have hReach : (mailWorldMachine twoRankMail).Reachable s :=
    Machine.reachable_of_run (Machine.Reach.init rfl) hSome
  simp only [Bool.not_eq_true', List.isEmpty_eq_false_iff]
    at hRows
  rcases debug_report twoRankMail s hReach .signed .default
    (debugRoot (s.rows 0)) [0] (rankFiles_debugRoot s)
    (List.cons_ne_nil _ _) with
    ⟨records, hRead, _, hCounts, hPairs⟩
  exact ⟨s, records, hReach, hRows, hRead, hCounts, hPairs⟩

end Latency

end FabricPerf
