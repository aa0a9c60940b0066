import FabricPerf.Latency.MailWorld
import FabricPerf.Latency.Samples
import Mathlib.Data.List.Perm.Subperm

/-
  From the mailboxes of a world to the channels that
  `read_trace` reports for a rank.

  The result files hold the rows of the rank in any order.
  What the analyzer makes of a row depends on its three words
  only, so that a channel has exactly the samples of its slot;
  the valid ones come from distinct posts of the sender.

  Main declarations:
    * `Latency.rowStats`, `Latency.channelStats_eq`
    * `Latency.ChannelReport`
    * `Latency.latency_report`
-/

------------------------------------------------------------
-- Rows As Words
------------------------------------------------------------

namespace FabricPerf

namespace Latency

open Analysis

namespace SrLatency

/- The channel that the analyzer reads from a row. -/
def channel (row : SrLatency) : Latency.Channel :=
  splitRawChannel row.vblock.toNat "vblock"

/- Whether the row counts as a latency sample. -/
def sampled (row : SrLatency) : Bool :=
  decide
      (Int.land row.vblock.toNat latencyInvalidFlag = 0) &&
    row.latency.toInt != latencyInvalidSentinel

end SrLatency

namespace SavedRow

variable (saved : SavedRow)

/- The words of a row tell its channel. -/
theorem channel_row : saved.row.channel = saved.channel :=
  saved.splitRawChannel_word

/- They tell whether it counts. -/
theorem sampled_row : saved.row.sampled = saved.valid := by
  have hFlag :
      Int.land saved.row.vblock.toNat latencyInvalidFlag =
        if saved.invalid then latencyInvalidFlag else 0 :=
    saved.land_word
  have hLatency : saved.row.latency = saved.latency := rfl
  unfold SrLatency.sampled valid
  rw [hFlag, hLatency]
  cases saved.invalid with
  | false =>
      rfl
  | true =>
      rfl

/- They tell the step modulo 2^32. -/
theorem step_row :
    (saved.row.step.toNat : Int) = saved.recordedStep := by
  unfold SavedRow.row recordedStep
  rw [BitVec.toNat_setWidth]

end SavedRow

/- The samples of a channel among rows of words. -/
def rowStats
    (rows : List SrLatency)
    (c : Channel) : ChannelStats where
  latencies :=
    ((rows.filter (fun row => row.channel = c)).filter
      SrLatency.sampled).map (fun row => row.latency.toInt)
  steps :=
    ((rows.filter (fun row => row.channel = c)).filter
      SrLatency.sampled).map (fun row => row.step.toNat)
  invalidSteps :=
    ((rows.filter (fun row => row.channel = c)).filter
      (fun row => !row.sampled)).map
        (fun row => row.step.toNat)

/- Saved rows have the samples of their words. -/
theorem channelStats_eq
    (rows : List SavedRow)
    (c : Channel) :
    channelStats rows c =
      rowStats (rows.map SavedRow.row) c := by
  have hChannel :
      (fun row : SrLatency => decide (row.channel = c)) ∘
          SavedRow.row =
        fun saved => decide (saved.channel = c) := by
    funext saved
    simp [saved.channel_row]
  have hValid :
      SrLatency.sampled ∘ SavedRow.row = SavedRow.valid := by
    funext saved
    exact saved.sampled_row
  have hInvalid :
      (fun row : SrLatency => !row.sampled) ∘ SavedRow.row =
        fun saved => !saved.valid := by
    funext saved
    simp [saved.sampled_row]
  have hStep :
      (fun row : SrLatency => (row.step.toNat : Int)) ∘
          SavedRow.row =
        SavedRow.recordedStep := by
    funext saved
    exact saved.step_row
  unfold channelStats rowStats ofChannel
  simp only [List.filter_map, List.map_map, hChannel, hValid,
    hInvalid, hStep]
  rfl

/- The order of the rows does not matter for what is there. -/
structure ChannelStats.SameSamples
    (found expected : ChannelStats) : Prop where
  latencies : found.latencies.Perm expected.latencies
  steps : found.steps.Perm expected.steps
  invalidSteps : found.invalidSteps.Perm expected.invalidSteps

/- Reordered rows have the same samples. -/
theorem rowStats_perm
    {rows rows' : List SrLatency}
    (hPerm : rows.Perm rows')
    (c : Channel) :
    (rowStats rows c).SameSamples (rowStats rows' c) where
  latencies := ((hPerm.filter _).filter _).map _
  steps := ((hPerm.filter _).filter _).map _
  invalidSteps := ((hPerm.filter _).filter _).map _

------------------------------------------------------------
-- The Rows Of A Slot
------------------------------------------------------------

/- The row of a record. -/
def Taken.row (taken : Taken) : SrLatency :=
  taken.hit.srLatencyRow

/- The channel under which a slot is reported. -/
def MailboxSlot.channel (slot : MailboxSlot) : Channel :=
  (slot.source.toNat, slot.vblock.toNat)

/- A hit of the slot, as it is saved. -/
theorem exists_savedRow
    {slot : MailboxSlot}
    {hit : Hit}
    (hOf : hit.Of slot) :
    ∃ saved : SavedRow,
      saved.row = hit.srLatencyRow ∧
        saved.channel = slot.channel ∧
        saved.invalid = invalidHit hit.time hit.misses := by
  refine ⟨SavedRow.ofHit slot hit hOf.1 hOf.2, rfl, ?_, rfl⟩
  simp [SavedRow.channel, SavedRow.ofHit, MailboxSlot.channel,
    hOf.1, hOf.2]

/- The row of a hit is of the channel of its slot. -/
theorem channel_srLatencyRow
    {slot : MailboxSlot}
    {hit : Hit}
    (hOf : hit.Of slot) :
    hit.srLatencyRow.channel = slot.channel := by
  rcases exists_savedRow hOf with ⟨saved, hRow, hChannel, _⟩
  rw [← hRow, saved.channel_row, hChannel]

/- A hit that counts has read a timestamp. -/
theorem time_ne_zero_of_sampled
    {slot : MailboxSlot}
    {hit : Hit}
    (hOf : hit.Of slot)
    (hSampled : hit.srLatencyRow.sampled = true) :
    hit.time ≠ 0 := by
  rcases exists_savedRow hOf with ⟨saved, hRow, _, hInvalid⟩
  rw [← hRow, saved.sampled_row, SavedRow.valid,
    Bool.and_eq_true, hInvalid] at hSampled
  intro hZero
  have hFlag : invalidHit hit.time hit.misses = true := by
    simp [invalidHit, hZero]
  rw [hFlag] at hSampled
  exact Bool.noConfusion hSampled.1

/- Slots of one receiver have channels of their own. -/
theorem MailboxSlot.eq_of_channel
    {slot slot' : MailboxSlot}
    (hWorld : slot.numDevices = slot'.numDevices)
    (hReceiver : slot.receiver = slot'.receiver)
    (hChannel : slot.channel = slot'.channel) :
    slot = slot' := by
  apply MailboxSlot.eq_of_addr hWorld
  rcases Prod.mk.inj hChannel with ⟨hSource, hVblock⟩
  have hSource' : slot.source = slot'.source :=
    BitVec.eq_of_toNat_eq (by exact_mod_cast hSource)
  have hVblock' : slot.vblock = slot'.vblock :=
    BitVec.eq_of_toNat_eq (by exact_mod_cast hVblock)
  simp [MailboxSlot.addr, hReceiver, hSource', hVblock']

section World

variable {world : MailWorld} {s : MailWorldState}
variable {slot : MailboxSlot}

/- A row of a rank is a record of its slot. -/
theorem mem_saved_of_mem_rows
    (hReach : (mailWorldMachine world).Reachable s)
    {rank : BitVec 32}
    {row : SlotTaken}
    (hMem : row ∈ s.rows rank) :
    row.1.receiver = rank ∧
      row.1.numDevices = world.numDevices ∧
      row.2 ∈ (s.receiver row.1).saved := by
  have hKept := rowsKept_of_reachable hReach
  rcases hKept.own rank row hMem with ⟨hRank, hWorld⟩
  have hIn :
      row ∈ (s.rows row.1.receiver).filter
        (fun other => other.1 = row.1) := by
    rw [hRank]
    exact List.mem_filter.mpr ⟨hMem, decide_eq_true rfl⟩
  rw [hKept.all row.1 hWorld] at hIn
  rcases List.mem_map.mp hIn with ⟨taken, hTaken, hSame⟩
  rw [← hSame]
  exact ⟨hSame ▸ hRank, hSame ▸ hWorld, hTaken⟩

/- Every record of a slot is a hit of the slot. -/
theorem hit_of_saved
    (hReach : (mailWorldMachine world).Reachable s)
    (hWorld : slot.numDevices = world.numDevices)
    {taken : Taken}
    (hMem : taken ∈ (s.receiver slot).saved) :
    taken.hit.Of slot :=
  ((slotHits_of_reachable (reachable_view hReach hWorld)).saved
    taken hMem).1

/- The rows of a channel of the rank are those of its slot. -/
theorem filter_rows_channel
    (hReach : (mailWorldMachine world).Reachable s)
    (hWorld : slot.numDevices = world.numDevices) :
    ((s.rows slot.receiver).map
        (fun row => row.2.row)).filter
          (fun row => row.channel = slot.channel) =
      (s.receiver slot).saved.map Taken.row := by
  have hSame :
      ∀ row ∈ s.rows slot.receiver,
        decide (row.2.row.channel = slot.channel) =
          decide (row.1 = slot) := by
    intro row hMem
    rcases mem_saved_of_mem_rows hReach hMem with
      ⟨hRank, hDevices, hSaved⟩
    have hOwn :=
      channel_srLatencyRow (hit_of_saved hReach hDevices hSaved)
    change row.2.row.channel = row.1.channel at hOwn
    rw [hOwn, decide_eq_decide]
    constructor
    · intro hChannel
      exact
        MailboxSlot.eq_of_channel (hDevices.trans hWorld.symm)
          hRank hChannel
    · intro hSlot
      rw [hSlot]
  have hAll := (rowsKept_of_reachable hReach).all slot hWorld
  rw [List.filter_map]
  change
    ((s.rows slot.receiver).filter
        (fun row =>
          decide (row.2.row.channel = slot.channel))).map _ = _
  rw [List.filter_congr hSame, hAll, List.map_map]
  rfl

end World

------------------------------------------------------------
-- Samples And Posts
------------------------------------------------------------

/- The time word of the record is the one of the post. -/
def Taken.ReadOf (taken : Taken) (post : Post) : Prop :=
  taken.mail.time.sources = [post] ∧
    taken.hit.time = post.published

/- A record that counts has read the time of a post. -/
theorem exists_readOf
    {slot : MailboxSlot}
    {box : Mailbox}
    {posts : List Post}
    {taken : Taken}
    (hTake : TakeOk box posts taken.launch taken.hit taken.mail)
    (hOf : taken.hit.Of slot)
    (hSampled : taken.row.sampled = true) :
    ∃ post ∈ posts, taken.ReadOf post := by
  have hTime := time_ne_zero_of_sampled hOf hSampled
  rcases hTake.time with hCleared | ⟨post, hMem, hPost⟩
  · rw [hTake.timeVal, hCleared] at hTime
    exact absurd rfl hTime
  · refine ⟨post, hMem, ?_, ?_⟩
    · rw [hPost]
      rfl
    · rw [hTake.timeVal, hPost]
      rfl

/- Records that have read posts, one by one. -/
theorem forall₂_readOf
    {l : List Taken}
    (hRead : ∀ taken ∈ l, ∃ post, taken.ReadOf post) :
    List.Forall₂ Taken.ReadOf l
      (l.flatMap (fun taken => taken.mail.time.sources)) := by
  induction l with
  | nil => exact List.Forall₂.nil
  | cons taken rest ih =>
      rcases hRead taken List.mem_cons_self with ⟨post, hPost⟩
      rw [List.flatMap_cons, hPost.1, List.singleton_append]
      exact
        List.Forall₂.cons hPost
          (ih (fun other hMem =>
            hRead other (List.mem_cons_of_mem _ hMem)))

/-
  What is reported for a slot: exactly the samples of its
  records.  Those that count have read the times of distinct
  posts of the sender, and every record was saved for a tag
  of its own launch and step.
-/
structure ChannelReport
    (found : ChannelStats)
    (sender : Poster)
    (saved : List Taken) : Prop where
  latencies :
    found.latencies.Perm
      ((saved.filter (fun taken => taken.row.sampled)).map
        (fun taken => taken.row.latency.toInt))
  steps :
    found.steps.Perm
      ((saved.filter (fun taken => taken.row.sampled)).map
        (fun taken =>
          ((taken.hit.step.toNat % 2 ^ 32 : Nat) : Int)))
  invalidSteps :
    found.invalidSteps.Perm
      ((saved.filter (fun taken => !taken.row.sampled)).map
        (fun taken =>
          ((taken.hit.step.toNat % 2 ^ 32 : Nat) : Int)))
  posts :
    ∃ posts : List Post,
      posts.Nodup ∧ posts ⊆ sender.posts ∧
        List.Forall₂ Taken.ReadOf
          (saved.filter (fun taken => taken.row.sampled)) posts
  bounded : found.latencies.length ≤ sender.posts.length
  launches :
    ∀ taken ∈ saved,
      ∃ post ∈ sender.posts,
        post.launch = taken.launch ∧
          post.step.toNat % 2 ^ 32 =
            taken.hit.step.toNat % 2 ^ 32

/- The samples of a reachable slot are reported like that. -/
theorem channelReport_of_reachable
    {box : Mailbox}
    {p : PostState}
    (hReach : (postMachine box).Reachable p)
    {found : ChannelStats}
    (hSame :
      found.SameSamples
        { latencies :=
            ((p.receiver.saved.map Taken.row).filter
              SrLatency.sampled).map
                (fun row => row.latency.toInt)
          steps :=
            ((p.receiver.saved.map Taken.row).filter
              SrLatency.sampled).map
                (fun row => (row.step.toNat : Int))
          invalidSteps :=
            ((p.receiver.saved.map Taken.row).filter
              (fun row => !row.sampled)).map
                (fun row => (row.step.toNat : Int)) }) :
    ChannelReport found p.sender p.receiver.saved := by
  have hOk := consumeOk_of_reachable hReach
  have hHits := slotHits_of_reachable hReach
  have hStep :
      (fun row : SrLatency => (row.step.toNat : Int)) ∘
          Taken.row =
        fun taken =>
          ((taken.hit.step.toNat % 2 ^ 32 : Nat) : Int) := by
    funext taken
    simp [Taken.row, Hit.srLatencyRow]
  rcases hSame with ⟨hLatencies, hSteps, hInvalid⟩
  simp only [List.filter_map, List.map_map] at hLatencies
  simp only [List.filter_map, List.map_map, hStep] at hSteps
  simp only [List.filter_map, List.map_map, hStep] at hInvalid
  -- the posts of the records that count, in their order
  have hRead :
      ∀ taken ∈
          p.receiver.saved.filter
            (fun taken => taken.row.sampled),
        ∃ post ∈ p.sender.posts, taken.ReadOf post := by
    intro taken hMem
    rcases List.mem_filter.mp hMem with ⟨hSaved, hSampled⟩
    exact
      exists_readOf (hOk.saved taken hSaved)
        (hHits.saved taken hSaved).1 hSampled
  have hForall :=
    forall₂_readOf
      (fun taken hMem =>
        (hRead taken hMem).imp (fun _ hPost => hPost.2))
  have hSub :
      ((p.receiver.saved.filter
        (fun taken => taken.row.sampled)).flatMap
          (fun taken => taken.mail.time.sources)).Sublist
        p.receiver.read :=
    List.Sublist.flatMap List.filter_sublist _
  have hNodup := hSub.nodup (List.nodup_append.mp hOk.once).1
  have hPosted :
      (p.receiver.saved.filter
        (fun taken => taken.row.sampled)).flatMap
          (fun taken => taken.mail.time.sources) ⊆
        p.sender.posts := by
    intro post hMem
    exact
      hOk.posted post
        (List.mem_append_left _ (hSub.subset hMem))
  exact
    { latencies := hLatencies
      steps := hSteps
      invalidSteps := hInvalid
      posts := ⟨_, hNodup, hPosted, hForall⟩
      bounded := by
        rw [hLatencies.length_eq, List.length_map]
        have hLength := hForall.length_eq
        rw [show
          (SrLatency.sampled ∘ Taken.row) =
            fun taken => taken.row.sampled from rfl, hLength]
        exact (hNodup.subperm hPosted).length_le
      launches := by
        intro taken hMem
        rcases (hOk.saved taken hMem).tag with
          ⟨post, hPost, _, hRest⟩
        exact ⟨post, hPost, hRest⟩ }

------------------------------------------------------------
-- The Report Of A Rank
------------------------------------------------------------

/- Delivered files with rows are read into their samples. -/
theorem readTrace_holds
    {reader : Reader}
    {dir : TraceDir}
    {files : List SavedFile}
    (hDelivers : ∀ saved ∈ files, Delivers reader saved)
    (hSome : files.flatMap SavedFile.rows ≠ []) :
    ∃ stats,
      readTrace reader dir (files.map SavedFile.file) =
          .ok stats ∧
        Holds stats (files.flatMap SavedFile.rows) := by
  have hStart :
      StatsOk ({ stats := none, skippedMalformed := 0 } :
        Progress).stats [] := by
    constructor
    · simp
    · intro found hFound
      cases hFound
  rcases foldlM_readFile dir hDelivers
    { stats := none, skippedMalformed := 0 } hStart with
    ⟨next, hFold, hNext⟩
  rw [List.nil_append] at hNext
  have hFiles : files.map SavedFile.file ≠ [] := by
    intro hEmpty
    rw [List.map_eq_nil_iff.mp hEmpty] at hSome
    exact hSome rfl
  cases hStats : next.stats with
  | none => exact absurd (hNext.none_iff.mp hStats) hSome
  | some found =>
      have hHolds := (hNext.holds found hStats).1
      refine
        ⟨{ found with
            skippedMalformed := next.skippedMalformed },
          ?_, hHolds.field, hHolds.keys, hHolds.samples⟩
      simp only [readTrace, if_neg hFiles, hFold, hStats,
        Raising.ok_bind, Raising.pure_eq_ok]

/-
  The report of a rank after any run of the mailboxes of its
  world, whatever the order of the rows in the result files:
  the channels are the slots whose hooks have saved records,
  and each has exactly the samples of its own slot.
-/
theorem latency_report
    (world : MailWorld)
    (s : MailWorldState)
    (hReach : (mailWorldMachine world).Reachable s)
    (rank : BitVec 32)
    (reader : Reader)
    (dir : TraceDir)
    (files : List SavedFile)
    (hDelivers : ∀ saved ∈ files, Delivers reader saved)
    (hRows :
      ((files.flatMap SavedFile.rows).map SavedRow.row).Perm
        ((s.rows rank).map (fun row => row.2.row)))
    (hSome : s.rows rank ≠ []) :
    ∃ stats,
      readTrace reader dir (files.map SavedFile.file) =
          .ok stats ∧
      (∀ c,
        c ∈ stats.channels.keys ↔
          ∃ slot : MailboxSlot,
            slot.numDevices = world.numDevices ∧
              slot.receiver = rank ∧ slot.channel = c ∧
              (s.receiver slot).saved ≠ []) ∧
      ∀ slot : MailboxSlot,
        slot.numDevices = world.numDevices →
        slot.receiver = rank →
          ChannelReport
            (stats.channels.get ChannelStats.empty slot.channel)
            (s.sender slot) (s.receiver slot).saved := by
  have hFound : files.flatMap SavedFile.rows ≠ [] := by
    intro hEmpty
    rw [hEmpty] at hRows
    exact
      hSome (List.map_eq_nil_iff.mp hRows.nil_eq.symm)
  rcases readTrace_holds hDelivers hFound with
    ⟨stats, hRead, hHolds⟩
  have hKept := rowsKept_of_reachable hReach
  refine ⟨stats, hRead, ?_, ?_⟩
  · intro c
    rw [hHolds.keys c]
    constructor
    · rintro ⟨saved, hMem, hChannel⟩
      have hWords :=
        hRows.mem_iff.mp (List.mem_map_of_mem hMem)
      rcases List.mem_map.mp hWords with ⟨row, hIn, hSame⟩
      rcases mem_saved_of_mem_rows hReach hIn with
        ⟨hRank, hWorld, hSaved⟩
      refine
        ⟨row.1, hWorld, hRank, ?_, List.ne_nil_of_mem hSaved⟩
      rw [← hChannel, ← saved.channel_row, ← hSame]
      exact
        (channel_srLatencyRow
          (hit_of_saved hReach hWorld hSaved)).symm
    · rintro ⟨slot, hWorld, rfl, rfl, hSaved⟩
      rcases List.exists_mem_of_ne_nil _ hSaved with
        ⟨taken, hMem⟩
      have hIn :
          (slot, taken) ∈ s.rows slot.receiver := by
        have hFilter :
            (slot, taken) ∈
              (s.rows slot.receiver).filter
                (fun row => row.1 = slot) := by
          rw [hKept.all slot hWorld]
          exact List.mem_map_of_mem hMem
        exact (List.mem_filter.mp hFilter).1
      have hWords :=
        hRows.mem_iff.mpr
          (List.mem_map_of_mem
            (f := fun row : SlotTaken => row.2.row) hIn)
      rcases List.mem_map.mp hWords with ⟨saved, hRow, hSame⟩
      refine ⟨saved, hRow, ?_⟩
      rw [← saved.channel_row, hSame]
      exact
        channel_srLatencyRow (hit_of_saved hReach hWorld hMem)
  · rintro slot hWorld rfl
    apply channelReport_of_reachable
      (reachable_view hReach hWorld)
    have hSame := rowStats_perm hRows slot.channel
    rw [← channelStats_eq, ← hHolds.samples] at hSame
    unfold rowStats at hSame
    rw [filter_rows_channel hReach hWorld] at hSame
    exact hSame

------------------------------------------------------------
-- A World Of Two Ranks
------------------------------------------------------------

/- Two ranks and one launch. -/
def twoRankMail : MailWorld where
  numDevices := oneLaunch.slot.numDevices
  launches := oneLaunch.launches
  runId := oneLaunch.runId
  launches_pos := oneLaunch.launches_pos
  distinct := oneLaunch.distinct

/- The row that the hook of a slot saves for a hit. -/
def savedRowOf
    (slot : MailboxSlot)
    (hit : Hit) : SavedRow where
  source := slot.source
  vblock := slot.vblock
  latency := savedLatency hit.localTime hit.time hit.offset
  step := hit.step
  invalid := invalidHit hit.time hit.misses
  source_lt := slot.bounds.1
  vblock_lt := slot.bounds.2

/- One result file with all rows of a rank. -/
def rowsFile (rows : List SlotTaken) : SavedFile where
  file := oneFile.file
  slots :=
    [[rows.map
      (fun row => some (savedRowOf row.1 row.2.hit))]]
  threeMaps := oneFile.threeMaps

/- Its generated reader. -/
def rowsReader (rows : List SlotTaken) : Reader where
  srLatency := some srLatencyType
  parse := fun _ =>
    .ok
      (fun name =>
        if name = "sr_latency" then
          some
            ((rowsFile rows).slots.map
              (·.map (·.map slotRecord)))
        else
          none)

/- The file has the words of the rows. -/
theorem rows_rowsFile
    {world : MailWorld}
    {s : MailWorldState}
    (hReach : (mailWorldMachine world).Reachable s)
    (rank : BitVec 32) :
    ([rowsFile (s.rows rank)].flatMap SavedFile.rows).map
        SavedRow.row =
      (s.rows rank).map (fun row => row.2.row) := by
  have hFlat :
      [rowsFile (s.rows rank)].flatMap SavedFile.rows =
        (s.rows rank).map
          (fun row => savedRowOf row.1 row.2.hit) := by
    simp [SavedFile.rows, SavedFile.flat, rowsFile,
      List.reduceOption, List.filterMap_map]
  rw [hFlat, List.map_map]
  apply List.map_congr_left
  intro row hMem
  rcases mem_saved_of_mem_rows hReach hMem with
    ⟨_, hWorld, hSaved⟩
  rcases hit_of_saved hReach hWorld hSaved with
    ⟨hSource, hVblock⟩
  simp [savedRowOf, SavedRow.row, Taken.row, Hit.srLatencyRow,
    Hit.channel, hSource, hVblock]

/- After a whole publish the receiver's channel is reported. -/
theorem latency_report_wholePublish :
    ∃ s stats,
      (mailWorldMachine twoRankMail).Reachable s ∧
      readTrace (rowsReader (s.rows 0)) ⟨"trace", "rank0", 0⟩
          [oneFile.file] = .ok stats ∧
      (s.receiver oneLaunch.slot).saved ≠ [] ∧
      ChannelReport
        (stats.channels.get ChannelStats.empty (1, 3))
        (s.sender oneLaunch.slot)
        (s.receiver oneLaunch.slot).saved := by
  have hRun :
      ((mailWorldMachine twoRankMail).run MailWorldState.start
        (wholePublish.map
          (fun a => ⟨oneLaunch.slot, a⟩))).any
        (fun s =>
          !(s.rows 0).isEmpty &&
            !(s.receiver oneLaunch.slot).saved.isEmpty) =
          true := by
    decide +kernel
  rcases (Option.any_eq_true _ _).mp hRun with
    ⟨s, hSome, hRows⟩
  have hReach : (mailWorldMachine twoRankMail).Reachable s :=
    Machine.reachable_of_run (Machine.Reach.init rfl) hSome
  simp only [Bool.and_eq_true, Bool.not_eq_true',
    List.isEmpty_eq_false_iff] at hRows
  have hDelivers :
      ∀ saved ∈ [rowsFile (s.rows 0)],
        Delivers (rowsReader (s.rows 0)) saved := by
    intro saved hMem
    rw [List.mem_singleton.mp hMem]
    exact ⟨_, rfl, rfl⟩
  rcases latency_report twoRankMail s hReach 0
    (rowsReader (s.rows 0)) ⟨"trace", "rank0", 0⟩
    [rowsFile (s.rows 0)] hDelivers
    (List.Perm.of_eq (rows_rowsFile hReach 0)) hRows.1 with
    ⟨stats, hRead, _, hAll⟩
  exact ⟨s, stats, hReach, hRead, hRows.2,
    hAll oneLaunch.slot rfl rfl⟩

end Latency

end FabricPerf
