import FabricPerf.Lib.RowMajor
import FabricPerf.Ptp.ReportLatency
import FabricPerf.Ptp.ResultFile
import FabricPerf.Ptp.RowLogs
import FabricPerf.Ptp.SlotCodec

/-
  From the handshakes of a world to the offsets that the
  analyzer prints.

  Each rank stores the rows of a launch in its scratch, in
  any order; the save loop and the result file carry them to
  `read_pair_offsets`, which sorts them by pair.  Whatever
  the order of stores, traces and files, a pair with rank 0
  gets back its offsets round by round.

  Main declarations:
    * `Ptp.HoldsLaunch`, `Ptp.SavedTraces`
    * `Ptp.offsets_of_root_pair`
    * `Ptp.root_report`
-/

------------------------------------------------------------
-- Rows By Round
------------------------------------------------------------

namespace FabricPerf

namespace Ptp

open Analysis ByteMemory

namespace LogsOk

variable {role : Role} {p : Party}

/- Rows are stored round by round. -/
theorem rows_key
    (hLogs : LogsOk role p)
    {n : Nat}
    (hN : n < p.rows.length) :
    (p.rows[n].launch, p.rows[n].sample) =
      (n / 20, n % 20) := by
  have hRounds := hLogs .rows (by cases role <;> rfl)
  have hKey := congrArg (fun l => l[n]?) hRounds
  simp only [Log.rounds, List.getElem?_map,
    List.getElem?_eq_getElem hN, Option.map_some] at hKey
  rcases Option.map_eq_some_iff.mp hKey.symm with
    ⟨round, hRound, hSame⟩
  rw [List.getElem?_range] at hRound
  · cases hRound
    exact hSame.symm
  · have hLength := (List.getElem?_eq_some_iff.mp hRound).1
    simpa using hLength

end LogsOk

------------------------------------------------------------
-- Rows Of One Launch
------------------------------------------------------------

/- The rows that a side stores in a launch. -/
def Party.launchRows (p : Party) (launch : Nat) : List RowStore :=
  p.rows.filter (fun row => row.launch = launch)

/-
  The rows that a rank stores in a launch: rank 0 leads all
  other ranks, each of which follows.
-/
def WorldState.launchRows
    (world : World)
    (g : WorldState)
    (rank launch : Nat) : List RowStore :=
  if rank = 0 then
    (List.range' 1 (world.numDevices - 1)).flatMap
      (fun follower =>
        (g.party follower .leader).launchRows launch)
  else
    (g.party rank .follower).launchRows launch

/- The rows of a side are those of its rounds, in its slots. -/
structure RowsInOrder
    (pair : Pair)
    (role : Role)
    (p : Party) : Prop where
  logs : LogsOk role p
  slots :
    ∀ row ∈ p.rows,
      row.slot =
        compactSlot (pair.rank role) (pair.peer role)
          row.sample

/- Runs without timeouts store their rows in order. -/
theorem rowsInOrder_of_reach
    {world : World}
    {g : WorldState}
    (hReach :
      (worldMachine world).Reach (NoTimeout world) g)
    {follower : Nat}
    (hLast : follower < world.numDevices)
    (role : Role) :
    RowsInOrder (world.pair follower) role
      (g.party follower role) where
  logs := (inRounds_of_reach (reach_pairView hReach hLast)).logs
    role
  slots :=
    (settled_of_reach
      (reach_pairView hReach hLast)).contents.rows role

namespace RowsInOrder

variable {pair : Pair} {role : Role} {p : Party}

/- A row of a launch is that of its round. -/
theorem getElem?_of_mem
    (hOrder : RowsInOrder pair role p)
    {launch : Nat}
    {row : RowStore}
    (hMem : row ∈ p.launchRows launch) :
    row.sample < 20 ∧
      p.rows[20 * launch + row.sample]? = some row := by
  rcases List.mem_filter.mp hMem with ⟨hIn, hLaunch⟩
  have hAt : row.launch = launch := of_decide_eq_true hLaunch
  rcases List.mem_iff_getElem.mp hIn with ⟨n, hN, hRow⟩
  have hKey := hOrder.logs.rows_key hN
  rw [hRow, Prod.mk.injEq] at hKey
  have hPlace : 20 * launch + row.sample = n := by omega
  refine ⟨by omega, ?_⟩
  rw [hPlace, List.getElem?_eq_getElem hN, hRow]

/- The row of a round is one of its launch. -/
theorem mem_launchRows
    (hOrder : RowsInOrder pair role p)
    {launch sample : Nat}
    (hSample : sample < 20)
    (hN : 20 * launch + sample < p.rows.length) :
    p.rows[20 * launch + sample] ∈ p.launchRows launch ∧
      p.rows[20 * launch + sample].sample = sample := by
  have hKey := hOrder.logs.rows_key hN
  rw [Prod.mk.injEq] at hKey
  constructor
  · exact
      List.mem_filter.mpr
        ⟨List.getElem_mem hN, decide_eq_true (by omega)⟩
  · omega

/- The ranks of a pair are distinct and below 8. -/
theorem ranks
    (pair : Pair)
    (hFirst : 1 ≤ pair.follower)
    (hLast : pair.follower ≤ 7)
    (role : Role) :
    pair.rank role ≤ 7 ∧ pair.peer role ≤ 7 ∧
      pair.rank role ≠ pair.peer role := by
  cases role <;> simp only [Pair.rank, Pair.peer, Role.other] <;>
    omega

/- The slot of a row tells the pair and the sample. -/
theorem decode_slot
    (hOrder : RowsInOrder pair role p)
    (hFirst : 1 ≤ pair.follower)
    (hLast : pair.follower ≤ 7)
    {launch : Nat}
    {row : RowStore}
    (hMem : row ∈ p.launchRows launch) :
    decodePtpSlot row.slot 20 7 =
      (pair.peer role, pair.rank role, row.sample) := by
  have hSample := (hOrder.getElem?_of_mem hMem).1
  rcases ranks pair hFirst hLast role with ⟨hRank, hPeer, hNe⟩
  rw [hOrder.slots row (List.mem_filter.mp hMem).1]
  exact decodePtpSlot_compactSlot hRank hPeer hNe hSample

/- The slots of a launch are distinct. -/
theorem nodup_slots
    (hOrder : RowsInOrder pair role p)
    (hFirst : 1 ≤ pair.follower)
    (hLast : pair.follower ≤ 7)
    (launch : Nat) :
    ((p.launchRows launch).map RowStore.slot).Nodup := by
  have hKeys :
      (p.rows.map (fun row => (row.launch, row.sample))).Nodup :=
    hOrder.logs.nodup .rows (by cases role <;> rfl)
  have hRows : (p.launchRows launch).Nodup :=
    (List.Nodup.of_map _ hKeys).filter _
  rw [List.nodup_map_iff_inj_on hRows]
  intro row hRow other hOther hSlot
  have hDecode := hOrder.decode_slot hFirst hLast hRow
  rw [hSlot, hOrder.decode_slot hFirst hLast hOther] at hDecode
  have hSample : other.sample = row.sample :=
    (Prod.mk.inj (Prod.mk.inj hDecode).2).2
  have hHere := (hOrder.getElem?_of_mem hRow).2
  have hThere := (hOrder.getElem?_of_mem hOther).2
  rw [hSample, hHere] at hThere
  exact Option.some.inj hThere

end RowsInOrder

section World

variable {world : World} {g : WorldState}
variable {rank launch : Nat} {row : RowStore}

/- A row of a rank was stored by one of its sides. -/
theorem exists_side
    (hRank : rank < world.numDevices)
    (hMem : row ∈ g.launchRows world rank launch) :
    ∃ follower role,
      1 ≤ follower ∧ follower < world.numDevices ∧
        (world.pair follower).rank role = rank ∧
        row ∈ (g.party follower role).launchRows launch := by
  unfold WorldState.launchRows at hMem
  split at hMem
  case isTrue hZero =>
      rcases List.mem_flatMap.mp hMem with
        ⟨follower, hFollower, hRow⟩
      rw [List.mem_range'_1] at hFollower
      exact ⟨follower, .leader, hFollower.1, by omega,
        hZero.symm, hRow⟩
  case isFalse hOther =>
      exact ⟨rank, .follower, by omega, hRank, rfl, hMem⟩

/- The rows of a side are rows of its rank. -/
theorem mem_launchRows_of_side
    {follower : Nat}
    {role : Role}
    (hFirst : 1 ≤ follower)
    (hLast : follower < world.numDevices)
    (hMem : row ∈ (g.party follower role).launchRows launch) :
    row ∈
      g.launchRows world ((world.pair follower).rank role)
        launch := by
  unfold WorldState.launchRows
  cases role with
  | leader =>
      have hZero : (world.pair follower).rank .leader = 0 := rfl
      rw [if_pos hZero]
      refine List.mem_flatMap.mpr ⟨follower, ?_, hMem⟩
      rw [List.mem_range'_1]
      omega
  | follower =>
      have hNe : (world.pair follower).rank .follower ≠ 0 := by
        simp only [Pair.rank, World.pair]
        omega
      rw [if_neg hNe]
      exact hMem

/- Every row of a rank tells the other rank and the sample. -/
theorem decode_launchRow
    (hReach :
      (worldMachine world).Reach (NoTimeout world) g)
    (hRank : rank < world.numDevices)
    (hMem : row ∈ g.launchRows world rank launch) :
    row.slot < diagnosticRows ∧
      (decodePtpSlot row.slot 20 7).2.1 = rank ∧
      ((decodePtpSlot row.slot 20 7).1 = 0 ∨ rank = 0) := by
  have hEight := world.le_eight
  rcases exists_side hRank hMem with
    ⟨follower, role, hFirst, hLast, hSide, hRow⟩
  have hOrder := rowsInOrder_of_reach hReach hLast role
  have hSeven : follower ≤ 7 := by omega
  have hDecode := hOrder.decode_slot hFirst hSeven hRow
  have hSample := (hOrder.getElem?_of_mem hRow).1
  have hRanks :=
    RowsInOrder.ranks (world.pair follower) hFirst hSeven role
  refine ⟨?_, ?_, ?_⟩
  · rw [hOrder.slots row (List.mem_filter.mp hRow).1,
      compactSlot_eq]
    exact mapsTo_encodePtpSlot
      ⟨hRanks.2.1, hRanks.1, hRanks.2.2.symm, hSample⟩
  · rw [hDecode]
    exact hSide
  · rw [hDecode]
    cases role with
    | leader => exact Or.inr hSide.symm
    | follower => exact Or.inl rfl

/- The slots that a rank stores in a launch are distinct. -/
theorem nodup_launchRows
    (hReach :
      (worldMachine world).Reach (NoTimeout world) g)
    (hRank : rank < world.numDevices) :
    ((g.launchRows world rank launch).map
      RowStore.slot).Nodup := by
  have hEight := world.le_eight
  unfold WorldState.launchRows
  split
  case isTrue hZero =>
      rw [List.map_flatMap, List.nodup_flatMap]
      constructor
      · intro follower hMem
        rw [List.mem_range'_1] at hMem
        exact
          (rowsInOrder_of_reach hReach (by omega)
            .leader).nodup_slots hMem.1
            (by simp only [World.pair]; omega) launch
      · apply List.Pairwise.imp_of_mem _ List.nodup_range'
        intro a b hA hB hNe slot hSlotA hSlotB
        rw [List.mem_range'_1] at hA hB
        rcases List.mem_map.mp hSlotA with ⟨row, hRow, hSame⟩
        rcases List.mem_map.mp hSlotB with
          ⟨other, hOther, hSame'⟩
        have hDecode :=
          (rowsInOrder_of_reach hReach (by omega)
            .leader).decode_slot hA.1
            (by simp only [World.pair]; omega) hRow
        rw [hSame, ← hSame',
          (rowsInOrder_of_reach hReach (by omega)
            .leader).decode_slot hB.1
            (by simp only [World.pair]; omega) hOther]
          at hDecode
        exact hNe (Prod.mk.inj hDecode).1.symm
  case isFalse hOther =>
      exact
        (rowsInOrder_of_reach hReach hRank
          .follower).nodup_slots
          (show 1 ≤ rank by omega)
          (show rank ≤ 7 by omega) launch

end World

------------------------------------------------------------
-- The Scratch Of One Launch
------------------------------------------------------------

/- What the row store writes, and where. -/
def RowStore.record (row : RowStore) : Nat × ByteMemory.Pair :=
  (row.slot, (row.offset.val, row.latency))

/- The row as the analyzer reads it. -/
def RowStore.read (row : RowStore) : PtpRow where
  offset := row.offset.val.toInt
  latency := row.latency.toInt

/-
  The rows of a result file begin with the scratch of the
  launch: cleared by the host, then written by the row stores
  of the rank in some order.
-/
def HoldsLaunch
    (world : World)
    (g : WorldState)
    (rank launch : Nat)
    (rows : List PtpRow) : Prop :=
  ∃ (cleared : Memory) (scratch : BitVec 64)
    (stores : List RowStore) (more : List PtpRow),
    (∀ k, k < diagnosticRows →
      record cleared scratch k = (0, 0)) ∧
    stores.Perm (g.launchRows world rank launch) ∧
    rows =
      (List.range diagnosticRows).map
          (fun k =>
            PtpRow.ofPair
              (record
                (storeRecords cleared scratch
                  (stores.map RowStore.record)) scratch k)) ++
        more

/- The row of a slot that no row is stored in. -/
def PtpRow.unwritten : PtpRow := ⟨0, 0⟩

/- Stored rows are in their slots, the other slots are zero. -/
theorem HoldsLaunch.exists_rows
    {world : World}
    {g : WorldState}
    {rank launch : Nat}
    {rows : List PtpRow}
    (hReach :
      (worldMachine world).Reach (NoTimeout world) g)
    (hRank : rank < world.numDevices)
    (hHolds : HoldsLaunch world g rank launch rows) :
    ∃ (slots : Nat → PtpRow) (more : List PtpRow),
      rows = (List.range diagnosticRows).map slots ++ more ∧
      (∀ row ∈ g.launchRows world rank launch,
        slots row.slot = row.read) ∧
      ∀ k, k < diagnosticRows →
        (∀ row ∈ g.launchRows world rank launch,
          row.slot ≠ k) →
          slots k = PtpRow.unwritten := by
  rcases hHolds with
    ⟨cleared, scratch, stores, more, hZero, hPerm, hRows⟩
  have hSlot :
      ∀ row ∈ stores, row.slot < diagnosticRows := by
    intro row hMem
    exact (decode_launchRow hReach hRank
      (hPerm.mem_iff.mp hMem)).1
  have hKeys :
      (stores.map RowStore.record).map Prod.fst =
        stores.map RowStore.slot := by
    rw [List.map_map]
    rfl
  have hNodup :
      ((stores.map RowStore.record).map Prod.fst).Nodup := by
    rw [hKeys, (hPerm.map RowStore.slot).nodup_iff]
    exact nodup_launchRows hReach hRank
  have hFits :
      ∀ s ∈ stores.map RowStore.record,
        16 * s.1 + 16 ≤ 2 ^ 64 := by
    intro s hMem
    rcases List.mem_map.mp hMem with ⟨row, hRow, rfl⟩
    have hBelow := hSlot row hRow
    unfold diagnosticRows at hBelow
    simp only [RowStore.record]
    omega
  refine ⟨_, more, hRows, ?_, ?_⟩
  · intro row hMem
    have hIn : row ∈ stores := hPerm.mem_iff.mpr hMem
    have hRecord :
        (row.slot, (row.offset.val, row.latency)) ∈
          stores.map RowStore.record :=
      List.mem_map_of_mem hIn
    simp only [record_storeRecords_of_mem hFits hNodup hRecord]
    rfl
  · intro k hK hOther
    have hAbsent :
        k ∉ (stores.map RowStore.record).map Prod.fst := by
      rw [hKeys]
      intro hMem
      rcases List.mem_map.mp hMem with ⟨row, hRow, hSame⟩
      exact hOther row (hPerm.mem_iff.mp hRow) hSame
    have hBelow : 16 * k + 16 ≤ 2 ^ 64 := by
      unfold diagnosticRows at hK
      omega
    simp only [record_storeRecords_of_notMem cleared scratch
      hFits hBelow hAbsent, hZero k hK]
    rfl

------------------------------------------------------------
-- One Pair In One File
------------------------------------------------------------

/- A row that is read is of the pair of its slot. -/
theorem pair_of_readPtpRow
    {trace : String}
    {rank : Int}
    {devices fileIndex slot : Nat}
    {row : PtpRow}
    {found : PtpRecord}
    (hRead :
      readPtpRow trace rank devices 20 7 fileIndex slot row =
        some found) :
    found.pair =
        ((decodePtpSlot slot 20 7).1,
          (decodePtpSlot slot 20 7).2.1) ∧
      (decodePtpSlot slot 20 7).1 < devices := by
  unfold readPtpRow at hRead
  split at hRead
  · cases hRead
  · simp only at hRead
    split_ifs at hRead with hRanks
    cases hRead
    exact ⟨rfl, by omega⟩

/- Rows in front are numbered first. -/
theorem filterMap_zipIdx_append
    {α β : Type}
    (slots : Nat → α)
    (n : Nat)
    (more : List α)
    (f : α × Nat → Option β) :
    (((List.range n).map slots ++ more).zipIdx).filterMap f =
      (List.range n).filterMap (fun k => f (slots k, k)) ++
        (more.zipIdx n).filterMap f := by
  have hFront :
      ((List.range n).map slots).zipIdx =
        (List.range n).map (fun k => (slots k, k)) := by
    apply List.ext_getElem
    · simp
    · intro i _ _
      simp
  rw [List.zipIdx_append, List.filterMap_append, hFront,
    List.filterMap_map, List.length_map, List.length_range,
    Nat.zero_add]
  rfl

section File

variable {trace : String} {rank : Int}
variable {devices fileIndex src dst : Nat}

/- The records of a pair that a slot gives. -/
def pairRecord
    (trace : String)
    (rank : Int)
    (devices fileIndex src dst : Nat)
    (slot : PtpRow × Nat) : Option PtpRecord :=
  (readPtpRow trace rank devices 20 7 fileIndex slot.2
    slot.1).filter (fun r => decide (r.pair = (src, dst)))

/- The slots of a pair follow each other. -/
theorem compactSlot_eq_add (deviceId peer sample : Nat) :
    compactSlot deviceId peer sample =
      compactSlot deviceId peer 0 + sample := by
  unfold compactSlot
  omega

/- A slot of the pair is one of its twenty. -/
theorem slot_of_pair
    {k : Nat}
    (hK : k < diagnosticRows)
    (hPair :
      ((decodePtpSlot k 20 7).1, (decodePtpSlot k 20 7).2.1) =
        (src, dst)) :
    ∃ sample, sample < 20 ∧
      k = compactSlot dst src 0 + sample := by
  have hBack : encodePtpSlot 20 7 (decodePtpSlot k 20 7) = k :=
    decodePtpSlot_invOn.1 hK
  have hSample : (decodePtpSlot k 20 7).2.2 < 20 :=
    (mapsTo_decodePtpSlot hK).2.2.2
  refine ⟨(decodePtpSlot k 20 7).2.2, hSample, ?_⟩
  rw [← compactSlot_eq_add, compactSlot_eq]
  rcases Prod.mk.inj hPair with ⟨hSrc, hDst⟩
  rw [← hSrc, ← hDst]
  exact hBack.symm

/- Outside of its twenty slots a pair has no records. -/
theorem pairRecord_outside
    (hDevices : devices ≤ 8)
    {k : Nat}
    (hOutside :
      k < compactSlot dst src 0 ∨
        compactSlot dst src 0 + 20 ≤ k)
    (row : PtpRow) :
    pairRecord trace rank devices fileIndex src dst (row, k) =
      none := by
  unfold pairRecord
  rw [Option.filter_eq_none_iff]
  intro found hRead hPair
  rcases pair_of_readPtpRow hRead with ⟨hOwn, hBelow⟩
  have hSame := of_decide_eq_true hPair
  rw [hOwn] at hSame
  have hK : k < diagnosticRows := by
    unfold decodePtpSlot at hBelow
    unfold diagnosticRows
    simp only at hBelow
    omega
  rcases slot_of_pair hK hSame with ⟨sample, hSample, hSlot⟩
  omega

/- At one of its slots it has what is read there. -/
theorem pairRecord_inside
    (hSrc : src ≤ 7)
    (hDst : dst ≤ 7)
    (hNe : dst ≠ src)
    {sample : Nat}
    (hSample : sample < 20)
    (row : PtpRow) :
    pairRecord trace rank devices fileIndex src dst
        (row, compactSlot dst src 0 + sample) =
      readPtpRow trace rank devices 20 7 fileIndex
        (compactSlot dst src sample) row := by
  rw [← compactSlot_eq_add]
  unfold pairRecord
  cases hRead :
      readPtpRow trace rank devices 20 7 fileIndex
        (compactSlot dst src sample) row with
  | none => rfl
  | some found =>
      have hOwn := (pair_of_readPtpRow hRead).1
      rw [decodePtpSlot_compactSlot hDst hSrc hNe hSample]
        at hOwn
      simp [hOwn]

/- The records of a pair in a file are those of its slots. -/
theorem filter_pair_file
    (hDevices : devices ≤ 8)
    (hSrc : src ≤ 7)
    (hDst : dst ≤ 7)
    (hNe : dst ≠ src)
    (slots : Nat → PtpRow)
    (more : List PtpRow) :
    ((((List.range diagnosticRows).map slots ++
          more).zipIdx.filterMap
        (fun slot =>
          readPtpRow trace rank devices 20 7 fileIndex slot.2
            slot.1)).filter
      (fun r => r.pair = (src, dst))) =
      (List.range 20).filterMap
        (fun sample =>
          readPtpRow trace rank devices 20 7 fileIndex
            (compactSlot dst src sample)
            (slots (compactSlot dst src sample))) := by
  have hWindow : compactSlot dst src 0 + 20 ≤ diagnosticRows := by
    have hLast :
        compactSlot dst src 19 < diagnosticRows := by
      rw [compactSlot_eq]
      exact mapsTo_encodePtpSlot
        ⟨hSrc, hDst, hNe.symm, Nat.lt_succ_self 19⟩
    rw [compactSlot_eq_add] at hLast
    omega
  have hMore :
      (more.zipIdx diagnosticRows).filterMap
          (pairRecord trace rank devices fileIndex src dst) =
        [] := by
    rw [List.filterMap_eq_nil_iff]
    rintro ⟨row, k⟩ hMem
    have hK := List.le_snd_of_mem_zipIdx hMem
    exact pairRecord_outside hDevices (Or.inr (by omega)) row
  rw [List.filter_filterMap]
  change
    List.filterMap
        (pairRecord trace rank devices fileIndex src dst) _ =
      _
  rw [filterMap_zipIdx_append, hMore, List.append_nil,
    RowMajor.filterMap_window hWindow
      (fun k hOutside => pairRecord_outside hDevices hOutside
        (slots k))]
  apply List.filterMap_congr
  intro sample hMem
  have hSample := List.mem_range.mp hMem
  rw [pairRecord_inside hSrc hDst hNe hSample,
    ← compactSlot_eq_add]

end File

------------------------------------------------------------
-- One Pair In One Trace
------------------------------------------------------------

/- A trace directory: its name, its rank, and its files' rows. -/
structure RankTrace where
  trace : String
  rank : Nat
  files : List (List PtpRow)

/-
  The trace of a rank has one result file a launch, which
  holds the rows of that launch.
-/
structure RankTrace.Holds
    (world : World)
    (g : WorldState)
    (launches : Nat)
    (t : RankTrace) : Prop where
  rank_lt : t.rank < world.numDevices
  length : t.files.length = launches
  files :
    ∀ launch, launch < launches →
      HoldsLaunch world g t.rank launch
        (t.files.getD launch [])

/- The records of a trace. -/
def RankTrace.records
    (world : World)
    (t : RankTrace) : List PtpRecord :=
  readPtpRecords t.trace t.rank t.files world.numDevices 20 7

section Trace

variable {world : World} {g : WorldState} {launches : Nat}
variable {t : RankTrace} {src dst : Nat}

/- The records of a pair in a trace, launch by launch. -/
theorem filter_pair_records
    (hReach :
      (worldMachine world).Reach (NoTimeout world) g)
    (hHolds : t.Holds world g launches)
    (hSrc : src ≤ 7)
    (hDst : dst ≤ 7)
    (hNe : dst ≠ src)
    (row : Nat → Nat → PtpRow)
    (hRow :
      ∀ launch sample,
        launch < launches → sample < 20 →
        ∀ slots : Nat → PtpRow,
          (∀ r ∈ g.launchRows world t.rank launch,
            slots r.slot = r.read) →
          (∀ k, k < diagnosticRows →
            (∀ r ∈ g.launchRows world t.rank launch,
              r.slot ≠ k) →
              slots k = PtpRow.unwritten) →
          slots (compactSlot dst src sample) =
            row launch sample) :
    (t.records world).filter
        (fun r => r.pair = (src, dst)) =
      (List.range launches).flatMap
        (fun launch =>
          (List.range 20).filterMap
            (fun sample =>
              readPtpRow t.trace t.rank world.numDevices 20 7
                launch (compactSlot dst src sample)
                (row launch sample))) := by
  have hFiles :
      t.files.zipIdx =
        (List.range launches).map
          (fun launch => (t.files.getD launch [], launch)) := by
    apply List.ext_getElem
    · simp [hHolds.length]
    · intro i hI _
      have hBelow : i < t.files.length := by simpa using hI
      simp [hBelow]
  unfold RankTrace.records readPtpRecords
  rw [hFiles, List.filter_flatMap, List.flatMap_map]
  apply List.flatMap_congr
  intro launch hMem
  have hLaunch := List.mem_range.mp hMem
  rcases (hHolds.files launch hLaunch).exists_rows hReach
    hHolds.rank_lt with
    ⟨slots, more, hRows, hStored, hOther⟩
  simp only [hRows]
  rw [filter_pair_file world.le_eight hSrc hDst hNe]
  apply List.filterMap_congr
  intro sample hIn
  rw [hRow launch sample hLaunch (List.mem_range.mp hIn) slots
    hStored hOther]

/- Pairs that no row of the rank is of have no records. -/
theorem filter_pair_eq_nil
    (hReach :
      (worldMachine world).Reach (NoTimeout world) g)
    (hHolds : t.Holds world g launches)
    (hSrc : src ≤ 7)
    (hDst : dst ≤ 7)
    (hNe : dst ≠ src)
    (hOther : dst ≠ t.rank ∨ (src ≠ 0 ∧ dst ≠ 0)) :
    (t.records world).filter
        (fun r => r.pair = (src, dst)) = [] := by
  rw [filter_pair_records hReach hHolds hSrc hDst hNe
    (fun _ _ => PtpRow.unwritten)]
  · rw [List.flatMap_eq_nil_iff]
    intro launch _
    rw [List.filterMap_eq_nil_iff]
    intro sample _
    rfl
  · intro launch sample _ hSample slots _ hUnwritten
    have hTriple : (src, dst, sample) ∈ ptpTriples 20 7 :=
      ⟨hSrc, hDst, hNe.symm, hSample⟩
    apply hUnwritten
    · rw [compactSlot_eq]
      exact mapsTo_encodePtpSlot hTriple
    · intro r hMem hSlot
      rcases decode_launchRow hReach hHolds.rank_lt hMem with
        ⟨_, hRank, hRoot⟩
      rw [hSlot, decodePtpSlot_compactSlot hDst hSrc hNe
        hSample] at hRank hRoot
      simp only at hRank hRoot
      rcases hOther with hElse | ⟨hFirst, hSecond⟩
      · exact hElse hRank
      · rcases hRoot with hZero | hZero
        · exact hFirst hZero
        · exact hSecond (hRank.trans hZero)

/- The record of a round, if the row counts as written. -/
def roundRecord
    (world : World)
    (t : RankTrace)
    (src dst : Nat)
    (rows : List RowStore)
    (round : Nat) : Option PtpRecord :=
  rows[round]?.bind
    (fun row =>
      readPtpRow t.trace t.rank world.numDevices 20 7
        (round / 20) (compactSlot dst src (round % 20))
        row.read)

/- A row in a slot of the pair is that of the side's round. -/
theorem getElem?_of_slot
    (hReach :
      (worldMachine world).Reach (NoTimeout world) g)
    {follower launch sample : Nat}
    {role : Role}
    (hFirst : 1 ≤ follower)
    (hLast : follower < world.numDevices)
    (hSample : sample < 20)
    {r : RowStore}
    (hMem :
      r ∈
        g.launchRows world ((world.pair follower).rank role)
          launch)
    (hSlot :
      r.slot =
        compactSlot ((world.pair follower).rank role)
          ((world.pair follower).peer role) sample) :
    (g.party follower role).rows[20 * launch + sample]? =
      some r := by
  have hEight := world.le_eight
  have hSeven : (world.pair follower).follower ≤ 7 := by
    simp only [World.pair]
    omega
  rcases RowsInOrder.ranks (world.pair follower) hFirst
    hSeven role with ⟨hDst, hSrc, hNe⟩
  have hRankLt :
      (world.pair follower).rank role < world.numDevices := by
    cases role with
    | leader => exact lt_of_lt_of_le Nat.two_pos world.two_le
    | follower => exact hLast
  rcases exists_side hRankLt hMem with
    ⟨other, side, hOtherFirst, hOtherLast, hSide, hRow⟩
  have hOrder := rowsInOrder_of_reach hReach hOtherLast side
  have hDecode :=
    hOrder.decode_slot hOtherFirst
      (by simp only [World.pair]; omega) hRow
  rw [hSlot, decodePtpSlot_compactSlot hDst hSrc hNe hSample]
    at hDecode
  rcases Prod.mk.inj hDecode with ⟨hPeer, hRest⟩
  have hAt := (Prod.mk.inj hRest).2
  have hSame : other = follower ∧ side = role := by
    cases side <;> cases role <;>
      simp only [Pair.rank, Pair.peer, Role.other, World.pair]
        at hPeer hSide <;>
      first
      | exact ⟨hPeer.symm, rfl⟩
      | exact ⟨hSide, rfl⟩
      | omega
  rcases hSame with ⟨rfl, rfl⟩
  rw [hAt]
  exact (hOrder.getElem?_of_mem hRow).2

/- The records of a side's pair are those of its rounds. -/
theorem filter_pair_own
    (hReach :
      (worldMachine world).Reach (NoTimeout world) g)
    (hHolds : t.Holds world g launches)
    {follower : Nat}
    {role : Role}
    (hFirst : 1 ≤ follower)
    (hLast : follower < world.numDevices)
    (hRank : t.rank = (world.pair follower).rank role) :
    (t.records world).filter
        (fun r =>
          r.pair =
            ((world.pair follower).peer role,
              (world.pair follower).rank role)) =
      (List.range (launches * 20)).filterMap
        (roundRecord world t ((world.pair follower).peer role)
          ((world.pair follower).rank role)
          (g.party follower role).rows) := by
  have hEight := world.le_eight
  have hOrder := rowsInOrder_of_reach hReach hLast role
  rcases RowsInOrder.ranks (world.pair follower) hFirst
    (by simp only [World.pair]; omega) role with
    ⟨hDst, hSrc, hNe⟩
  have hRow :
      ∀ launch sample,
        launch < launches → sample < 20 →
        ∀ slots : Nat → PtpRow,
          (∀ r ∈ g.launchRows world t.rank launch,
            slots r.slot = r.read) →
          (∀ k, k < diagnosticRows →
            (∀ r ∈ g.launchRows world t.rank launch,
              r.slot ≠ k) →
              slots k = PtpRow.unwritten) →
          slots
              (compactSlot ((world.pair follower).rank role)
                ((world.pair follower).peer role) sample) =
            ((g.party follower role).rows[
              20 * launch + sample]?.map RowStore.read).getD
              PtpRow.unwritten := by
    intro launch sample _ hSample slots hStored hOther
    cases hGet :
        (g.party follower role).rows[20 * launch + sample]? with
    | some r =>
        rcases List.getElem?_eq_some_iff.mp hGet with
          ⟨hN, hR⟩
        rcases hOrder.mem_launchRows hSample hN with
          ⟨hMem, hAt⟩
        have hSlot := hOrder.slots _ (List.getElem_mem hN)
        rw [hAt] at hSlot
        have hIn := mem_launchRows_of_side hFirst hLast hMem
        rw [← hRank] at hIn
        rw [← hSlot, hStored _ hIn, hR]
        rfl
    | none =>
        apply hOther
        · rw [compactSlot_eq]
          exact mapsTo_encodePtpSlot
            ⟨hSrc, hDst, hNe.symm, hSample⟩
        · intro r hMem hSlot
          rw [hRank] at hMem
          rw [getElem?_of_slot hReach hFirst hLast hSample hMem
            hSlot] at hGet
          cases hGet
  rw [filter_pair_records hReach hHolds hSrc hDst hNe _ hRow,
    ← RowMajor.flatMap_filterMap_range]
  apply List.flatMap_congr
  intro launch _
  apply List.filterMap_congr
  intro sample hIn
  have hSample := List.mem_range.mp hIn
  have hIndex :
      RowMajor.index 20 launch sample = 20 * launch + sample := by
    unfold RowMajor.index
    omega
  unfold roundRecord
  rw [RowMajor.index_div hSample, RowMajor.index_mod hSample,
    hIndex]
  cases (g.party follower role).rows[20 * launch + sample]? with
  | some r => rfl
  | none => rfl

end Trace

------------------------------------------------------------
-- The Offsets Of A Pair
------------------------------------------------------------

/-
  The traces of a world: one for each rank, in any order, and
  a file for each of its launches.
-/
structure SavedTraces
    (world : World)
    (g : WorldState)
    (launches : Nat)
    (traces : List RankTrace) : Prop where
  holds : ∀ t ∈ traces, t.Holds world g launches
  nodup : (traces.map RankTrace.rank).Nodup
  all :
    ∀ rank, rank < world.numDevices →
      rank ∈ traces.map RankTrace.rank

/- The offset of a row that counts as written. -/
def writtenOffset (row : RowStore) : Option Int :=
  if isUnwrittenPtpRecord row.read then none
    else some row.read.offset

/- The rows that a side has stored up to a launch. -/
def Party.savedRows (p : Party) (launches : Nat) :
    List RowStore :=
  p.rows.take (launches * 20)

/- Rows by their indices are the first rows. -/
theorem filterMap_getElem?
    {α β : Type}
    (l : List α)
    (f : α → Option β)
    (n : Nat) :
    (List.range n).filterMap (fun i => l[i]?.bind f) =
      (l.take n).filterMap f := by
  induction n with
  | zero => simp
  | succ n ih =>
      have hLast :
          [n].filterMap (fun i => l[i]?.bind f) =
            l[n]?.toList.filterMap f := by
        cases hN : l[n]? <;> simp [hN, List.filterMap_cons]
      rw [List.range_succ, List.filterMap_append, ih,
        List.take_add_one, List.filterMap_append, hLast]

section Offsets

variable {world : World} {g : WorldState} {launches : Nat}
variable {t : RankTrace} {src dst round : Nat}
variable {rows : List RowStore}

/- The record of a round has the key of the round. -/
theorem roundRecord_eq_some
    (hSrc : src ≤ 7)
    (hDst : dst ≤ 7)
    (hNe : dst ≠ src)
    {found : PtpRecord}
    (hFound :
      roundRecord world t src dst rows round = some found) :
    found.fileIndex = round / 20 ∧
      found.sampleIndex = round % 20 := by
  rcases Option.bind_eq_some_iff.mp hFound with
    ⟨row, _, hRead⟩
  unfold readPtpRow at hRead
  split at hRead
  · cases hRead
  · simp only at hRead
    split_ifs at hRead
    cases hRead
    have hSample : round % 20 < 20 := Nat.mod_lt _ (by decide)
    refine ⟨rfl, ?_⟩
    simp only
    rw [decodePtpSlot_compactSlot hDst hSrc hNe hSample]

/- The records of the rounds are sorted. -/
theorem pairwise_roundRecords
    (hSrc : src ≤ 7)
    (hDst : dst ≤ 7)
    (hNe : dst ≠ src)
    (n : Nat) :
    (((List.range n).filterMap
        (roundRecord world t src dst rows)).map
      PtpRecord.sample).Pairwise Sample.le := by
  rw [List.pairwise_map]
  refine List.Pairwise.filterMap _ ?_ List.pairwise_lt_range
  intro i j hLess first hFirst second hSecond
  rcases roundRecord_eq_some hSrc hDst hNe hFirst with
    ⟨hFile, hSample⟩
  rcases roundRecord_eq_some hSrc hDst hNe hSecond with
    ⟨hFile', hSample'⟩
  simp only [Sample.le, Sample.tuple, PtpRecord.sample,
    Prod.Lex.toLex_le_toLex, hFile, hSample, hFile', hSample']
  omega

/- The offset of a round's record is that of its row. -/
theorem offset_roundRecord
    (hSrc : src < world.numDevices)
    (hDst : dst < world.numDevices)
    (hNe : dst ≠ src) :
    (roundRecord world t src dst rows round).map
        PtpRecord.offset =
      rows[round]?.bind writtenOffset := by
  have hEight := world.le_eight
  unfold roundRecord
  cases rows[round]? with
  | none => rfl
  | some row =>
      have hSample : round % 20 < 20 :=
        Nat.mod_lt _ (by decide)
      have hDecode :
          decodePtpSlot (compactSlot dst src (round % 20)) 20
              7 =
            (src, dst, round % 20) :=
        decodePtpSlot_compactSlot (by omega) (by omega) hNe
          hSample
      have hKeep :
          ¬ (world.numDevices ≤ src ∨
            world.numDevices ≤ dst ∨ src = dst) := by
        omega
      simp only [Option.bind_some, readPtpRow, writtenOffset,
        hDecode, if_neg hKeep]
      split <;> rfl

/-
  The offsets of a pair with rank 0 are those of the rows that
  its destination has saved, round by round.
-/
theorem offsets_of_root_pair
    (hReach :
      (worldMachine world).Reach (NoTimeout world) g)
    {traces : List RankTrace}
    (hTraces : SavedTraces world g launches traces)
    {follower : Nat}
    (role : Role)
    (hFirst : 1 ≤ follower)
    (hLast : follower < world.numDevices) :
    (readPairOffsets
        (traces.flatMap (RankTrace.records world))).get []
          ((world.pair follower).peer role,
            (world.pair follower).rank role) =
      ((g.party follower role).savedRows launches).filterMap
        writtenOffset := by
  have hEight := world.le_eight
  have hTwo := world.two_le
  have hRanks :
      (world.pair follower).rank role < world.numDevices ∧
        (world.pair follower).peer role < world.numDevices := by
    cases role <;>
      simp only [Pair.rank, Pair.peer, Role.other, World.pair] <;>
      omega
  rcases RowsInOrder.ranks (world.pair follower) hFirst
    (by simp only [World.pair]; omega) role with
    ⟨hDst, hSrc, hNe⟩
  rcases List.mem_map.mp (hTraces.all _ hRanks.1) with
    ⟨t, hMem, hRank⟩
  -- only the trace of the destination has records of the pair
  have hOwn :
      (traces.flatMap (RankTrace.records world)).filter
          (fun r =>
            r.pair =
              ((world.pair follower).peer role,
                (world.pair follower).rank role)) =
        (List.range (launches * 20)).filterMap
          (roundRecord world t
            ((world.pair follower).peer role)
            ((world.pair follower).rank role)
            (g.party follower role).rows) := by
    rw [List.filter_flatMap,
      Keyed.flatMap_eq_of_key hTraces.nodup hMem]
    · exact filter_pair_own hReach (hTraces.holds t hMem)
        hFirst hLast hRank
    · intro other hOther hElse
      apply filter_pair_eq_nil hReach
        (hTraces.holds other hOther) hSrc hDst hNe
      left
      rw [← hRank]
      exact hElse.symm
  rw [get_readPairOffsets, pairSamples, hOwn, sortSamples,
    (pairwise_roundRecords hSrc hDst hNe _).insertionSort_eq,
    List.map_map, List.map_filterMap]
  have hOffset :
      (fun round =>
        (roundRecord world t ((world.pair follower).peer role)
          ((world.pair follower).rank role)
          (g.party follower role).rows round).map
            (Sample.offset ∘ PtpRecord.sample)) =
        fun round =>
          (g.party follower role).rows[round]?.bind
            writtenOffset := by
    funext round
    exact offset_roundRecord hRanks.2 hRanks.1 hNe
  rw [hOffset, filterMap_getElem?]
  rfl

/- Pairs without rank 0 have no offsets. -/
theorem offsets_of_other_pair
    (hReach :
      (worldMachine world).Reach (NoTimeout world) g)
    {traces : List RankTrace}
    (hTraces : SavedTraces world g launches traces)
    (hSrc : src < world.numDevices)
    (hDst : dst < world.numDevices)
    (hNe : dst ≠ src)
    (hOther : src ≠ 0 ∧ dst ≠ 0) :
    (readPairOffsets
        (traces.flatMap (RankTrace.records world))).get []
          (src, dst) =
      [] := by
  have hEight := world.le_eight
  have hNone :
      (traces.flatMap (RankTrace.records world)).filter
          (fun r => r.pair = (src, dst)) = [] := by
    rw [List.filter_flatMap, List.flatMap_eq_nil_iff]
    intro t hMem
    exact filter_pair_eq_nil hReach (hTraces.holds t hMem)
      (by omega) (by omega) hNe (Or.inr hOther)
  rw [get_readPairOffsets, pairSamples, hNone]
  rfl

end Offsets

------------------------------------------------------------
-- Both Directions Of A Pair
------------------------------------------------------------

section Directions

variable {pair : Pair} {s : PairState} {n : Nat}

/- The rows of both sides at one place are of one report. -/
theorem rows_agree
    (hReach : (pairMachine pair).Reach Unexhausted s)
    (hLeader : n < (s.party .leader).rows.length)
    (hFollower : n < (s.party .follower).rows.length) :
    (s.party .leader).rows[n].offset.val =
        -(s.party .follower).rows[n].offset.val ∧
      (s.party .leader).rows[n].latency =
        reportTag (s.party .follower).rows[n].latency >>> 8 ∧
      ∃ w,
        (s.party .follower).rows[n].offset.val =
          SignedWord.halve w := by
  have hSettled := settled_of_reach hReach
  have hLogs := (inRounds_of_reach hReach).logs
  have hRows := rowsOk_of_reach hReach
  have hLKey := (hLogs .leader).rows_key hLeader
  have hFKey := (hLogs .follower).rows_key hFollower
  rcases hRows.backed.stored _ (List.getElem_mem hLeader) with
    ⟨tag, data, ⟨row, hDue, hKey, hTag, hData⟩, hLatency,
      hNegated⟩
  have hRound : (row.launch, row.sample) = (n / 20, n % 20) :=
    hKey.trans hLKey
  have hSame : row = (s.party .follower).rows[n] := by
    rcases Party.mem_due.mp hDue with hStored | ⟨hPc, hNext⟩
    · exact Keyed.eq_of_key
        ((hLogs .follower).nodup .rows rfl) hStored
        (List.getElem_mem hFollower)
        (hRound.trans hFKey.symm)
    · -- the row of the current round is not stored yet
      exfalso
      have hLength :=
        congrArg List.length (hLogs .follower .rows rfl)
      have hAt : Log.pc .rows .follower = 9 := rfl
      simp only [Log.rounds, List.length_map, List.length_range,
        Cursor.round] at hLength
      rw [hNext, Prod.mk.injEq] at hRound
      change
        (s.party .follower).cursor.launch = n / 20 ∧
          (s.party .follower).cursor.sample = n % 20 at hRound
      rw [if_neg (by omega)] at hLength
      omega
  have hOffset :=
    (hRows.match_offsets .follower).stored _
      (List.getElem_mem hFollower)
  rcases hOffset with ⟨o, hO, _, hValue⟩
  rcases hSettled.contents.offsets .follower o hO with
    ⟨_, t1, t2, t3, t4, _, hHalved⟩
  refine ⟨?_, ?_, ?_⟩
  · rw [hNegated, hData, hSame]
    exact BitVec.zero_sub _
  · rw [hLatency, hTag, hSame]
  · rw [← hValue]
    exact ⟨_, hHalved⟩

/- The offsets of the rows are those of the offset table. -/
theorem rows_prefix_offsets
    {role : Role}
    {p : Party}
    (hLogs : LogsOk role p)
    (hMatch : RowsMatch role p) :
    p.rows.map (fun row => row.offset) <+:
      p.offsets.map (fun o => o.value) := by
  have hRowsKept : Log.rows.keptBy role = true := by
    cases role <;> rfl
  have hOffsetsKept : Log.offsets.keptBy role = true := by
    cases role <;> rfl
  have hBefore : Log.pc .offsets role < Log.pc .rows role := by
    cases role <;> decide
  have hRowsLength := congrArg List.length (hLogs .rows hRowsKept)
  have hOffsetsLength :=
    congrArg List.length (hLogs .offsets hOffsetsKept)
  simp only [Log.rounds, List.length_map, List.length_range]
    at hRowsLength hOffsetsLength
  have hLe : p.rows.length ≤ p.offsets.length := by
    rw [hRowsLength, hOffsetsLength]
    split <;> split <;> omega
  rw [List.prefix_iff_eq_take]
  apply List.ext_getElem
  · simp [hLe]
  · intro i hI hJ
    have hRow : i < p.rows.length := by simpa using hI
    have hOffset : i < p.offsets.length := by omega
    rcases hMatch.stored _ (List.getElem_mem hRow) with
      ⟨o, hO, hKey, hValue⟩
    have hKeys :=
      congrArg (fun l => l[i]?) (hLogs .offsets hOffsetsKept)
    have hRowKey := hLogs.rows_key hRow
    have hOffsetKey :
        (p.offsets[i].launch, p.offsets[i].sample) =
          (i / 20, i % 20) := by
      simp only [Log.rounds, List.getElem?_map,
        List.getElem?_eq_getElem hOffset, Option.map_some]
        at hKeys
      rcases Option.map_eq_some_iff.mp hKeys.symm with
        ⟨round, hRound, hSame⟩
      rw [List.getElem?_range (by
        have hRange := (List.getElem?_eq_some_iff.mp hRound).1
        simpa using hRange)] at hRound
      cases hRound
      exact hSame.symm
    have hSame : o = p.offsets[i] :=
      Keyed.eq_of_key (hLogs.nodup .offsets hOffsetsKept) hO
        (List.getElem_mem hOffset)
        ((hKey.trans hRowKey).trans hOffsetKey.symm)
    simp only [List.getElem_map, List.getElem_take]
    rw [← hSame, hValue]

/- The smaller half of the range is safe to negate. -/
theorem toInt_neg_halve (w : BitVec 64) :
    (-SignedWord.halve w).toInt =
      -(SignedWord.halve w).toInt := by
  have hLow := BitVec.le_toInt w
  have hHigh := BitVec.toInt_lt (x := w)
  have hHalf := SignedWord.toInt_halve w
  have hTwice := SignedWord.two_mul_toInt_halve w
  have hParity := SignedWord.natAbs_tmod_two_le w.toInt
  rw [BitVec.toInt_neg]
  apply Int.bmod_eq_of_le <;> omega

/-
  The leader's row counts as written when the follower's
  does, and has the negated offset.
-/
theorem writtenOffset_negated
    {fRow lRow : RowStore}
    (hNegated : lRow.offset.val = -fRow.offset.val)
    (hLatency : lRow.latency = reportTag fRow.latency >>> 8)
    (hHalved : ∃ w, fRow.offset.val = SignedWord.halve w)
    (hLow : -2 ^ 55 ≤ fRow.latency.toInt)
    (hHigh : fRow.latency.toInt < 2 ^ 55) :
    writtenOffset lRow =
      (writtenOffset fRow).map (fun offset => -offset) := by
  rcases hHalved with ⟨w, hW⟩
  have hOffset : lRow.read.offset = -fRow.read.offset := by
    simp only [RowStore.read]
    rw [hNegated, hW]
    exact toInt_neg_halve w
  have hZero :
      lRow.read.latency = 0 ↔ fRow.read.latency = 0 := by
    simp only [RowStore.read]
    rw [hLatency, toInt_unpacked hLow hHigh]
    split <;> omega
  have hUnwritten :
      isUnwrittenPtpRecord lRow.read =
        isUnwrittenPtpRecord fRow.read := by
    unfold isUnwrittenPtpRecord
    rw [Bool.eq_iff_iff, Bool.and_eq_true, Bool.and_eq_true,
      beq_iff_eq, beq_iff_eq, beq_iff_eq, beq_iff_eq, hZero,
      hOffset, Int.neg_eq_zero]
  unfold writtenOffset
  rw [hUnwritten, hOffset]
  split <;> rfl

end Directions

------------------------------------------------------------
-- The Report Of A Trace Root
------------------------------------------------------------

/- A directory of the trace root that reads as a trace. -/
structure DirReads
    (dir : String × TraceDir (List Record))
    (t : RankTrace) : Prop where
  trace : t.trace = dir.1
  rank : dir.2.parseRank = .ok t.rank
  files :
    ∃ parse,
      dir.2.loadReader = .ok parse ∧
        List.Forall₂ (FileReadsAs parse) dir.2.resultFiles
          t.files

/- A directory is read as its trace is. -/
theorem DirReads.readRankedDir
    {world : World}
    {dir : String × TraceDir (List Record)}
    {t : RankTrace}
    (hReads : DirReads dir t) :
    readRankedDir world.numDevices 20 7 dir =
      .ok (t.records world) := by
  rcases hReads with ⟨hTrace, hRank, parse, hReader, hFiles⟩
  have hDir :
      readPtpTraceDir dir.1 dir.2 world.numDevices 20 7 =
        .ok (t.records world) := by
    rw [← hTrace]
    exact readPtpTraceDir_ok hRank hReader hFiles (by decide)
      (by decide)
  unfold Ptp.readRankedDir
  rw [hDir]

/- The ranks of a world give its size. -/
theorem inferDevices_ok
    {world : World}
    {g : WorldState}
    {launches : Nat}
    {root : TraceRoot (List Record)}
    {traces : List RankTrace}
    (hTraces : SavedTraces world g launches traces)
    (hRoot : List.Forall₂ DirReads root.traceDirs traces)
    (hDirs : root.iterTraceDirs = .ok root.traceDirs) :
    inferDevices root = .ok world.numDevices := by
  have hTwo := world.two_le
  have hEight := world.le_eight
  have hRanks :
      root.traceDirs.mapM (fun dir => dir.2.parseRank) =
        .ok (traces.map RankTrace.rank) :=
    Raising.mapM_ok_of_forall₂
      (hRoot.imp (fun _ _ hReads => hReads.rank))
  have hMax :
      (traces.map RankTrace.rank).max? =
        some (world.numDevices - 1) := by
    rw [List.max?_eq_some_iff]
    constructor
    · exact hTraces.all _ (by omega)
    · intro rank hMem
      rcases List.mem_map.mp hMem with ⟨t, hT, rfl⟩
      have hBelow := (hTraces.holds t hT).rank_lt
      omega
  have hSize :
      min (world.numDevices - 1 + 1) 8 = world.numDevices := by
    omega
  unfold inferDevices
  simp only [hDirs, Raising.ok_bind, hRanks, hMax,
    Raising.pure_eq_ok, hSize]

/- A root whose directories read as traces is read as they are. -/
theorem readTraceOffsets_ok
    {world : World}
    {g : WorldState}
    {launches : Nat}
    {root : TraceRoot (List Record)}
    {traces : List RankTrace}
    (hTraces : SavedTraces world g launches traces)
    (hRoot : List.Forall₂ DirReads root.traceDirs traces)
    {devices : Option Nat}
    (hDevices :
      devices = none ∨ devices = some world.numDevices) :
    readTraceOffsets root devices 20 7 =
      .ok
        (readPairOffsets
          (traces.flatMap (RankTrace.records world))) := by
  have hTwo := world.two_le
  have hSome : traces ≠ [] := by
    intro hNil
    have hMem := hTraces.all 0 (by omega)
    rw [hNil] at hMem
    exact List.not_mem_nil hMem
  have hDirs := TraceRoot.iterTraceDirs_eq hRoot hSome
  have hRecords :
      root.traceDirs.mapM
          (readRankedDir world.numDevices 20 7) =
        .ok (traces.map (RankTrace.records world)) :=
    Raising.mapM_ok_of_forall₂
      (hRoot.imp (fun _ _ hReads => hReads.readRankedDir))
  unfold readTraceOffsets
  rcases hDevices with rfl | rfl
  · simp only [inferDevices_ok hTraces hRoot hDirs, hDirs,
      hRecords, Raising.ok_bind, Raising.pure_eq_ok,
      List.flatMap_def]
  · simp only [hDirs, hRecords, Raising.ok_bind,
      Raising.pure_eq_ok, List.flatMap_def]

/- Both sides of a pair have saved rows of the same rounds. -/
def EvenlySaved
    (g : WorldState)
    (launches follower : Nat) : Prop :=
  ∀ n, n < launches * 20 →
    (n < (g.party follower .leader).rows.length ↔
      n < (g.party follower .follower).rows.length)

/- Opposite offsets cancel position by position. -/
theorem reciprocalResiduals_negated
    {pairOffsets : Dict RankPair (List Int)}
    {first second : Nat}
    (hNegated :
      pairOffsets.get [] (second, first) =
        (pairOffsets.get [] (first, second)).map
          (fun offset => -offset)) :
    reciprocalResiduals pairOffsets first second =
      List.replicate
        (pairOffsets.get [] (first, second)).length 0 := by
  unfold reciprocalResiduals
  rw [hNegated]
  apply List.ext_getElem
  · simp
  · intro i hI _
    have hBelow :
        i < (pairOffsets.get [] (first, second)).length := by
      simpa using hI
    simp [hBelow]

/-
  The report of a world's trace root, in every run without
  timeouts and in every order of stores and traces: a
  follower's offsets from rank 0 are its table's, round by
  round, but for rows without offset and latency; those to
  rank 0 are their negations, so that every residual is zero;
  no other pair has offsets.
-/
theorem root_report
    (world : World)
    (g : WorldState)
    (hReach :
      (worldMachine world).Reach (NoTimeout world) g)
    (launches : Nat)
    (traces : List RankTrace)
    (hTraces : SavedTraces world g launches traces)
    (root : TraceRoot (List Record))
    (hRoot : List.Forall₂ DirReads root.traceDirs traces)
    (devices : Option Nat)
    (hDevices :
      devices = none ∨ devices = some world.numDevices)
    (hEven :
      ∀ follower, 1 ≤ follower →
        follower < world.numDevices →
          EvenlySaved g launches follower)
    (hLatency :
      ∀ follower, 1 ≤ follower →
        follower < world.numDevices →
          ∀ row ∈ (g.party follower .follower).rows,
            -2 ^ 55 ≤ row.latency.toInt ∧
              row.latency.toInt < 2 ^ 55) :
    ∃ pairOffsets,
      readTraceOffsets root devices 20 7 = .ok pairOffsets ∧
      (∀ follower, 1 ≤ follower →
        follower < world.numDevices →
          (g.party follower .follower).rows.map
              (fun row => row.offset) <+:
            (g.party follower .follower).offsets.map
              (fun o => o.value) ∧
          pairOffsets.get [] (0, follower) =
            ((g.party follower .follower).savedRows
              launches).filterMap writtenOffset ∧
          pairOffsets.get [] (follower, 0) =
            (pairOffsets.get [] (0, follower)).map
              (fun offset => -offset) ∧
          reciprocalResiduals pairOffsets 0 follower =
            List.replicate
              (pairOffsets.get [] (0, follower)).length 0) ∧
      ∀ src dst,
        src < world.numDevices → dst < world.numDevices →
        dst ≠ src → src ≠ 0 → dst ≠ 0 →
          pairOffsets.get [] (src, dst) = [] := by
  refine ⟨_, readTraceOffsets_ok hTraces hRoot hDevices, ?_, ?_⟩
  · intro follower hFirst hLast
    have hPair := reach_pairView hReach hLast
    have hForward :=
      offsets_of_root_pair hReach hTraces .follower hFirst
        hLast
    have hBackward :=
      offsets_of_root_pair hReach hTraces .leader hFirst
        hLast
    have hNegated :
        ((g.party follower .leader).savedRows
            launches).filterMap writtenOffset =
          (((g.party follower .follower).savedRows
            launches).filterMap writtenOffset).map
              (fun offset => -offset) := by
      unfold Party.savedRows
      rw [← filterMap_getElem?, ← filterMap_getElem?,
        List.map_filterMap]
      apply List.filterMap_congr
      intro n hN
      have hIff :=
        hEven follower hFirst hLast n (List.mem_range.mp hN)
      by_cases hLeader :
          n < (g.party follower .leader).rows.length
      · have hFollower := hIff.mp hLeader
        rcases rows_agree hPair hLeader hFollower with
          ⟨hOpposite, hReport, hHalved⟩
        rcases hLatency follower hFirst hLast _
          (List.getElem_mem hFollower) with ⟨hLow, hHigh⟩
        rw [List.getElem?_eq_getElem hLeader,
          List.getElem?_eq_getElem hFollower]
        exact writtenOffset_negated hOpposite hReport hHalved
          hLow hHigh
      · have hFollower := mt hIff.mpr hLeader
        rw [List.getElem?_eq_none (Nat.le_of_not_lt hLeader),
          List.getElem?_eq_none (Nat.le_of_not_lt hFollower)]
        rfl
    have hOpposite := hBackward.trans hNegated
    rw [← hForward] at hOpposite
    exact
      ⟨rows_prefix_offsets
          ((inRounds_of_reach hPair).logs .follower)
          ((rowsOk_of_reach hPair).match_offsets .follower),
        hForward, hOpposite,
        reciprocalResiduals_negated hOpposite⟩
  · intro src dst hSrc hDst hNe hFirst hSecond
    exact offsets_of_other_pair hReach hTraces hSrc hDst hNe
      ⟨hFirst, hSecond⟩

/- The scratch that a rank leaves, on cleared memory. -/
def scratchOf
    (g : WorldState)
    (rank : Nat) : Memory :=
  storeRecords (fun _ => 0) 0
    ((g.launchRows twoRanks rank 0).map RowStore.record)

/- The trace of a rank with that scratch in its only file. -/
def scratchTrace (g : WorldState) (rank : Nat) : RankTrace where
  trace := "run"
  rank := rank
  files :=
    [(List.range diagnosticRows).map
      (fun k =>
        PtpRow.ofPair (record (scratchOf g rank) 0 k))]

/- The directory of that trace. -/
def scratchDir
    (g : WorldState)
    (rank : Nat) : TraceDir (List Record) where
  hasReader := true
  hasResult := true
  loadReader := .ok (parsePtpRecords ptpMetricsReader)
  resultFiles := [dumpFile (scratchOf g rank) 0]
  parseRank := .ok rank

/- The trace root of the two ranks, the last one first. -/
def scratchRoot
    (g : WorldState) : TraceRoot (List Record) where
  path := "traces/run"
  name := "run"
  parentName := "traces"
  own :=
    { hasReader := false
      hasResult := false
      loadReader := .error .keyError
      resultFiles := []
      parseRank := .error .keyError }
  children := [scratchDir g 1, scratchDir g 0]

/- Cleared memory has zero records. -/
theorem record_zero
    (base : BitVec 64)
    (k : Nat) :
    record (fun _ => 0) base k = (0, 0) := by
  rfl

/- The directories read as the traces. -/
theorem dirReads_scratch (g : WorldState) (rank : Nat) :
    DirReads ("run", scratchDir g rank)
      (scratchTrace g rank) where
  trace := rfl
  rank := rfl
  files := by
    refine ⟨_, rfl, ?_⟩
    refine List.Forall₂.cons ?_ List.Forall₂.nil
    have hReader :
        ptpMetricsReader.ptpMetrics = some ptpMetricsClass :=
      rfl
    exact fileReadsAs_of_dump hReader rfl readHeader_dumpFile
      rfl tableComplete_dumpFile readSection_dumpFile_one rfl
      read_dumpFile

/- The traces are those of the first launch. -/
theorem savedTraces_scratch (g : WorldState) :
    SavedTraces twoRanks g 1
      [scratchTrace g 1, scratchTrace g 0] where
  holds := by
    intro t hMem
    have hFiles :
        ∀ rank, rank < 2 →
          (scratchTrace g rank).Holds twoRanks g 1 := by
      intro rank hRank
      refine ⟨hRank, rfl, ?_⟩
      intro launch hLaunch
      have hZero : launch = 0 := by omega
      subst hZero
      refine
        ⟨fun _ => 0, 0, g.launchRows twoRanks rank 0, [],
          fun k _ => record_zero 0 k, List.Perm.refl _, ?_⟩
      simp only [scratchTrace, List.getD_cons_zero,
        List.append_nil, scratchOf]
    rcases List.mem_pair.mp hMem with rfl | rfl
    · exact hFiles 1 (by decide)
    · exact hFiles 0 (by decide)
  nodup := (by decide : [1, 0].Nodup)
  all := (by decide : ∀ rank, rank < 2 → rank ∈ [1, 0])

/- The report after the first sample has that sample. -/
theorem root_report_firstSample :
    ∃ g pairOffsets,
      (worldMachine twoRanks).Reach (NoTimeout twoRanks) g ∧
      readTraceOffsets (scratchRoot g) none 20 7 =
        .ok pairOffsets ∧
      reciprocalResiduals pairOffsets 0 1 =
        List.replicate (pairOffsets.get [] (0, 1)).length 0 := by
  rcases reach_firstSample with ⟨g, hReach, hBoth⟩
  have hLength :
      ∀ r, (g.party 1 r).rows.length = 1 := by
    intro r
    rw [← List.length_map RowStore.latency, (hBoth r).2]
    rfl
  have hRoot :
      List.Forall₂ DirReads (scratchRoot g).traceDirs
        [scratchTrace g 1, scratchTrace g 0] :=
    List.Forall₂.cons (dirReads_scratch g 1)
      (List.Forall₂.cons (dirReads_scratch g 0)
        List.Forall₂.nil)
  rcases root_report twoRanks g hReach 1
    [scratchTrace g 1, scratchTrace g 0]
    (savedTraces_scratch g) (scratchRoot g) hRoot none
    (Or.inl rfl)
    (by
      intro follower hFirst hLast n _
      have hOne : follower = 1 := by
        have hTwo : follower < 2 := hLast
        omega
      subst hOne
      rw [hLength, hLength])
    (by
      intro follower hFirst hLast row hMem
      have hOne : follower = 1 := by
        have hTwo : follower < 2 := hLast
        omega
      subst hOne
      have hTen : row.latency = 10 := by
        have hIn := List.mem_map_of_mem (f := RowStore.latency)
          hMem
        rw [(hBoth .follower).2] at hIn
        exact List.mem_singleton.mp hIn
      rw [hTen]
      decide) with ⟨pairOffsets, hRead, hPairs, _⟩
  exact ⟨g, pairOffsets, hReach, hRead,
    (hPairs 1 (by decide) (by decide)).2.2.2⟩

end Ptp

end FabricPerf
