import FabricPerf.Lib.LastWriter
import FabricPerf.Throughput.CellTotals
import FabricPerf.Throughput.RoundTrip

/-
  A stream with any number of workgroup leaders.

  Workgroup ids from 4 on are clamped into the last slice,
  but every leader counts in a register of its own.  Leaders
  that share a slice overwrite each other's header, so the
  headers add up to all arrivals exactly if at most one of
  the leaders of the last slice has any.

  Main declarations:
    * `Throughput.sharedMachine`
    * `Throughput.HeadersHold`
    * `Throughput.headers_count_iff`
-/

------------------------------------------------------------
-- Leaders Of Any Workgroup
------------------------------------------------------------

namespace FabricPerf

namespace Throughput

open Analysis

/- A stream and its number of workgroups; ids are words. -/
structure SharedStream extends Stream where
  groups : Nat
  groups_le : groups ≤ 2 ^ 32

/- All interleavings of its leaders. -/
abbrev sharedMachine (stream : SharedStream) :
    Machine (StreamState stream.groups)
      (StreamAction stream.groups) :=
  streamMachine stream.toStream

/- The slice of a workgroup. -/
def sliceOf {groups : Nat} (g : Fin groups) : Fin 4 :=
  ⟨min g.val 3, by omega⟩

------------------------------------------------------------
-- One Leader
------------------------------------------------------------

variable {stream : SharedStream}
variable {s s' : StreamState stream.groups}
variable {g : Fin stream.groups}
variable {leader : Leader}

/- The clamped id is the slice of the workgroup. -/
theorem clamped_group (g : Fin stream.groups) :
    (if (4 : BitVec 32).ule (BitVec.ofNat 32 g.val) then
        (3 : BitVec 32)
      else BitVec.ofNat 32 g.val) =
      BitVec.ofNat 32 (sliceOf g).val := by
  have hWord : g.val < 2 ^ 32 :=
    lt_of_lt_of_le g.isLt stream.groups_le
  have hValue : (BitVec.ofNat 32 g.val).toNat = g.val := by
    rw [BitVec.toNat_ofNat, Nat.mod_eq_of_lt hWord]
  have hFour : (4 : BitVec 32).toNat = 4 := rfl
  unfold BitVec.ule sliceOf
  rw [hValue, hFour]
  by_cases hLast : 4 ≤ g.val
  · have hSlice : min g.val 3 = 3 := by omega
    simp only [hLast, decide_true, if_true, hSlice]
    rfl
  · have hSlice : min g.val 3 = g.val := by omega
    simp only [hLast, decide_false, Bool.false_eq_true,
      if_false, hSlice]

/- A hook works as for the workgroup of the slice. -/
theorem enterRecv_eq
    (time : BitVec 64) :
    stream.enterRecv g time leader =
      stream.enterRecv (sliceOf g) time leader := by
  have hHook :
      recvHook stream.map1 (stream.group g) time
          leader.regs =
        recvHook stream.map1 (stream.group (sliceOf g)) time
          leader.regs := by
    have hClamped := clamped_group g
    have hOwn := ule_workgroup (sliceOf g)
    unfold recvHook Stream.group
    simp only [if_true, hClamped, hOwn, Bool.false_eq_true,
      if_false]
  unfold Stream.enterRecv
  rw [hHook]

/- The address of the count of a slice. -/
def headerAddr (stream : Stream) (w : Fin 4) : BitVec 64 :=
  cellAddr stream.map1 (1024 * w.val + 1)

/- The store of a leader's count. -/
def countStore
    (stream : Stream)
    (w : Fin 4)
    (leader : Leader) : Store where
  addr := headerAddr stream w
  value := BitVec.ofNat 32 leader.times.length

/- A leader that has arrivals and has begun to return. -/
def Leader.Counts (leader : Leader) : Prop :=
  leader.flushed ≠ none ∧ leader.times ≠ []

/-
  What the pending stores of a leader do to headers: only
  the flush stores one, its own, and does so last.
-/
structure PendingOk
    (stream : Stream)
    (w : Fin 4)
    (leader : Leader) : Prop where
  ok : LeaderOk w leader
  own : ∀ store ∈ leader.pending, InSlice stream w store
  header :
    ∀ store ∈ leader.pending,
      store.addr = headerAddr stream w →
        leader.Counts ∧ store = countStore stream w leader
  last :
    leader.Counts → leader.pending ≠ [] →
      leader.pending.getLast? =
        some (countStore stream w leader)

/- Cells of a slice with other numbers have other addresses. -/
theorem cellAddr_ne_headerAddr
    (stream : Stream)
    (w : Fin 4)
    {k : Nat}
    (hK : k < 1024)
    (hOther : k ≠ 1) :
    cellAddr stream.map1 (1024 * w.val + k) ≠
      headerAddr stream w := by
  intro hSame
  have hW := w.isLt
  have hCell := cellAddr_injective (by omega) (by omega) hSame
  omega

/- A store to a header is one of that header's slice. -/
theorem slice_eq_of_headerAddr
    {stream : Stream}
    {v w : Fin 4}
    {store : Store}
    (hStore : InSlice stream v store)
    (hAddr : store.addr = headerAddr stream w) :
    v = w := by
  rcases hStore with ⟨k, hK, hOwn⟩
  rw [hOwn] at hAddr
  have hV := v.isLt
  have hW := w.isLt
  have hCell := cellAddr_injective (by omega) (by omega) hAddr
  have hVal : v.val = w.val := by omega
  exact Fin.ext hVal

/- The last store of a leader that counts is its count. -/
theorem PendingOk.eq_countStore
    {stream : Stream}
    {w : Fin 4}
    {store : Store}
    (hOk : PendingOk stream w leader)
    (hCounts : leader.Counts)
    (hPending : leader.pending = [store]) :
    store = countStore stream w leader := by
  have hLast := hOk.last hCounts (by simp [hPending])
  rw [hPending] at hLast
  exact Option.some.inj hLast

/- The receive hook stores no header. -/
theorem pendingOk_recv
    {stream : Stream}
    {w : Fin 4}
    (hRunning : leader.Running)
    (hShort : leader.times.length + 1 < 2 ^ 32)
    (hPending : PendingOk stream w leader)
    (time : BitVec 64) :
    PendingOk stream w (stream.enterRecv w time leader) := by
  have hEntered : stream.enterRecv w time leader = _ :=
    enterRecv_leader hPending.ok time
  constructor
  · exact leaderOk_recv hPending.ok hShort time
  · rw [hEntered]
    exact recvStores_inSlice
  · rw [hEntered]
    intro store hMem hAddr
    simp only [recvStores] at hMem
    split at hMem
    case isTrue hRoom =>
        rw [List.mem_singleton.mp hMem] at hAddr
        exact absurd hAddr
          (cellAddr_ne_headerAddr stream w (by omega)
            (by omega))
    case isFalse =>
        exact absurd hMem List.not_mem_nil
  · rw [hEntered]
    intro hCounts
    exact absurd hRunning.2 hCounts.1

/- The flush hook stores the count last. -/
theorem pendingOk_flush
    {stream : Stream}
    {w : Fin 4}
    (hPending : PendingOk stream w leader)
    (time : BitVec 64) :
    PendingOk stream w (stream.enterFlush time leader) := by
  have hEntered : stream.enterFlush time leader = _ :=
    enterFlush_leader hPending.ok time
  constructor
  · exact leaderOk_flush hPending.ok time
  · rw [hEntered]
    exact flushStores_inSlice
  · rw [hEntered]
    intro store hMem hAddr
    simp only [flushStores] at hMem
    split at hMem
    case isTrue =>
        exact absurd hMem List.not_mem_nil
    case isFalse hSome =>
        rcases List.mem_pair.mp hMem with hDuration | hTotal
        · rw [hDuration] at hAddr
          exact absurd hAddr
            (cellAddr_ne_headerAddr stream w (k := 0)
              (by omega) (by omega))
        · exact ⟨⟨Option.some_ne_none time, hSome⟩, hTotal⟩
  · rw [hEntered]
    intro hCounts _
    have hSome : leader.times ≠ [] := hCounts.2
    simp only [flushStores, if_neg hSome]
    rfl

/- Issuing a store leaves the later ones. -/
theorem pendingOk_rest
    {stream : Stream}
    {w : Fin 4}
    {store : Store}
    {rest : List Store}
    (hPending : PendingOk stream w leader)
    (hStores : leader.pending = store :: rest) :
    PendingOk stream w { leader with pending := rest } := by
  have hMem :
      ∀ other ∈ rest, other ∈ leader.pending := by
    intro other hOther
    rw [hStores]
    exact List.mem_cons_of_mem _ hOther
  constructor
  · exact
      { start := hPending.ok.start
        count := hPending.ok.count
        short := hPending.ok.short
        slice := hPending.ok.slice }
  · intro other hOther
    exact hPending.own other (hMem other hOther)
  · intro other hOther
    exact hPending.header other (hMem other hOther)
  · intro hCounts hRest
    have hLast := hPending.last hCounts (by simp [hStores])
    rw [hStores] at hLast
    cases rest with
    | nil => exact absurd rfl hRest
    | cons next more =>
        rw [List.getLast?_cons_cons] at hLast
        exact hLast

------------------------------------------------------------
-- Headers
------------------------------------------------------------

/-
  The header of a slice: zero as long as no leader of the
  slice has returned with arrivals, and the count of some
  such leader afterwards.
-/
def HeaderHolds
    (stream : SharedStream)
    (s : StreamState stream.groups)
    (w : Fin 4) : Prop :=
  (s.memory (headerAddr stream.toStream w) = 0 ∧
    ∀ g, sliceOf g = w → (s.leader g).Counts →
      (s.leader g).pending ≠ []) ∨
  ∃ g, sliceOf g = w ∧ (s.leader g).Counts ∧
    s.memory (headerAddr stream.toStream w) =
      BitVec.ofNat 32 (s.leader g).times.length

/- What holds of all leaders and headers. -/
structure HeadersHold
    (stream : SharedStream)
    (s : StreamState stream.groups) : Prop where
  leaders :
    ∀ g, PendingOk stream.toStream (sliceOf g) (s.leader g)
  headers : ∀ w, HeaderHolds stream s w

/- Initially every header is zero. -/
theorem headersHold_init
    (hInit : (sharedMachine stream).init s) :
    HeadersHold stream s := by
  rcases hInit with ⟨hZero, hFresh⟩
  constructor
  · intro g
    rcases hFresh g with ⟨start, hLeader⟩
    rw [hLeader]
    constructor
    · exact
        { start := rfl
          count := rfl
          short := by simp [Leader.init]
          slice := fun hNe => absurd rfl hNe }
    · exact fun _ hMem => absurd hMem List.not_mem_nil
    · exact fun _ hMem => absurd hMem List.not_mem_nil
    · exact fun hCounts => absurd rfl hCounts.1
  · intro w
    have hW := w.isLt
    refine Or.inl ⟨hZero _ (by omega), ?_⟩
    intro g _ hCounts
    rcases hFresh g with ⟨start, hLeader⟩
    rw [hLeader] at hCounts
    exact absurd rfl hCounts.1

/- A leader that enters a hook leaves the headers alone. -/
theorem headersHold_enter
    (hInv : HeadersHold stream s)
    (hOpen : (s.leader g).flushed = none)
    (hLeader :
      PendingOk stream.toStream (sliceOf g) leader)
    (hLater : leader.Counts → leader.pending ≠ []) :
    HeadersHold stream (s.setLeader g leader) := by
  constructor
  · intro h
    rw [leader_setLeader]
    split
    case isTrue hSame =>
        subst hSame
        exact hLeader
    case isFalse => exact hInv.leaders h
  · intro w
    rcases hInv.headers w with
      ⟨hZero, hNone⟩ | ⟨h, hSlice, hCounts, hHeader⟩
    · refine Or.inl ⟨hZero, ?_⟩
      intro h hSlice
      rw [leader_setLeader]
      split
      case isTrue => exact hLater
      case isFalse => exact hNone h hSlice
    · have hNe : h ≠ g := by
        rintro rfl
        exact hCounts.1 hOpen
      refine Or.inr ⟨h, hSlice, ?_⟩
      rw [leader_setLeader, if_neg hNe]
      exact ⟨hCounts, hHeader⟩

/- A store to another address leaves the header alone. -/
theorem store_of_ne
    {memory : Memory}
    {store : Store}
    {addr : BitVec 64}
    (hNe : store.addr ≠ addr) :
    (memory.store store) addr = memory addr :=
  if_neg (Ne.symm hNe)

/- Issuing a pending store keeps the headers. -/
theorem headersHold_store
    {store : Store}
    {rest : List Store}
    (hInv : HeadersHold stream s)
    (hPending : (s.leader g).pending = store :: rest) :
    HeadersHold stream
      ({ s with memory := s.memory.store store }.setLeader
        g { s.leader g with pending := rest }) := by
  have hActor := hInv.leaders g
  have hMem : store ∈ (s.leader g).pending := by
    rw [hPending]
    exact List.mem_cons_self
  constructor
  · intro h
    rw [leader_setLeader]
    split
    case isTrue hSame =>
        subst hSame
        exact pendingOk_rest hActor hPending
    case isFalse => exact hInv.leaders h
  · intro w
    by_cases hAddr :
        store.addr = headerAddr stream.toStream w
    · -- The count of the acting leader is the new header.
      have hSlice : sliceOf g = w :=
        slice_eq_of_headerAddr (hActor.own store hMem) hAddr
      rcases hActor.header store hMem (hSlice ▸ hAddr) with
        ⟨hCounts, hStore⟩
      refine Or.inr ⟨g, hSlice, ?_⟩
      rw [leader_setLeader, if_pos rfl]
      refine ⟨hCounts, ?_⟩
      change (s.memory.store store) _ = _
      unfold Memory.store
      rw [if_pos hAddr.symm, hStore]
      rfl
    · -- Another cell: no leader is done with its count here.
      have hKept :
          (s.memory.store store)
              (headerAddr stream.toStream w) =
            s.memory (headerAddr stream.toStream w) :=
        store_of_ne hAddr
      rcases hInv.headers w with
        ⟨hZero, hNone⟩ | ⟨h, hSlice, hCounts, hHeader⟩
      · refine Or.inl ⟨hKept.trans hZero, ?_⟩
        intro h hSlice
        rw [leader_setLeader]
        split
        case isFalse => exact hNone h hSlice
        case isTrue hSame =>
            subst hSame
            intro hCounts hDone
            have hRest : rest = [] := hDone
            rw [hRest] at hPending
            apply hAddr
            rw [hActor.eq_countStore hCounts hPending, ← hSlice]
            rfl
      · refine Or.inr ⟨h, hSlice, ?_⟩
        rw [leader_setLeader]
        split
        case isTrue hSame =>
            subst hSame
            exact ⟨hCounts, hKept.trans hHeader⟩
        case isFalse => exact ⟨hCounts, hKept.trans hHeader⟩

/- One step keeps the headers. -/
theorem headersHold_step
    {action : StreamAction stream.groups}
    (hInv : HeadersHold stream s)
    (hShort : Short s action)
    (hStep : stream.step s action = some s') :
    HeadersHold stream s' := by
  cases action with
  | recv g time =>
      simp only [Stream.step,
        Option.ite_none_right_eq_some] at hStep
      rcases hStep with ⟨hRunning, hSome⟩
      rw [← Option.some.inj hSome, enterRecv_eq]
      refine headersHold_enter hInv hRunning.2
        (pendingOk_recv hRunning hShort (hInv.leaders g) time) ?_
      intro hCounts
      exact absurd hRunning.2 hCounts.1
  | flush g time =>
      simp only [Stream.step,
        Option.ite_none_right_eq_some] at hStep
      rcases hStep with ⟨hRunning, hSome⟩
      rw [← Option.some.inj hSome]
      refine headersHold_enter hInv hRunning.2
        (pendingOk_flush (hInv.leaders g) time) ?_
      rw [enterFlush_leader (hInv.leaders g).ok]
      intro hCounts
      have hSome : (s.leader g).times ≠ [] := hCounts.2
      simp [flushStores, hSome]
  | store g =>
      simp only [Stream.step] at hStep
      split at hStep
      · cases hStep
      · rename_i store rest hPending
        rw [← Option.some.inj hStep]
        exact headersHold_store hInv hPending

/- The headers hold in every reached state. -/
theorem headersHold_of_reach
    (hReach : (sharedMachine stream).Reach Short s) :
    HeadersHold stream s :=
  hReach.invariant (HeadersHold stream)
    (fun _ hInit => headersHold_init hInit)
    (fun _ _ _ hInv hShort hStep =>
      headersHold_step hInv hShort hStep)

------------------------------------------------------------
-- Counting Arrivals
------------------------------------------------------------

/- In a closed stream each header is one of the counts. -/
theorem keeps_of_closed
    (hInv : HeadersHold stream s)
    (hClosed : s.Closed) :
    LastWriter.Keeps sliceOf
      (fun g => (s.leader g).times.length)
      (fun w =>
        (s.memory (headerAddr stream.toStream w)).toNat) := by
  intro w
  rcases hInv.headers w with
    ⟨hZero, hNone⟩ | ⟨g, hSlice, hCounts, hHeader⟩
  · refine Or.inl ⟨congrArg BitVec.toNat hZero, ?_⟩
    intro g hSlice
    by_contra hSome
    have hTimes : (s.leader g).times ≠ [] :=
      fun hNil => hSome (congrArg List.length hNil)
    exact hNone g hSlice ⟨(hClosed g).2, hTimes⟩ (hClosed g).1
  · have hShort := (hInv.leaders g).ok.short
    refine Or.inr ⟨g, hSlice,
      List.length_pos_of_ne_nil hCounts.2, ?_⟩
    have hValue := congrArg BitVec.toNat hHeader
    rw [BitVec.toNat_ofNat, Nat.mod_eq_of_lt hShort] at hValue
    exact hValue

/- The header that the decoder reads. -/
theorem headerTotal_rawCells (w : Fin 4) :
    headerTotal (s.rawCells stream.toStream) w =
      (s.memory (headerAddr stream.toStream w)).toNat := by
  have hW := w.isLt
  have hCell : w.val * (4096 / 4) + 1 = 1024 * w.val + 1 := by
    omega
  unfold headerTotal
  rw [StreamState.length_rawCells]
  simp only [throughputWorkgroups]
  rw [hCell]
  have hIn : 1024 * w.val + 1 < 4096 := by omega
  simp [StreamState.rawCells, hIn, cellRecord_value, headerAddr]

/- The decoded counts are the headers. -/
theorem sum_totalArrivals_rawCells
    (blockIndex : Nat)
    (workgroupBase : Option Nat) :
    ((throughputWorkgroupCellRecords
        (s.rawCells stream.toStream) blockIndex workgroupBase).map
          CellLaunch.totalArrivals).sum =
      (∑ w, (s.memory
        (headerAddr stream.toStream w)).toNat : Nat) := by
  have hDecodable : Decodable (s.rawCells stream.toStream) := by
    unfold Decodable
    rw [StreamState.length_rawCells]
    decide
  rw [sum_totalArrivals, positiveTotals, if_pos hDecodable,
    Nat.cast_sum]
  apply Finset.sum_congr rfl
  intro w _
  rw [headerTotal_rawCells]
  exact max_eq_right (Int.natCast_nonneg _)

/- Only leaders from 3 on share a slice. -/
theorem alone_iff
    {groups : Nat}
    {count : Fin groups → Nat} :
    (∀ w, LastWriter.Alone sliceOf count w) ↔
      ∀ g h : Fin groups, g ≠ h → 3 ≤ g.val → 3 ≤ h.val →
        count g = 0 ∨ count h = 0 := by
  constructor
  · intro hAlone g h hNe hG hH
    apply hAlone ⟨3, by omega⟩ g h hNe
    · apply Fin.ext
      change min g.val 3 = 3
      omega
    · apply Fin.ext
      change min h.val 3 = 3
      omega
  · intro hPairs w g h hNe hG hH
    have hValG : min g.val 3 = w.val := congrArg Fin.val hG
    have hValH : min h.val 3 = w.val := congrArg Fin.val hH
    have hVal : g.val ≠ h.val := fun hSame => hNe (Fin.ext hSame)
    exact hPairs g h hNe (by omega) (by omega)

/-
  When all leaders have returned, the decoded counts add up
  to the receive-hook executions exactly if no two of the
  leaders from workgroup 3 on have executed the hook.
-/
theorem headers_count_iff
    (hReach : (sharedMachine stream).Reach Short s)
    (hClosed : s.Closed)
    (blockIndex : Nat)
    (workgroupBase : Option Nat) :
    ((throughputWorkgroupCellRecords
        (s.rawCells stream.toStream) blockIndex workgroupBase).map
          CellLaunch.totalArrivals).sum =
        (∑ g, (s.leader g).times.length : Nat) ↔
      ∀ g h : Fin stream.groups, g ≠ h → 3 ≤ g.val →
        3 ≤ h.val →
          (s.leader g).times.length = 0 ∨
            (s.leader h).times.length = 0 := by
  have hInv := headersHold_of_reach hReach
  rw [sum_totalArrivals_rawCells, Nat.cast_inj,
    LastWriter.sum_kept_eq_iff (keeps_of_closed hInv hClosed)]
  exact alone_iff

------------------------------------------------------------
-- Runs Of Five Workgroups
------------------------------------------------------------

/- A stream of five workgroups of 32 threads. -/
def fiveGroups : SharedStream where
  map1 := 0x7000
  groupThreads := 32
  groups := 5
  groups_le := by decide

/- Workgroups 0 and 4 receive. -/
def oneClamped : List (StreamAction 5) :=
  [.recv 0 600, .store 0, .recv 4 700, .store 4,
    .flush 4 810, .store 4, .flush 0 820, .store 0,
    .store 4, .store 0, .flush 1 830, .flush 2 830,
    .flush 3 830]

/- Workgroups 3 and 4 receive. -/
def twoClamped : List (StreamAction 5) :=
  [.recv 3 600, .store 3, .recv 4 700, .store 4,
    .flush 3 810, .flush 4 820, .store 3, .store 3,
    .store 4, .store 4, .flush 0 830, .flush 1 830,
    .flush 2 830]

/- One clamped workgroup: both arrivals are counted. -/
theorem headers_count_iff_oneClamped :
    ∃ s : StreamState fiveGroups.groups,
      (sharedMachine fiveGroups).Reach Short s ∧
        s.Closed ∧
        ((throughputWorkgroupCellRecords
            (s.rawCells fiveGroups.toStream) 0 none).map
              CellLaunch.totalArrivals).sum =
          (∑ g, (s.leader g).times.length : Nat) ∧
        ∑ g, (s.leader g).times.length = 2 := by
  have hRun :
      (fiveGroups.shortRun oneClamped).any
        (fun s : StreamState fiveGroups.groups =>
          decide
            ((∀ g, (s.leader g).pending = [] ∧
              (s.leader g).flushed ≠ none) ∧
            (∀ g h : Fin fiveGroups.groups, g ≠ h →
              3 ≤ g.val → 3 ≤ h.val →
                (s.leader g).times.length = 0 ∨
                  (s.leader h).times.length = 0) ∧
            ∑ g, (s.leader g).times.length = 2)) = true := by
    decide +kernel
  rcases (Option.any_eq_true _ _).mp hRun with
    ⟨s, hSome, hFinal⟩
  rcases of_decide_eq_true hFinal with
    ⟨hClosed, hAlone, hCount⟩
  have hReach := reach_of_shortRun hSome
  exact ⟨s, hReach, hClosed,
    (headers_count_iff hReach hClosed 0 none).mpr hAlone,
    hCount⟩

/- Two clamped workgroups: one arrival of two is counted. -/
theorem not_headers_count :
    ∃ s : StreamState fiveGroups.groups,
      (sharedMachine fiveGroups).Reach Short s ∧
        s.Closed ∧
        ((throughputWorkgroupCellRecords
            (s.rawCells fiveGroups.toStream) 0 none).map
              CellLaunch.totalArrivals).sum = 1 ∧
        ∑ g, (s.leader g).times.length = 2 := by
  have hRun :
      (fiveGroups.shortRun twoClamped).any
        (fun s : StreamState fiveGroups.groups =>
          decide
            ((∀ g, (s.leader g).pending = [] ∧
              (s.leader g).flushed ≠ none) ∧
            ∑ w, (s.memory
              (headerAddr fiveGroups.toStream w)).toNat = 1 ∧
            ∑ g, (s.leader g).times.length = 2)) = true := by
    decide +kernel
  rcases (Option.any_eq_true _ _).mp hRun with
    ⟨s, hSome, hFinal⟩
  rcases of_decide_eq_true hFinal with
    ⟨hClosed, hHeaders, hCount⟩
  refine ⟨s, reach_of_shortRun hSome, hClosed, ?_, hCount⟩
  rw [sum_totalArrivals_rawCells, hHeaders]
  rfl

end Throughput

end FabricPerf
