import FabricPerf.Throughput.Probe

/-
  What the cells of a stream of four workgroups hold in every
  reached state.

  `Leader.cell` says what a leader's slice should hold, from
  its own history alone: the duration, the count and one
  delta for each captured arrival.  The memory of the stream
  agrees with it after any interleaving of the stores, since
  no leader stores outside its own slice.

  Main declarations:
    * `Throughput.Leader.cell`
    * `Throughput.InSlice`
    * `Throughput.SliceHolds`
    * `Throughput.slicesHold_of_reach`
-/

------------------------------------------------------------
-- The Intended Contents
------------------------------------------------------------

namespace FabricPerf

namespace Throughput

namespace Leader

/- A time since the leader's start, as a cell stores it. -/
def delta (leader : Leader) (time : BitVec 64) : BitVec 32 :=
  (time - leader.start).setWidth 32

/- The duration cell: zero before a flush with arrivals. -/
def duration (leader : Leader) : BitVec 32 :=
  if leader.times = [] then 0
    else leader.flushed.elim 0 leader.delta

/- The count cell: zero before the flush. -/
def total (leader : Leader) : BitVec 32 :=
  if leader.flushed = none then 0
    else BitVec.ofNat 32 leader.times.length

/- The cells of the leader's slice. -/
def cell (leader : Leader) : Nat → BitVec 32
| 0 => leader.duration
| 1 => leader.total
| i + 2 => leader.times[i]?.elim 0 leader.delta

end Leader

/- The registers of a leader follow its history. -/
structure LeaderOk (w : Fin 4) (leader : Leader) : Prop where
  start : leader.regs.nr0 = leader.start
  count : leader.regs.nr1 = BitVec.ofNat 64 leader.times.length
  short : leader.times.length < 2 ^ 32
  slice :
    leader.times ≠ [] →
      leader.regs.nr2 = BitVec.ofNat 64 w.val

------------------------------------------------------------
-- One Hook Execution
------------------------------------------------------------

variable {stream : Stream} {s s' : StreamState 4}
variable {action : StreamAction 4} {w : Fin 4}

/- A leader's counter is below a bound when its history is. -/
theorem LeaderOk.ult_iff
    {leader : Leader}
    (hOk : LeaderOk w leader) :
    leader.regs.nr1.ult 1022 = true ↔
      leader.times.length < 1022 := by
  have hShort := hOk.short
  rw [hOk.count, BitVec.ult, decide_eq_true_iff]
  have hCount :
      (BitVec.ofNat 64 leader.times.length).toNat =
        leader.times.length := by
    rw [BitVec.toNat_ofNat, Nat.mod_eq_of_lt (by omega)]
  rw [hCount]
  rfl

/- A leader's counter is zero when its history is empty. -/
theorem LeaderOk.eq_zero_iff
    {leader : Leader}
    (hOk : LeaderOk w leader) :
    leader.regs.nr1 = 0 ↔ leader.times = [] := by
  have hShort := hOk.short
  rw [hOk.count, ← BitVec.toNat_inj, BitVec.toNat_ofNat,
    Nat.mod_eq_of_lt (by omega)]
  exact List.length_eq_zero_iff

/- The stores of the receive hook of a leader. -/
def recvStores
    (stream : Stream)
    (w : Fin 4)
    (leader : Leader)
    (time : BitVec 64) : List Store :=
  if leader.times.length < 1022 then
    [⟨cellAddr stream.map1
        (1024 * w.val + (2 + leader.times.length)),
      leader.delta time⟩]
  else
    []

/- The stores of the flush hook of a leader. -/
def flushStores
    (stream : Stream)
    (w : Fin 4)
    (leader : Leader)
    (time : BitVec 64) : List Store :=
  if leader.times = [] then
    []
  else
    [⟨cellAddr stream.map1 (1024 * w.val), leader.delta time⟩,
      ⟨cellAddr stream.map1 (1024 * w.val + 1),
        BitVec.ofNat 32 leader.times.length⟩]

/- The slice number of a workgroup is not clamped. -/
theorem ule_workgroup (w : Fin 4) :
    (4 : BitVec 32).ule (BitVec.ofNat 32 w.val) = false := by
  fin_cases w <;> rfl

/- What the receive hook of a leader does. -/
theorem recvHook_leader
    {leader : Leader}
    (hOk : LeaderOk w leader)
    (time : BitVec 64) :
    recvHook stream.map1 (stream.group w) time leader.regs =
      ({ leader.regs with
          nr1 := leader.regs.nr1 + 1
          nr2 := BitVec.ofNat 64 w.val },
        recvStores stream w leader time) := by
  have hShort := hOk.short
  have hWorkgroup := w.isLt
  have hSlice :
      (BitVec.ofNat 32 w.val).setWidth 64 =
        BitVec.ofNat 64 w.val := by
    fin_cases w <;> rfl
  unfold recvHook recvStores
  simp only [Stream.group, if_true, ule_workgroup,
    Bool.false_eq_true, if_false, hSlice]
  congr 1
  by_cases hRoom : leader.times.length < 1022
  · have hAddr :=
      recv_addr stream.map1 hWorkgroup hRoom
    rw [hSlice] at hAddr
    rw [if_pos (hOk.ult_iff.mpr hRoom), if_pos hRoom,
      hOk.count, hAddr, hOk.start]
    rfl
  · rw [if_neg (fun hUlt => hRoom (hOk.ult_iff.mp hUlt)),
      if_neg hRoom]

/- What the flush hook of a leader does. -/
theorem flushHook_leader
    {leader : Leader}
    (hOk : LeaderOk w leader)
    (time : BitVec 64) :
    flushHook stream.map1 time leader.regs =
      flushStores stream w leader time := by
  have hShort := hOk.short
  unfold flushHook flushStores
  by_cases hEmpty : leader.times = []
  · rw [if_pos (hOk.eq_zero_iff.mpr hEmpty), if_pos hEmpty]
  · have hSlice :
        (BitVec.ofNat 64 w.val).setWidth 32 =
          BitVec.ofNat 32 w.val := by
      fin_cases w <;> rfl
    have hCount :
        (BitVec.ofNat 64 leader.times.length).setWidth 32 =
          BitVec.ofNat 32 leader.times.length := by
      apply BitVec.eq_of_toNat_eq
      simp only [BitVec.toNat_setWidth, BitVec.toNat_ofNat]
      omega
    rw [if_neg (fun hZero =>
        hEmpty (hOk.eq_zero_iff.mp hZero)), if_neg hEmpty]
    simp only [hOk.slice hEmpty, hSlice, ule_workgroup,
      Bool.false_eq_true, if_false,
      flush_addr stream.map1 w.isLt, cellAddr_add_four,
      hOk.count, hCount, hOk.start]
    rfl

------------------------------------------------------------
-- Where A Leader Writes
------------------------------------------------------------

/- A store of the slice of a workgroup. -/
def InSlice
    (stream : Stream)
    (w : Fin 4)
    (store : Store) : Prop :=
  ∃ k, k < 1024 ∧
    store.addr = cellAddr stream.map1 (1024 * w.val + k)

/- The receive hook stores into its own slice. -/
theorem recvStores_inSlice
    {leader : Leader}
    {time : BitVec 64} :
    ∀ store ∈ recvStores stream w leader time,
      InSlice stream w store := by
  intro store hMem
  unfold recvStores at hMem
  split at hMem
  · rename_i hRoom
    rw [List.mem_singleton.mp hMem]
    exact ⟨2 + leader.times.length, by omega, rfl⟩
  · exact absurd hMem List.not_mem_nil

/- The flush hook stores into its own slice. -/
theorem flushStores_inSlice
    {leader : Leader}
    {time : BitVec 64} :
    ∀ store ∈ flushStores stream w leader time,
      InSlice stream w store := by
  intro store hMem
  unfold flushStores at hMem
  split at hMem
  · exact absurd hMem List.not_mem_nil
  · rcases List.mem_pair.mp hMem with hDuration | hTotal
    · rw [hDuration]
      exact ⟨0, by omega, rfl⟩
    · rw [hTotal]
      exact ⟨1, by omega, rfl⟩

/- Cells of other slices survive a store of a slice. -/
theorem store_other_slice
    {memory : Memory}
    {store : Store}
    (hStore : InSlice stream w store)
    {v : Fin 4}
    (hNe : v ≠ w)
    {k : Nat}
    (hK : k < 1024) :
    memory.store store
        (cellAddr stream.map1 (1024 * v.val + k)) =
      memory (cellAddr stream.map1 (1024 * v.val + k)) := by
  rcases hStore with ⟨j, hJ, hOwn⟩
  apply if_neg
  intro hAddr
  rw [hOwn] at hAddr
  have hV := v.isLt
  have hW := w.isLt
  have hSame :=
    cellAddr_injective (by omega) (by omega) hAddr
  have hVal : v.val = w.val := by omega
  exact hNe (Fin.ext hVal)

------------------------------------------------------------
-- The Intended Contents After A Hook
------------------------------------------------------------

/- A leader after its receive hook, in intended terms. -/
theorem enterRecv_leader
    {leader : Leader}
    (hOk : LeaderOk w leader)
    (time : BitVec 64) :
    stream.enterRecv w time leader =
      { leader with
        regs :=
          { leader.regs with
            nr1 := leader.regs.nr1 + 1
            nr2 := BitVec.ofNat 64 w.val }
        pending := recvStores stream w leader time
        times := leader.times ++ [time] } := by
  unfold Stream.enterRecv
  rw [recvHook_leader hOk]

/- A leader after its flush hook, in intended terms. -/
theorem enterFlush_leader
    {leader : Leader}
    (hOk : LeaderOk w leader)
    (time : BitVec 64) :
    stream.enterFlush time leader =
      { leader with
        pending := flushStores stream w leader time
        flushed := some time } := by
  unfold Stream.enterFlush
  rw [flushHook_leader hOk]

/- An arrival keeps the counter and the slice number right. -/
theorem leaderOk_recv
    {leader : Leader}
    (hOk : LeaderOk w leader)
    (hShort : leader.times.length + 1 < 2 ^ 32)
    (time : BitVec 64) :
    LeaderOk w (stream.enterRecv w time leader) := by
  rw [enterRecv_leader hOk]
  constructor
  · exact hOk.start
  · simp only [hOk.count, List.length_append,
      List.length_singleton]
    rw [BitVec.ofNat_add]
    rfl
  · simpa using hShort
  · intro _
    rfl

/- The flush keeps the registers. -/
theorem leaderOk_flush
    {leader : Leader}
    (hOk : LeaderOk w leader)
    (time : BitVec 64) :
    LeaderOk w (stream.enterFlush time leader) := by
  constructor
  · exact hOk.start
  · exact hOk.count
  · exact hOk.short
  · exact hOk.slice

/-
  An arrival turns one cell of the slice from zero into its
  delta, or none when the slice is full.
-/
theorem cell_recv
    {leader : Leader}
    (hOpen : leader.flushed = none)
    (time : BitVec 64)
    {k : Nat} :
    (stream.enterRecv w time leader).cell k =
      if k = 2 + leader.times.length then leader.delta time
      else leader.cell k := by
  match k with
  | 0 =>
      rw [if_neg (by omega)]
      simp [Leader.cell, Leader.duration, Stream.enterRecv,
        hOpen]
  | 1 =>
      rw [if_neg (by omega)]
      simp [Leader.cell, Leader.total, Stream.enterRecv,
        hOpen]
  | i + 2 =>
      have hDelta :
          (stream.enterRecv w time leader).delta =
            leader.delta := rfl
      simp only [Leader.cell, hDelta]
      simp only [Stream.enterRecv]
      rcases Nat.lt_trichotomy i leader.times.length with
        hOld | hNew | hLater
      · rw [List.getElem?_append_left hOld,
          if_neg (by omega)]
      · rw [if_pos (by omega), hNew]
        simp
      · rw [if_neg (by omega), List.getElem?_eq_none,
          List.getElem?_eq_none]
        · omega
        · simp only [List.length_append,
            List.length_singleton]
          omega

/- The flush turns the two header cells from zero. -/
theorem cell_flush
    {leader : Leader}
    (time : BitVec 64)
    {k : Nat} :
    (stream.enterFlush time leader).cell k =
      if leader.times = [] then leader.cell k
      else if k = 0 then leader.delta time
      else if k = 1 then
        BitVec.ofNat 32 leader.times.length
      else leader.cell k := by
  match k with
  | 0 =>
      by_cases hEmpty : leader.times = [] <;>
        simp [Leader.cell, Leader.duration,
          Stream.enterFlush, Leader.delta, hEmpty]
  | 1 =>
      by_cases hEmpty : leader.times = [] <;>
        simp [Leader.cell, Leader.total, Stream.enterFlush,
          hEmpty]
  | i + 2 =>
      simp only [Leader.cell, Stream.enterFlush]
      split <;> rfl

------------------------------------------------------------
-- The Invariant
------------------------------------------------------------

/-
  The slice of a leader, once its pending stores are issued,
  holds what the leader's history says.
-/
structure SliceHolds
    (stream : Stream)
    (memory : Memory)
    (w : Fin 4)
    (leader : Leader) : Prop where
  ok : LeaderOk w leader
  own : ∀ store ∈ leader.pending, InSlice stream w store
  holds :
    ∀ k, k < 1024 →
      memory.perform leader.pending
          (cellAddr stream.map1 (1024 * w.val + k)) =
        leader.cell k

/- Every slice holds what its leader's history says. -/
def SlicesHold (stream : Stream) (s : StreamState 4) : Prop :=
  ∀ w, SliceHolds stream s.memory w (s.leader w)

/- A fresh leader's slice is zero. -/
theorem cell_fresh (start : BitVec 64) (k : Nat) :
    (Leader.init start).cell k = 0 := by
  match k with
  | 0 => rfl
  | 1 => rfl
  | _ + 2 => rfl

/- The slices hold initially. -/
theorem slicesHold_init
    (hInit : (streamMachine stream).init s) :
    SlicesHold stream s := by
  rcases hInit with ⟨hZero, hFresh⟩
  intro w
  rcases hFresh w with ⟨start, hLeader⟩
  rw [hLeader]
  constructor
  · exact
      { start := rfl
        count := rfl
        short := by simp [Leader.init]
        slice := fun hNe => absurd rfl hNe }
  · intro store hMem
    exact absurd hMem List.not_mem_nil
  · intro k hK
    have hW := w.isLt
    rw [cell_fresh]
    exact hZero _ (by omega)

/- The receive hook brings the slice up to date. -/
theorem sliceHolds_recv
    {memory : Memory}
    {leader : Leader}
    (hRunning : leader.Running)
    (hShort : leader.times.length + 1 < 2 ^ 32)
    (hInv : SliceHolds stream memory w leader)
    (time : BitVec 64) :
    SliceHolds stream memory w
      (stream.enterRecv w time leader) := by
  rcases hRunning with ⟨hIdle, hOpen⟩
  constructor
  · exact leaderOk_recv hInv.ok hShort time
  · rw [enterRecv_leader hInv.ok]
    exact recvStores_inSlice
  · intro k hK
    have hW := w.isLt
    have hHolds := hInv.holds k hK
    rw [hIdle] at hHolds
    rw [cell_recv hOpen, ← hHolds,
      enterRecv_leader hInv.ok]
    simp only [recvStores]
    by_cases hRoom : leader.times.length < 1022
    · rw [if_pos hRoom]
      simp only [Memory.perform, List.foldl_cons,
        List.foldl_nil]
      by_cases hCell : k = 2 + leader.times.length
      · rw [if_pos hCell, hCell, store_cellAddr_self]
      · rw [if_neg hCell]
        exact store_cellAddr_of_ne _ _ (by omega) (by omega)
          (by omega) _
    · rw [if_neg hRoom, if_neg (by omega)]

/- The flush hook brings the slice up to date. -/
theorem sliceHolds_flush
    {memory : Memory}
    {leader : Leader}
    (hRunning : leader.Running)
    (hInv : SliceHolds stream memory w leader)
    (time : BitVec 64) :
    SliceHolds stream memory w
      (stream.enterFlush time leader) := by
  rcases hRunning with ⟨hIdle, hOpen⟩
  constructor
  · exact leaderOk_flush hInv.ok time
  · rw [enterFlush_leader hInv.ok]
    exact flushStores_inSlice
  · intro k hK
    have hW := w.isLt
    have hHolds := hInv.holds k hK
    rw [hIdle] at hHolds
    rw [cell_flush, ← hHolds, enterFlush_leader hInv.ok]
    simp only [flushStores]
    by_cases hEmpty : leader.times = []
    · rw [if_pos hEmpty, if_pos hEmpty]
    · rw [if_neg hEmpty, if_neg hEmpty]
      simp only [Memory.perform, List.foldl_cons,
        List.foldl_nil]
      by_cases hTotal : k = 1
      · rw [if_neg (by omega), if_pos hTotal, hTotal,
          store_cellAddr_self]
      · rw [store_cellAddr_of_ne _ _ (by omega) (by omega)
          (by omega)]
        by_cases hDuration : k = 0
        · rw [if_pos hDuration, hDuration]
          exact store_cellAddr_self _ _ _ _
        · rw [if_neg hDuration, if_neg hTotal]
          exact store_cellAddr_of_ne _ _ (by omega)
            (by omega) (by omega) _

/- Replacing one leader keeps the slices of the others. -/
theorem slicesHold_setLeader
    {leader : Leader}
    (hInv : SlicesHold stream s)
    (hLeader : SliceHolds stream s.memory w leader) :
    SlicesHold stream (s.setLeader w leader) := by
  intro v
  unfold StreamState.setLeader
  by_cases hSame : v = w
  · rw [hSame]
    simp only [if_true]
    exact hLeader
  · simp only [if_neg hSame]
    exact hInv v

/- Issuing a pending store keeps the slices. -/
theorem slicesHold_store
    {store : Store}
    {rest : List Store}
    (hInv : SlicesHold stream s)
    (hPending : (s.leader w).pending = store :: rest) :
    SlicesHold stream
      ({ s with memory := s.memory.store store }.setLeader
        w { s.leader w with pending := rest }) := by
  have hActor := hInv w
  have hOwn : InSlice stream w store := by
    apply hActor.own
    rw [hPending]
    exact List.mem_cons_self
  intro v
  unfold StreamState.setLeader
  by_cases hSame : v = w
  · rw [hSame]
    simp only [if_true]
    constructor
    · exact
        { start := hActor.ok.start
          count := hActor.ok.count
          short := hActor.ok.short
          slice := hActor.ok.slice }
    · intro other hMem
      apply hActor.own
      rw [hPending]
      exact List.mem_cons_of_mem _ hMem
    · intro k hK
      have hHolds := hActor.holds k hK
      rw [hPending] at hHolds
      exact hHolds
  · simp only [if_neg hSame]
    constructor
    · exact (hInv v).ok
    · exact (hInv v).own
    · intro k hK
      rw [← (hInv v).holds k hK]
      exact perform_congr
        (store_other_slice hOwn hSame hK) _

/- One step keeps the slices. -/
theorem slicesHold_step
    (hInv : SlicesHold stream s)
    (hShort : Short s action)
    (hStep : stream.step s action = some s') :
    SlicesHold stream s' := by
  cases action with
  | recv w time =>
      simp only [Stream.step,
        Option.ite_none_right_eq_some] at hStep
      rcases hStep with ⟨hRunning, hSome⟩
      rw [← Option.some.inj hSome]
      exact slicesHold_setLeader hInv
        (sliceHolds_recv hRunning hShort (hInv w) time)
  | flush w time =>
      simp only [Stream.step,
        Option.ite_none_right_eq_some] at hStep
      rcases hStep with ⟨hRunning, hSome⟩
      rw [← Option.some.inj hSome]
      exact slicesHold_setLeader hInv
        (sliceHolds_flush hRunning (hInv w) time)
  | store w =>
      simp only [Stream.step] at hStep
      split at hStep
      · cases hStep
      · rename_i store rest hPending
        rw [← Option.some.inj hStep]
        exact slicesHold_store hInv hPending

/- The slices hold in every reached state. -/
theorem slicesHold_of_reach
    (hReach : (streamMachine stream).Reach Short s) :
    SlicesHold stream s :=
  hReach.invariant (SlicesHold stream)
    (fun _ hInit => slicesHold_init hInit)
    (fun _ _ _ hInv hShort hStep =>
      slicesHold_step hInv hShort hStep)

end Throughput

end FabricPerf
