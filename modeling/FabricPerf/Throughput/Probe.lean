import FabricPerf.Lib.Transition
import Mathlib.Tactic

/-
  The receive and flush hooks of `throughput.probe`, and the
  workgroup leaders that share one CTA stream.

  A leader counts its arrivals in a private register and
  stores a delta for the first 1022 of them into its slice of
  1024 cells; its flush hook stores the duration and the
  count into the first two cells.

  A hook execution is a pure function from the registers of
  its thread to the stores it issues, so that where a leader
  writes can be said without the memory.

  Main declarations:
    * `Throughput.recvHook`, `Throughput.flushHook`
    * `Throughput.cellAddr_injective`
    * `Throughput.streamMachine`
-/

------------------------------------------------------------
-- Registers And Memory
------------------------------------------------------------

namespace FabricPerf

namespace Throughput

/- The probe registers `%NR0`, `%NR1` and `%NR2`. -/
structure Regs where
  nr0 : BitVec 64
  nr1 : BitVec 64
  nr2 : BitVec 64
deriving DecidableEq, Repr

/- The initial registers: the clock and two zeros. -/
def Regs.init (time : BitVec 64) : Regs where
  nr0 := time
  nr1 := 0
  nr2 := 0

/- Global memory by the address of a u32 cell. -/
abbrev Memory := BitVec 64 → BitVec 32

/- `st.global.u32 [addr], value`. -/
structure Store where
  addr : BitVec 64
  value : BitVec 32
deriving DecidableEq, Repr

/- The memory after one store. -/
def Memory.store (memory : Memory) (store : Store) : Memory :=
  fun x => if x = store.addr then store.value else memory x

/- The memory after the stores of a hook, in order. -/
def Memory.perform
    (memory : Memory)
    (stores : List Store) : Memory :=
  stores.foldl Memory.store memory

/- The captured workgroup of a receive hook. -/
structure Group where
  group : BitVec 32
  groupSource : BitVec 32
  groupThreads : BitVec 32
deriving DecidableEq, Repr

------------------------------------------------------------
-- The Hooks
------------------------------------------------------------

/-
  `fabricperf_throughput_recv`: threads other than the
  leader of their group do nothing, and workgroup ids from 4
  on share the last slice.
-/
def recvHook
    (map1 : BitVec 64)
    (group : Group)
    (time : BitVec 64)
    (regs : Regs) : Regs × List Store :=
  if group.groupSource =
      group.group * group.groupThreads then
    let slice : BitVec 32 :=
      if (4 : BitVec 32).ule group.group then 3
        else group.group
    let index := regs.nr1.setWidth 32 + 2
    let addr :=
      map1 + slice.setWidth 64 * 4096 +
        index.setWidth 64 * 4
    let delta := (time - regs.nr0).setWidth 32
    ({ regs with
        nr1 := regs.nr1 + 1
        nr2 := slice.setWidth 64 },
      if regs.nr1.ult 1022 then
        [{ addr := addr, value := delta }]
      else
        [])
  else
    (regs, [])

/-
  `fabricperf_throughput_flush`: threads without an arrival
  store nothing.
-/
def flushHook
    (map1 : BitVec 64)
    (time : BitVec 64)
    (regs : Regs) : List Store :=
  if regs.nr1 = 0 then
    []
  else
    let slice : BitVec 32 := regs.nr2.setWidth 32
    if (4 : BitVec 32).ule slice then
      []
    else
      let base := map1 + slice.setWidth 64 * 4096
      let duration := (time - regs.nr0).setWidth 32
      [{ addr := base, value := duration },
        { addr := base + 4, value := regs.nr1.setWidth 32 }]

------------------------------------------------------------
-- Cells Of A Stream
------------------------------------------------------------

/- The address of a cell of the stream. -/
def cellAddr (map1 : BitVec 64) (cell : Nat) : BitVec 64 :=
  map1 + BitVec.ofNat 64 (4 * cell)

/- Cells of one stream have distinct addresses. -/
theorem cellAddr_injective
    {map1 : BitVec 64}
    {i j : Nat}
    (hI : i < 4096)
    (hJ : j < 4096)
    (hEq : cellAddr map1 i = cellAddr map1 j) :
    i = j := by
  have hNat := congrArg BitVec.toNat hEq
  have hMap := map1.isLt
  simp only [cellAddr, BitVec.toNat_add,
    BitVec.toNat_ofNat] at hNat
  omega

/- A store changes the cell it is aimed at. -/
theorem store_cellAddr_self
    (memory : Memory)
    (map1 : BitVec 64)
    (cell : Nat)
    (value : BitVec 32) :
    (memory.store ⟨cellAddr map1 cell, value⟩)
      (cellAddr map1 cell) = value :=
  if_pos rfl

/- A store leaves the other cells alone. -/
theorem store_cellAddr_of_ne
    (memory : Memory)
    (map1 : BitVec 64)
    {i j : Nat}
    (hI : i < 4096)
    (hJ : j < 4096)
    (hNe : i ≠ j)
    (value : BitVec 32) :
    (memory.store ⟨cellAddr map1 j, value⟩)
      (cellAddr map1 i) = memory (cellAddr map1 i) :=
  if_neg (fun hEq => hNe (cellAddr_injective hI hJ hEq))

/- What a hook leaves at an address depends on it alone. -/
theorem perform_congr
    {memory memory' : Memory}
    {addr : BitVec 64}
    (hSame : memory addr = memory' addr)
    (stores : List Store) :
    memory.perform stores addr =
      memory'.perform stores addr := by
  induction stores generalizing memory memory' with
  | nil =>
      exact hSame
  | cons store rest ih =>
      apply ih
      unfold Memory.store
      rw [hSame]

/- The address of the payload cell a leader stores into. -/
theorem recv_addr
    (map1 : BitVec 64)
    {slice count : Nat}
    (hSlice : slice < 4)
    (hCount : count < 1022) :
    map1 + (BitVec.ofNat 32 slice).setWidth 64 * 4096 +
        ((BitVec.ofNat 64 count).setWidth 32 +
          2).setWidth 64 * 4 =
      cellAddr map1 (1024 * slice + (2 + count)) := by
  apply BitVec.eq_of_toNat_eq
  have hMap := map1.isLt
  simp only [cellAddr, BitVec.toNat_add, BitVec.toNat_mul,
    BitVec.toNat_setWidth, BitVec.toNat_ofNat,
    BitVec.ofNat_eq_ofNat]
  omega

/- The address of the duration cell of a slice. -/
theorem flush_addr
    (map1 : BitVec 64)
    {slice : Nat}
    (hSlice : slice < 4) :
    map1 + (BitVec.ofNat 32 slice).setWidth 64 * 4096 =
      cellAddr map1 (1024 * slice) := by
  apply BitVec.eq_of_toNat_eq
  have hMap := map1.isLt
  simp only [cellAddr, BitVec.toNat_add, BitVec.toNat_mul,
    BitVec.toNat_setWidth, BitVec.toNat_ofNat,
    BitVec.ofNat_eq_ofNat]
  omega

/- The cell after a cell is four bytes on. -/
theorem cellAddr_add_four
    (map1 : BitVec 64)
    (cell : Nat) :
    cellAddr map1 cell + 4 = cellAddr map1 (cell + 1) := by
  apply BitVec.eq_of_toNat_eq
  simp only [cellAddr, BitVec.toNat_add, BitVec.toNat_ofNat,
    BitVec.ofNat_eq_ofNat]
  omega

------------------------------------------------------------
-- Leaders
------------------------------------------------------------

/-
  One leader thread.  Its pending stores are those of the
  hook it is executing; its start, its arrival times and the
  time of its flush are history.
-/
structure Leader where
  regs : Regs
  pending : List Store
  start : BitVec 64
  times : List (BitVec 64)
  flushed : Option (BitVec 64)
deriving DecidableEq, Repr

/- A leader after `fabricperf_throughput_init`. -/
def Leader.init (start : BitVec 64) : Leader where
  regs := Regs.init start
  pending := []
  start := start
  times := []
  flushed := none

/- A stream: the map address and the size of its groups. -/
structure Stream where
  map1 : BitVec 64
  groupThreads : BitVec 32

/- The stream's memory and the leaders of its workgroups. -/
structure StreamState (groups : Nat) where
  memory : Memory
  leader : Fin groups → Leader

/-
  A leader enters one of its hooks at a clock reading, or
  issues the next store of the hook it is in.
-/
inductive StreamAction (groups : Nat) where
| recv (g : Fin groups) (time : BitVec 64)
| flush (g : Fin groups) (time : BitVec 64)
| store (g : Fin groups)
deriving DecidableEq, Repr

/- The leader outside its hooks that has not returned. -/
abbrev Leader.Running (leader : Leader) : Prop :=
  leader.pending = [] ∧ leader.flushed = none

variable {groups : Nat}

namespace Stream

/- The capture of the leader of a workgroup. -/
def group (stream : Stream) (g : Fin groups) : Group where
  group := BitVec.ofNat 32 g.val
  groupSource := BitVec.ofNat 32 g.val * stream.groupThreads
  groupThreads := stream.groupThreads

/- A leader enters its receive hook. -/
def enterRecv
    (stream : Stream)
    (g : Fin groups)
    (time : BitVec 64)
    (leader : Leader) : Leader :=
  let result :=
    recvHook stream.map1 (stream.group g) time leader.regs
  { leader with
    regs := result.1
    pending := result.2
    times := leader.times ++ [time] }

/- A leader enters its flush hook. -/
def enterFlush
    (stream : Stream)
    (time : BitVec 64)
    (leader : Leader) : Leader :=
  { leader with
    pending := flushHook stream.map1 time leader.regs
    flushed := some time }

end Stream

/- Replace the leader of one workgroup. -/
def StreamState.setLeader
    (s : StreamState groups)
    (g : Fin groups)
    (leader : Leader) : StreamState groups :=
  { s with
    leader := fun h => if h = g then leader else s.leader h }

/- The replaced leader and the others. -/
theorem leader_setLeader
    {s : StreamState groups}
    {g : Fin groups}
    {leader : Leader}
    (h : Fin groups) :
    (s.setLeader g leader).leader h =
      if h = g then leader else s.leader h := rfl

namespace Stream

/- One step of a leader. -/
def step (stream : Stream) (s : StreamState groups) :
    StreamAction groups → Option (StreamState groups)
| .recv g time =>
    if (s.leader g).Running then
      some (s.setLeader g
        (stream.enterRecv g time (s.leader g)))
    else
      none
| .flush g time =>
    if (s.leader g).Running then
      some (s.setLeader g
        (stream.enterFlush time (s.leader g)))
    else
      none
| .store g =>
    match (s.leader g).pending with
    | [] => none
    | store :: rest =>
        some
          ({ s with memory := s.memory.store store }.setLeader
            g { s.leader g with pending := rest })

end Stream

/- All interleavings of the leaders on a zeroed stream. -/
def streamMachine (stream : Stream) :
    Machine (StreamState groups) (StreamAction groups) where
  init := fun s =>
    (∀ cell, cell < 4096 →
      s.memory (cellAddr stream.map1 cell) = 0) ∧
    ∀ g, ∃ start, s.leader g = Leader.init start
  step := stream.step

/- A leader is within the range of its count cell. -/
def Short (s : StreamState groups) : StreamAction groups → Prop
| .recv g _ => (s.leader g).times.length + 1 < 2 ^ 32
| .flush _ _ | .store _ => True

namespace StreamState

/- A zeroed stream whose leaders start at time 100. -/
def start (groups : Nat) : StreamState groups where
  memory := fun _ => 0
  leader := fun _ => Leader.init 100

/- Every leader has executed its flush hook to the end. -/
def Closed (s : StreamState groups) : Prop :=
  ∀ g, (s.leader g).pending = [] ∧
    (s.leader g).flushed ≠ none

end StreamState

/- A run that is checked while histories are short. -/
def Stream.shortRun
    (stream : Stream)
    (actions : List (StreamAction groups)) :
    Option (StreamState groups) :=
  (streamMachine stream).runWhile
    (fun s _ =>
      (List.finRange groups).all
        (fun g => decide ((s.leader g).times.length < 3)))
    (StreamState.start groups) actions

/- Short runs reach their last state. -/
theorem reach_of_shortRun
    {stream : Stream}
    {s : StreamState groups}
    {actions : List (StreamAction groups)}
    (hRun : stream.shortRun actions = some s) :
    (streamMachine stream).Reach Short s := by
  refine Machine.reach_of_runWhile ?_
    (Machine.Reach.init ?_) hRun
  · intro s a hCheck
    cases a with
    | recv g time =>
        have hFew :=
          of_decide_eq_true
            (List.all_eq_true.mp hCheck g (List.mem_finRange g))
        simp only [Short]
        omega
    | flush g time => trivial
    | store g => trivial
  · exact ⟨fun _ _ => rfl, fun _ => ⟨100, rfl⟩⟩

end Throughput

end FabricPerf
