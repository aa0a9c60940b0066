import FabricPerf.Lib.SignedWord
import FabricPerf.Lib.Traced
import FabricPerf.Lib.Transition
import FabricPerf.Ptp.Messages

/-
  The PTP handshake of one leader CTA and one follower rank.

  Each side runs a straight path of stores, polls and clears
  for every sample (`Ptp.path`), as `$L__ptp_leader_path` and
  `$L__ptp_follower_path` do; a poll loop that exhausts its
  bound jumps to `$L__ptp_sync_local`.  Sixteen-byte stores
  are atomic, so every action touches one slot.

  Words carry the globaltimer readings they were computed
  from.  The fields marked as history are written and never
  read by the program.

  Main declarations:
    * `Ptp.path`
    * `Ptp.Party.step`
    * `Ptp.pairMachine`
-/

------------------------------------------------------------
-- Readings, Words And Slots
------------------------------------------------------------

namespace FabricPerf

namespace Ptp

/- What a globaltimer reading of the handshake is taken for. -/
inductive TimePoint where
| connection
| followUp
| syncReceipt
| delayRequest
| delayResponse
deriving DecidableEq, Repr

/- One globaltimer reading and the round it was taken in. -/
structure Reading where
  point : TimePoint
  launch : Nat
  sample : Nat
  time : BitVec 64
deriving DecidableEq, Repr

/- A 64-bit word and the readings it was computed from. -/
abbrev Word := Traced Reading 64

/-
  One 16-byte message slot.  The launch its writer was in
  and whether its reader has accepted it are history.
-/
structure Slot where
  tag : BitVec 64
  data : Word
  launch : Nat
  accepted : Bool
deriving DecidableEq, Repr

/- A slot after the host memset or a clearing store. -/
def Slot.cleared : Slot where
  tag := 0
  data := Traced.const 0
  launch := 0
  accepted := false

------------------------------------------------------------
-- Offset Arithmetic
------------------------------------------------------------

/- The follower's offset, as the PTX computes it. -/
def ptpOffset (t1 t2 t3 t4 : BitVec 64) : BitVec 64 :=
  SignedWord.halve ((t2 - t1) - (t4 - t3))

/- The follower's one-way latency, as the PTX computes it. -/
def ptpLatency (t1 t2 t3 t4 : BitVec 64) : BitVec 64 :=
  SignedWord.halve ((t4 - t3) + (t2 - t1))

/-
  The registers that carry a value from one action of a
  sample to a later one.  The follower keeps `T1`..`T4`; the
  leader keeps `T4` and the report it accepted.
-/
structure Regs where
  followupTime : Word
  syncTime : Word
  delayreqTime : Word
  delayrespTime : Word
  reportTag : BitVec 64
  reportData : Word
deriving DecidableEq, Repr

namespace Regs

/- Registers before anything was read into them. -/
def start : Regs where
  followupTime := Traced.const 0
  syncTime := Traced.const 0
  delayreqTime := Traced.const 0
  delayrespTime := Traced.const 0
  reportTag := 0
  reportData := Traced.const 0

/- The traced subtraction `sub.s64`. -/
def sub (a b : Word) : Word :=
  Traced.map₂ (fun x y => x - y) a b

/- `ptpOffset` of the follower's registers. -/
def offset (regs : Regs) : Word :=
  Traced.map SignedWord.halve
    (sub (sub regs.syncTime regs.followupTime)
      (sub regs.delayrespTime regs.delayreqTime))

/- `ptpLatency` of the follower's registers. -/
def latency (regs : Regs) : BitVec 64 :=
  ptpLatency regs.followupTime.val regs.syncTime.val
    regs.delayreqTime.val regs.delayrespTime.val

/- The leader's offset is the negated report word. -/
def negatedReport (regs : Regs) : Word :=
  Traced.map (fun x => 0 - x) regs.reportData

end Regs

------------------------------------------------------------
-- The Two Paths
------------------------------------------------------------

/- The actions of one side on one sample. -/
inductive Op where
| store (m : Message)
| wait (m : Message)
| readDelayreqTime
| storeOffset
| storeRow
| clear (m : Message)
deriving DecidableEq, Repr

/- The actions of a sample in program order. -/
def path : Role → List Op
| .leader =>
    [.store .connreq, .wait .connresp,
      .store .sync, .store .followup,
      .wait .delayreq, .store .delayresp,
      .wait .report, .storeOffset, .storeRow,
      .clear .connresp, .clear .delayreq, .clear .report]
| .follower =>
    [.wait .connreq, .store .connresp,
      .wait .sync, .wait .followup,
      .store .delayreq, .readDelayreqTime,
      .wait .delayresp, .store .report,
      .storeOffset, .storeRow,
      .clear .connreq, .clear .sync,
      .clear .followup, .clear .delayresp]

/- The program counter of `$L__ptp_sync_local`. -/
def Role.syncLocal : Role → Nat
| .leader => 12
| .follower => 14

/- The poll bound of every wait loop. -/
def pollBound : Nat := 1048576

/- The samples of one launch. -/
def samples : Nat := 20

------------------------------------------------------------
-- Parties
------------------------------------------------------------

/-
  Where a side is.  The counter past `syncLocal` means that
  the launch is over.  `exhausted` is history: some poll
  loop of this side has used up its bound.
-/
structure Cursor where
  launch : Nat
  sample : Nat
  pc : Nat
  exhausted : Bool
deriving DecidableEq, Repr

/- A store into a latency offset table. -/
structure OffsetStore where
  launch : Nat
  sample : Nat
  index : Nat
  value : Word
deriving DecidableEq, Repr

/- A store into the diagnostic result buffer. -/
structure RowStore where
  launch : Nat
  sample : Nat
  slot : Nat
  offset : Word
  latency : BitVec 64
deriving DecidableEq, Repr

/-
  One side of a pair.  `offsets` and `rows` list what it has
  stored in its tables; `reports` (history) lists the offset
  words a follower has put into report messages.
-/
structure Party where
  cursor : Cursor
  polls : Nat
  regs : Regs
  offsets : List OffsetStore
  rows : List RowStore
  reports : List OffsetStore
deriving DecidableEq, Repr

/- A side before its first launch does anything. -/
def Party.start : Party where
  cursor := { launch := 0, sample := 0, pc := 0, exhausted := false }
  polls := 0
  regs := Regs.start
  offsets := []
  rows := []
  reports := []

namespace Cursor

/- Fall through to the next action. -/
def advance (c : Cursor) : Cursor :=
  { c with pc := c.pc + 1 }

/- Leave a poll loop whose bound is exhausted. -/
def exhaust (role : Role) (c : Cursor) : Cursor :=
  { c with pc := role.syncLocal, exhausted := true }

/- `$L__ptp_sync_local`: the next sample, or the end. -/
def leaveSample (c : Cursor) : Cursor :=
  if c.sample + 1 < samples then
    { c with sample := c.sample + 1, pc := 0 }
  else
    { c with pc := c.pc + 1 }

/- The host launches the kernel again. -/
def relaunch (c : Cursor) : Cursor :=
  { c with launch := c.launch + 1, sample := 0, pc := 0 }

end Cursor

/-
  The ranks of a pair: the leader is rank 0 and serves the
  follower in the CTA of the follower's rank; the follower
  answers from its CTA 0.
-/
structure Pair where
  follower : Nat
  hostId : Role → BitVec 32

namespace Pair

/- The symbol `deviceId` of a side. -/
def rank (pair : Pair) : Role → Nat
| .leader => 0
| .follower => pair.follower

/- The CTA a side runs the handshake in. -/
def ctaid (pair : Pair) : Role → Nat
| .leader => pair.follower
| .follower => 0

/- The rank at the other end, which indexes the tables. -/
def peer (pair : Pair) (role : Role) : Nat :=
  pair.rank role.other

end Pair

namespace Party

/- Go on to the next action with a fresh poll counter. -/
def advance (p : Party) : Party :=
  { p with cursor := p.cursor.advance, polls := 0 }

/- Read the clock for the given purpose. -/
def clock (p : Party) (point : TimePoint) (t : BitVec 64) :
    Word :=
  Traced.read
    ⟨point, p.cursor.launch, p.cursor.sample, t⟩ t

/- The tag of the message a store action writes. -/
def messageTag
    (hostId deviceId ctaid : BitVec 32)
    (p : Party)
    (m : Message) : BitVec 64 :=
  if m = .report then
    reportTag p.regs.latency
  else
    tagWord hostId deviceId ctaid m

/- The data word of the message a store action writes. -/
def messageData
    (p : Party)
    (t : BitVec 64)
    (m : Message) : Word :=
  match m with
  | .delayresp => p.regs.delayrespTime
  | .report => p.regs.offset
  | .followup => p.clock .followUp t
  | _ => p.clock .connection t

/- The slot contents a store action writes. -/
def outgoing
    (hostId deviceId ctaid : BitVec 32)
    (p : Party)
    (t : BitVec 64)
    (m : Message) : Slot where
  tag := p.messageTag hostId deviceId ctaid m
  data := p.messageData t m
  launch := p.cursor.launch
  accepted := false

/-
  The registers after a wait has accepted a message: sync
  and delay-request receipts keep the local clock, the other
  messages their contents.
-/
def received
    (p : Party)
    (t : BitVec 64)
    (slot : Slot) :
    Message → Regs
| .sync => { p.regs with syncTime := p.clock .syncReceipt t }
| .followup => { p.regs with followupTime := slot.data }
| .delayreq =>
    { p.regs with delayrespTime := p.clock .delayResponse t }
| .delayresp => { p.regs with delayrespTime := slot.data }
| .report =>
    { p.regs with
      reportTag := slot.tag
      reportData := slot.data }
| .connreq | .connresp => p.regs

/- One entry for a table, stamped with the current round. -/
def entry (p : Party) (index : Nat) (value : Word) :
    OffsetStore where
  launch := p.cursor.launch
  sample := p.cursor.sample
  index := index
  value := value

/- The offset word a side stores in its table. -/
def offsetWord (role : Role) (p : Party) : Word :=
  match role with
  | .leader => p.regs.negatedReport
  | .follower => p.regs.offset

/- The latency word of a side's diagnostic row. -/
def latencyWord (role : Role) (p : Party) : BitVec 64 :=
  match role with
  | .leader => p.regs.reportTag >>> 8
  | .follower => p.regs.latency

/- The diagnostic row a side stores. -/
def row (pair : Pair) (role : Role) (p : Party) :
    RowStore where
  launch := p.cursor.launch
  sample := p.cursor.sample
  slot :=
    compactSlot (pair.rank role) (pair.peer role)
      p.cursor.sample
  offset := p.offsetWord role
  latency := p.latencyWord role

end Party

------------------------------------------------------------
-- One Action Of One Side
------------------------------------------------------------

namespace Party

/-
  The next action of a side.  It sees the slots of its
  current sample and writes at most one of them; the write
  of an accepting poll only marks the slot as accepted.
-/
def step
    (pair : Pair)
    (role : Role)
    (slots : Message → Slot)
    (t : BitVec 64)
    (p : Party) :
    Party × Option (Message × Slot) :=
  match (path role)[p.cursor.pc]? with
  | some (.store m) =>
      let slot :=
        p.outgoing (pair.hostId role)
          (BitVec.ofNat 32 (pair.rank role))
          (BitVec.ofNat 32 (pair.ctaid role)) t m
      let reports :=
        if m = .report then
          p.reports ++ [p.entry 0 slot.data]
        else
          p.reports
      ({ p.advance with reports := reports }, some (m, slot))
  | some (.wait m) =>
      if m.accepts (slots m).tag then
        ({ p.advance with regs := p.received t (slots m) m },
          some (m, { slots m with accepted := true }))
      else if p.polls + 1 < pollBound then
        ({ p with polls := p.polls + 1 }, none)
      else
        ({ p with
            cursor := p.cursor.exhaust role
            polls := 0 }, none)
  | some .readDelayreqTime =>
      ({ p.advance with
          regs :=
            { p.regs with
              delayreqTime := p.clock .delayRequest t } },
        none)
  | some .storeOffset =>
      ({ p.advance with
          offsets :=
            p.offsets ++
              [p.entry (pair.peer role) (p.offsetWord role)] },
        none)
  | some .storeRow =>
      ({ p.advance with
          rows := p.rows ++ [p.row pair role] }, none)
  | some (.clear m) => (p.advance, some (m, Slot.cleared))
  | none =>
      if p.cursor.pc = role.syncLocal then
        ({ p with cursor := p.cursor.leaveSample }, none)
      else
        ({ p with cursor := p.cursor.relaunch }, none)

end Party

------------------------------------------------------------
-- The Pair Machine
------------------------------------------------------------

/- Both sides and the slots they share. -/
@[ext]
structure PairState where
  party : Role → Party
  slots : Nat → Message → Slot

/- One action: a side and the clock value it may read. -/
structure Action where
  role : Role
  time : BitVec 64
deriving DecidableEq, Repr

namespace PairState

/- The state before the first launch: all slots cleared. -/
def start : PairState where
  party := fun _ => Party.start
  slots := fun _ _ => Slot.cleared

/- Replace one side. -/
def setParty (s : PairState) (role : Role) (p : Party) :
    PairState :=
  { s with
    party := fun r => if r = role then p else s.party r }

/- Replace one slot. -/
def setSlot
    (s : PairState)
    (sample : Nat)
    (m : Message)
    (slot : Slot) : PairState :=
  { s with
    slots := fun i n =>
      if i = sample ∧ n = m then slot else s.slots i n }

/- Carry out the slot write of an action, if any. -/
def write
    (s : PairState)
    (sample : Nat) :
    Option (Message × Slot) → PairState
| none => s
| some (m, slot) => s.setSlot sample m slot

/- One side acts. -/
def act (pair : Pair) (s : PairState) (a : Action) :
    PairState :=
  let p := s.party a.role
  let result :=
    p.step pair a.role (s.slots p.cursor.sample) a.time
  (s.setParty a.role result.1).write p.cursor.sample result.2

end PairState

/- The handshake of one pair over any number of launches. -/
def pairMachine (pair : Pair) : Machine PairState Action where
  init := fun s => s = PairState.start
  step := fun s a => some (s.act pair a)

end Ptp

end FabricPerf
