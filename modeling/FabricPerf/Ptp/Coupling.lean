import FabricPerf.Ptp.Slots

/-
  The two sides of a pair stay coupled as long as no side is
  launched again after one of its poll loops has exhausted
  its bound.

  Main declarations:
    * `Ptp.Coupled`
    * `Ptp.LiveRelaunch`
    * `Ptp.coupled_of_reach`
-/

------------------------------------------------------------
-- Cursors Of A State
------------------------------------------------------------

namespace FabricPerf

namespace Ptp

/- Where both sides of a pair are. -/
def PairState.cursors (s : PairState) : Role → Cursor :=
  fun r => (s.party r).cursor

namespace PairState

/- Replacing a side moves its cursor alone. -/
@[simp] theorem cursors_setParty
    (s : PairState)
    (role : Role)
    (p : Party) :
    (s.setParty role p).cursors =
      moveCursor s.cursors role p.cursor := by
  funext r
  by_cases hRole : r = role
  · simp [cursors, setParty, moveCursor, hRole]
  · simp [cursors, setParty, moveCursor, hRole]

/- Writing a slot moves no cursor. -/
@[simp] theorem cursors_setSlot
    (s : PairState)
    (sample : Nat)
    (m : Message)
    (slot : Slot) :
    (s.setSlot sample m slot).cursors = s.cursors := rfl

/- Replacing a side leaves the slots alone. -/
@[simp] theorem slots_setParty
    (s : PairState)
    (role : Role)
    (p : Party) :
    (s.setParty role p).slots = s.slots := rfl

/- The slots after one of them has been written. -/
theorem slots_setSlot
    (s : PairState)
    (sample : Nat)
    (m : Message)
    (slot : Slot) :
    (s.setSlot sample m slot).slots =
      fun i n =>
        if i = sample ∧ n = m then slot
          else s.slots i n := rfl

/- The reader's poll accepts what the writer stores. -/
theorem accepts_outgoing
    (pair : Pair)
    (s : PairState)
    (a : Action)
    (m : Message) :
    m.accepts (s.outgoing pair a m).tag = true := by
  simp only [outgoing, Party.outgoing, Party.messageTag]
  by_cases hReport : m = .report
  · rw [if_pos hReport, hReport]
    exact Message.accepts_reportTag _
  · rw [if_neg hReport]
    exact Message.accepts_tagWord _ _ _ _

/- A side at a message's wait performs that wait. -/
theorem op_of_waitPc
    {s : PairState}
    {m : Message}
    (hPc : (s.cursors m.reader).pc = m.waitPc) :
    s.op m.reader = some (.wait m) := by
  unfold op
  have hHere : (s.party m.reader).cursor.pc = m.waitPc := hPc
  rw [hHere]
  exact path_waitPc m

/- A side at a message's clear performs that clear. -/
theorem op_of_clearPc
    {s : PairState}
    {m : Message}
    (hPc : (s.cursors m.reader).pc = m.clearPc) :
    s.op m.reader = some (.clear m) := by
  unfold op
  have hHere : (s.party m.reader).cursor.pc = m.clearPc := hPc
  rw [hHere]
  exact path_clearPc m

end PairState

------------------------------------------------------------
-- Coupled Pairs
------------------------------------------------------------

/- The cursors and the slots of a pair are in order. -/
structure Coupled (s : PairState) : Prop where
  line : Timeline s.cursors
  slots : SlotsOk s.cursors s.slots

/-
  A side whose launch is over is launched again only if none
  of its poll loops has exhausted its bound so far.
-/
def LiveRelaunch (s : PairState) (a : Action) : Prop :=
  a.role.syncLocal < (s.party a.role).cursor.pc →
    (s.party a.role).cursor.exhausted = false

namespace Coupled

variable {pair : Pair} {s : PairState} {a : Action}

/- A pair before its first launch is coupled. -/
theorem start : Coupled PairState.start where
  line := Timeline.start
  slots := SlotsOk.start

/- A poll that hits finds a well held slot. -/
theorem held_of_hit
    (hCoupled : Coupled s)
    {role : Role}
    {m : Message}
    (hHit : m.accepts (s.slot role m).tag = true) :
    Held s.cursors (s.party role).cursor.sample m
      (s.slot role m) :=
  hCoupled.slots.held _ m
    (Message.tag_ne_zero_of_accepts hHit)

/-
  An action that is neither a wait nor a clear falls through
  and keeps the pair coupled.
-/
theorem fallThrough
    (hCoupled : Coupled s)
    {role : Role}
    {op : Op}
    (hOp : s.op role = some op)
    (hWait : ∀ m, op ≠ .wait m)
    (hClear : ∀ m, op ≠ .clear m)
    {p : Party}
    (hCursor : p.cursor = (s.party role).cursor.advance) :
    Coupled (s.setParty role p) where
  line := by
    rw [PairState.cursors_setParty, hCursor]
    apply hCoupled.line.advance (lt_syncLocal_of_path hOp)
    intro m hReader hPc
    subst hReader
    rw [PairState.op_of_waitPc hPc] at hOp
    exact absurd (Option.some.inj hOp).symm (hWait m)
  slots := by
    rw [PairState.cursors_setParty, hCursor]
    apply hCoupled.slots.advance
    intro m hReader hPc
    subst hReader
    rw [PairState.op_of_clearPc hPc] at hOp
    exact absurd (Option.some.inj hOp).symm (hClear m)

/- A store keeps the pair coupled. -/
theorem store
    (hCoupled : Coupled s)
    {m : Message}
    (hOp : s.op a.role = some (.store m))
    {p : Party}
    (hCursor : p.cursor = (s.party a.role).cursor.advance) :
    Coupled
      ((s.setParty a.role p).setSlot
        (s.party a.role).cursor.sample m
        (s.outgoing pair a m)) := by
  rcases path_store hOp with ⟨hWriter, hPc⟩
  have hLine :=
    (hCoupled.fallThrough hOp (fun _ => Op.noConfusion)
      (fun _ => Op.noConfusion) hCursor).line
  refine ⟨hLine, ?_⟩
  rw [PairState.cursors_setSlot, PairState.cursors_setParty,
    hCursor, PairState.slots_setSlot]
  have hStored :=
    hCoupled.slots.store hCoupled.line m
      (s.outgoing pair a m) (by rw [hWriter]; exact hPc)
      (s.accepts_outgoing pair a m)
      (by rw [hWriter]; rfl)
  rw [hWriter] at hStored
  exact hStored

/- Accepting a message keeps the pair coupled. -/
theorem accept
    (hCoupled : Coupled s)
    {role : Role}
    {m : Message}
    (hOp : s.op role = some (.wait m))
    (hHit : m.accepts (s.slot role m).tag = true)
    {p : Party}
    (hCursor : p.cursor = (s.party role).cursor.advance) :
    Coupled
      ((s.setParty role p).setSlot
        (s.party role).cursor.sample m
        { s.slot role m with accepted := true }) where
  line := by
    rw [PairState.cursors_setSlot,
      PairState.cursors_setParty, hCursor]
    apply hCoupled.line.advance (lt_syncLocal_of_path hOp)
    intro m' hReader hPc
    subst hReader
    rw [PairState.op_of_waitPc hPc] at hOp
    have hSame : m' = m := by
      simpa using hOp
    subst hSame
    exact (hCoupled.held_of_hit hHit).stored_of_sample rfl
  slots := by
    rw [PairState.cursors_setSlot,
      PairState.cursors_setParty, hCursor]
    apply (hCoupled.slots.mark _ m).advance
    intro m' hReader hPc
    subst hReader
    rw [PairState.op_of_clearPc hPc] at hOp
    simp at hOp

/- Giving up a poll loop keeps the pair coupled. -/
theorem exhaust
    (hCoupled : Coupled s)
    {role : Role}
    {op : Op}
    (hOp : s.op role = some op)
    {p : Party}
    (hCursor :
      p.cursor = (s.party role).cursor.exhaust role) :
    Coupled (s.setParty role p) where
  line := by
    rw [PairState.cursors_setParty, hCursor]
    exact hCoupled.line.exhaust (lt_syncLocal_of_path hOp)
  slots := by
    rw [PairState.cursors_setParty, hCursor]
    exact hCoupled.slots.exhaust (lt_syncLocal_of_path hOp)

/- Clearing a slot keeps the pair coupled. -/
theorem clear
    (hCoupled : Coupled s)
    {role : Role}
    {m : Message}
    (hOp : s.op role = some (.clear m))
    {p : Party}
    (hCursor : p.cursor = (s.party role).cursor.advance) :
    Coupled
      ((s.setParty role p).setSlot
        (s.party role).cursor.sample m Slot.cleared) where
  line := by
    rw [PairState.cursors_setSlot,
      PairState.cursors_setParty, hCursor]
    apply hCoupled.line.advance (lt_syncLocal_of_path hOp)
    intro m' hReader hPc
    subst hReader
    rw [PairState.op_of_waitPc hPc] at hOp
    simp at hOp
  slots := by
    rw [PairState.cursors_setSlot,
      PairState.cursors_setParty, hCursor]
    apply (hCoupled.slots.clear _ m).advance
    intro m' hReader hPc
    subst hReader
    rw [PairState.op_of_clearPc hPc] at hOp
    have hSame : m' = m := by
      simpa using hOp
    subst hSame
    exact congrArg Slot.tag (if_pos ⟨rfl, rfl⟩)

/- A poll that misses keeps the pair coupled. -/
theorem miss
    (hCoupled : Coupled s)
    {role : Role}
    {p : Party}
    (hCursor : p.cursor = (s.party role).cursor) :
    Coupled (s.setParty role p) := by
  have hSame :
      moveCursor s.cursors role p.cursor = s.cursors := by
    funext r
    by_cases hRole : r = role
    · rw [hRole, moveCursor_self, hCursor]
      rfl
    · exact moveCursor_of_ne _ _ hRole
  refine ⟨?_, ?_⟩
  · rw [PairState.cursors_setParty, hSame]
    exact hCoupled.line
  · rw [PairState.cursors_setParty, hSame]
    exact hCoupled.slots

/- The end of a sample keeps the pair coupled. -/
theorem leaveSample
    (hCoupled : Coupled s)
    {role : Role}
    (hSync : (s.party role).cursor.pc = role.syncLocal)
    {p : Party}
    (hCursor :
      p.cursor = (s.party role).cursor.leaveSample) :
    Coupled (s.setParty role p) where
  line := by
    rw [PairState.cursors_setParty, hCursor]
    exact hCoupled.line.leaveSample hSync
  slots := by
    rw [PairState.cursors_setParty, hCursor]
    exact hCoupled.slots.leaveSample hSync

/- A launch without earlier timeouts keeps the pair coupled. -/
theorem relaunch
    (hCoupled : Coupled s)
    {role : Role}
    (hOver : role.syncLocal < (s.party role).cursor.pc)
    (hLive : (s.party role).cursor.exhausted = false)
    {p : Party}
    (hCursor : p.cursor = (s.party role).cursor.relaunch) :
    Coupled (s.setParty role p) := by
  have hLe := hCoupled.line.pc_le role
  have hPc : (s.cursors role).pc = role.syncLocal + 1 :=
    Nat.le_antisymm hLe hOver
  have hLast := hCoupled.line.finished role hPc
  refine ⟨?_, ?_⟩
  · rw [PairState.cursors_setParty, hCursor]
    exact hCoupled.line.relaunch hPc hLive
  · rw [PairState.cursors_setParty, hCursor]
    exact hCoupled.slots.relaunch hPc hLast hLive

/- Every guarded action keeps the pair coupled. -/
theorem step
    (hCoupled : Coupled s)
    (hGuard : LiveRelaunch s a)
    {s' : PairState}
    (hEffect : Effect pair s a s') :
    Coupled s' := by
  cases hEffect with
  | store m hOp =>
      exact hCoupled.store hOp rfl
  | accept m hOp hHit =>
      exact hCoupled.accept hOp hHit rfl
  | miss m _ _ _ =>
      exact hCoupled.miss rfl
  | exhaust m hOp _ _ =>
      exact hCoupled.exhaust hOp rfl
  | readDelayreqTime hOp =>
      exact hCoupled.fallThrough hOp
        (fun _ => Op.noConfusion) (fun _ => Op.noConfusion) rfl
  | storeOffset hOp =>
      exact hCoupled.fallThrough hOp
        (fun _ => Op.noConfusion) (fun _ => Op.noConfusion) rfl
  | storeRow hOp =>
      exact hCoupled.fallThrough hOp
        (fun _ => Op.noConfusion) (fun _ => Op.noConfusion) rfl
  | clear m hOp =>
      exact hCoupled.clear hOp rfl
  | leaveSample hSync =>
      exact hCoupled.leaveSample hSync rfl
  | relaunch hOver =>
      exact hCoupled.relaunch hOver (hGuard hOver) rfl

end Coupled

/- Every state of a guarded run is coupled. -/
theorem coupled_of_reach
    {pair : Pair}
    {s : PairState}
    (hReach : (pairMachine pair).Reach LiveRelaunch s) :
    Coupled s := by
  apply hReach.invariant Coupled
  · intro s hInit
    have hStart : s = PairState.start := hInit
    rw [hStart]
    exact Coupled.start
  · intro s a s' hCoupled hGuard hStep
    have hAct : s.act pair a = s' := Option.some.inj hStep
    rw [← hAct]
    exact hCoupled.step hGuard (effect_act pair s a)

end Ptp

end FabricPerf
