import FabricPerf.Ptp.Rounds

/-
  The slots of a run in which no poll loop exhausts its
  bound: every message is stored into an empty slot, and its
  slot is cleared after its reader has accepted it.

  Main declarations:
    * `Ptp.Settled.store_empty`
    * `Ptp.SlotsFresh`
    * `Ptp.Settled.clear_accepted`
    * `Ptp.slotsFresh_step`
-/

------------------------------------------------------------
-- How Far A Side Can Be Ahead
------------------------------------------------------------

namespace FabricPerf

namespace Ptp

/- Without timeouts no side is more than a round ahead. -/
theorem Settled.round_le
    {pair : Pair}
    {s : PairState}
    (hSettled : Settled pair s)
    (m : Message) :
    (s.cursors m.reader).round ≤
      (s.cursors m.writer).round + 1 := by
  have hPc := hSettled.coupled.line.pc_le m.writer
  have hRole : m.writer.syncLocal ≤ 14 := by
    cases m <;> decide
  by_cases hFirst : (s.cursors m.reader).round = 0
  · omega
  · have hPast := hSettled.coupled.line.behind m
      ((s.cursors m.reader).round - 1)
      (Or.inr (Or.inl ⟨hSettled.live m.reader, by omega⟩))
    simp only [Cursor.pos] at hPast
    omega

/- A reader past its wait is preceded by the store. -/
theorem Settled.stored_of_passed
    {pair : Pair}
    {s : PairState}
    (hSettled : Settled pair s)
    (m : Message)
    {round : Nat}
    (hPassed :
      16 * round + m.waitPc < (s.cursors m.reader).pos) :
    16 * round + m.storePc + 1 ≤ (s.cursors m.writer).pos := by
  have hLive := hSettled.live m.reader
  have hLine := hSettled.coupled.line
  have hPc := hLine.pc_le m.reader
  have hRole : m.reader.syncLocal ≤ 14 := by
    cases m <;> decide
  simp only [Cursor.pos] at hPassed
  by_cases hHere : round = (s.cursors m.reader).round
  · exact hLine.behind m round
      (Or.inl ⟨by omega, Or.inr hLive, hHere⟩)
  · have hLast := hLine.behind m
      ((s.cursors m.reader).round - 1)
      (Or.inr (Or.inl ⟨hLive, by omega⟩))
    omega

/- Each side reads a message that the other side writes. -/
theorem Message.exists_reader_eq_writer (m : Message) :
    ∃ m' : Message,
      m'.reader = m.writer ∧ m'.writer = m.reader := by
  cases m with
  | connreq | sync | followup | delayresp =>
      exact ⟨.connresp, rfl, rfl⟩
  | connresp | delayreq | report =>
      exact ⟨.connreq, rfl, rfl⟩

/- A side stores a message into an empty slot. -/
theorem Settled.store_empty
    {pair : Pair}
    {s : PairState}
    (hSettled : Settled pair s)
    {role : Role}
    {m : Message}
    (hOp : s.op role = some (.store m)) :
    (s.slot role m).tag = 0 := by
  rcases path_store hOp with ⟨hWriter, hPc⟩
  subst hWriter
  by_contra hUsed
  have hHeld := hSettled.coupled.slots.held _ m hUsed
  have hStored := hHeld.stored
  have hFresh := hHeld.fresh
  -- The writer is at the store, so the message is older.
  rcases m.exists_reader_eq_writer with ⟨m', hReader, hWriter⟩
  have hAhead := hSettled.round_le m'
  rw [hReader, hWriter] at hAhead
  have hSampleW := hSettled.coupled.line.sample_lt m.writer
  have hSampleR := hSettled.coupled.line.sample_lt m.reader
  simp only [PairState.slot, Cursor.pos, Cursor.round,
    PairState.cursors] at *
  have hEmptied :
      (s.cursors m.reader).Emptied m
        (s.party m.writer).cursor.sample := by
    left
    simp only [PairState.cursors]
    omega
  rcases hSettled.coupled.slots.emptied _ m
      (hSettled.live m.reader) hEmptied with hZero | hLater
  · exact hUsed hZero
  · simp only [PairState.cursors] at hLater
    omega

------------------------------------------------------------
-- Slots Between Store And Clear
------------------------------------------------------------

/-
  A slot without a message is all zero, and a message whose
  reader is past the wait for it has been accepted.
-/
structure SlotsFresh (s : PairState) : Prop where
  empty :
    ∀ (i : Nat) (m : Message),
      (s.slots i m).tag = 0 → s.slots i m = Slot.cleared
  accepted :
    ∀ (i : Nat) (m : Message),
      (s.slots i m).tag ≠ 0 →
      16 * (20 * (s.slots i m).launch + i) + m.waitPc <
          (s.cursors m.reader).pos →
        (s.slots i m).accepted = true

/- A side clears a slot whose message it has accepted. -/
theorem Settled.clear_accepted
    {pair : Pair}
    {s : PairState}
    (hSettled : Settled pair s)
    (hSlots : SlotsFresh s)
    {role : Role}
    {m : Message}
    (hOp : s.op role = some (.clear m))
    (hUsed : (s.slot role m).tag ≠ 0) :
    (s.slot role m).accepted = true := by
  rcases path_clear hOp with ⟨hReader, hPc⟩
  subst hReader
  apply hSlots.accepted _ m hUsed
  have hHeld := hSettled.coupled.slots.held _ m hUsed
  have hStored := hHeld.stored
  have hFresh := hHeld.fresh
  have hWait := m.waitPc_lt_clearPc
  rcases m.exists_reader_eq_writer with ⟨m', hReader, hWriter⟩
  have hAhead := hSettled.round_le m'
  rw [hReader, hWriter] at hAhead
  have hPcW := hSettled.coupled.line.pc_le m.writer
  have hRole : m.writer.syncLocal ≤ 14 := by
    cases m <;> decide
  simp only [PairState.slot, Cursor.pos, Cursor.round,
    PairState.cursors] at *
  omega

namespace SlotsFresh

variable {s : PairState}

/- Before the first launch all slots are zero. -/
theorem start : SlotsFresh PairState.start where
  empty := fun _ _ _ => rfl
  accepted := fun _ _ hUsed => absurd rfl hUsed

/- A move keeps the slots if it passes no unaccepted message. -/
theorem setParty
    (hSlots : SlotsFresh s)
    {role : Role}
    {p : Party}
    (hPassed :
      ∀ (i : Nat) (m : Message),
        m.reader = role →
        (s.slots i m).tag ≠ 0 →
        16 * (20 * (s.slots i m).launch + i) + m.waitPc <
            p.cursor.pos →
          (s.slots i m).accepted = true ∨
            16 * (20 * (s.slots i m).launch + i) +
                m.waitPc <
              (s.party role).cursor.pos) :
    SlotsFresh (s.setParty role p) where
  empty := hSlots.empty
  accepted := by
    intro i m hUsed hBefore
    rw [PairState.cursors_setParty] at hBefore
    by_cases hReader : m.reader = role
    · rw [hReader, moveCursor_self] at hBefore
      rcases hPassed i m hReader hUsed hBefore with
        hDone | hOld
      · exact hDone
      · apply hSlots.accepted i m hUsed
        rw [hReader]
        exact hOld
    · rw [moveCursor_of_ne _ _ hReader] at hBefore
      exact hSlots.accepted i m hUsed hBefore

/- A write of a slot in order keeps the slots. -/
theorem setSlot
    (hSlots : SlotsFresh s)
    {sample : Nat}
    {m : Message}
    {slot : Slot}
    (hEmpty : slot.tag = 0 → slot = Slot.cleared)
    (hAccepted :
      slot.tag ≠ 0 →
      16 * (20 * slot.launch + sample) + m.waitPc <
          (s.cursors m.reader).pos →
        slot.accepted = true) :
    SlotsFresh (s.setSlot sample m slot) where
  empty := by
    intro i n hZero
    simp only [PairState.setSlot] at hZero ⊢
    by_cases hHere : i = sample ∧ n = m
    · rw [if_pos hHere] at hZero ⊢
      exact hEmpty hZero
    · rw [if_neg hHere] at hZero ⊢
      exact hSlots.empty i n hZero
  accepted := by
    intro i n hUsed hBefore
    rw [PairState.cursors_setSlot] at hBefore
    simp only [PairState.setSlot] at hUsed hBefore ⊢
    by_cases hHere : i = sample ∧ n = m
    · rw [if_pos hHere] at hUsed hBefore ⊢
      rw [hHere.1, hHere.2] at hBefore
      exact hAccepted hUsed hBefore
    · rw [if_neg hHere] at hUsed hBefore ⊢
      exact hSlots.accepted i n hUsed hBefore

/- Falling through an operation that is not a wait. -/
theorem fallThrough
    (hSlots : SlotsFresh s)
    {role : Role}
    {op : Op}
    (hOp : s.op role = some op)
    (hWait : ∀ m, op ≠ .wait m)
    {p : Party}
    (hCursor : p.cursor = (s.party role).cursor.advance) :
    SlotsFresh (s.setParty role p) := by
  apply hSlots.setParty
  intro i m hReader hUsed hBefore
  right
  have hNe : (s.party role).cursor.pc ≠ m.waitPc := by
    intro hPc
    subst hReader
    rw [PairState.op_of_waitPc hPc] at hOp
    exact hWait m (Option.some.inj hOp).symm
  have hPc := lt_syncLocal_of_path hOp
  have hRole : role.syncLocal ≤ 14 := by
    cases role <;> decide
  have hWaitPc := m.waitPc_lt_syncLocal
  rw [hReader] at hWaitPc
  rw [hCursor] at hBefore
  simp only [Cursor.pos, Cursor.round, Cursor.advance] at *
  omega

end SlotsFresh

/- Without timeouts every action keeps the slots in order. -/
theorem slotsFresh_step
    {pair : Pair}
    {s s' : PairState}
    {a : Action}
    (hSettled : Settled pair s)
    (hSlots : SlotsFresh s)
    (hGuard : Unexhausted s a)
    (hEffect : Effect pair s a s') :
    SlotsFresh s' := by
  have hRole : a.role.syncLocal ≤ 14 := by
    cases a.role <;> decide
  cases hEffect with
  | store m hOp =>
      rcases path_store hOp with ⟨hWriter, hPc⟩
      apply SlotsFresh.setSlot
      · exact hSlots.fallThrough hOp (fun _ => Op.noConfusion)
          rfl
      · intro hZero
        exact absurd hZero
          (Message.tag_ne_zero_of_accepts
            (s.accepts_outgoing pair a m))
      · intro _ hBefore
        exfalso
        have hReader : m.reader ≠ a.role := by
          rw [← hWriter]
          exact m.reader_ne_writer
        rw [PairState.cursors_setParty,
          moveCursor_of_ne _ _ hReader] at hBefore
        have hStored := hSettled.stored_of_passed m hBefore
        rw [hWriter] at hStored
        simp only [Cursor.pos, Cursor.round,
          PairState.cursors, PairState.outgoing,
          Party.outgoing] at hStored
        omega
  | accept m hOp hHit =>
      have hMarked :
          SlotsFresh
            (s.setSlot (s.party a.role).cursor.sample m
              { s.slot a.role m with accepted := true }) := by
        apply hSlots.setSlot
        · intro hZero
          exact absurd hZero
            (Message.tag_ne_zero_of_accepts hHit)
        · exact fun _ _ => rfl
      apply hMarked.setParty
      intro i m' hReader hUsed hBefore
      by_cases hHere :
          i = (s.party a.role).cursor.sample ∧ m' = m
      · left
        simp only [PairState.setSlot]
        rw [if_pos hHere]
      · right
        simp only [PairState.setSlot] at hUsed hBefore ⊢
        rw [if_neg hHere] at hUsed hBefore ⊢
        have hHeld := hSettled.coupled.slots.held i m' hUsed
        have hSample := hHeld.sample_lt
        have hBound := hSettled.coupled.line.sample_lt a.role
        have hPath := lt_syncLocal_of_path hOp
        have hWaitPc := m'.waitPc_lt_syncLocal
        rw [hReader] at hWaitPc
        have hNe :
            i ≠ (s.party a.role).cursor.sample ∨
              (s.party a.role).cursor.pc ≠ m'.waitPc := by
          by_contra hBoth
          rw [not_or, not_not, not_not] at hBoth
          rw [← hReader] at hOp
          have hPc :
              (s.cursors m'.reader).pc = m'.waitPc := by
            rw [hReader]
            exact hBoth.2
          rw [PairState.op_of_waitPc hPc] at hOp
          exact hHere ⟨hBoth.1, by simpa using hOp⟩
        simp only [Cursor.pos, Cursor.round, Party.advance,
          Cursor.advance, PairState.cursors] at *
        omega
  | miss m _ _ _ =>
      exact hSlots.setParty (fun _ _ _ _ hBefore => Or.inr hBefore)
  | exhaust m hOp hMiss hBound =>
      exact absurd (hGuard m hOp hMiss) hBound
  | readDelayreqTime hOp =>
      exact hSlots.fallThrough hOp
        (fun _ => Op.noConfusion) rfl
  | storeOffset hOp =>
      exact hSlots.fallThrough hOp
        (fun _ => Op.noConfusion) rfl
  | storeRow hOp =>
      exact hSlots.fallThrough hOp
        (fun _ => Op.noConfusion) rfl
  | clear m hOp =>
      apply SlotsFresh.setSlot
      · exact hSlots.fallThrough hOp
          (fun _ => Op.noConfusion) rfl
      · exact fun _ => rfl
      · exact fun hUsed => absurd rfl hUsed
  | leaveSample hSync =>
      apply hSlots.setParty
      intro i m hReader _ hBefore
      right
      have hWaitPc := m.waitPc_lt_syncLocal
      rw [hReader] at hWaitPc
      simp only [Cursor.leaveSample] at hBefore
      split at hBefore <;>
        simp only [Cursor.pos, Cursor.round] at * <;> omega
  | relaunch hOver =>
      have hLine := hSettled.coupled.line
      have hLast := hLine.finished a.role
        (Nat.le_antisymm (hLine.pc_le a.role) hOver)
      apply hSlots.setParty
      intro i m hReader _ hBefore
      right
      have hWaitPc := m.waitPc_lt_syncLocal
      rw [hReader] at hWaitPc
      simp only [Cursor.pos, Cursor.round, Cursor.relaunch,
        PairState.cursors] at *
      omega

end Ptp

end FabricPerf
