import FabricPerf.Ptp.Timeline

/-
  What the message slots of a pair hold.

  `SlotsOk` says that a slot in use holds the message its
  name promises, stored by a side that has since moved on,
  and never a message of a launch its reader has left.  The
  lemmas follow the two ways a state changes: one cursor
  moves, or one slot is written.

  Main declarations:
    * `Ptp.SlotsOk`
    * `Ptp.SlotsOk.move`
    * `Ptp.SlotsOk.set`
    * `Ptp.SlotsOk.store`
    * `Ptp.Held.launch_eq`
-/

------------------------------------------------------------
-- Slots In Use
------------------------------------------------------------

namespace FabricPerf

namespace Ptp

/-
  A slot in use: the reader's poll accepts it, its writer is
  past the store, its reader has not left its launch, and
  except for the first message of a sample the reader has
  already begun that sample.
-/
structure Held
    (cur : Role → Cursor)
    (sample : Nat)
    (m : Message)
    (slot : Slot) : Prop where
  sample_lt : sample < 20
  accepts : m.accepts slot.tag = true
  stored :
    16 * (20 * slot.launch + sample) + m.storePc + 1 ≤
      (cur m.writer).pos
  fresh : (cur m.reader).launch ≤ slot.launch
  answered :
    m ≠ .connreq →
      16 * (20 * slot.launch + sample) + 1 ≤
        (cur m.reader).pos

/- The samples of this launch whose slot a side has cleared. -/
def Cursor.Emptied (c : Cursor) (m : Message) (sample : Nat) :
    Prop :=
  sample < c.sample ∨
    (sample = c.sample ∧ m.clearPc < c.pc)

/-
  Every slot in use is well held, and a slot that a side
  without timeouts has cleared is empty or already holds a
  message of a later launch.
-/
structure SlotsOk
    (cur : Role → Cursor)
    (slots : Nat → Message → Slot) : Prop where
  held :
    ∀ (i : Nat) (m : Message),
      (slots i m).tag ≠ 0 → Held cur i m (slots i m)
  emptied :
    ∀ (i : Nat) (m : Message),
      (cur m.reader).exhausted = false →
      (cur m.reader).Emptied m i →
        (slots i m).tag = 0 ∨
          (cur m.reader).launch < (slots i m).launch

namespace Held

variable {cur : Role → Cursor}
variable {sample : Nat} {m : Message} {slot : Slot}

/- A forward move of one side keeps a slot well held. -/
theorem move
    (hHeld : Held cur sample m slot)
    {role : Role}
    {c : Cursor}
    (hForward : (cur role).pos ≤ c.pos)
    (hFresh : m.reader = role → c.launch ≤ slot.launch) :
    Held (moveCursor cur role c) sample m slot where
  sample_lt := hHeld.sample_lt
  accepts := hHeld.accepts
  stored := by
    have hStored := hHeld.stored
    by_cases hWriter : m.writer = role
    · rw [hWriter] at hStored ⊢
      rw [moveCursor_self]
      exact hStored.trans hForward
    · rw [moveCursor_of_ne cur c hWriter]
      exact hStored
  fresh := by
    by_cases hReader : m.reader = role
    · have hNew := hFresh hReader
      rw [hReader, moveCursor_self]
      exact hNew
    · rw [moveCursor_of_ne cur c hReader]
      exact hHeld.fresh
  answered := by
    intro hFirst
    have hAnswered := hHeld.answered hFirst
    by_cases hReader : m.reader = role
    · rw [hReader] at hAnswered ⊢
      rw [moveCursor_self]
      exact hAnswered.trans hForward
    · rw [moveCursor_of_ne cur c hReader]
      exact hAnswered

/- Marking the slot as accepted keeps it well held. -/
theorem mark
    (hHeld : Held cur sample m slot) :
    Held cur sample m { slot with accepted := true } where
  sample_lt := hHeld.sample_lt
  accepts := hHeld.accepts
  stored := hHeld.stored
  fresh := hHeld.fresh
  answered := hHeld.answered

/-
  The message a side finds in its own sample is one of its
  own launch.
-/
theorem launch_eq
    (hHeld : Held cur sample m slot)
    (hFirst : m ≠ .connreq)
    (hSample : sample = (cur m.reader).sample)
    (hPc : (cur m.reader).pc ≤ 15) :
    slot.launch = (cur m.reader).launch := by
  have hFresh := hHeld.fresh
  have hAnswered := hHeld.answered hFirst
  simp only [Cursor.pos, Cursor.round] at hAnswered
  omega

/- A poll hit is preceded by the store it waited for. -/
theorem stored_of_sample
    (hHeld : Held cur sample m slot)
    (hSample : sample = (cur m.reader).sample) :
    16 * (cur m.reader).round + m.storePc + 1 ≤
      (cur m.writer).pos := by
  have hFresh := hHeld.fresh
  have hStored := hHeld.stored
  simp only [Cursor.round]
  omega

end Held

namespace SlotsOk

variable {cur : Role → Cursor}
variable {slots : Nat → Message → Slot}

/- Cleared slots are in order. -/
theorem start :
    SlotsOk (fun r => (PairState.start.party r).cursor)
      PairState.start.slots where
  held := by
    intro i m hUsed
    exact absurd rfl hUsed
  emptied := by
    intro i m _ _
    exact Or.inl rfl

/-
  A forward move keeps the slots in order if the mover finds
  no message of a launch it has left, and the slots it has
  newly cleared are empty.
-/
theorem move
    (hSlots : SlotsOk cur slots)
    {role : Role}
    {c : Cursor}
    (hForward : (cur role).pos ≤ c.pos)
    (hFresh :
      ∀ (i : Nat) (m : Message),
        m.reader = role →
        (slots i m).tag ≠ 0 →
          c.launch ≤ (slots i m).launch)
    (hEmptied :
      ∀ (i : Nat) (m : Message),
        m.reader = role →
        c.exhausted = false →
        c.Emptied m i →
          (slots i m).tag = 0 ∨
            c.launch < (slots i m).launch) :
    SlotsOk (moveCursor cur role c) slots where
  held := by
    intro i m hUsed
    apply (hSlots.held i m hUsed).move hForward
    intro hReader
    exact hFresh i m hReader hUsed
  emptied := by
    intro i m hLive hCleared
    by_cases hReader : m.reader = role
    · rw [hReader, moveCursor_self] at hLive hCleared
      rw [hReader, moveCursor_self]
      exact hEmptied i m hReader hLive hCleared
    · rw [moveCursor_of_ne cur c hReader] at hLive hCleared
      rw [moveCursor_of_ne cur c hReader]
      exact hSlots.emptied i m hLive hCleared

/- A move inside a launch that clears no further slot. -/
theorem move_within
    (hSlots : SlotsOk cur slots)
    {role : Role}
    {c : Cursor}
    (hForward : (cur role).pos ≤ c.pos)
    (hLaunch : c.launch = (cur role).launch)
    (hEmptied :
      ∀ (i : Nat) (m : Message),
        m.reader = role →
        c.exhausted = false →
        c.Emptied m i →
          (slots i m).tag = 0 ∨
            ((cur role).exhausted = false ∧
              (cur role).Emptied m i)) :
    SlotsOk (moveCursor cur role c) slots := by
  apply hSlots.move hForward
  · intro i m hReader hUsed
    have hFresh := (hSlots.held i m hUsed).fresh
    rw [hReader] at hFresh
    omega
  · intro i m hReader hLive hCleared
    rcases hEmptied i m hReader hLive hCleared with
      hZero | ⟨hWas, hBefore⟩
    · exact Or.inl hZero
    · rw [← hReader] at hWas hBefore
      rcases hSlots.emptied i m hWas hBefore with
        hZero | hLater
      · exact Or.inl hZero
      · rw [hReader] at hLater
        exact Or.inr (by omega)

/-
  Falling through keeps the slots in order if a slot whose
  clear has just been passed is empty.
-/
theorem advance
    (hSlots : SlotsOk cur slots)
    {role : Role}
    (hCleared :
      ∀ m : Message,
        m.reader = role →
        (cur role).pc = m.clearPc →
          (slots (cur role).sample m).tag = 0) :
    SlotsOk (moveCursor cur role (cur role).advance)
      slots := by
  apply hSlots.move_within
  · simp only [Cursor.pos, Cursor.round, Cursor.advance]
    omega
  · rfl
  · intro i m hReader hLive hEmptied
    rcases hEmptied with hEarlier | ⟨hSame, hAfter⟩
    · exact Or.inr ⟨hLive, Or.inl hEarlier⟩
    · by_cases hAt : (cur role).pc = m.clearPc
      · left
        have hZero := hCleared m hReader hAt
        simp only [Cursor.advance] at hSame
        rw [hSame]
        exact hZero
      · simp only [Cursor.advance] at hAfter
        exact Or.inr ⟨hLive, Or.inr ⟨hSame, by omega⟩⟩

/- Giving up a poll loop keeps the slots in order. -/
theorem exhaust
    (hSlots : SlotsOk cur slots)
    {role : Role}
    (hPath : (cur role).pc < role.syncLocal) :
    SlotsOk (moveCursor cur role ((cur role).exhaust role))
      slots := by
  apply hSlots.move_within
  · simp only [Cursor.pos, Cursor.round, Cursor.exhaust]
    omega
  · rfl
  · intro _ _ _ hLive _
    exact absurd hLive (by simp [Cursor.exhaust])

/- The end of a sample keeps the slots in order. -/
theorem leaveSample
    (hSlots : SlotsOk cur slots)
    {role : Role}
    (hSync : (cur role).pc = role.syncLocal) :
    SlotsOk (moveCursor cur role (cur role).leaveSample)
      slots := by
  have hRole : role.syncLocal ≤ 14 := by
    cases role <;> decide
  -- At the end of its path a side has cleared all it reads.
  have hHere :
      ∀ m : Message, m.reader = role →
        ∀ i, i ≤ (cur role).sample →
          (cur role).Emptied m i := by
    intro m hReader i hLe
    have hClear := m.clearPc_lt_syncLocal
    rw [hReader] at hClear
    rcases Nat.lt_or_eq_of_le hLe with hLess | hEq
    · exact Or.inl hLess
    · exact Or.inr ⟨hEq, by omega⟩
  unfold Cursor.leaveSample
  split
  · apply hSlots.move_within
    · simp only [Cursor.pos, Cursor.round]
      omega
    · rfl
    · intro i m hReader hLive hEmptied
      rcases hEmptied with hEarlier | ⟨_, hAfter⟩
      · exact Or.inr
          ⟨hLive, hHere m hReader i (Nat.lt_succ_iff.mp hEarlier)⟩
      · exact absurd hAfter (Nat.not_lt_zero _)
  · apply hSlots.move_within
    · simp only [Cursor.pos, Cursor.round]
      omega
    · rfl
    · intro i m hReader hLive hEmptied
      rcases hEmptied with hEarlier | ⟨hSame, _⟩
      · exact Or.inr
          ⟨hLive, hHere m hReader i (Nat.le_of_lt hEarlier)⟩
      · exact Or.inr
          ⟨hLive, hHere m hReader i (Nat.le_of_eq hSame)⟩

/-
  A side without timeouts finds no message of the launch it
  leaves when it starts the next one.
-/
theorem relaunch
    (hSlots : SlotsOk cur slots)
    {role : Role}
    (hOver : (cur role).pc = role.syncLocal + 1)
    (hLast : (cur role).sample = 19)
    (hLive : (cur role).exhausted = false) :
    SlotsOk (moveCursor cur role (cur role).relaunch)
      slots := by
  have hRole : role.syncLocal ≤ 14 := by
    cases role <;> decide
  apply hSlots.move
  · simp only [Cursor.pos, Cursor.round, Cursor.relaunch]
    omega
  · intro i m hReader hUsed
    have hSample := (hSlots.held i m hUsed).sample_lt
    have hClear := m.clearPc_lt_syncLocal
    have hEmptied : (cur m.reader).Emptied m i := by
      rw [hReader] at hClear ⊢
      rcases Nat.lt_or_eq_of_le (Nat.lt_succ_iff.mp hSample)
        with hLess | hEq
      · exact Or.inl (by omega)
      · exact Or.inr ⟨by omega, by omega⟩
    rw [← hReader] at hLive
    rcases hSlots.emptied i m hLive hEmptied with hZero | hLater
    · exact absurd hZero hUsed
    · rw [hReader] at hLater
      exact hLater
  · intro i m _ _ hEmptied
    rcases hEmptied with hEarlier | ⟨_, hAfter⟩
    · exact absurd hEarlier (Nat.not_lt_zero _)
    · exact absurd hAfter (Nat.not_lt_zero _)

/- A write keeps the slots in order if the new slot is. -/
theorem set
    (hSlots : SlotsOk cur slots)
    {sample : Nat}
    {m : Message}
    {slot : Slot}
    (hHeld : slot.tag ≠ 0 → Held cur sample m slot)
    (hEmptied :
      (cur m.reader).exhausted = false →
      (cur m.reader).Emptied m sample →
        slot.tag = 0 ∨ (cur m.reader).launch < slot.launch) :
    SlotsOk cur
      (fun i n =>
        if i = sample ∧ n = m then slot else slots i n) where
  held := by
    intro i n hUsed
    by_cases hHere : i = sample ∧ n = m
    · rw [if_pos hHere] at hUsed ⊢
      rw [hHere.1, hHere.2]
      exact hHeld hUsed
    · rw [if_neg hHere] at hUsed ⊢
      exact hSlots.held i n hUsed
  emptied := by
    intro i n hLive hCleared
    by_cases hHere : i = sample ∧ n = m
    · rw [if_pos hHere]
      rw [hHere.2] at hLive hCleared ⊢
      rw [hHere.1] at hCleared
      exact hEmptied hLive hCleared
    · rw [if_neg hHere]
      exact hSlots.emptied i n hLive hCleared

/- Clearing a slot keeps the slots in order. -/
theorem clear
    (hSlots : SlotsOk cur slots)
    (sample : Nat)
    (m : Message) :
    SlotsOk cur
      (fun i n =>
        if i = sample ∧ n = m then Slot.cleared
          else slots i n) :=
  hSlots.set (fun hUsed => absurd rfl hUsed)
    (fun _ _ => Or.inl rfl)

/- Marking a slot as accepted keeps the slots in order. -/
theorem mark
    (hSlots : SlotsOk cur slots)
    (sample : Nat)
    (m : Message) :
    SlotsOk cur
      (fun i n =>
        if i = sample ∧ n = m then
          { slots sample m with accepted := true }
        else
          slots i n) :=
  hSlots.set
    (fun hUsed => (hSlots.held sample m hUsed).mark)
    (fun hLive hCleared =>
      hSlots.emptied sample m hLive hCleared)

/-
  A store by a side on its path: the new message is of the
  launch the side is in, its reader is not past that launch,
  and a reader that has cleared the slot did so in an
  earlier launch.
-/
theorem store
    (hSlots : SlotsOk cur slots)
    (hLine : Timeline cur)
    (m : Message)
    (slot : Slot)
    (hPc : (cur m.writer).pc = m.storePc)
    (hAccepts : m.accepts slot.tag = true)
    (hLaunch : slot.launch = (cur m.writer).launch) :
    SlotsOk
      (moveCursor cur m.writer (cur m.writer).advance)
      (fun i n =>
        if i = (cur m.writer).sample ∧ n = m then slot
          else slots i n) := by
  have hReaderNe := m.reader_ne_writer
  have hOnPath := m.storePc_lt_syncLocal
  -- The action at the clearing counter would be a clear.
  have hMoved :
      SlotsOk (moveCursor cur m.writer (cur m.writer).advance)
        slots := by
    apply hSlots.advance
    intro n hReader hAt
    exfalso
    cases m <;> cases n <;>
      simp_all [Message.writer, Message.reader, Role.other,
        Message.storePc, Message.clearPc]
  have hBehind := hLine.behind m
  have hWriterPos :
      (cur m.writer).pos =
        16 * (cur m.writer).round + m.storePc := by
    rw [Cursor.pos, hPc]
  apply hMoved.set
  · intro _
    refine
      { sample_lt := hLine.sample_lt m.writer
        accepts := hAccepts
        stored := ?_
        fresh := ?_
        answered := ?_ }
    · rw [moveCursor_self, hLaunch]
      simp only [Cursor.pos, Cursor.round, Cursor.advance]
      omega
    · rw [moveCursor_of_ne cur _ hReaderNe, hLaunch]
      by_contra hAhead
      have hLast :
          (cur m.reader).Passed m
            (20 * (cur m.reader).launch - 1) :=
        Or.inr (Or.inr (by omega))
      have hPast := hBehind _ hLast
      have hSample := hLine.sample_lt m.writer
      rw [hWriterPos] at hPast
      simp only [Cursor.round] at hPast
      omega
    · intro hFirst
      rcases Message.exists_answered hFirst with
        ⟨m', hReader, hWriter, hEarlier⟩
      have hPassed :
          (cur m'.reader).Passed m' (cur m'.reader).round := by
        refine Or.inl ⟨?_, Or.inl ?_, rfl⟩
        · rw [hReader, hPc]
          exact hEarlier
        · rw [hReader, hPc]
          exact hOnPath
      have hPast := hLine.behind m' _ hPassed
      rw [hReader, hWriter] at hPast
      rw [moveCursor_of_ne cur _ hReaderNe, hLaunch]
      simp only [Cursor.round] at hPast
      omega
  · intro hLive hCleared
    right
    rw [moveCursor_of_ne cur _ hReaderNe] at hLive hCleared ⊢
    rw [hLaunch]
    rcases hCleared with hEarlier | ⟨hSame, hAfter⟩
    · have hPassed :
          (cur m.reader).Passed m
            ((cur m.reader).round - 1) :=
        Or.inr (Or.inl ⟨hLive, by
          simp only [Cursor.round]
          omega⟩)
      have hPast := hBehind _ hPassed
      rw [hWriterPos] at hPast
      simp only [Cursor.round] at hPast
      omega
    · have hWait := m.waitPc_lt_clearPc
      have hPassed :
          (cur m.reader).Passed m (cur m.reader).round :=
        Or.inl ⟨by omega, Or.inr hLive, rfl⟩
      have hPast := hBehind _ hPassed
      rw [hWriterPos] at hPast
      simp only [Cursor.round] at hPast
      omega

end SlotsOk

end Ptp

end FabricPerf
