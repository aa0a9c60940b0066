import FabricPerf.Ptp.Actions

/-
  How far the two sides of a pair can be apart.

  `Timeline` relates the cursors alone: a side that has
  passed a wait without exhausting its polls is preceded by
  the store it waited for, in the same launch and sample.
  Positions count the actions of all samples on one line, so
  every fact is linear arithmetic.

  Main declarations:
    * `Ptp.Timeline`
    * `Ptp.Timeline.advance`
    * `Ptp.Timeline.exhaust`
    * `Ptp.Timeline.leaveSample`
    * `Ptp.Timeline.relaunch`
-/

------------------------------------------------------------
-- Positions
------------------------------------------------------------

namespace FabricPerf

namespace Ptp

namespace Cursor

/- The samples a side has started before this one. -/
def round (c : Cursor) : Nat :=
  20 * c.launch + c.sample

/- The position of a side among the actions of all samples. -/
def pos (c : Cursor) : Nat :=
  16 * c.round + c.pc

end Cursor

/-
  The rounds in which a side has got past its wait for `m`:
  its current one if it is past the wait and has not timed
  out, the one before unless it has ever timed out, and the
  last round of the launch before.
-/
def Cursor.Passed (c : Cursor) (m : Message) (round : Nat) :
    Prop :=
  (m.waitPc < c.pc ∧
      (c.pc < m.reader.syncLocal ∨ c.exhausted = false) ∧
      round = c.round) ∨
    (c.exhausted = false ∧ round + 1 = c.round) ∨
    round + 1 = 20 * c.launch

/-
  What the cursors of a pair satisfy when no side that has
  exhausted a poll loop starts another launch: a side that
  is past a wait is preceded by the store it waited for.
-/
structure Timeline (cur : Role → Cursor) : Prop where
  sample_lt : ∀ r, (cur r).sample < 20
  pc_le : ∀ r, (cur r).pc ≤ r.syncLocal + 1
  finished :
    ∀ r, (cur r).pc = r.syncLocal + 1 → (cur r).sample = 19
  behind :
    ∀ (m : Message) (round : Nat),
      (cur m.reader).Passed m round →
        16 * round + m.storePc + 1 ≤ (cur m.writer).pos

/- Replace the cursor of one side. -/
def moveCursor
    (cur : Role → Cursor)
    (role : Role)
    (c : Cursor) : Role → Cursor :=
  fun r => if r = role then c else cur r

@[simp] theorem moveCursor_self
    (cur : Role → Cursor) (role : Role) (c : Cursor) :
    moveCursor cur role c role = c := by
  simp [moveCursor]

theorem moveCursor_of_ne
    (cur : Role → Cursor)
    (c : Cursor)
    {role r : Role}
    (hNe : r ≠ role) :
    moveCursor cur role c r = cur r := by
  simp [moveCursor, hNe]

namespace Timeline

variable {cur : Role → Cursor}

/- Both sides start at the first action. -/
theorem start :
    Timeline (fun r => (PairState.start.party r).cursor) where
  sample_lt := by
    intro r
    simp [PairState.start, Party.start]
  pc_le := by
    intro r
    simp [PairState.start, Party.start]
  finished := by
    intro r hPc
    simp [PairState.start, Party.start] at hPc
  behind := by
    intro m round hPassed
    simp [PairState.start, Party.start, Cursor.Passed,
      Cursor.round] at hPassed

/-
  A forward move keeps the timeline if every round the mover
  has newly passed was already stored by the peer.
-/
theorem move
    (hLine : Timeline cur)
    {role : Role}
    {c : Cursor}
    (hForward : (cur role).pos ≤ c.pos)
    (hSample : c.sample < 20)
    (hPc : c.pc ≤ role.syncLocal + 1)
    (hFinished : c.pc = role.syncLocal + 1 → c.sample = 19)
    (hBehind :
      ∀ (m : Message) (round : Nat),
        m.reader = role →
        c.Passed m round →
        (cur role).Passed m round ∨
          16 * round + m.storePc + 1 ≤ (cur m.writer).pos) :
    Timeline (moveCursor cur role c) where
  sample_lt := by
    intro r
    by_cases hRole : r = role
    · subst hRole
      simpa using hSample
    · simpa [moveCursor_of_ne cur c hRole] using
        hLine.sample_lt r
  pc_le := by
    intro r
    by_cases hRole : r = role
    · subst hRole
      simpa using hPc
    · simpa [moveCursor_of_ne cur c hRole] using
        hLine.pc_le r
  finished := by
    intro r
    by_cases hRole : r = role
    · subst hRole
      simpa using hFinished
    · simpa [moveCursor_of_ne cur c hRole] using
        hLine.finished r
  behind := by
    intro m round hPassed
    by_cases hReader : m.reader = role
    · have hWriter : m.writer ≠ role :=
        fun hEq => m.reader_ne_writer (hReader.trans hEq.symm)
      rw [hReader, moveCursor_self] at hPassed
      rw [moveCursor_of_ne cur c hWriter]
      rcases hBehind m round hReader hPassed with hOld | hNew
      · rw [← hReader] at hOld
        exact hLine.behind m round hOld
      · exact hNew
    · have hWriter := Message.writer_eq_of_reader_ne hReader
      rw [moveCursor_of_ne cur c hReader] at hPassed
      have hBefore := hLine.behind m round hPassed
      rw [hWriter] at hBefore ⊢
      rw [moveCursor_self]
      exact hBefore.trans hForward

/-
  Falling through to the next action keeps the timeline; a
  side that leaves a wait must be preceded by the store.
-/
theorem advance
    (hLine : Timeline cur)
    {role : Role}
    (hPath : (cur role).pc < role.syncLocal)
    (hWait :
      ∀ m : Message,
        m.reader = role →
        (cur role).pc = m.waitPc →
        16 * (cur role).round + m.storePc + 1 ≤
          (cur m.writer).pos) :
    Timeline (moveCursor cur role (cur role).advance) := by
  have hRound : (cur role).advance.round = (cur role).round :=
    rfl
  have hPc : (cur role).advance.pc = (cur role).pc + 1 := rfl
  apply hLine.move
  · unfold Cursor.pos
    omega
  · exact hLine.sample_lt role
  · omega
  · omega
  · intro m round hReader hPassed
    rcases hPassed with ⟨hAfter, _, hHere⟩ | hEarlier | hLaunch
    · by_cases hAt : (cur role).pc = m.waitPc
      · right
        rw [hHere, hRound]
        exact hWait m hReader hAt
      · left
        left
        rw [hReader]
        exact ⟨by omega, Or.inl hPath, hHere⟩
    · exact Or.inl (Or.inr (Or.inl hEarlier))
    · exact Or.inl (Or.inr (Or.inr hLaunch))

/- Giving up a poll loop keeps the timeline. -/
theorem exhaust
    (hLine : Timeline cur)
    {role : Role}
    (hPath : (cur role).pc < role.syncLocal) :
    Timeline
      (moveCursor cur role ((cur role).exhaust role)) := by
  have hRound :
      ((cur role).exhaust role).round = (cur role).round :=
    rfl
  have hPc :
      ((cur role).exhaust role).pc = role.syncLocal := rfl
  apply hLine.move
  · unfold Cursor.pos
    omega
  · exact hLine.sample_lt role
  · omega
  · omega
  · intro m round hReader hPassed
    rcases hPassed with ⟨_, hLive, _⟩ | ⟨hLive, _⟩ | hLaunch
    · rcases hLive with hBefore | hNever
      · rw [hReader] at hBefore
        omega
      · exact absurd hNever (by simp [Cursor.exhaust])
    · exact absurd hLive (by simp [Cursor.exhaust])
    · exact Or.inl (Or.inr (Or.inr hLaunch))

/- The end of a sample keeps the timeline. -/
theorem leaveSample
    (hLine : Timeline cur)
    {role : Role}
    (hSync : (cur role).pc = role.syncLocal) :
    Timeline (moveCursor cur role (cur role).leaveSample) := by
  have hBound := hLine.sample_lt role
  -- A side that never timed out has passed all its waits here.
  have hHere :
      ∀ m : Message, m.reader = role →
        (cur role).exhausted = false →
          (cur role).Passed m (cur role).round := by
    intro m hReader hLive
    have hWait := m.waitPc_lt_syncLocal
    rw [hReader] at hWait
    exact Or.inl ⟨by omega, Or.inr hLive, rfl⟩
  unfold Cursor.leaveSample
  split
  · rename_i hNext
    unfold samples at hNext
    apply hLine.move
    · simp only [Cursor.pos, Cursor.round]
      have hRole : role.syncLocal ≤ 14 := by
        cases role <;> decide
      omega
    · exact hNext
    · exact Nat.zero_le _
    · intro hPc
      exact absurd hPc (by simp)
    · intro m round hReader hPassed
      rcases hPassed with ⟨hAfter, _⟩ | ⟨hLive, hStep⟩ | hLaunch
      · exact absurd hAfter (Nat.not_lt_zero _)
      · left
        have hSame : round = (cur role).round := by
          simp only [Cursor.round] at hStep ⊢
          omega
        rw [hSame]
        exact hHere m hReader hLive
      · exact Or.inl (Or.inr (Or.inr hLaunch))
  · rename_i hLast
    unfold samples at hLast
    apply hLine.move
    · simp only [Cursor.pos, Cursor.round]
      omega
    · exact hBound
    · simp only
      omega
    · intro _
      simp only
      omega
    · intro m round hReader hPassed
      rcases hPassed with
        ⟨_, hLive, hSame⟩ | hEarlier | hLaunch
      · left
        rcases hLive with hBefore | hNever
        · rw [hReader] at hBefore
          simp only at hBefore
          omega
        · rw [hSame]
          exact hHere m hReader hNever
      · exact Or.inl (Or.inr (Or.inl hEarlier))
      · exact Or.inl (Or.inr (Or.inr hLaunch))

/-
  A side that never timed out may start another launch.
-/
theorem relaunch
    (hLine : Timeline cur)
    {role : Role}
    (hOver : (cur role).pc = role.syncLocal + 1)
    (hLive : (cur role).exhausted = false) :
    Timeline (moveCursor cur role (cur role).relaunch) := by
  have hSample := hLine.finished role hOver
  apply hLine.move
  · simp only [Cursor.pos, Cursor.round, Cursor.relaunch]
    have hRole : role.syncLocal ≤ 14 := by
      cases role <;> decide
    omega
  · simp [Cursor.relaunch]
  · simp [Cursor.relaunch]
  · intro hPc
    simp [Cursor.relaunch] at hPc
  · intro m round hReader hPassed
    have hWait := m.waitPc_lt_syncLocal
    rw [hReader] at hWait
    have hSame :
        round = (cur role).round := by
      rcases hPassed with ⟨hAfter, _⟩ | ⟨_, hStep⟩ | hStep
      · simp [Cursor.relaunch] at hAfter
      · simp only [Cursor.round, Cursor.relaunch] at hStep ⊢
        omega
      · simp only [Cursor.round, Cursor.relaunch] at hStep ⊢
        omega
    left
    left
    exact ⟨by omega, Or.inr hLive, hSame⟩

end Timeline

end Ptp

end FabricPerf
