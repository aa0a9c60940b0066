import FabricPerf.Ptp.Handshake

/-
  What one action of a pair can do.

  The program counters at which a message is stored, awaited
  and cleared are read off `Ptp.path`, and `Ptp.Effect` lists
  the ten ways a state can change.

  Main declarations:
    * `Ptp.path_store`, `Ptp.path_wait`, `Ptp.path_clear`
    * `Ptp.Effect`
    * `Ptp.effect_act`
-/

------------------------------------------------------------
-- Program Counters Of The Messages
------------------------------------------------------------

namespace FabricPerf

namespace Ptp

namespace Message

/- The program counter of the store of a message. -/
def storePc : Message → Nat
| .connreq => 0
| .sync => 2
| .followup => 3
| .delayresp => 5
| .connresp => 1
| .delayreq => 4
| .report => 7

/- The program counter of the wait for a message. -/
def waitPc : Message → Nat
| .connreq => 0
| .sync => 2
| .followup => 3
| .delayresp => 6
| .connresp => 1
| .delayreq => 4
| .report => 6

/- The program counter of the clearing store of a slot. -/
def clearPc : Message → Nat
| .connreq => 10
| .sync => 11
| .followup => 12
| .delayresp => 13
| .connresp => 9
| .delayreq => 10
| .report => 11

end Message

/- A path entry lies before the local synchronisation. -/
theorem lt_syncLocal_of_path
    {role : Role}
    {pc : Nat}
    {op : Op}
    (hOp : (path role)[pc]? = some op) :
    pc < role.syncLocal := by
  have hLength := (List.getElem?_eq_some_iff.mp hOp).1
  cases role <;> simpa [path, Role.syncLocal] using hLength

/- Past the path, a side synchronises or is done. -/
theorem syncLocal_le_of_path
    {role : Role}
    {pc : Nat}
    (hOp : (path role)[pc]? = none) :
    role.syncLocal ≤ pc := by
  have hLength := List.getElem?_eq_none_iff.mp hOp
  cases role <;> simpa [path, Role.syncLocal] using hLength

/- The stores of a path are those of the side's messages. -/
theorem path_store
    {role : Role}
    {pc : Nat}
    {m : Message}
    (hOp : (path role)[pc]? = some (.store m)) :
    m.writer = role ∧ pc = m.storePc := by
  have hLess := lt_syncLocal_of_path hOp
  cases role <;> simp only [Role.syncLocal] at hLess <;>
    interval_cases pc <;> simp [path] at hOp <;>
    subst hOp <;> exact ⟨rfl, rfl⟩

/- The waits of a path are for the messages it reads. -/
theorem path_wait
    {role : Role}
    {pc : Nat}
    {m : Message}
    (hOp : (path role)[pc]? = some (.wait m)) :
    m.reader = role ∧ pc = m.waitPc := by
  have hLess := lt_syncLocal_of_path hOp
  cases role <;> simp only [Role.syncLocal] at hLess <;>
    interval_cases pc <;> simp [path] at hOp <;>
    subst hOp <;> exact ⟨rfl, rfl⟩

/- Every wait of a path stands at the message's counter. -/
theorem path_waitPc (m : Message) :
    (path m.reader)[m.waitPc]? = some (.wait m) := by
  cases m <;> rfl

/- The clears of a path are those of the slots it reads. -/
theorem path_clear
    {role : Role}
    {pc : Nat}
    {m : Message}
    (hOp : (path role)[pc]? = some (.clear m)) :
    m.reader = role ∧ pc = m.clearPc := by
  have hLess := lt_syncLocal_of_path hOp
  cases role <;> simp only [Role.syncLocal] at hLess <;>
    interval_cases pc <;> simp [path] at hOp <;>
    subst hOp <;> exact ⟨rfl, rfl⟩

/- Every clear of a path stands at the message's counter. -/
theorem path_clearPc (m : Message) :
    (path m.reader)[m.clearPc]? = some (.clear m) := by
  cases m <;> rfl

/- Where the three local actions of a path stand. -/
theorem path_local
    {role : Role}
    {pc : Nat} :
    ((path role)[pc]? = some .readDelayreqTime →
      role = .follower ∧ pc = 5) ∧
    ((path role)[pc]? = some .storeOffset →
      (role = .leader ∧ pc = 7) ∨
        (role = .follower ∧ pc = 8)) ∧
    ((path role)[pc]? = some .storeRow →
      (role = .leader ∧ pc = 8) ∨
        (role = .follower ∧ pc = 9)) := by
  refine ⟨?_, ?_, ?_⟩ <;> intro hOp <;>
    have hLess := lt_syncLocal_of_path hOp <;>
    cases role <;> simp only [Role.syncLocal] at hLess <;>
    interval_cases pc <;> simp [path] at hOp ⊢

theorem Role.other_ne (role : Role) : role.other ≠ role := by
  cases role <;> decide

theorem Role.eq_other_of_ne
    {role role' : Role}
    (hNe : role' ≠ role) :
    role' = role.other := by
  cases role <;> cases role' <;> first | rfl | exact absurd rfl hNe

namespace Message

/- The reader of a message is not its writer. -/
theorem reader_ne_writer (m : Message) :
    m.reader ≠ m.writer :=
  m.writer.other_ne

/- With two sides, who does not read a message writes it. -/
theorem writer_eq_of_reader_ne
    {m : Message}
    {role : Role}
    (hReader : m.reader ≠ role) :
    m.writer = role := by
  have hRole := Role.eq_other_of_ne hReader.symm
  rw [hRole]
  cases m <;> rfl

/- Every wait stands on its side's path. -/
theorem waitPc_lt_syncLocal (m : Message) :
    m.waitPc < m.reader.syncLocal := by
  cases m <;> decide

end Message

/- Every wait comes before the clear of its slot. -/
theorem Message.waitPc_lt_clearPc (m : Message) :
    m.waitPc < m.clearPc := by
  cases m <;> decide

/- Every clear stands on its side's path. -/
theorem Message.clearPc_lt_syncLocal (m : Message) :
    m.clearPc < m.reader.syncLocal := by
  cases m <;> decide

/- Every store stands on its side's path. -/
theorem Message.storePc_lt_syncLocal (m : Message) :
    m.storePc < m.writer.syncLocal := by
  cases m <;> decide

/- Every message but the first answers an earlier one. -/
theorem Message.exists_answered
    {m : Message}
    (hFirst : m ≠ .connreq) :
    ∃ m' : Message,
      m'.reader = m.writer ∧ m'.writer = m.reader ∧
        m'.waitPc < m.storePc := by
  cases m with
  | connreq => exact absurd rfl hFirst
  | sync => exact ⟨.connresp, rfl, rfl, by decide⟩
  | followup => exact ⟨.connresp, rfl, rfl, by decide⟩
  | delayresp => exact ⟨.connresp, rfl, rfl, by decide⟩
  | connresp => exact ⟨.connreq, rfl, rfl, by decide⟩
  | delayreq => exact ⟨.connreq, rfl, rfl, by decide⟩
  | report => exact ⟨.connreq, rfl, rfl, by decide⟩

------------------------------------------------------------
-- Replaced Sides And Slots
------------------------------------------------------------

namespace PairState

/- The side that does not act stays as it is. -/
theorem party_setParty_of_ne
    (s : PairState)
    (p : Party)
    {role r : Role}
    (hNe : r ≠ role) :
    (s.setParty role p).party r = s.party r := by
  simp [setParty, hNe]

@[simp] theorem party_setParty_self
    (s : PairState)
    (role : Role)
    (p : Party) :
    (s.setParty role p).party role = p := by
  simp [setParty]

@[simp] theorem party_setSlot
    (s : PairState)
    (sample : Nat)
    (m : Message)
    (slot : Slot) :
    (s.setSlot sample m slot).party = s.party := rfl

/- The last of two replacements counts. -/
theorem setParty_setParty
    (s : PairState)
    (role : Role)
    (p q : Party) :
    (s.setParty role p).setParty role q =
      s.setParty role q := by
  have hParty :
      ((s.setParty role p).setParty role q).party =
        (s.setParty role q).party := by
    funext r
    by_cases hRole : r = role
    · rw [hRole, party_setParty_self, party_setParty_self]
    · rw [party_setParty_of_ne _ _ hRole,
        party_setParty_of_ne _ _ hRole,
        party_setParty_of_ne _ _ hRole]
  exact PairState.ext hParty rfl

/- Replacing a side by itself changes nothing. -/
theorem setParty_self
    (s : PairState)
    (role : Role) :
    s.setParty role (s.party role) = s := by
  have hParty :
      (s.setParty role (s.party role)).party = s.party := by
    funext r
    by_cases hRole : r = role
    · rw [hRole, party_setParty_self]
    · exact party_setParty_of_ne _ _ hRole
  exact PairState.ext hParty rfl

end PairState

------------------------------------------------------------
-- Effects Of An Action
------------------------------------------------------------

/- The operation a side performs next. -/
def PairState.op (s : PairState) (role : Role) : Option Op :=
  (path role)[(s.party role).cursor.pc]?

/- The slot of the sample a side is in. -/
def PairState.slot
    (s : PairState)
    (role : Role)
    (m : Message) : Slot :=
  s.slots (s.party role).cursor.sample m

/- The message a side stores at the given clock value. -/
def PairState.outgoing
    (pair : Pair)
    (s : PairState)
    (a : Action)
    (m : Message) : Slot :=
  (s.party a.role).outgoing (pair.hostId a.role)
    (BitVec.ofNat 32 (pair.rank a.role))
    (BitVec.ofNat 32 (pair.ctaid a.role)) a.time m

/- The ways one action can change the state of a pair. -/
inductive Effect
    (pair : Pair)
    (s : PairState)
    (a : Action) : PairState → Prop where
| store
    (m : Message)
    (hOp : s.op a.role = some (.store m)) :
    Effect pair s a
      ((s.setParty a.role
        { (s.party a.role).advance with
          reports :=
            if m = .report then
              (s.party a.role).reports ++
                [(s.party a.role).entry 0
                  (s.outgoing pair a m).data]
            else
              (s.party a.role).reports }).setSlot
        (s.party a.role).cursor.sample m
        (s.outgoing pair a m))
| accept
    (m : Message)
    (hOp : s.op a.role = some (.wait m))
    (hHit : m.accepts (s.slot a.role m).tag = true) :
    Effect pair s a
      ((s.setParty a.role
        { (s.party a.role).advance with
          regs :=
            (s.party a.role).received a.time
              (s.slot a.role m) m }).setSlot
        (s.party a.role).cursor.sample m
        { s.slot a.role m with accepted := true })
| miss
    (m : Message)
    (hOp : s.op a.role = some (.wait m))
    (hMiss : m.accepts (s.slot a.role m).tag = false)
    (hBound : (s.party a.role).polls + 1 < pollBound) :
    Effect pair s a
      (s.setParty a.role
        { s.party a.role with
          polls := (s.party a.role).polls + 1 })
| exhaust
    (m : Message)
    (hOp : s.op a.role = some (.wait m))
    (hMiss : m.accepts (s.slot a.role m).tag = false)
    (hBound : ¬ (s.party a.role).polls + 1 < pollBound) :
    Effect pair s a
      (s.setParty a.role
        { s.party a.role with
          cursor := (s.party a.role).cursor.exhaust a.role
          polls := 0 })
| readDelayreqTime
    (hOp : s.op a.role = some .readDelayreqTime) :
    Effect pair s a
      (s.setParty a.role
        { (s.party a.role).advance with
          regs :=
            { (s.party a.role).regs with
              delayreqTime :=
                (s.party a.role).clock .delayRequest
                  a.time } })
| storeOffset
    (hOp : s.op a.role = some .storeOffset) :
    Effect pair s a
      (s.setParty a.role
        { (s.party a.role).advance with
          offsets :=
            (s.party a.role).offsets ++
              [(s.party a.role).entry (pair.peer a.role)
                ((s.party a.role).offsetWord a.role)] })
| storeRow
    (hOp : s.op a.role = some .storeRow) :
    Effect pair s a
      (s.setParty a.role
        { (s.party a.role).advance with
          rows :=
            (s.party a.role).rows ++
              [(s.party a.role).row pair a.role] })
| clear
    (m : Message)
    (hOp : s.op a.role = some (.clear m)) :
    Effect pair s a
      ((s.setParty a.role (s.party a.role).advance).setSlot
        (s.party a.role).cursor.sample m Slot.cleared)
| leaveSample
    (hSync : (s.party a.role).cursor.pc = a.role.syncLocal) :
    Effect pair s a
      (s.setParty a.role
        { s.party a.role with
          cursor := (s.party a.role).cursor.leaveSample })
| relaunch
    (hOver : a.role.syncLocal < (s.party a.role).cursor.pc) :
    Effect pair s a
      (s.setParty a.role
        { s.party a.role with
          cursor := (s.party a.role).cursor.relaunch })

/- Every action has one of the listed effects. -/
theorem effect_act
    (pair : Pair)
    (s : PairState)
    (a : Action) :
    Effect pair s a (s.act pair a) := by
  cases hOp : s.op a.role with
  | none =>
      have hPast := syncLocal_le_of_path hOp
      unfold PairState.op at hOp
      by_cases hSync :
          (s.party a.role).cursor.pc = a.role.syncLocal
      · have hAct :
            s.act pair a =
              s.setParty a.role
                { s.party a.role with
                  cursor :=
                    (s.party a.role).cursor.leaveSample } := by
          simp only [PairState.act, Party.step, hOp]
          rw [if_pos hSync]
          rfl
        rw [hAct]
        exact Effect.leaveSample hSync
      · have hAct :
            s.act pair a =
              s.setParty a.role
                { s.party a.role with
                  cursor :=
                    (s.party a.role).cursor.relaunch } := by
          simp only [PairState.act, Party.step, hOp]
          rw [if_neg hSync]
          rfl
        rw [hAct]
        exact Effect.relaunch
          (lt_of_le_of_ne hPast (Ne.symm hSync))
  | some op =>
      have hHere := hOp
      unfold PairState.op at hHere
      simp only [PairState.act, Party.step, hHere]
      cases op with
      | store m =>
          exact Effect.store m hOp
      | wait m =>
          by_cases hHit :
              m.accepts (s.slot a.role m).tag = true
          · have hEffect : Effect pair s a _ :=
              Effect.accept m hOp hHit
            unfold PairState.slot at hHit hEffect
            simp only [if_pos hHit]
            exact hEffect
          · have hMiss := Bool.eq_false_iff.mpr hHit
            unfold PairState.slot at hHit
            simp only [if_neg hHit]
            by_cases hBound :
                (s.party a.role).polls + 1 < pollBound
            · simp only [if_pos hBound]
              exact Effect.miss m hOp hMiss hBound
            · simp only [if_neg hBound]
              exact Effect.exhaust m hOp hMiss hBound
      | readDelayreqTime =>
          exact Effect.readDelayreqTime hOp
      | storeOffset =>
          exact Effect.storeOffset hOp
      | storeRow =>
          exact Effect.storeRow hOp
      | clear m =>
          exact Effect.clear m hOp

end Ptp

end FabricPerf
