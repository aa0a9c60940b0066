import FabricPerf.Ptp.Actions

/-
  What the registers, the message slots and the offset
  tables of a pair hold.

  Registers and messages always hold readings of the round
  they were made in; the tables do so as long as every
  accepted message that carries a value is one of the
  reader's own launch.

  Main declarations:
    * `Ptp.IsStoredOffset`
    * `Ptp.ContentsOk`
    * `Ptp.AcceptsOwnLaunch`
    * `Ptp.contentsOk_of_reach`
-/

------------------------------------------------------------
-- Message Contents
------------------------------------------------------------

namespace FabricPerf

namespace Ptp

/- The word is one clock reading of the given round. -/
def IsReading
    (point : TimePoint)
    (launch sample : Nat)
    (w : Word) : Prop :=
  w.sources = [⟨point, launch, sample, w.val⟩]

/- The four readings of one round, in order of use. -/
def roundReadings
    (launch sample : Nat)
    (t1 t2 t3 t4 : BitVec 64) : List Reading :=
  [⟨.syncReceipt, launch, sample, t2⟩,
    ⟨.followUp, launch, sample, t1⟩,
    ⟨.delayResponse, launch, sample, t4⟩,
    ⟨.delayRequest, launch, sample, t3⟩]

/-
  The word is the follower's offset, computed from the four
  timestamps of the given round.
-/
def IsRoundOffset
    (launch sample : Nat)
    (w : Word) : Prop :=
  ∃ t1 t2 t3 t4 : BitVec 64,
    w.val = ptpOffset t1 t2 t3 t4 ∧
      w.sources = roundReadings launch sample t1 t2 t3 t4

/- What the data word of a message must be. -/
def Carries
    (m : Message)
    (launch sample : Nat)
    (w : Word) : Prop :=
  match m with
  | .followup => IsReading .followUp launch sample w
  | .delayresp => IsReading .delayResponse launch sample w
  | .report => IsRoundOffset launch sample w
  | _ => True

/- The messages whose data word the reader keeps. -/
def Message.carriesValue : Message → Bool
| .followup | .delayresp | .report => true
| _ => false

/- Four registers of one round give that round's offset. -/
theorem isRoundOffset_offset
    {regs : Regs}
    {launch sample : Nat}
    (hSync :
      IsReading .syncReceipt launch sample regs.syncTime)
    (hFollowup :
      IsReading .followUp launch sample regs.followupTime)
    (hDelayreq :
      IsReading .delayRequest launch sample
        regs.delayreqTime)
    (hDelayresp :
      IsReading .delayResponse launch sample
        regs.delayrespTime) :
    IsRoundOffset launch sample regs.offset := by
  refine ⟨regs.followupTime.val, regs.syncTime.val,
    regs.delayreqTime.val, regs.delayrespTime.val, rfl, ?_⟩
  simp only [Regs.offset, Regs.sub, Traced.map_sources,
    Traced.map₂_sources]
  rw [hSync, hFollowup, hDelayreq, hDelayresp]
  rfl

------------------------------------------------------------
-- Registers
------------------------------------------------------------

/-
  The values a side keeps within a sample: `T2`, `T1`, `T3`
  and `T4` on the follower's side, `T4` and the report on
  the leader's side.
-/
inductive Kept where
| syncTime
| followupTime
| delayreqTime
| delayrespTime
| receiptTime
| reportData
deriving DecidableEq, Repr

namespace Kept

/- The side that keeps the value. -/
def role : Kept → Role
| .receiptTime | .reportData => .leader
| _ => .follower

/- The operation that reads the value. -/
def setBy : Kept → Op
| .syncTime => .wait .sync
| .followupTime => .wait .followup
| .delayreqTime => .readDelayreqTime
| .delayrespTime => .wait .delayresp
| .receiptTime => .wait .delayreq
| .reportData => .wait .report

/- The program counter of that operation. -/
def pc : Kept → Nat
| .syncTime => 2
| .followupTime => 3
| .delayreqTime => 5
| .delayrespTime => 6
| .receiptTime => 4
| .reportData => 6

/- What the value must be. -/
def Holds
    (k : Kept)
    (launch sample : Nat)
    (regs : Regs) : Prop :=
  match k with
  | .syncTime =>
      IsReading .syncReceipt launch sample regs.syncTime
  | .followupTime =>
      IsReading .followUp launch sample regs.followupTime
  | .delayreqTime =>
      IsReading .delayRequest launch sample
        regs.delayreqTime
  | .delayrespTime | .receiptTime =>
      IsReading .delayResponse launch sample
        regs.delayrespTime
  | .reportData =>
      IsRoundOffset launch sample regs.reportData

/- The operation stands at its counter. -/
theorem path_pc (k : Kept) :
    (path k.role)[k.pc]? = some k.setBy := by
  cases k <;> rfl

end Kept

/-
  A value whose operation lies behind the side on the path
  of this sample is one of this round.
-/
def RegsOk
    (role : Role)
    (c : Cursor)
    (regs : Regs) : Prop :=
  ∀ k : Kept,
    k.role = role →
    k.pc < c.pc →
    c.pc < role.syncLocal →
      k.Holds c.launch c.sample regs

/- A kept value that the accepted message does not set stays. -/
theorem Kept.holds_received
    {k : Kept}
    {m : Message}
    (hRole : k.role = m.reader)
    (hOther : k.setBy ≠ .wait m)
    {launch sample : Nat}
    (p : Party)
    (t : BitVec 64)
    (slot : Slot)
    (hHolds : k.Holds launch sample p.regs) :
    k.Holds launch sample (p.received t slot m) := by
  cases k <;> cases m <;>
    first
    | exact hHolds
    | exact absurd rfl hOther
    | exact Role.noConfusion hRole

/- An accepted message sets its value to one of this round. -/
theorem Kept.holds_of_setBy
    {k : Kept}
    {m : Message}
    (hSet : k.setBy = .wait m)
    (p : Party)
    (t : BitVec 64)
    {slot : Slot}
    (hCarries :
      Carries m p.cursor.launch p.cursor.sample slot.data) :
    k.Holds p.cursor.launch p.cursor.sample
      (p.received t slot m) := by
  cases k <;> cases hSet <;>
    first
    | exact hCarries
    | rfl

namespace RegsOk

variable {s : PairState} {role : Role}

/- Off the path, and at its start, nothing is required. -/
theorem of_not_past
    {c : Cursor}
    (hPast : c.pc = 0 ∨ role.syncLocal ≤ c.pc)
    (regs : Regs) :
    RegsOk role c regs := by
  intro k _ hAfter hPath
  omega

/-
  Falling through keeps the registers in order if the value
  the operation sets, and every value it does not, is.
-/
theorem advance
    (hRegs :
      RegsOk role (s.party role).cursor (s.party role).regs)
    {op : Op}
    (hOp : s.op role = some op)
    {regs : Regs}
    (hSet :
      ∀ k : Kept, k.role = role → k.setBy = op →
        k.Holds (s.party role).cursor.launch
          (s.party role).cursor.sample regs)
    (hKeep :
      ∀ k : Kept, k.role = role → k.setBy ≠ op →
        k.Holds (s.party role).cursor.launch
          (s.party role).cursor.sample (s.party role).regs →
        k.Holds (s.party role).cursor.launch
          (s.party role).cursor.sample regs) :
    RegsOk role (s.party role).cursor.advance regs := by
  intro k hRole hAfter hPath
  by_cases hHere : k.setBy = op
  · exact hSet k hRole hHere
  · have hNe : (s.party role).cursor.pc ≠ k.pc := by
      intro hPc
      unfold PairState.op at hOp
      rw [hPc, ← hRole, k.path_pc] at hOp
      exact hHere (Option.some.inj hOp)
    simp only [Cursor.advance] at hAfter hPath
    exact hKeep k hRole hHere
      (hRegs k hRole (by omega) (by omega))

/- An operation that sets no value keeps the registers. -/
theorem fallThrough
    (hRegs :
      RegsOk role (s.party role).cursor (s.party role).regs)
    {op : Op}
    (hOp : s.op role = some op)
    (hSets : ∀ k : Kept, k.setBy ≠ op) :
    RegsOk role (s.party role).cursor.advance
      (s.party role).regs :=
  hRegs.advance hOp
    (fun k _ hSet => absurd hSet (hSets k))
    (fun _ _ _ hHolds => hHolds)

/- Reading `T3` keeps the registers in order. -/
theorem readDelayreqTime
    (hRegs :
      RegsOk role (s.party role).cursor (s.party role).regs)
    (hOp : s.op role = some .readDelayreqTime)
    (t : BitVec 64) :
    RegsOk role (s.party role).cursor.advance
      { (s.party role).regs with
        delayreqTime :=
          (s.party role).clock .delayRequest t } := by
  apply hRegs.advance hOp
  · intro k _ hSet
    cases k <;> cases hSet
    rfl
  · intro k _ hOther hHolds
    cases k <;>
      first
      | exact hHolds
      | exact absurd rfl hOther

/-
  Accepting a message of this round keeps the registers in
  order.
-/
theorem accept
    (hRegs :
      RegsOk role (s.party role).cursor (s.party role).regs)
    {m : Message}
    (hOp : s.op role = some (.wait m))
    (hCarries :
      Carries m (s.party role).cursor.launch
        (s.party role).cursor.sample (s.slot role m).data)
    (t : BitVec 64) :
    RegsOk role (s.party role).cursor.advance
      ((s.party role).received t (s.slot role m) m) := by
  have hReader := (path_wait hOp).1
  apply hRegs.advance hOp
  · intro k _ hSet
    exact Kept.holds_of_setBy hSet _ t hCarries
  · intro k hRole hOther hHolds
    exact Kept.holds_received (hRole.trans hReader.symm)
      hOther _ t _ hHolds

end RegsOk

------------------------------------------------------------
-- Contents Of A State
------------------------------------------------------------

/-
  An entry of a side's offset table comes from the round it
  was stored in: the follower stores the offset, the leader
  its negation, each at the index of the other rank.
-/
def IsStoredOffset
    (pair : Pair)
    (role : Role)
    (o : OffsetStore) : Prop :=
  o.index = pair.peer role ∧
    ∃ t1 t2 t3 t4 : BitVec 64,
      o.value.sources =
          roundReadings o.launch o.sample t1 t2 t3 t4 ∧
        o.value.val =
          match role with
          | .leader => 0 - ptpOffset t1 t2 t3 t4
          | .follower => ptpOffset t1 t2 t3 t4

/-
  Slots, registers and offset tables hold what they should,
  and diagnostic rows go to the slots of their rounds.
-/
structure ContentsOk (pair : Pair) (s : PairState) : Prop where
  slots :
    ∀ (i : Nat) (m : Message),
      (s.slots i m).tag ≠ 0 →
        Carries m (s.slots i m).launch i (s.slots i m).data
  regs :
    ∀ r : Role,
      RegsOk r (s.party r).cursor (s.party r).regs
  offsets :
    ∀ r : Role, ∀ o ∈ (s.party r).offsets,
      IsStoredOffset pair r o
  rows :
    ∀ r : Role, ∀ row ∈ (s.party r).rows,
      row.slot =
        compactSlot (pair.rank r) (pair.peer r) row.sample

/-
  A poll for a follow-up, a delay response or a report hits
  only a message that was stored in the reader's launch.
-/
def AcceptsOwnLaunch (s : PairState) (a : Action) : Prop :=
  ∀ m : Message,
    s.op a.role = some (.wait m) →
    m.carriesValue = true →
    m.accepts (s.slot a.role m).tag = true →
      (s.slot a.role m).launch =
        (s.party a.role).cursor.launch

namespace ContentsOk

variable {pair : Pair} {s : PairState} {a : Action}

/- Before the first launch nothing is held. -/
theorem start : ContentsOk pair PairState.start where
  slots := by
    intro i m hUsed
    exact absurd rfl hUsed
  regs := by
    intro r
    exact RegsOk.of_not_past (Or.inl rfl) _
  offsets := by
    intro r o hMem
    exact absurd hMem List.not_mem_nil
  rows := by
    intro r row hMem
    exact absurd hMem List.not_mem_nil

/- Replacing a side by one in order keeps the contents. -/
theorem setParty
    (hOk : ContentsOk pair s)
    {role : Role}
    {p : Party}
    (hRegs : RegsOk role p.cursor p.regs)
    (hOffsets :
      ∀ o ∈ p.offsets,
        o ∈ (s.party role).offsets ∨
          IsStoredOffset pair role o)
    (hRows :
      ∀ row ∈ p.rows,
        row ∈ (s.party role).rows ∨
          row.slot =
            compactSlot (pair.rank role) (pair.peer role)
              row.sample) :
    ContentsOk pair (s.setParty role p) where
  slots := hOk.slots
  regs := by
    intro r
    by_cases hRole : r = role
    · subst hRole
      rw [PairState.party_setParty_self]
      exact hRegs
    · rw [s.party_setParty_of_ne p hRole]
      exact hOk.regs r
  offsets := by
    intro r o hMem
    by_cases hRole : r = role
    · subst hRole
      rw [PairState.party_setParty_self] at hMem
      rcases hOffsets o hMem with hOld | hNew
      · exact hOk.offsets r o hOld
      · exact hNew
    · rw [s.party_setParty_of_ne p hRole] at hMem
      exact hOk.offsets r o hMem
  rows := by
    intro r row hMem
    by_cases hRole : r = role
    · subst hRole
      rw [PairState.party_setParty_self] at hMem
      rcases hRows row hMem with hOld | hNew
      · exact hOk.rows r row hOld
      · exact hNew
    · rw [s.party_setParty_of_ne p hRole] at hMem
      exact hOk.rows r row hMem

/- Writing a slot in order keeps the contents. -/
theorem setSlot
    (hOk : ContentsOk pair s)
    {sample : Nat}
    {m : Message}
    {slot : Slot}
    (hCarries :
      slot.tag ≠ 0 →
        Carries m slot.launch sample slot.data) :
    ContentsOk pair (s.setSlot sample m slot) where
  slots := by
    intro i n hUsed
    simp only [PairState.setSlot] at hUsed ⊢
    by_cases hHere : i = sample ∧ n = m
    · rw [if_pos hHere] at hUsed ⊢
      rw [hHere.1, hHere.2]
      exact hCarries hUsed
    · rw [if_neg hHere] at hUsed ⊢
      exact hOk.slots i n hUsed
  regs := hOk.regs
  offsets := hOk.offsets
  rows := hOk.rows

/- The registers of a side that is about to act on the path. -/
theorem holds
    (hOk : ContentsOk pair s)
    {role : Role}
    {op : Op}
    (hOp : s.op role = some op)
    (k : Kept)
    (hRole : k.role = role)
    (hAfter : k.pc < (s.party role).cursor.pc) :
    k.Holds (s.party role).cursor.launch
      (s.party role).cursor.sample (s.party role).regs :=
  hOk.regs role k hRole hAfter (lt_syncLocal_of_path hOp)

/- Past its last wait the follower holds this round's offset. -/
theorem follower_offset
    (hOk : ContentsOk pair s)
    {op : Op}
    (hOp : s.op .follower = some op)
    (hAfter : 6 < (s.party .follower).cursor.pc) :
    IsRoundOffset (s.party .follower).cursor.launch
      (s.party .follower).cursor.sample
      (s.party .follower).regs.offset :=
  isRoundOffset_offset
    (hOk.holds hOp .syncTime rfl (by simp only [Kept.pc]; omega))
    (hOk.holds hOp .followupTime rfl
      (by simp only [Kept.pc]; omega))
    (hOk.holds hOp .delayreqTime rfl
      (by simp only [Kept.pc]; omega))
    (hOk.holds hOp .delayrespTime rfl
      (by simp only [Kept.pc]; omega))

/- What a side stores as a message is of this round. -/
theorem carries_outgoing
    (hOk : ContentsOk pair s)
    {m : Message}
    (hOp : s.op a.role = some (.store m)) :
    Carries m (s.party a.role).cursor.launch
      (s.party a.role).cursor.sample
      (s.outgoing pair a m).data := by
  rcases path_store hOp with ⟨hWriter, hPc⟩
  cases m with
  | connreq | sync | connresp | delayreq => trivial
  | followup => exact rfl
  | delayresp =>
      have hRole : a.role = .leader := hWriter.symm
      have hHolds :=
        hOk.holds hOp .receiptTime hRole.symm
          (by rw [hPc]; decide)
      exact hHolds
  | report =>
      have hRole : a.role = .follower := hWriter.symm
      rw [hRole] at hOp hPc
      simp only [PairState.outgoing, Party.outgoing,
        Party.messageData, hRole]
      exact hOk.follower_offset hOp (by rw [hPc]; decide)

/- What a side stores in its table is of this round. -/
theorem isStoredOffset_entry
    (hOk : ContentsOk pair s)
    {role : Role}
    (hOp : s.op role = some .storeOffset) :
    IsStoredOffset pair role
      ((s.party role).entry (pair.peer role)
        ((s.party role).offsetWord role)) := by
  refine ⟨rfl, ?_⟩
  rcases path_local.2.1 hOp with ⟨hRole, hPc⟩ | ⟨hRole, hPc⟩
  · subst hRole
    have hReport : IsRoundOffset _ _ _ :=
      hOk.holds hOp .reportData rfl (by rw [hPc]; decide)
    rcases hReport with ⟨t1, t2, t3, t4, hVal, hSources⟩
    refine ⟨t1, t2, t3, t4, hSources, ?_⟩
    exact congrArg (fun x => 0 - x) hVal
  · subst hRole
    rcases hOk.follower_offset hOp (by rw [hPc]; decide) with
      ⟨t1, t2, t3, t4, hVal, hSources⟩
    exact ⟨t1, t2, t3, t4, hSources, hVal⟩

/-
  Every action that accepts values of its own launch only
  keeps the contents in order.
-/
theorem step
    (hOk : ContentsOk pair s)
    (hGuard : AcceptsOwnLaunch s a)
    {s' : PairState}
    (hEffect : Effect pair s a s') :
    ContentsOk pair s' := by
  have hRegs := hOk.regs a.role
  cases hEffect with
  | store m hOp =>
      apply ContentsOk.setSlot
      · refine hOk.setParty ?_ (fun _ hMem => Or.inl hMem)
          (fun _ hMem => Or.inl hMem)
        apply hRegs.fallThrough hOp
        intro k
        cases k <;> exact Op.noConfusion
      · intro _
        exact hOk.carries_outgoing hOp
  | accept m hOp hHit =>
      have hUsed := Message.tag_ne_zero_of_accepts hHit
      have hCarries := hOk.slots _ m hUsed
      apply ContentsOk.setSlot
      · refine hOk.setParty ?_ (fun _ hMem => Or.inl hMem)
          (fun _ hMem => Or.inl hMem)
        apply hRegs.accept hOp
        by_cases hValue : m.carriesValue = true
        · rw [← hGuard m hOp hValue hHit]
          exact hCarries
        · cases m <;> trivial
      · intro _
        exact hCarries
  | miss m _ _ _ =>
      exact hOk.setParty hRegs (fun _ hMem => Or.inl hMem)
        (fun _ hMem => Or.inl hMem)
  | exhaust m _ _ _ =>
      exact hOk.setParty
        (RegsOk.of_not_past (Or.inr (Nat.le_refl _)) _)
        (fun _ hMem => Or.inl hMem)
        (fun _ hMem => Or.inl hMem)
  | readDelayreqTime hOp =>
      exact hOk.setParty (hRegs.readDelayreqTime hOp a.time)
        (fun _ hMem => Or.inl hMem)
        (fun _ hMem => Or.inl hMem)
  | storeOffset hOp =>
      apply hOk.setParty
      · apply hRegs.fallThrough hOp
        intro k
        cases k <;> exact Op.noConfusion
      · intro o hMem
        rcases List.mem_append.mp hMem with hOld | hNew
        · exact Or.inl hOld
        · rw [List.mem_singleton.mp hNew]
          exact Or.inr (hOk.isStoredOffset_entry hOp)
      · exact fun _ hMem => Or.inl hMem
  | storeRow hOp =>
      refine hOk.setParty ?_ (fun _ hMem => Or.inl hMem) ?_
      · apply hRegs.fallThrough hOp
        intro k
        cases k <;> exact Op.noConfusion
      · intro row hMem
        rcases List.mem_append.mp hMem with hOld | hNew
        · exact Or.inl hOld
        · rw [List.mem_singleton.mp hNew]
          exact Or.inr rfl
  | clear m hOp =>
      apply ContentsOk.setSlot
      · refine hOk.setParty ?_ (fun _ hMem => Or.inl hMem)
          (fun _ hMem => Or.inl hMem)
        apply hRegs.fallThrough hOp
        intro k
        cases k <;> exact Op.noConfusion
      · intro hUsed
        exact absurd rfl hUsed
  | leaveSample hSync =>
      refine hOk.setParty ?_ (fun _ hMem => Or.inl hMem)
        (fun _ hMem => Or.inl hMem)
      apply RegsOk.of_not_past
      unfold Cursor.leaveSample
      split
      · exact Or.inl rfl
      · right
        simp only
        omega
  | relaunch _ =>
      exact hOk.setParty
        (RegsOk.of_not_past (Or.inl rfl) _)
        (fun _ hMem => Or.inl hMem)
        (fun _ hMem => Or.inl hMem)

end ContentsOk

/-
  Every state of a run that accepts values of the own launch
  only has its contents in order.
-/
theorem contentsOk_of_reach
    {pair : Pair}
    {s : PairState}
    (hReach : (pairMachine pair).Reach AcceptsOwnLaunch s) :
    ContentsOk pair s := by
  apply hReach.invariant (ContentsOk pair)
  · intro s hInit
    have hStart : s = PairState.start := hInit
    rw [hStart]
    exact ContentsOk.start
  · intro s a s' hOk hGuard hStep
    have hAct : s.act pair a = s' := Option.some.inj hStep
    rw [← hAct]
    exact hOk.step hGuard (effect_act pair s a)

end Ptp

end FabricPerf
