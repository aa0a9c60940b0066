import FabricPerf.Ptp.Freshness

/-
  Where the leader's offsets come from.

  In a run without timeouts the follower stores each offset
  word it has reported (`Echoed`), and every report on its
  way to one of the leader's logs is one the follower has
  sent for that round (`ReportLog.Backed`).

  Main declarations:
    * `Ptp.Echoed`, `Ptp.echoed_step`
    * `Ptp.ReportLog.Kept`, `Ptp.ReportLog.Backed`
    * `Ptp.ReportLog.backed_step`
    * `Ptp.offsetLog`
-/

------------------------------------------------------------
-- The Follower's Reports And Offsets
------------------------------------------------------------

namespace FabricPerf

namespace Ptp

/-
  The follower's offsets are its reports, except that right
  after a report the offset is not yet stored.
-/
def Echoed (p : Party) : Prop :=
  p.reports =
    p.offsets ++
      if p.cursor.pc = 8 then [p.entry 0 p.regs.offset]
      else []

/- Off that one counter, equal logs are echoed. -/
theorem echoed_of_eq
    {p : Party}
    (hPc : p.cursor.pc ≠ 8)
    (hEq : p.reports = p.offsets) :
    Echoed p := by
  rw [Echoed, if_neg hPc, List.append_nil]
  exact hEq

/- Off that one counter, echoed logs are equal. -/
theorem Echoed.eq
    {p : Party}
    (hEchoed : Echoed p)
    (hPc : p.cursor.pc ≠ 8) :
    p.reports = p.offsets := by
  rw [Echoed, if_neg hPc, List.append_nil] at hEchoed
  exact hEchoed

/- An operation away from both logs keeps them echoed. -/
theorem Echoed.fallThrough
    {s : PairState}
    (hEchoed : Echoed (s.party .follower))
    {op : Op}
    (hOp : s.op .follower = some op)
    (hReport : op ≠ .store .report)
    (hOffset : op ≠ .storeOffset)
    {p : Party}
    (hCursor : p.cursor = (s.party .follower).cursor.advance)
    (hReports : p.reports = (s.party .follower).reports)
    (hOffsets : p.offsets = (s.party .follower).offsets) :
    Echoed p := by
  have hNotReport : (s.party .follower).cursor.pc ≠ 7 := by
    intro hPc
    unfold PairState.op at hOp
    rw [hPc] at hOp
    exact hReport (Option.some.inj hOp).symm
  have hNotOffset : (s.party .follower).cursor.pc ≠ 8 := by
    intro hPc
    unfold PairState.op at hOp
    rw [hPc] at hOp
    exact hOffset (Option.some.inj hOp).symm
  apply echoed_of_eq
  · rw [hCursor]
    simp only [Cursor.advance]
    omega
  · rw [hReports, hOffsets]
    exact hEchoed.eq hNotOffset

/- Without timeouts the follower's logs stay echoed. -/
theorem echoed_step
    {pair : Pair}
    {s s' : PairState}
    {a : Action}
    (hEchoed : Echoed (s.party .follower))
    (hGuard : Unexhausted s a)
    (hEffect : Effect pair s a s') :
    Echoed (s'.party .follower) := by
  by_cases hRole : a.role = .follower
  · rcases a with ⟨role, time⟩
    simp only at hRole
    subst hRole
    cases hEffect with
    | store m hOp =>
        by_cases hReport : m = .report
        · subst hReport
          have hPc := (path_store hOp).2
          simp only [Message.storePc] at hPc
          have hBefore := hEchoed.eq (by omega)
          simp only [if_true, PairState.party_setSlot,
            PairState.party_setParty_self]
          rw [hBefore, Echoed, if_pos]
          · rfl
          · simp only [Party.advance, Cursor.advance]
            omega
        · simp only [if_neg hReport, PairState.party_setSlot,
            PairState.party_setParty_self]
          exact hEchoed.fallThrough hOp
            (fun hOther => hReport (Op.store.inj hOther))
            Op.noConfusion rfl rfl rfl
    | accept m hOp _ =>
        rw [PairState.party_setSlot,
          PairState.party_setParty_self]
        exact hEchoed.fallThrough hOp Op.noConfusion
          Op.noConfusion rfl rfl rfl
    | miss m _ _ _ =>
        rw [PairState.party_setParty_self]
        exact hEchoed
    | exhaust m hOp hMiss hBound =>
        exact absurd (hGuard m hOp hMiss) hBound
    | readDelayreqTime hOp =>
        rw [PairState.party_setParty_self]
        exact hEchoed.fallThrough hOp Op.noConfusion
          Op.noConfusion rfl rfl rfl
    | storeOffset hOp =>
        rw [PairState.party_setParty_self]
        rcases path_local.2.1 hOp with ⟨hLead, _⟩ | ⟨_, hPc⟩
        · exact Role.noConfusion hLead
        · simp only at hPc
          rw [Echoed, if_pos hPc] at hEchoed
          apply echoed_of_eq
          · simp only [Party.advance, Cursor.advance]
            omega
          · exact hEchoed
    | storeRow hOp =>
        rw [PairState.party_setParty_self]
        exact hEchoed.fallThrough hOp Op.noConfusion
          Op.noConfusion rfl rfl rfl
    | clear m hOp =>
        rw [PairState.party_setSlot,
          PairState.party_setParty_self]
        exact hEchoed.fallThrough hOp Op.noConfusion
          Op.noConfusion rfl rfl rfl
    | leaveSample hSync =>
        rw [PairState.party_setParty_self]
        simp only [Role.syncLocal] at hSync
        apply echoed_of_eq
        · simp only [Cursor.leaveSample]
          split
          · exact Nat.zero_ne_add_one 7
          · simp only
            omega
        · exact hEchoed.eq (by omega)
    | relaunch hOver =>
        rw [PairState.party_setParty_self]
        simp only [Role.syncLocal] at hOver
        apply echoed_of_eq
        · exact Nat.zero_ne_add_one 7
        · exact hEchoed.eq (by omega)
  · have hSame :
        s'.party .follower = s.party .follower := by
      cases hEffect <;>
        exact s.party_setParty_of_ne _ (Ne.symm hRole)
    rw [hSame]
    exact hEchoed

------------------------------------------------------------
-- Logs Made From Reports
------------------------------------------------------------

/-
  A log of the leader's whose entries are made from reports:
  what a follower shows of a report it has sent (launch,
  sample, tag and word), the entries and their rounds, and
  what of a report an entry is made of.
-/
structure ReportLog (ε : Type) where
  Sent : Party → Nat → Nat → BitVec 64 → Word → Prop
  entries : Party → List ε
  round : ε → Nat × Nat
  MadeOf : ε → BitVec 64 → Word → Prop

namespace ReportLog

variable {ε : Type}

/-
  The follower shows a report from its store on, and the
  leader enters what its report registers hold before they
  are read again.
-/
structure Kept
    (log : ReportLog ε)
    (pair : Pair) : Prop where
  sent :
    ∀ (s : PairState) (a : Action),
      a.role = .follower →
      s.op a.role = some (.store .report) →
        log.Sent
          { (s.party a.role).advance with
            reports :=
              (s.party a.role).reports ++
                [(s.party a.role).entry 0
                  (s.outgoing pair a .report).data] }
          (s.party a.role).cursor.launch
          (s.party a.role).cursor.sample
          (s.outgoing pair a .report).tag
          (s.outgoing pair a .report).data
  lasts :
    ∀ {s s' : PairState} {a : Action} {launch sample : Nat}
      {tag : BitVec 64} {data : Word},
      log.Sent (s.party .follower) launch sample tag data →
      Effect pair s a s' →
        log.Sent (s'.party .follower) launch sample tag data
  grows :
    ∀ {s s' : PairState} {a : Action},
      Effect pair s a s' →
        log.entries (s'.party .leader) =
            log.entries (s.party .leader) ∨
          (6 < (s.party .leader).cursor.pc ∧
            (s.party .leader).cursor.pc < 12 ∧
            ∃ e,
              log.entries (s'.party .leader) =
                  log.entries (s.party .leader) ++ [e] ∧
                log.round e =
                  ((s.party .leader).cursor.launch,
                    (s.party .leader).cursor.sample) ∧
                log.MadeOf e
                  (s.party .leader).regs.reportTag
                  (s.party .leader).regs.reportData)

/-
  Every report in the slots, in the leader's registers and
  behind the leader's entries was sent for that round.
-/
structure Backed
    (log : ReportLog ε)
    (s : PairState) : Prop where
  slot :
    ∀ i : Nat,
      (s.slots i .report).tag ≠ 0 →
        log.Sent (s.party .follower)
          (s.slots i .report).launch i
          (s.slots i .report).tag
          (s.slots i .report).data
  kept :
    6 < (s.party .leader).cursor.pc →
    (s.party .leader).cursor.pc < 12 →
      log.Sent (s.party .follower)
        (s.party .leader).cursor.launch
        (s.party .leader).cursor.sample
        (s.party .leader).regs.reportTag
        (s.party .leader).regs.reportData
  stored :
    ∀ e ∈ log.entries (s.party .leader),
      ∃ tag data,
        log.Sent (s.party .follower) (log.round e).1
            (log.round e).2 tag data ∧
          log.MadeOf e tag data

variable {log : ReportLog ε} {pair : Pair}
variable {s s' : PairState} {a : Action}

/- Before the first launch nothing is sent or stored. -/
theorem Backed.start
    (hNone : log.entries Party.start = []) :
    log.Backed PairState.start where
  slot := fun _ hUsed => absurd rfl hUsed
  kept := fun hAfter => absurd hAfter (Nat.not_lt_zero _)
  stored := by
    intro e hMem
    change e ∈ log.entries Party.start at hMem
    rw [hNone] at hMem
    exact absurd hMem List.not_mem_nil

/- Reports in slots stay backed. -/
theorem Backed.slot_step
    (hKept : log.Kept pair)
    (hBacked : log.Backed s)
    (hEffect : Effect pair s a s')
    (i : Nat)
    (hUsed : (s'.slots i .report).tag ≠ 0) :
    log.Sent (s'.party .follower)
      (s'.slots i .report).launch i
      (s'.slots i .report).tag
      (s'.slots i .report).data := by
  have hKeep :
      ∀ {i : Nat},
        (s.slots i .report).tag ≠ 0 →
          log.Sent (s'.party .follower)
            (s.slots i .report).launch i
            (s.slots i .report).tag
            (s.slots i .report).data :=
    fun hOld => hKept.lasts (hBacked.slot _ hOld) hEffect
  cases hEffect with
  | store m hOp =>
      simp only [PairState.setSlot] at hUsed ⊢
      by_cases hHere :
          i = (s.party a.role).cursor.sample ∧
            Message.report = m
      · rw [if_pos hHere]
        rcases hHere with ⟨hSample, hReport⟩
        subst hReport
        have hRole : Role.follower = a.role :=
          (path_store hOp).1
        have hSent := hKept.sent s a hRole.symm hOp
        rw [← hSample] at hSent
        change
          log.Sent ((s.setParty a.role _).party .follower)
            _ i _ _
        rw [hRole, PairState.party_setParty_self]
        exact hSent
      · rw [if_neg hHere] at hUsed ⊢
        exact hKeep hUsed
  | accept m hOp hHit =>
      simp only [PairState.setSlot] at hUsed ⊢
      by_cases hHere :
          i = (s.party a.role).cursor.sample ∧
            Message.report = m
      · rw [if_pos hHere] at hUsed ⊢
        rcases hHere with ⟨hSample, hReport⟩
        subst hReport
        rw [hSample]
        exact hKeep hUsed
      · rw [if_neg hHere] at hUsed ⊢
        exact hKeep hUsed
  | clear m _ =>
      simp only [PairState.setSlot] at hUsed ⊢
      by_cases hHere :
          i = (s.party a.role).cursor.sample ∧
            Message.report = m
      · rw [if_pos hHere] at hUsed
        exact absurd rfl hUsed
      · rw [if_neg hHere] at hUsed ⊢
        exact hKeep hUsed
  | _ => exact hKeep hUsed

/-
  The leader's report registers stay backed: they are read
  from a slot of the leader's own launch and kept up to the
  end of the sample.
-/
theorem Backed.kept_step
    (hKept : log.Kept pair)
    (hBacked : log.Backed s)
    (hSettled : Settled pair s)
    (hEffect : Effect pair s a s')
    (hAfter : 6 < (s'.party .leader).cursor.pc)
    (hPath : (s'.party .leader).cursor.pc < 12) :
    log.Sent (s'.party .follower)
      (s'.party .leader).cursor.launch
      (s'.party .leader).cursor.sample
      (s'.party .leader).regs.reportTag
      (s'.party .leader).regs.reportData := by
  have hAgain := hEffect
  by_cases hRole : a.role = .leader
  · rcases a with ⟨role, time⟩
    simp only at hRole
    subst hRole
    -- An operation other than the wait at counter 6.
    have hFall :
        ∀ {op : Op} {p : Party},
          s.op .leader = some op →
          (∀ m, op ≠ .wait m) →
          6 < p.cursor.pc →
          p.cursor.pc < 12 →
          p.cursor = (s.party .leader).cursor.advance →
          p.regs = (s.party .leader).regs →
            log.Sent (s'.party .follower) p.cursor.launch
              p.cursor.sample p.regs.reportTag
              p.regs.reportData := by
      intro op p hOp hWait hLow hHigh hCursor hRegs
      have hNe : (s.party .leader).cursor.pc ≠ 6 := by
        intro hPc
        unfold PairState.op at hOp
        rw [hPc] at hOp
        exact hWait .report (Option.some.inj hOp).symm
      rw [hCursor] at hLow hHigh ⊢
      rw [hRegs]
      simp only [Cursor.advance] at hLow hHigh
      exact hKept.lasts (hBacked.kept (by omega) (by omega))
        hAgain
    cases hEffect with
    | store m hOp =>
        rw [PairState.party_setSlot,
          PairState.party_setParty_self] at hAfter hPath ⊢
        exact hFall hOp (fun _ => Op.noConfusion) hAfter hPath
          rfl rfl
    | accept m hOp hHit =>
        rcases path_wait hOp with ⟨hReader, hPc⟩
        rw [PairState.party_setSlot,
          PairState.party_setParty_self] at hAfter hPath ⊢
        simp only [Party.advance, Cursor.advance] at hAfter hPc
        have hReport : m = .report := by
          cases m <;>
            first
            | rfl
            | exact Role.noConfusion hReader
            | (simp only [Message.waitPc] at hPc
               omega)
        subst hReport
        have hLaunch :=
          acceptsOwnLaunch_of_coupled hSettled.coupled
            ⟨.leader, time⟩ .report hOp rfl hHit
        have hSlot :=
          hBacked.slot _ (Message.tag_ne_zero_of_accepts hHit)
        simp only [PairState.slot] at hLaunch
        rw [hLaunch] at hSlot
        have hSent := hKept.lasts hSlot hAgain
        exact hSent
    | miss m _ _ _ =>
        rw [PairState.party_setParty_self] at hAfter hPath ⊢
        exact hKept.lasts (hBacked.kept hAfter hPath) hAgain
    | exhaust m _ _ _ =>
        rw [PairState.party_setParty_self] at hPath
        exact absurd hPath (Nat.lt_irrefl _)
    | readDelayreqTime hOp =>
        exact Role.noConfusion (path_local.1 hOp).1
    | storeOffset hOp =>
        rw [PairState.party_setParty_self] at hAfter hPath ⊢
        exact hFall hOp (fun _ => Op.noConfusion) hAfter hPath
          rfl rfl
    | storeRow hOp =>
        rw [PairState.party_setParty_self] at hAfter hPath ⊢
        exact hFall hOp (fun _ => Op.noConfusion) hAfter hPath
          rfl rfl
    | clear m hOp =>
        rw [PairState.party_setSlot,
          PairState.party_setParty_self] at hAfter hPath ⊢
        exact hFall hOp (fun _ => Op.noConfusion) hAfter hPath
          rfl rfl
    | leaveSample hSync =>
        rw [PairState.party_setParty_self] at hAfter hPath
        simp only [Role.syncLocal] at hSync
        simp only [Cursor.leaveSample] at hAfter hPath
        split at hAfter
        · exact absurd hAfter (Nat.not_lt_zero _)
        · rename_i hLast
          rw [if_neg hLast] at hPath
          simp only at hPath
          omega
    | relaunch _ =>
        rw [PairState.party_setParty_self] at hAfter
        exact absurd hAfter (Nat.not_lt_zero _)
  · have hSame : s'.party .leader = s.party .leader := by
      cases hEffect <;>
        exact s.party_setParty_of_ne _ (Ne.symm hRole)
    rw [hSame] at hAfter hPath ⊢
    exact hKept.lasts (hBacked.kept hAfter hPath) hAgain

/- The leader's entries stay backed. -/
theorem Backed.stored_step
    (hKept : log.Kept pair)
    (hBacked : log.Backed s)
    (hEffect : Effect pair s a s')
    (e : ε)
    (hMem : e ∈ log.entries (s'.party .leader)) :
    ∃ tag data,
      log.Sent (s'.party .follower) (log.round e).1
          (log.round e).2 tag data ∧
        log.MadeOf e tag data := by
  have hKeep :
      e ∈ log.entries (s.party .leader) →
        ∃ tag data,
          log.Sent (s'.party .follower) (log.round e).1
              (log.round e).2 tag data ∧
            log.MadeOf e tag data := by
    intro hOld
    rcases hBacked.stored e hOld with
      ⟨tag, data, hSent, hMade⟩
    exact ⟨tag, data, hKept.lasts hSent hEffect, hMade⟩
  rcases hKept.grows hEffect with
    hSame | ⟨hLow, hHigh, new, hNew, hRound, hMade⟩
  · rw [hSame] at hMem
    exact hKeep hMem
  · rw [hNew] at hMem
    rcases List.mem_append.mp hMem with hOld | hLast
    · exact hKeep hOld
    · rw [List.mem_singleton.mp hLast]
      refine ⟨_, _, ?_, hMade⟩
      rw [hRound]
      exact hKept.lasts (hBacked.kept hLow hHigh) hEffect

/- Every effect keeps the leader's log backed. -/
theorem backed_step
    (hKept : log.Kept pair)
    (hSettled : Settled pair s)
    (hBacked : log.Backed s)
    (hEffect : Effect pair s a s') :
    log.Backed s' where
  slot := hBacked.slot_step hKept hEffect
  kept := hBacked.kept_step hKept hSettled hEffect
  stored := hBacked.stored_step hKept hEffect

end ReportLog

------------------------------------------------------------
-- The Leader's Offsets
------------------------------------------------------------

section Offsets

variable {pair : Pair} {s s' : PairState} {a : Action}

/- What an effect adds to the offsets and rows of a side. -/
theorem logs_of_effect
    (hEffect : Effect pair s a s')
    (role : Role) :
    ((s'.party role).offsets = (s.party role).offsets ∨
      (s.op role = some .storeOffset ∧
        (s'.party role).offsets =
          (s.party role).offsets ++
            [(s.party role).entry (pair.peer role)
              ((s.party role).offsetWord role)])) ∧
    ((s'.party role).rows = (s.party role).rows ∨
      (s.op role = some .storeRow ∧
        (s'.party role).rows =
          (s.party role).rows ++
            [(s.party role).row pair role])) := by
  by_cases hRole : role = a.role
  · subst hRole
    cases hEffect with
    | storeOffset hOp =>
        rw [PairState.party_setParty_self]
        exact ⟨Or.inr ⟨hOp, rfl⟩, Or.inl rfl⟩
    | storeRow hOp =>
        rw [PairState.party_setParty_self]
        exact ⟨Or.inl rfl, Or.inr ⟨hOp, rfl⟩⟩
    | store _ _ | accept _ _ _ | clear _ _ =>
        rw [PairState.party_setSlot,
          PairState.party_setParty_self]
        exact ⟨Or.inl rfl, Or.inl rfl⟩
    | _ =>
        rw [PairState.party_setParty_self]
        exact ⟨Or.inl rfl, Or.inl rfl⟩
  · have hSame : s'.party role = s.party role := by
      cases hEffect <;> exact s.party_setParty_of_ne _ hRole
    rw [hSame]
    exact ⟨Or.inl rfl, Or.inl rfl⟩

/- No effect takes a report back. -/
theorem reports_of_effect
    (hEffect : Effect pair s a s') :
    (s.party .follower).reports ⊆ (s'.party .follower).reports := by
  by_cases hRole : Role.follower = a.role
  · rw [hRole]
    cases hEffect with
    | store m _ =>
        rw [PairState.party_setSlot,
          PairState.party_setParty_self]
        by_cases hReport : m = .report
        · simp only [if_pos hReport]
          exact List.subset_append_left _ _
        · simp only [if_neg hReport]
          exact List.Subset.refl _
    | accept _ _ _ | clear _ _ =>
        rw [PairState.party_setSlot,
          PairState.party_setParty_self]
        exact List.Subset.refl _
    | _ =>
        rw [PairState.party_setParty_self]
        exact List.Subset.refl _
  · have hSame :
        s'.party .follower = s.party .follower := by
      cases hEffect <;> exact s.party_setParty_of_ne _ hRole
    rw [hSame]
    exact List.Subset.refl _

/- The leader's offsets negate the words of reports. -/
def offsetLog : ReportLog OffsetStore where
  Sent := fun p launch sample _ w =>
    ⟨launch, sample, 0, w⟩ ∈ p.reports
  entries := Party.offsets
  round := fun o => (o.launch, o.sample)
  MadeOf := fun o _ w => o.value.val = 0 - w.val

/- They are such a log. -/
theorem offsetLog_kept (pair : Pair) : offsetLog.Kept pair where
  sent := fun _ _ _ _ =>
    List.mem_append_right _ (List.mem_singleton_self _)
  lasts := fun hSent hEffect => reports_of_effect hEffect hSent
  grows := by
    intro s s' a hEffect
    rcases (logs_of_effect hEffect .leader).1 with
      hSame | ⟨hOp, hNew⟩
    · exact Or.inl hSame
    · rcases path_local.2.1 hOp with ⟨_, hPc⟩ | ⟨hFollow, _⟩
      · exact Or.inr
          ⟨by omega, by omega, _, hNew, rfl, rfl⟩
      · exact Role.noConfusion hFollow

end Offsets

end Ptp

end FabricPerf
