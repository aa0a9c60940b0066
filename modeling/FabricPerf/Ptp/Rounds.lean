import FabricPerf.Ptp.Isolation

/-
  Runs of a pair in which no poll loop exhausts its bound.

  Such a run is coupled, its contents are in order, and every
  log has one entry for each round, in order.

  Main declarations:
    * `Ptp.Unexhausted`
    * `Ptp.settled_of_reach`
    * `Ptp.LogsOk`
    * `Ptp.logsOk_step`
-/

------------------------------------------------------------
-- Runs Without Timeouts
------------------------------------------------------------

namespace FabricPerf

namespace Ptp

/- The action is not the last poll of an exhausted loop. -/
def Unexhausted (s : PairState) (a : Action) : Prop :=
  ∀ m : Message,
    s.op a.role = some (.wait m) →
    m.accepts (s.slot a.role m).tag = false →
      (s.party a.role).polls + 1 < pollBound

/- What an invariant says of both sides, one at a time. -/
theorem forall_party_setParty
    {s : PairState}
    {P : Role → Party → Prop}
    (hAll : ∀ r, P r (s.party r))
    {role : Role}
    {p : Party}
    (hNew : P role p) :
    ∀ r, P r ((s.setParty role p).party r) := by
  intro r
  by_cases hRole : r = role
  · subst hRole
    rw [PairState.party_setParty_self]
    exact hNew
  · rw [s.party_setParty_of_ne p hRole]
    exact hAll r

/- Without timeouts no cursor is ever marked as exhausted. -/
theorem live_step
    {pair : Pair}
    {s s' : PairState}
    {a : Action}
    (hLive : ∀ r, (s.party r).cursor.exhausted = false)
    (hGuard : Unexhausted s a)
    (hEffect : Effect pair s a s') :
    ∀ r, (s'.party r).cursor.exhausted = false := by
  have hActor := hLive a.role
  cases hEffect with
  | exhaust m hOp hMiss hBound =>
      exact absurd (hGuard m hOp hMiss) hBound
  | leaveSample _ =>
      apply forall_party_setParty
        (P := fun _ p => p.cursor.exhausted = false) hLive
      simp only [Cursor.leaveSample]
      split <;> exact hActor
  | _ =>
      exact forall_party_setParty
        (P := fun _ p => p.cursor.exhausted = false) hLive
        hActor

/- Without timeouts no side is ever marked as exhausted. -/
theorem live_of_reach
    {pair : Pair}
    {s : PairState}
    (hReach : (pairMachine pair).Reach Unexhausted s) :
    ∀ r, (s.party r).cursor.exhausted = false := by
  apply hReach.invariant
    (fun s => ∀ r, (s.party r).cursor.exhausted = false)
  · intro s hInit r
    have hStart : s = PairState.start := hInit
    rw [hStart]
    rfl
  · intro s a s' hLive hGuard hStep
    have hAct : s.act pair a = s' := Option.some.inj hStep
    rw [← hAct]
    exact live_step hLive hGuard (effect_act pair s a)

/- What is known of every state of a run without timeouts. -/
structure Settled (pair : Pair) (s : PairState) : Prop where
  live : ∀ r, (s.party r).cursor.exhausted = false
  coupled : Coupled s
  contents : ContentsOk pair s

/- Runs without timeouts pass through settled states only. -/
theorem settled_of_reach
    {pair : Pair}
    {s : PairState}
    (hReach : (pairMachine pair).Reach Unexhausted s) :
    Settled pair s := by
  have hRelaunch : (pairMachine pair).Reach LiveRelaunch s := by
    apply hReach.strengthen
    intro s a hBefore _ _
    exact live_of_reach hBefore a.role
  have hOwn : (pairMachine pair).Reach AcceptsOwnLaunch s :=
    reach_acceptsOwnLaunch hRelaunch
  exact
    { live := live_of_reach hReach
      coupled := coupled_of_reach hRelaunch
      contents := contentsOk_of_reach hOwn }

------------------------------------------------------------
-- One Log Entry A Round
------------------------------------------------------------

/- The logs of a side. -/
inductive Log where
| offsets
| rows
| reports
deriving DecidableEq, Repr

namespace Log

/- The operation that makes an entry. -/
def op : Log → Op
| .offsets => .storeOffset
| .rows => .storeRow
| .reports => .store .report

/- The program counter of that operation. -/
def pc : Log → Role → Nat
| .offsets, .leader => 7
| .offsets, .follower => 8
| .rows, .leader => 8
| .rows, .follower => 9
| .reports, _ => 7

/- Reports are sent by the follower only. -/
def keptBy : Log → Role → Bool
| .reports, .leader => false
| _, _ => true

/- The launch and sample of every entry a side has made. -/
def rounds (log : Log) (p : Party) : List (Nat × Nat) :=
  match log with
  | .offsets => p.offsets.map (fun o => (o.launch, o.sample))
  | .rows => p.rows.map (fun row => (row.launch, row.sample))
  | .reports => p.reports.map (fun o => (o.launch, o.sample))

/- A side that keeps the log passes its operation there. -/
theorem path_pc
    {log : Log}
    {role : Role}
    (hKept : log.keptBy role = true) :
    (path role)[log.pc role]? = some log.op := by
  cases log <;> cases role <;>
    first
    | rfl
    | exact absurd hKept Bool.false_ne_true

/- The operation stands nowhere else on the path. -/
theorem pc_eq_of_path
    {log : Log}
    {role : Role}
    {pc : Nat}
    (hOp : (path role)[pc]? = some log.op) :
    pc = log.pc role := by
  cases log with
  | offsets =>
      rcases path_local.2.1 hOp with ⟨hRole, hPc⟩ | ⟨hRole, hPc⟩
      · rw [hRole]
        exact hPc
      · rw [hRole]
        exact hPc
  | rows =>
      rcases path_local.2.2 hOp with ⟨hRole, hPc⟩ | ⟨hRole, hPc⟩
      · rw [hRole]
        exact hPc
      · rw [hRole]
        exact hPc
  | reports => exact (path_store hOp).2

/- The operation of a log comes before the end of the path. -/
theorem pc_lt_syncLocal
    {log : Log}
    {role : Role}
    (hKept : log.keptBy role = true) :
    log.pc role < role.syncLocal :=
  lt_syncLocal_of_path (path_pc hKept)

end Log

/- The launch and sample of a round. -/
def roundKey (round : Nat) : Nat × Nat :=
  (round / 20, round % 20)

/- The round a cursor is in has the cursor's key. -/
theorem roundKey_round
    {c : Cursor}
    (hSample : c.sample < 20) :
    roundKey c.round = (c.launch, c.sample) := by
  unfold roundKey Cursor.round
  rw [Prod.mk.injEq]
  omega

/-
  Each log has one entry for every round up to the current
  one, in order.
-/
def LogsOk (role : Role) (p : Party) : Prop :=
  ∀ log : Log,
    log.keptBy role = true →
      log.rounds p =
        (List.range
          (p.cursor.round +
            if log.pc role < p.cursor.pc then 1 else 0)).map
          roundKey

namespace LogsOk

variable {role : Role} {p q : Party}

/- Nothing is logged before the first launch. -/
theorem start : LogsOk role Party.start := by
  intro log _
  cases log <;>
    simp [Log.rounds, Party.start, Cursor.round]

/- An operation is logged in its own log only. -/
theorem advance
    (hLogs : LogsOk role p)
    {op : Op}
    (hOp : (path role)[p.cursor.pc]? = some op)
    (hSample : p.cursor.sample < 20)
    (hCursor : q.cursor = p.cursor.advance)
    (hRounds :
      ∀ log : Log,
        log.keptBy role = true →
        log.rounds q =
          log.rounds p ++
            if op = log.op then
              [(p.cursor.launch, p.cursor.sample)]
            else
              []) :
    LogsOk role q := by
  intro log hKept
  have hBefore := hLogs log hKept
  rw [hRounds log hKept, hBefore, hCursor]
  by_cases hHere : op = log.op
  · rw [hHere] at hOp
    have hPc := Log.pc_eq_of_path hOp
    have hNot : ¬ log.pc role < p.cursor.pc := by omega
    have hNow : log.pc role < p.cursor.advance.pc := by
      simp only [Cursor.advance]
      omega
    have hKey := roundKey_round hSample
    rw [if_pos hHere, if_neg hNot, if_pos hNow, ← hKey]
    exact (List.map_append.symm).trans
      (congrArg _ List.range_succ.symm)
  · have hNe : p.cursor.pc ≠ log.pc role := by
      intro hPc
      rw [hPc, Log.path_pc hKept] at hOp
      exact hHere (Option.some.inj hOp).symm
    have hSame :
        log.pc role < p.cursor.advance.pc ↔
          log.pc role < p.cursor.pc := by
      simp only [Cursor.advance]
      omega
    rw [if_neg hHere, List.append_nil]
    simp only [hSame]
    rfl

/- The next sample keeps the logs in order. -/
theorem leaveSample
    (hLogs : LogsOk role p)
    (hSync : p.cursor.pc = role.syncLocal) :
    LogsOk role
      { p with cursor := p.cursor.leaveSample } := by
  intro log hKept
  have hPath := Log.pc_lt_syncLocal hKept
  have hBefore := hLogs log hKept
  rw [if_pos (by omega)] at hBefore
  have hRounds :
      log.rounds { p with cursor := p.cursor.leaveSample } =
        log.rounds p := by
    cases log <;> rfl
  rw [hRounds, hBefore]
  congr 2
  simp only [Cursor.leaveSample]
  split
  · rw [if_neg (Nat.not_lt_zero _)]
    simp only [Cursor.round]
    omega
  · simp only
    rw [if_pos (by omega)]
    rfl

/- The next launch keeps the logs in order. -/
theorem relaunch
    (hLogs : LogsOk role p)
    (hOver : role.syncLocal < p.cursor.pc)
    (hLast : p.cursor.sample = 19) :
    LogsOk role { p with cursor := p.cursor.relaunch } := by
  intro log hKept
  have hPath := Log.pc_lt_syncLocal hKept
  have hBefore := hLogs log hKept
  rw [if_pos (by omega)] at hBefore
  have hRounds :
      log.rounds { p with cursor := p.cursor.relaunch } =
        log.rounds p := by
    cases log <;> rfl
  rw [hRounds, hBefore]
  congr 2
  simp only [Cursor.relaunch, Cursor.round, hLast,
    Nat.not_lt_zero, if_false]
  omega

end LogsOk

/- Without timeouts every action keeps the logs in order. -/
theorem logsOk_step
    {pair : Pair}
    {s s' : PairState}
    {a : Action}
    (hSettled : Settled pair s)
    (hLogs : ∀ r, LogsOk r (s.party r))
    (hGuard : Unexhausted s a)
    (hEffect : Effect pair s a s') :
    ∀ r, LogsOk r (s'.party r) := by
  have hActor := hLogs a.role
  have hSample := hSettled.coupled.line.sample_lt a.role
  cases hEffect with
  | store m hOp =>
      apply forall_party_setParty hLogs
      apply hActor.advance hOp hSample rfl
      intro log hKept
      by_cases hReport : m = .report
      · subst hReport
        cases log <;>
          simp [Log.rounds, Log.op, Party.advance,
            Party.entry]
      · have hOther : Op.store m ≠ log.op := by
          cases log <;> simp [Log.op, hReport]
        rw [if_neg hOther]
        simp only [if_neg hReport]
        cases log <;> simp [Log.rounds, Party.advance]
  | accept m hOp _ =>
      apply forall_party_setParty hLogs
      apply hActor.advance hOp hSample rfl
      intro log _
      cases log <;> simp [Log.rounds, Log.op, Party.advance]
  | miss m _ _ _ =>
      exact forall_party_setParty hLogs hActor
  | exhaust m hOp hMiss hBound =>
      exact absurd (hGuard m hOp hMiss) hBound
  | readDelayreqTime hOp =>
      apply forall_party_setParty hLogs
      apply hActor.advance hOp hSample rfl
      intro log _
      cases log <;> simp [Log.rounds, Log.op, Party.advance]
  | storeOffset hOp =>
      apply forall_party_setParty hLogs
      apply hActor.advance hOp hSample rfl
      intro log _
      cases log <;>
        simp [Log.rounds, Log.op, Party.advance, Party.entry]
  | storeRow hOp =>
      apply forall_party_setParty hLogs
      apply hActor.advance hOp hSample rfl
      intro log _
      cases log <;>
        simp [Log.rounds, Log.op, Party.advance, Party.row]
  | clear m hOp =>
      apply forall_party_setParty hLogs
      apply hActor.advance hOp hSample rfl
      intro log _
      cases log <;> simp [Log.rounds, Log.op, Party.advance]
  | leaveSample hSync =>
      exact forall_party_setParty hLogs
        (hActor.leaveSample hSync)
  | relaunch hOver =>
      have hLine := hSettled.coupled.line
      have hLast := hLine.finished a.role
        (Nat.le_antisymm (hLine.pc_le a.role) hOver)
      exact forall_party_setParty hLogs
        (hActor.relaunch hOver hLast)

end Ptp

end FabricPerf
