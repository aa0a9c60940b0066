import FabricPerf.Latency.Hooks
import FabricPerf.Ptp.EntryBlock

/-
  The control flow of the receive hook
  (`probe.recv_latency.after`), and both inserted blocks'
  termination.  The send hook has no loop.

  Main declarations:
    * `Latency.receiveBlock`
    * `Latency.probes_halt`
-/

------------------------------------------------------------
-- The Receive Hook
------------------------------------------------------------

namespace FabricPerf

namespace Latency

/- What one execution of the hook takes its branches by. -/
structure RecvThread where
  deviceId : BitVec 32
  numDevices : BitVec 32
  recvPeer : BitVec 32
  vblock : BitVec 32
  runId : BitVec 32
  recvStep : BitVec 64
deriving DecidableEq, Repr

/- The labels of the hook; `entry` is its first line. -/
inductive RecvLabel where
| entry
| waitMsg
| waitMsgLoop
| haveMsg
| done
deriving DecidableEq, Repr

/- A hook at a label, and its register `%srlat_r5`. -/
structure RecvControl where
  label : RecvLabel
  misses : BitVec 32
deriving DecidableEq, Repr

/-
  From one label to the next, given the tag word that a poll
  loads; none at the end of the hook.
-/
def RecvThread.next
    (t : RecvThread)
    (c : RecvControl)
    (tag : BitVec 64) : Option RecvControl :=
  match c.label with
  | .entry =>
      if t.numDevices.ule t.recvPeer then
        some { c with label := .done }
      else if t.recvPeer = t.deviceId then
        some { c with label := .done }
      else if BitVec.ule 4096 t.vblock then
        some { c with label := .done }
      else
        some { c with label := .waitMsg }
  | .waitMsg =>
      some { label := .waitMsgLoop, misses := 0 }
  | .waitMsgLoop =>
      if tag = mailboxTag t.recvStep t.runId then
        some { c with label := .haveMsg }
      else if (c.misses + 1).ult 1048576 then
        some { label := .waitMsgLoop, misses := c.misses + 1 }
      else
        some { label := .done, misses := c.misses + 1 }
  | .haveMsg => some { c with label := .done }
  | .done => none

/- The hook as a machine that is fed what its polls load. -/
def receiveBlock (t : RecvThread) :
    Machine RecvControl (BitVec 64) where
  init := fun c => c.label = .entry
  step := t.next

/- Labels in the order of the source, reversed. -/
def RecvLabel.rank : RecvLabel → Nat
| .entry => 4
| .waitMsg => 3
| .waitMsgLoop => 2
| .haveMsg => 1
| .done => 0

/- The label, and the rounds its loop can still take. -/
def RecvControl.measure (c : RecvControl) : Nat ×ₗ Nat :=
  toLex (c.label.rank, Countdown.left 1048576 c.misses)

/- Every step lowers the measure. -/
theorem RecvThread.measure_next
    (t : RecvThread)
    (c : RecvControl)
    (tag : BitVec 64)
    (c' : RecvControl)
    (hNext : t.next c tag = some c') :
    c'.measure < c.measure := by
  rcases c with ⟨label, misses⟩
  simp only [RecvControl.measure, Prod.Lex.toLex_lt_toLex]
  cases label with
  | waitMsgLoop =>
      simp only [RecvThread.next] at hNext
      split_ifs at hNext with hHit hBelow
      · cases hNext
        simp [RecvLabel.rank]
      · cases hNext
        exact Or.inr ⟨rfl, Countdown.left_succ_lt hBelow⟩
      · cases hNext
        simp [RecvLabel.rank]
  | entry =>
      simp only [RecvThread.next] at hNext
      split_ifs at hNext <;> cases hNext <;>
        simp [RecvLabel.rank]
  | waitMsg | haveMsg =>
      cases hNext
      simp [RecvLabel.rank]
  | done =>
      cases hNext

/- The hook stops at its last label only. -/
theorem RecvThread.next_eq_none
    {t : RecvThread}
    {c : RecvControl}
    {tag : BitVec 64}
    (hNext : t.next c tag = none) :
    c.label = .done := by
  rcases c with ⟨label, misses⟩
  cases label with
  | done => rfl
  | waitMsg | haveMsg =>
      cases hNext
  | entry | waitMsgLoop =>
      simp only [RecvThread.next] at hNext
      split_ifs at hNext

/- The hook ends whatever its polls load. -/
theorem receiveBlock_halts
    (t : RecvThread)
    (c : RecvControl)
    (tags : Nat → BitVec 64) :
    ∃ last,
      (receiveBlock t).Halts c tags last ∧
        last.label = .done := by
  have hStops :=
    Machine.exists_halts (M := receiveBlock t)
      RecvControl.measure t.measure_next c tags
  rcases hStops with ⟨last, hHalts⟩
  refine ⟨last, hHalts, ?_⟩
  rcases hHalts with ⟨n, hRun, hRefuses⟩
  exact RecvThread.next_eq_none hRefuses

------------------------------------------------------------
-- Both Blocks
------------------------------------------------------------

/-
  The inserted blocks end on every sequence of loaded
  values.  All threads of a CTA execute `bar.sync` equally
  often in the entry block: 21 times in a world of two to
  eight ranks, and never in any other.
-/
theorem probes_halt :
    (∀ cta : Ptp.Cta, ∃ count,
      (count =
        if 2 ≤ cta.numDevices.toNat ∧
            cta.numDevices.toNat ≤ 8 then 21 else 0) ∧
        ∀ (tid laneid : BitVec 32)
          (c : Ptp.Control)
          (answers : Nat → Ptp.Answer),
          ∃ last,
            (Ptp.entryBlock ⟨cta, tid, laneid⟩).Halts
              c.enter answers last ∧
              last.label = .doneExit ∧
              last.bars = count) ∧
      ∀ (t : RecvThread)
        (misses : BitVec 32)
        (tags : Nat → BitVec 64),
        ∃ last,
          (receiveBlock t).Halts
            ⟨.entry, misses⟩ tags last ∧
            last.label = .done := by
  constructor
  · intro cta
    refine ⟨cta.barSyncs, rfl, ?_⟩
    intro tid laneid c answers
    exact
      Ptp.entryBlock_halts ⟨cta, tid, laneid⟩
        c.enters_enter answers
  · intro t misses tags
    exact receiveBlock_halts t ⟨.entry, misses⟩ tags

end Latency

end FabricPerf
