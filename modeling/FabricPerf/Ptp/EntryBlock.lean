import FabricPerf.Lib.Halting
import FabricPerf.Ptp.Messages

/-
  The control flow of the PTP block at kernel entry
  (`probe.ptp_metrics.before`), for one thread.

  A step runs from one label to the next.  It keeps the
  registers that decide branches; what a global load or an
  atomic returns comes from outside.  Every branch of the
  block appears, every poll loop with its own reset of the
  one counter `%ptp_r6` they share.

  Main declarations:
    * `Ptp.entryBlock`
    * `Ptp.entryBlock_halts`
    * `Ptp.blockOk_of_reachable`
-/

------------------------------------------------------------
-- Threads And Labels
------------------------------------------------------------

namespace FabricPerf

namespace Ptp

/- What the threads of one CTA share. -/
structure Cta where
  numDevices : BitVec 32
  deviceId : BitVec 32
  nctaid : BitVec 32
  ctaid : BitVec 32
deriving DecidableEq, Repr

/- One thread of a CTA. -/
structure Thread extends Cta where
  tid : BitVec 32
  laneid : BitVec 32
deriving DecidableEq, Repr

/-
  The labels of the block.  `waitMessage m` and
  `haveMessage m` are the labels `$L__ptp_wait_<m>` and
  `$L__ptp_have_<m>`; `entry`, `readSense`, `arrive` and
  `raiseSense` name places that need no label in the source.
-/
inductive Label where
| entry
| leaderLoop
| sampleLoop
| leaderPath
| followerPath
| waitMessage (m : Message)
| haveMessage (m : Message)
| syncLocal
| readSense
| arrive
| barrierRelease
| raiseSense
| barrierWait
| afterGridbar
| done
| saveLoop
| doneExit
deriving DecidableEq, Repr

/- How a thread has left the grid barrier. -/
inductive Leave where
| release
| seen
| gaveUp
deriving DecidableEq, Repr

/-
  A thread at a label and its registers `%ptp_r6`,
  `%ptp_r13`, `%ptp_r21`, `%ptp_r30` and `%ptp_r31`.  The
  number of executed `bar.sync` and the way out of the grid
  barrier are history.
-/
structure Control where
  label : Label
  polls : BitVec 32
  sense : BitVec 32
  row : BitVec 32
  leader : BitVec 32
  sample : BitVec 32
  bars : Nat
  left : Option Leave
deriving DecidableEq, Repr

/-
  What a step reads from memory: the tag word of a message
  slot, or the 32-bit word of a barrier load or atomic.
-/
structure Answer where
  tag : BitVec 64
  word : BitVec 32
deriving DecidableEq, Repr

------------------------------------------------------------
-- Steps
------------------------------------------------------------

/-
  The wait that follows the code at `$L__ptp_have_<m>`, if
  that code does not run into `$L__ptp_sync_local`.
-/
def Message.nextWait : Message → Option Message
| .connresp => some .delayreq
| .delayreq => some .report
| .report => none
| .connreq => some .sync
| .sync => some .followup
| .followup => some .delayresp
| .delayresp => none

namespace Control

/- Branch or fall through to a label. -/
def goto (c : Control) (label : Label) : Control :=
  { c with label := label }

/- `mov.u32 %ptp_r6, 0` in front of a message wait. -/
def startWait (c : Control) (m : Message) : Control :=
  { c with label := .waitMessage m, polls := 0 }

/- Leave the grid barrier. -/
def leave (c : Control) (way : Leave) : Control :=
  { c with label := .afterGridbar, left := some way }

end Control

/- From one label to the next; none at the end of the block. -/
def Thread.next
    (t : Thread)
    (c : Control)
    (a : Answer) : Option Control :=
  match c.label with
  | .entry =>
      if t.numDevices.ult 2 then
        some (c.goto .doneExit)
      else if BitVec.ult 8 t.numDevices then
        some (c.goto .doneExit)
      else
        some { c with label := .leaderLoop, leader := 0 }
  | .leaderLoop =>
      some { c with label := .sampleLoop, sample := 0 }
  | .sampleLoop =>
      if t.deviceId = c.leader then
        some (c.goto .leaderPath)
      else
        some (c.goto .followerPath)
  | .leaderPath =>
      if t.tid = 0 ∧ t.ctaid ≠ c.leader ∧
          t.ctaid.ult t.numDevices = true then
        some (c.startWait .connresp)
      else
        some (c.goto .syncLocal)
  | .followerPath =>
      if t.ctaid ||| t.tid ≠ 0 then
        some (c.goto .syncLocal)
      else
        some (c.startWait .connreq)
  | .waitMessage m =>
      if m.accepts a.tag then
        some (c.goto (.haveMessage m))
      else if (c.polls + 1).ult 1048576 then
        some
          { c with
            label := .waitMessage m
            polls := c.polls + 1 }
      else
        some
          { c with
            label := .syncLocal
            polls := c.polls + 1 }
  | .haveMessage m =>
      match m.nextWait with
      | some next => some (c.startWait next)
      | none => some (c.goto .syncLocal)
  | .syncLocal =>
      let c :=
        { c with sample := c.sample + 1, bars := c.bars + 1 }
      if c.sample.ult 20 then
        some (c.goto .sampleLoop)
      else if t.tid ≠ 0 then
        some (c.goto .afterGridbar)
      else
        some (c.goto .readSense)
  | .readSense =>
      some { c with label := .arrive, sense := a.word }
  | .arrive =>
      if a.word = t.nctaid - 1 then
        some (c.goto .barrierRelease)
      else
        some { c with label := .barrierWait, polls := 0 }
  | .barrierRelease => some (c.goto .raiseSense)
  | .raiseSense => some (c.leave .release)
  | .barrierWait =>
      if a.word ≠ c.sense then
        some (c.leave .seen)
      else if (c.polls + 1).ult 1048576 then
        some
          { c with
            label := .barrierWait
            polls := c.polls + 1 }
      else
        some
          ({ c with polls := c.polls + 1 }.leave .gaveUp)
  | .afterGridbar =>
      some { c with label := .done, bars := c.bars + 1 }
  | .done =>
      if t.laneid ≠ 0 then
        some (c.goto .doneExit)
      else if t.ctaid ≠ 0 then
        some (c.goto .doneExit)
      else if t.tid >>> 5 ≠ 0 then
        some (c.goto .doneExit)
      else
        some { c with label := .saveLoop, row := 0 }
  | .saveLoop =>
      if (c.row + 1).ult 1120 then
        some { c with label := .saveLoop, row := c.row + 1 }
      else
        some { c with label := .doneExit, row := c.row + 1 }
  | .doneExit => none

/-
  A thread that enters the block; its registers hold
  anything.
-/
structure Control.Enters (c : Control) : Prop where
  label : c.label = .entry
  bars : c.bars = 0
  left : c.left = none

/- Whatever its registers hold, a thread can enter. -/
def Control.enter (c : Control) : Control :=
  { c with label := .entry, bars := 0, left := none }

/- Entering is how a thread enters. -/
theorem Control.enters_enter (c : Control) : c.enter.Enters :=
  ⟨rfl, rfl, rfl⟩

/- The block as a machine that is fed what memory returns. -/
def entryBlock (t : Thread) : Machine Control Answer where
  init := Control.Enters
  step := t.next

------------------------------------------------------------
-- Termination
------------------------------------------------------------

/-
  The three parts of the block: up to the leader loop, the
  sample loop, and what follows it.
-/
def Label.part : Label → Nat
| .entry | .leaderLoop => 2
| .sampleLoop | .leaderPath | .followerPath => 1
| .waitMessage _ | .haveMessage _ | .syncLocal => 1
| .readSense | .arrive | .barrierRelease | .raiseSense => 0
| .barrierWait | .afterGridbar | .done => 0
| .saveLoop | .doneExit => 0

/- The waits of a path that come after the message's own. -/
def Message.waitsLeft : Message → Nat
| .connresp => 2
| .delayreq => 1
| .report => 0
| .connreq => 3
| .sync => 2
| .followup => 1
| .delayresp => 0

/- Labels of one part in the order of the source, reversed. -/
def Label.rank : Label → Nat
| .entry => 1
| .leaderLoop => 0
| .sampleLoop => 11
| .leaderPath | .followerPath => 10
| .waitMessage m => 2 * m.waitsLeft + 2
| .haveMessage m => 2 * m.waitsLeft + 1
| .syncLocal => 0
| .readSense => 7
| .arrive => 6
| .barrierRelease => 5
| .raiseSense | .barrierWait => 4
| .afterGridbar => 3
| .done => 2
| .saveLoop => 1
| .doneExit => 0

namespace Control

/- The further samples, while the thread is in one. -/
def samplesLeft (c : Control) : Nat :=
  if c.label.part = 1 then Countdown.left 20 c.sample else 0

/- The further rounds of the loop the label heads. -/
def roundsLeft (c : Control) : Nat :=
  match c.label with
  | .saveLoop => Countdown.left 1120 c.row
  | _ => Countdown.left 1048576 c.polls

/-
  Part, samples, label, rounds: a step lowers the first of
  these that it changes.
-/
def measure (c : Control) : Nat ×ₗ Nat ×ₗ Nat ×ₗ Nat :=
  toLex
    (c.label.part, toLex
      (c.samplesLeft, toLex (c.label.rank, c.roundsLeft)))

/- An earlier component decides. -/
theorem measure_lt_iff (c d : Control) :
    c.measure < d.measure ↔
      c.label.part < d.label.part ∨
        c.label.part = d.label.part ∧
          (c.samplesLeft < d.samplesLeft ∨
            c.samplesLeft = d.samplesLeft ∧
              (c.label.rank < d.label.rank ∨
                c.label.rank = d.label.rank ∧
                  c.roundsLeft < d.roundsLeft)) := by
  simp [measure, Prod.Lex.toLex_lt_toLex]

/- Going on in the same sample to a label further down. -/
theorem measure_lt_of_rank
    {c d : Control}
    (hPart : c.label.part = d.label.part)
    (hSample : c.sample = d.sample)
    (hRank : c.label.rank < d.label.rank) :
    c.measure < d.measure := by
  rw [measure_lt_iff]
  have hSamples : c.samplesLeft = d.samplesLeft := by
    simp [samplesLeft, hPart, hSample]
  exact Or.inr ⟨hPart, Or.inr ⟨hSamples, Or.inl hRank⟩⟩

/- Another round of a loop at the same label. -/
theorem measure_lt_of_rounds
    {c d : Control}
    (hLabel : c.label = d.label)
    (hSample : c.sample = d.sample)
    (hRounds : c.roundsLeft < d.roundsLeft) :
    c.measure < d.measure := by
  rw [measure_lt_iff]
  have hSamples : c.samplesLeft = d.samplesLeft := by
    simp [samplesLeft, hLabel, hSample]
  simp [hLabel, hSamples, hRounds]

end Control

/- A message that is waited for later leaves fewer waits. -/
theorem Message.waitsLeft_nextWait
    {m next : Message}
    (hNext : m.nextWait = some next) :
    next.waitsLeft < m.waitsLeft := by
  cases m <;> cases next <;> simp_all [nextWait, waitsLeft]

/- Every step lowers the measure. -/
theorem Thread.measure_next
    (t : Thread)
    (c : Control)
    (a : Answer)
    (c' : Control)
    (hNext : t.next c a = some c') :
    c'.measure < c.measure := by
  rcases c with
    ⟨label, polls, sense, row, leader, sample, bars, left⟩
  cases label with
  | waitMessage m =>
      simp only [Thread.next, Control.goto] at hNext
      split_ifs at hNext with hAccepts hBelow
      · cases hNext
        refine Control.measure_lt_of_rank ?_ ?_ ?_ <;>
          simp [Label.rank, Label.part]
      · cases hNext
        refine Control.measure_lt_of_rounds ?_ ?_ ?_
        · simp
        · simp
        · exact Countdown.left_succ_lt hBelow
      · cases hNext
        refine Control.measure_lt_of_rank ?_ ?_ ?_ <;>
          simp [Label.rank, Label.part]
  | barrierWait =>
      simp only [Thread.next, Control.leave] at hNext
      split_ifs at hNext with hSeen hBelow
      · cases hNext
        refine Control.measure_lt_of_rank ?_ ?_ ?_ <;>
          simp [Label.rank, Label.part]
      · cases hNext
        refine Control.measure_lt_of_rounds ?_ ?_ ?_
        · simp
        · simp
        · exact Countdown.left_succ_lt hBelow
      · cases hNext
        refine Control.measure_lt_of_rank ?_ ?_ ?_ <;>
          simp [Label.rank, Label.part]
  | saveLoop =>
      simp only [Thread.next] at hNext
      split_ifs at hNext with hBelow
      · cases hNext
        refine Control.measure_lt_of_rounds ?_ ?_ ?_
        · simp
        · simp
        · exact Countdown.left_succ_lt hBelow
      · cases hNext
        refine Control.measure_lt_of_rank ?_ ?_ ?_ <;>
          simp [Label.rank, Label.part]
  | syncLocal =>
      simp only [Thread.next, Control.goto] at hNext
      rw [Control.measure_lt_iff]
      split_ifs at hNext with hBelow
      · cases hNext
        -- the only edge back: the next sample
        exact Or.inr ⟨rfl, Or.inl (Countdown.left_succ_lt hBelow)⟩
      · cases hNext
        simp [Label.part]
      · cases hNext
        simp [Label.part]
  | haveMessage m =>
      cases hWait : m.nextWait with
      | none =>
          simp only [Thread.next, hWait, Control.goto,
            Option.some.injEq] at hNext
          cases hNext
          refine Control.measure_lt_of_rank ?_ ?_ ?_ <;>
            simp [Label.rank, Label.part]
      | some next =>
          have hLess := Message.waitsLeft_nextWait hWait
          simp only [Thread.next, hWait, Control.startWait,
            Option.some.injEq] at hNext
          cases hNext
          refine Control.measure_lt_of_rank ?_ ?_ ?_
          · simp [Label.part]
          · simp
          · simp only [Label.rank]
            omega
  | leaderPath | followerPath =>
      simp only [Thread.next, Control.goto,
        Control.startWait] at hNext
      split_ifs at hNext <;> cases hNext <;>
        refine Control.measure_lt_of_rank ?_ ?_ ?_ <;>
        simp [Label.rank, Label.part, Message.waitsLeft]
  | entry =>
      rw [Control.measure_lt_iff]
      simp only [Thread.next, Control.goto] at hNext
      split_ifs at hNext <;> cases hNext <;>
        simp [Label.rank, Label.part, Control.samplesLeft]
  | leaderLoop =>
      rw [Control.measure_lt_iff]
      cases hNext
      simp [Label.part]
  | sampleLoop | arrive | done =>
      simp only [Thread.next, Control.goto] at hNext
      split_ifs at hNext <;> cases hNext <;>
        refine Control.measure_lt_of_rank ?_ ?_ ?_ <;>
        simp [Label.rank, Label.part]
  | readSense | barrierRelease | raiseSense | afterGridbar =>
      cases hNext
      refine Control.measure_lt_of_rank ?_ ?_ ?_ <;>
        simp [Label.rank, Label.part, Control.goto,
          Control.leave]
  | doneExit =>
      simp [Thread.next] at hNext

/- The block stops at its last label only. -/
theorem Thread.next_eq_none
    {t : Thread}
    {c : Control}
    {a : Answer}
    (hNext : t.next c a = none) :
    c.label = .doneExit := by
  rcases c with
    ⟨label, polls, sense, row, leader, sample, bars, left⟩
  cases label with
  | doneExit => rfl
  | haveMessage m =>
      cases hWait : m.nextWait <;>
        simp [Thread.next, hWait] at hNext
  | leaderLoop | readSense | barrierRelease | raiseSense
  | afterGridbar =>
      cases hNext
  | _ =>
      simp only [Thread.next] at hNext
      split_ifs at hNext

------------------------------------------------------------
-- Barriers Executed
------------------------------------------------------------

/- The world sizes the two guards at the top let through. -/
def Cta.Calibrates (cta : Cta) : Prop :=
  2 ≤ cta.numDevices.toNat ∧ cta.numDevices.toNat ≤ 8

instance Cta.decidableCalibrates (cta : Cta) :
    Decidable cta.Calibrates :=
  inferInstanceAs
    (Decidable
      (2 ≤ cta.numDevices.toNat ∧ cta.numDevices.toNat ≤ 8))

/- How often the block executes `bar.sync`. -/
def Cta.barSyncs (cta : Cta) : Nat :=
  if cta.Calibrates then 21 else 0

/-
  The `bar.sync` a thread has executed at each label: one a
  sample, and one at `$L__ptp_after_gridbar`.
-/
def BlockOk (t : Thread) (c : Control) : Prop :=
  match c.label with
  | .entry => c.bars = 0
  | .leaderLoop => t.Calibrates ∧ c.bars = 0
  | .sampleLoop | .leaderPath | .followerPath
  | .waitMessage _ | .haveMessage _ | .syncLocal =>
      t.Calibrates ∧ c.sample.toNat < 20 ∧
        c.bars = c.sample.toNat
  | .readSense | .arrive | .barrierRelease | .raiseSense
  | .barrierWait | .afterGridbar =>
      t.Calibrates ∧ c.bars = 20
  | .done | .saveLoop => t.Calibrates ∧ c.bars = 21
  | .doneExit => c.bars = t.barSyncs

/- The guards at the top of the block. -/
theorem calibrates_iff (cta : Cta) :
    cta.Calibrates ↔
      cta.numDevices.ult 2 = false ∧
        BitVec.ult 8 cta.numDevices = false := by
  simp only [Cta.Calibrates, BitVec.ult, decide_eq_false_iff_not,
    Nat.not_lt]
  rfl

/- The sample counter of a sample that is not the last. -/
theorem sample_succ
    {sample : BitVec 32}
    (hSample : sample.toNat < 20) :
    (sample + 1).toNat = sample.toNat + 1 := by
  rw [BitVec.toNat_add]
  simp
  omega

/- Every step keeps the count. -/
theorem blockOk_next
    {t : Thread}
    {c c' : Control}
    {a : Answer}
    (hOk : BlockOk t c)
    (hNext : t.next c a = some c') :
    BlockOk t c' := by
  rcases c with
    ⟨label, polls, sense, row, leader, sample, bars, left⟩
  cases label with
  | entry =>
      simp only [Thread.next, Control.goto] at hNext
      have hCalibrates := calibrates_iff t.toCta
      split_ifs at hNext with hLow hHigh
      · cases hNext
        have hOut : ¬ t.Calibrates := by
          intro hIn
          have hNotLow := (hCalibrates.mp hIn).1
          exact Bool.eq_false_iff.mp hNotLow hLow
        simpa [BlockOk, Cta.barSyncs, hOut] using hOk
      · cases hNext
        have hOut : ¬ t.Calibrates := by
          intro hIn
          have hNotHigh := (hCalibrates.mp hIn).2
          exact Bool.eq_false_iff.mp hNotHigh hHigh
        simpa [BlockOk, Cta.barSyncs, hOut] using hOk
      · cases hNext
        have hIn : t.Calibrates := by
          rw [hCalibrates]
          exact
            ⟨Bool.eq_false_iff.mpr hLow,
              Bool.eq_false_iff.mpr hHigh⟩
        exact ⟨hIn, hOk⟩
  | leaderLoop =>
      cases hNext
      exact ⟨hOk.1, by simp, by simpa using hOk.2⟩
  | waitMessage m =>
      simp only [Thread.next, Control.goto] at hNext
      split_ifs at hNext <;> cases hNext <;> exact hOk
  | haveMessage m =>
      cases hWait : m.nextWait <;>
        simp only [Thread.next, hWait, Control.goto,
          Control.startWait, Option.some.injEq] at hNext <;>
        cases hNext <;> exact hOk
  | syncLocal =>
      rcases hOk with ⟨hIn, hSample, hBars⟩
      change sample.toNat < 20 at hSample
      change bars = sample.toNat at hBars
      have hSucc := sample_succ hSample
      simp only [Thread.next, Control.goto] at hNext
      split_ifs at hNext with hBelow hOther
      · cases hNext
        have hNextSample : (sample + 1).toNat < 20 := by
          simpa [BitVec.ult] using hBelow
        have hNextBars : bars + 1 = (sample + 1).toNat := by
          rw [hSucc, hBars]
        exact ⟨hIn, hNextSample, hNextBars⟩
      all_goals
        cases hNext
        -- the last sample: nothing is left to count
        have hLast : 20 ≤ (sample + 1).toNat := by
          simpa [BitVec.ult] using hBelow
        have hNextBars : bars + 1 = 20 := by
          rw [hBars]
          omega
        exact ⟨hIn, hNextBars⟩
  | afterGridbar =>
      cases hNext
      exact ⟨hOk.1, by simpa using hOk.2⟩
  | done | saveLoop =>
      have hCount : bars = t.barSyncs := by
        simpa [Cta.barSyncs, hOk.1] using hOk.2
      simp only [Thread.next, Control.goto] at hNext
      split_ifs at hNext <;> cases hNext <;>
        first | exact hCount | exact hOk
  | sampleLoop | leaderPath | followerPath =>
      simp only [Thread.next, Control.goto,
        Control.startWait] at hNext
      split_ifs at hNext <;> cases hNext <;> exact hOk
  | arrive | barrierWait =>
      simp only [Thread.next, Control.goto,
        Control.leave] at hNext
      split_ifs at hNext <;> cases hNext <;> exact hOk
  | readSense | barrierRelease | raiseSense =>
      cases hNext
      exact hOk
  | doneExit =>
      simp [Thread.next] at hNext

/- The count holds in every reachable state of a thread. -/
theorem blockOk_of_reachable
    {t : Thread}
    {c : Control}
    (hReach : (entryBlock t).Reachable c) :
    BlockOk t c := by
  refine Machine.Reach.invariant (BlockOk t) ?_ ?_ hReach
  · intro c hEnters
    have hBars := hEnters.bars
    simpa [BlockOk, hEnters.label] using hBars
  · intro c a c' hOk _ hNext
    exact blockOk_next hOk hNext

/-
  A thread leaves the block whatever memory returns, with
  the count that its CTA shares.
-/
theorem entryBlock_halts
    (t : Thread)
    {c : Control}
    (hEnters : c.Enters)
    (answers : Nat → Answer) :
    ∃ last,
      (entryBlock t).Halts c answers last ∧
        last.label = .doneExit ∧
        last.bars = t.barSyncs := by
  have hStops :=
    Machine.exists_halts (M := entryBlock t)
      Control.measure t.measure_next c answers
  rcases hStops with ⟨last, hHalts⟩
  have hLabel : last.label = .doneExit := by
    rcases hHalts with ⟨n, hRun, hRefuses⟩
    exact Thread.next_eq_none hRefuses
  have hOk := blockOk_of_reachable (hHalts.reachable hEnters)
  have hBars : last.bars = t.barSyncs := by
    simpa [BlockOk, hLabel] using hOk
  exact ⟨last, hHalts, hLabel, hBars⟩

end Ptp

end FabricPerf
