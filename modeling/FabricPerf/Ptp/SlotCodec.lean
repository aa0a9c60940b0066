import FabricPerf.Lib.RowMajor
import FabricPerf.Ptp.EntryBlock

/-
  The compact diagnostic slots of `latency.probe` and their
  decoder in `analysis/ptp_alignment.py`.

  A slot is a row-major position: a row for each source, a
  column for each destination other than the source, and
  within a pair the samples.  Both paths of the probe compute
  it in 32-bit registers.

  Main declarations:
    * `Ptp.decodePtpSlot_invOn`
    * `Ptp.Thread.writtenSlot`
    * `Ptp.decodePtpSlot_codec`
-/

------------------------------------------------------------
-- The Codec
------------------------------------------------------------

namespace FabricPerf

namespace Ptp

/- The pairs of distinct ranks up to `C`, and `S` samples. -/
def ptpTriples (S C : Nat) : Set (Nat × Nat × Nat) :=
  {t | t.1 ≤ C ∧ t.2.1 ≤ C ∧ t.1 ≠ t.2.1 ∧ t.2.2 < S}

/- The slot of a source, a destination and a sample. -/
def encodePtpSlot (S C : Nat) (t : Nat × Nat × Nat) : Nat :=
  (t.1 * C + (if t.2.1 < t.1 then t.2.1 else t.2.1 - 1)) * S +
    t.2.2

variable {S C : Nat}

/- The slot as a position of positions. -/
theorem encodePtpSlot_eq (t : Nat × Nat × Nat) :
    encodePtpSlot S C t =
      RowMajor.index S
        (RowMajor.index C t.1 (RowMajor.unskip t.1 t.2.1))
        t.2.2 := rfl

/- The decoder takes the positions apart. -/
theorem decodePtpSlot_index
    {src compactDst sample : Nat}
    (hDst : compactDst < C)
    (hSample : sample < S) :
    decodePtpSlot
        (RowMajor.index S (RowMajor.index C src compactDst)
          sample) S C =
      (src, RowMajor.skip src compactDst, sample) := by
  unfold decodePtpSlot
  simp only [RowMajor.index_div hSample,
    RowMajor.index_mod hSample, RowMajor.index_div hDst,
    RowMajor.index_mod hDst]
  rfl

/- Decoding a slot of the buffer gives a pair and a sample. -/
theorem mapsTo_decodePtpSlot :
    Set.MapsTo (fun k => decodePtpSlot k S C)
      (Set.Iio ((C + 1) * C * S)) (ptpTriples S C) := by
  intro k hK
  have hPair : k / S < (C + 1) * C := RowMajor.div_lt hK
  have hSrc : k / S / C < C + 1 := RowMajor.div_lt hPair
  have hDst : k / S % C < C := RowMajor.mod_lt hPair
  exact ⟨Nat.le_of_lt_succ hSrc, RowMajor.skip_le hDst,
    RowMajor.skip_ne _ _, RowMajor.mod_lt hK⟩

/- The slots of pairs and samples lie in the buffer. -/
theorem mapsTo_encodePtpSlot :
    Set.MapsTo (encodePtpSlot S C) (ptpTriples S C)
      (Set.Iio ((C + 1) * C * S)) := by
  rintro ⟨src, dst, sample⟩ ⟨hSrc, hDst, hNe, hSample⟩
  have hCompact : RowMajor.unskip src dst < C :=
    RowMajor.unskip_lt hSrc hDst hNe
  rw [encodePtpSlot_eq]
  exact RowMajor.index_lt
    (RowMajor.index_lt (Nat.lt_succ_of_le hSrc) hCompact)
    hSample

/- Decoder and formula are inverse to each other. -/
theorem decodePtpSlot_invOn :
    Set.InvOn (encodePtpSlot S C)
      (fun k => decodePtpSlot k S C)
      (Set.Iio ((C + 1) * C * S)) (ptpTriples S C) := by
  constructor
  · intro k _
    have hBack :
        RowMajor.unskip (k / S / C)
            (RowMajor.skip (k / S / C) (k / S % C)) =
          k / S % C :=
      RowMajor.unskip_skip _ _
    rw [encodePtpSlot_eq]
    change
      RowMajor.index S
          (RowMajor.index C (k / S / C)
            (RowMajor.unskip (k / S / C)
              (RowMajor.skip (k / S / C) (k / S % C))))
          (k % S) = k
    rw [hBack, RowMajor.index_div_mod, RowMajor.index_div_mod]
  · rintro ⟨src, dst, sample⟩ ⟨hSrc, hDst, hNe, hSample⟩
    have hCompact : RowMajor.unskip src dst < C :=
      RowMajor.unskip_lt hSrc hDst hNe
    change decodePtpSlot (encodePtpSlot S C _) S C = _
    rw [encodePtpSlot_eq, decodePtpSlot_index hCompact hSample,
      RowMajor.skip_unskip hNe]

------------------------------------------------------------
-- The Slots Of The Probe
------------------------------------------------------------

/- `%ptp_r33`: the slot of a source and the local rank. -/
def diagnosticSlot
    (src localRank sample : BitVec 32) : BitVec 32 :=
  let compactDst :=
    if localRank.ult src then localRank else localRank - 1
  (src * 7 + compactDst) * 20 + sample

namespace Thread

/-
  The slot that the code at a label stores into: the leader
  has the peer of its CTA as the source, the follower the
  leader rank.
-/
def writtenSlot (t : Thread) (c : Control) :
    Option (Nat × BitVec 32) :=
  match c.label with
  | .haveMessage .report =>
      some
        (t.ctaid.toNat,
          diagnosticSlot t.ctaid t.deviceId c.sample)
  | .haveMessage .delayresp =>
      some
        (c.leader.toNat,
          diagnosticSlot c.leader t.deviceId c.sample)
  | _ => none

end Thread

/- The slot of the handshake is the formula's. -/
theorem compactSlot_eq (deviceId peer sample : Nat) :
    compactSlot deviceId peer sample =
      encodePtpSlot 20 7 (peer, deviceId, sample) := rfl

/- In range, the registers hold the slot of the handshake. -/
theorem toNat_diagnosticSlot
    {src localRank sample : BitVec 32}
    (hSrc : src.toNat ≤ 7)
    (hLocal : localRank.toNat ≤ 7)
    (hNe : src.toNat ≠ localRank.toNat)
    (hSample : sample.toNat < 20) :
    (diagnosticSlot src localRank sample).toNat =
      compactSlot localRank.toNat src.toNat
        sample.toNat := by
  unfold diagnosticSlot compactSlot BitVec.ult
  simp only [decide_eq_true_eq]
  split
  case isTrue hLess =>
      simp only [BitVec.toNat_add, BitVec.toNat_mul,
        BitVec.ofNat_eq_ofNat, BitVec.toNat_ofNat]
      omega
  case isFalse hLess =>
      simp only [BitVec.toNat_add, BitVec.toNat_mul,
        BitVec.toNat_sub, BitVec.ofNat_eq_ofNat,
        BitVec.toNat_ofNat]
      omega

------------------------------------------------------------
-- Who Runs Which Path
------------------------------------------------------------

/-
  What a thread has been checked for at each label: rank 0
  leads, and only in the CTA of another rank.
-/
def PathOk (t : Thread) (c : Control) : Prop :=
  match c.label with
  | .sampleLoop | .syncLocal => c.leader = 0
  | .leaderPath => c.leader = 0 ∧ t.deviceId = 0
  | .followerPath => c.leader = 0 ∧ t.deviceId ≠ 0
  | .waitMessage m | .haveMessage m =>
      c.leader = 0 ∧
        match m.reader with
        | .leader =>
            t.deviceId = 0 ∧ t.ctaid ≠ 0 ∧
              t.ctaid.ult t.numDevices = true
        | .follower => t.deviceId ≠ 0
  | .leaderLoop => c.leader = 0
  | _ => True

/- The waits of a path are on messages of one reader. -/
theorem reader_nextWait
    {m next : Message}
    (hNext : m.nextWait = some next) :
    next.reader = m.reader := by
  cases m <;> cases hNext <;> rfl

/- Every step keeps what the thread has been checked for. -/
theorem pathOk_next
    {t : Thread}
    {c c' : Control}
    {a : Answer}
    (hOk : PathOk t c)
    (hNext : t.next c a = some c') :
    PathOk t c' := by
  rcases c with
    ⟨label, polls, sense, row, leader, sample, bars, left⟩
  cases label with
  | entry =>
      simp only [Thread.next, Control.goto] at hNext
      split_ifs at hNext <;> cases hNext
      · trivial
      · trivial
      · rfl
  | leaderLoop =>
      cases hNext
      exact hOk
  | sampleLoop =>
      have hLeader : leader = 0 := hOk
      simp only [Thread.next, Control.goto] at hNext
      split_ifs at hNext with hOwn <;> cases hNext
      · exact ⟨hLeader, hOwn.trans hLeader⟩
      · refine ⟨hLeader, ?_⟩
        rw [← hLeader]
        exact hOwn
  | leaderPath =>
      rcases hOk with ⟨hLeader, hDevice⟩
      change leader = 0 at hLeader
      simp only [Thread.next, Control.goto,
        Control.startWait] at hNext
      split_ifs at hNext with hRuns <;> cases hNext
      · rw [hLeader] at hRuns
        exact ⟨hLeader, hDevice, hRuns.2.1, hRuns.2.2⟩
      · exact hLeader
  | followerPath =>
      rcases hOk with ⟨hLeader, hDevice⟩
      simp only [Thread.next, Control.goto,
        Control.startWait] at hNext
      split_ifs at hNext <;> cases hNext
      · exact hLeader
      · exact ⟨hLeader, hDevice⟩
  | waitMessage m =>
      simp only [Thread.next, Control.goto] at hNext
      split_ifs at hNext <;> cases hNext
      · exact hOk
      · exact hOk
      · exact hOk.1
  | haveMessage m =>
      cases hWait : m.nextWait with
      | some next =>
          simp only [Thread.next, hWait, Control.startWait,
            Option.some.injEq] at hNext
          cases hNext
          refine ⟨hOk.1, ?_⟩
          rw [reader_nextWait hWait]
          exact hOk.2
      | none =>
          simp only [Thread.next, hWait, Control.goto,
            Option.some.injEq] at hNext
          cases hNext
          exact hOk.1
  | syncLocal =>
      simp only [Thread.next, Control.goto] at hNext
      split_ifs at hNext <;> cases hNext
      · exact hOk
      · trivial
      · trivial
  | arrive | barrierWait | done | saveLoop =>
      simp only [Thread.next, Control.goto,
        Control.leave] at hNext
      split_ifs at hNext <;> cases hNext <;> trivial
  | readSense | barrierRelease | raiseSense | afterGridbar =>
      cases hNext
      trivial
  | doneExit =>
      simp [Thread.next] at hNext

/- The checks hold in every reachable state of a thread. -/
theorem pathOk_of_reachable
    {t : Thread}
    {c : Control}
    (hReach : (entryBlock t).Reachable c) :
    PathOk t c := by
  refine Machine.Reach.invariant (PathOk t) ?_ ?_ hReach
  · intro c hEnters
    simp only [PathOk, hEnters.label]
  · intro c a c' hOk _ hNext
    exact pathOk_next hOk hNext

------------------------------------------------------------
-- Written Slots
------------------------------------------------------------

/- A slot is stored for a source other than the local rank. -/
theorem writtenSlot_cases
    {t : Thread}
    {c : Control}
    (hRank : t.deviceId.toNat < t.numDevices.toNat)
    (hReach : (entryBlock t).Reachable c)
    {src : Nat}
    {slot : BitVec 32}
    (hSlot : t.writtenSlot c = some (src, slot)) :
    (src, t.deviceId.toNat, c.sample.toNat) ∈
        ptpTriples 20 7 ∧
      slot.toNat =
        compactSlot t.deviceId.toNat src c.sample.toNat := by
  have hPath := pathOk_of_reachable hReach
  have hBlock := blockOk_of_reachable hReach
  unfold Thread.writtenSlot at hSlot
  split at hSlot
  case h_1 hLabel =>
      -- the leader path, in the CTA of the source
      cases hSlot
      simp only [PathOk, hLabel] at hPath
      simp only [BlockOk, hLabel] at hBlock
      rcases hPath with ⟨_, hDevice, hOther, hBelow⟩
      rcases hBlock with ⟨⟨_, hEight⟩, hSample, _⟩
      have hZero : t.deviceId.toNat = 0 := by
        rw [hDevice]
        rfl
      have hCta : t.ctaid.toNat < t.numDevices.toNat := by
        simpa [BitVec.ult] using hBelow
      have hNe : t.ctaid.toNat ≠ t.deviceId.toNat := by
        rw [hZero]
        exact fun hEq => hOther (BitVec.eq_of_toNat_eq hEq)
      have hSrc : t.ctaid.toNat ≤ 7 := by omega
      have hLocal : t.deviceId.toNat ≤ 7 := by omega
      exact ⟨⟨hSrc, hLocal, hNe, hSample⟩,
        toNat_diagnosticSlot hSrc hLocal hNe hSample⟩
  case h_2 hLabel =>
      -- the follower path: the leader is the source
      cases hSlot
      simp only [PathOk, hLabel] at hPath
      simp only [BlockOk, hLabel] at hBlock
      rcases hPath with ⟨hLeader, hDevice⟩
      rcases hBlock with ⟨⟨_, hEight⟩, hSample, _⟩
      have hZero : c.leader.toNat = 0 := by
        rw [hLeader]
        rfl
      have hNe : c.leader.toNat ≠ t.deviceId.toNat := by
        rw [hZero]
        exact fun hEq =>
          hDevice (BitVec.eq_of_toNat_eq hEq.symm)
      have hSrc : c.leader.toNat ≤ 7 := by omega
      have hLocal : t.deviceId.toNat ≤ 7 := by omega
      exact ⟨⟨hSrc, hLocal, hNe, hSample⟩,
        toNat_diagnosticSlot hSrc hLocal hNe hSample⟩
  case h_3 =>
      cases hSlot

/-
  The decoder is a bijection from the slots onto the pairs
  and samples, with the formula as its inverse, and it
  recovers the pair and sample of every slot that a thread
  of the probe stores into; those are among the 1120 rows
  that are saved.
-/
theorem decodePtpSlot_codec :
    (∀ S C, 1 ≤ S → 1 ≤ C →
      Set.BijOn (fun k => decodePtpSlot k S C)
          (Set.Iio ((C + 1) * C * S)) (ptpTriples S C) ∧
        Set.InvOn (encodePtpSlot S C)
          (fun k => decodePtpSlot k S C)
          (Set.Iio ((C + 1) * C * S)) (ptpTriples S C)) ∧
      ∀ (t : Thread) (c : Control),
        t.deviceId.toNat < t.numDevices.toNat →
          (entryBlock t).Reachable c →
            ∀ src slot, t.writtenSlot c = some (src, slot) →
              slot.toNat < 1120 ∧
                decodePtpSlot slot.toNat 20 7 =
                  (src, t.deviceId.toNat, c.sample.toNat) := by
  constructor
  · intro S C _ _
    exact ⟨decodePtpSlot_invOn.bijOn mapsTo_decodePtpSlot
      mapsTo_encodePtpSlot, decodePtpSlot_invOn⟩
  · intro t c hRank hReach src slot hSlot
    rcases writtenSlot_cases hRank hReach hSlot with
      ⟨hTriple, hFormula⟩
    rw [hFormula, compactSlot_eq]
    exact ⟨mapsTo_encodePtpSlot hTriple,
      decodePtpSlot_invOn.2 hTriple⟩

/- Rank 0 of two, in the CTA of rank 1. -/
def leaderThread : Thread where
  numDevices := 2
  deviceId := 0
  nctaid := 2
  ctaid := 1
  tid := 0
  laneid := 0

/- A thread about to enter the block. -/
def entering : Control where
  label := .entry
  polls := 0
  sense := 0
  row := 0
  leader := 0
  sample := 0
  bars := 0
  left := none

/- The labels up to an accepted report of the first sample. -/
def firstReport : List Answer :=
  [⟨0, 0⟩, ⟨0, 0⟩, ⟨0, 0⟩, ⟨0, 0⟩, ⟨96, 0⟩, ⟨0, 0⟩,
    ⟨32, 0⟩, ⟨0, 0⟩, ⟨48, 0⟩]

/- The thread when it has accepted that report. -/
def reportAccepted : Control :=
  { entering with label := .haveMessage .report }

/- The leader's first row, at the default radices. -/
theorem decodePtpSlot_codec_leader :
    Set.BijOn (fun k => decodePtpSlot k 20 7)
        (Set.Iio 1120) (ptpTriples 20 7) ∧
      (entryBlock leaderThread).Reachable reportAccepted ∧
      leaderThread.writtenSlot reportAccepted =
        some (1, 140) ∧
      (140 : BitVec 32).toNat < 1120 ∧
      decodePtpSlot (140 : BitVec 32).toNat 20 7 =
        (1, 0, 0) := by
  have hRun :
      (entryBlock leaderThread).run entering firstReport =
        some reportAccepted := by
    decide
  have hReach :
      (entryBlock leaderThread).Reachable reportAccepted :=
    Machine.reachable_of_run
      (Machine.Reach.init ⟨rfl, rfl, rfl⟩) hRun
  have hSlot :
      leaderThread.writtenSlot reportAccepted =
        some (1, 140) := by
    decide
  have hCodec := decodePtpSlot_codec.1 20 7 (by decide) (by decide)
  exact ⟨hCodec.1, hReach, hSlot,
    decodePtpSlot_codec.2 leaderThread reportAccepted
      (by decide) hReach 1 140 hSlot⟩

end Ptp

end FabricPerf
