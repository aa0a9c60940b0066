import FabricPerf.Ptp.Handshake

/-
  The latency that travels in a report word.

  The follower packs its signed latency above the kind bits
  and saves it in its own row; the leader unpacks the word
  it has accepted with a logical shift.

  Main declarations:
    * `Ptp.toInt_unpacked`
    * `Ptp.report_latency_iff`
-/

------------------------------------------------------------
-- Unpacking
------------------------------------------------------------

namespace FabricPerf

namespace Ptp

/- The bits of the latency that a report word has room for. -/
theorem toNat_unpacked (latency : BitVec 64) :
    (reportTag latency >>> 8).toNat =
      latency.toNat % 2 ^ 56 :=
  BitField.toNat_unpack latency 48 (by decide) (by decide)

/- The logical shift takes a negative latency for a large one. -/
theorem toInt_unpacked
    {latency : BitVec 64}
    (hLow : -2 ^ 55 ≤ latency.toInt)
    (hHigh : latency.toInt < 2 ^ 55) :
    (reportTag latency >>> 8).toInt =
      if 0 ≤ latency.toInt then latency.toInt
        else latency.toInt + 2 ^ 56 := by
  have hBits := toNat_unpacked latency
  have hWord := BitVec.toInt_eq_toNat_cond
    (reportTag latency >>> 8)
  have hLatency := BitVec.toInt_eq_toNat_cond latency
  have hBound := latency.isLt
  have hBelow : (reportTag latency >>> 8).toNat < 2 ^ 56 := by
    rw [hBits]
    exact Nat.mod_lt _ (by decide)
  split_ifs at hWord hLatency ⊢ <;> omega

------------------------------------------------------------
-- One Report
------------------------------------------------------------

namespace Party

/- A leader that accepts a report. -/
def acceptReport
    (q : Party)
    (t : BitVec 64)
    (slot : Slot) : Party :=
  { q.advance with regs := q.received t slot .report }

end Party

/-
  Every report is accepted, and the leader saves the latency
  that the follower saves exactly when it is not negative.
-/
theorem report_latency_iff
    (hostId deviceId ctaid : BitVec 32)
    (p q : Party)
    (t t' : BitVec 64)
    (hLow : -2 ^ 55 ≤ (p.latencyWord .follower).toInt)
    (hHigh : (p.latencyWord .follower).toInt < 2 ^ 55) :
    let slot := p.outgoing hostId deviceId ctaid t .report
    Message.report.accepts slot.tag = true ∧
      ((((q.acceptReport t' slot).latencyWord .leader).toInt =
          (p.latencyWord .follower).toInt) ↔
        0 ≤ (p.latencyWord .follower).toInt) := by
  intro slot
  constructor
  · exact Message.accepts_reportTag p.regs.latency
  · change
      (reportTag (p.latencyWord .follower) >>> 8).toInt =
          (p.latencyWord .follower).toInt ↔ _
    rw [toInt_unpacked hLow hHigh]
    split_ifs with hSign
    · exact ⟨fun _ => hSign, fun _ => rfl⟩
    · constructor
      · intro hSame
        omega
      · intro hNot
        exact absurd hNot hSign

/- A follower with the given four timestamps. -/
def timedFollower (t1 t2 t3 t4 : BitVec 64) : Party :=
  { Party.start with
    regs :=
      { Regs.start with
        followupTime := Traced.const t1
        syncTime := Traced.const t2
        delayreqTime := Traced.const t3
        delayrespTime := Traced.const t4 } }

/- A latency of 150 arrives. -/
theorem report_latency_150 :
    let p := timedFollower 100 300 400 500
    let slot := p.outgoing 0 1 0 500 .report
    (p.latencyWord .follower).toInt = 150 ∧
      Message.report.accepts slot.tag = true ∧
      (((Party.start.acceptReport 600 slot).latencyWord
            .leader).toInt =
          (p.latencyWord .follower).toInt ↔
        0 ≤ (p.latencyWord .follower).toInt) :=
  ⟨by decide,
    report_latency_iff 0 1 0 (timedFollower 100 300 400 500)
      Party.start 500 600 (by decide) (by decide)⟩

/- A latency of -1 is saved as 2^56 - 1 by the leader. -/
theorem not_report_latency :
    let p := timedFollower 102 100 400 400
    let slot := p.outgoing 0 1 0 500 .report
    (p.latencyWord .follower).toInt = -1 ∧
      Message.report.accepts slot.tag = true ∧
      ((Party.start.acceptReport 600 slot).latencyWord
          .leader).toInt = 72057594037927935 ∧
      ((Party.start.acceptReport 600 slot).latencyWord
          .leader).toInt ≠ (p.latencyWord .follower).toInt := by
  decide

end Ptp

end FabricPerf
