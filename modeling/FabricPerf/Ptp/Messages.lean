import FabricPerf.Lib.BitField
import Mathlib.Tactic

/-
  The messages of the PTP handshake in `latency.probe`:
  their tag words, the slots they travel through, and the
  compact diagnostic slots of the completed samples.

  Main declarations:
    * `Ptp.Message.accepts_tag`
    * `Ptp.slotAddr_injective`
    * `Ptp.decodePtpSlot_compactSlot`
-/

------------------------------------------------------------
-- Roles And Messages
------------------------------------------------------------

namespace FabricPerf

namespace Ptp

/- Rank 0 leads a pair; the other rank follows. -/
inductive Role where
| leader
| follower
deriving DecidableEq, Repr

/- The peer's role. -/
def Role.other : Role → Role
| .leader => .follower
| .follower => .leader

/- The seven message slots of one sample. -/
inductive Message where
| connreq
| sync
| followup
| delayresp
| connresp
| delayreq
| report
deriving DecidableEq, Repr

namespace Message

/- The side that stores the message. -/
def writer : Message → Role
| .connreq | .sync | .followup | .delayresp => .leader
| .connresp | .delayreq | .report => .follower

/- The side that polls for the message and clears its slot. -/
def reader (m : Message) : Role :=
  m.writer.other

/- The value of tag bits 4..7 that a poll waits for. -/
def kind : Message → BitVec 64
| .connreq => 80
| .sync => 16
| .followup => 112
| .delayresp => 128
| .connresp => 96
| .delayreq => 32
| .report => 48

/- The poll condition: `and.b64 240`, then `setp.eq.s64`. -/
def accepts (m : Message) (tag : BitVec 64) : Bool :=
  tag &&& 240 == m.kind

/-
  The constant or-ed into the tag base. Follow-up and
  delay-response words carry bits above the kind nibble.
-/
def tagBits : Message → BitVec 64
| .connreq => 80
| .sync => 16
| .followup => 368
| .delayresp => 896
| .connresp => 96
| .delayreq => 32
| .report => 48

end Message

------------------------------------------------------------
-- Tag Words
------------------------------------------------------------

/-
  Bits 16 and up of every tag: `ctaid` at bit 48, the
  device rank at bit 32, and the signed host id at bit 16.
-/
def tagBase (hostId deviceId ctaid : BitVec 32) : BitVec 64 :=
  (ctaid.setWidth 64 <<< 48 ||| hostId.signExtend 64 * 65536) |||
    deviceId.setWidth 64 <<< 32

/- The tag of a message that carries a timestamp. -/
def tagWord
    (hostId deviceId ctaid : BitVec 32)
    (m : Message) : BitVec 64 :=
  tagBase hostId deviceId ctaid ||| m.tagBits

/- The report tag holds the pair latency above bit 8. -/
def reportTag (latency : BitVec 64) : BitVec 64 :=
  latency <<< 8 ||| 48

/- Nothing in the tag base reaches the kind nibble. -/
theorem tagBase_and_kind_mask
    (hostId deviceId ctaid : BitVec 32) :
    tagBase hostId deviceId ctaid &&& 240 = 0#64 := by
  have hHost :
      hostId.signExtend 64 * 65536 =
        hostId.signExtend 64 <<< 16 := by
    have hPow := BitVec.mul_twoPow_eq_shiftLeft
      (hostId.signExtend 64) 16
    rw [← hPow]
    rfl
  rw [tagBase, hHost, BitVec.and_or_distrib_right,
    BitVec.and_or_distrib_right,
    BitField.shiftLeft_and_of_lt _ _ (by decide),
    BitField.shiftLeft_and_of_lt _ _ (by decide),
    BitField.shiftLeft_and_of_lt _ _ (by decide)]
  rfl

namespace Message

/- Every timestamp message passes its reader's poll test. -/
theorem accepts_tagWord
    (hostId deviceId ctaid : BitVec 32)
    (m : Message) :
    m.accepts (tagWord hostId deviceId ctaid m) = true := by
  have hBits : m.tagBits &&& 240 = m.kind := by
    cases m <;> decide
  rw [accepts, tagWord, BitVec.and_or_distrib_right,
    tagBase_and_kind_mask, hBits, BitVec.zero_or]
  exact beq_self_eq_true _

/- A report passes the leader's poll test at every latency. -/
theorem accepts_reportTag (latency : BitVec 64) :
    Message.report.accepts (reportTag latency) = true := by
  rw [accepts, reportTag, BitVec.and_or_distrib_right,
    BitField.shiftLeft_and_of_lt _ _ (by decide)]
  decide

/- A cleared slot passes no poll test. -/
theorem not_accepts_zero (m : Message) :
    m.accepts 0 = false := by
  cases m <;> decide

/- An accepted tag is not the tag of a cleared slot. -/
theorem tag_ne_zero_of_accepts
    {m : Message}
    {tag : BitVec 64}
    (hAccepts : m.accepts tag = true) :
    tag ≠ 0 := by
  intro hZero
  rw [hZero, not_accepts_zero] at hAccepts
  exact Bool.false_ne_true hAccepts

end Message

------------------------------------------------------------
-- Slot Addresses
------------------------------------------------------------

/-
  Where a message slot lives: in the leader rank's leader
  buffer, or in a follower rank's follower buffer.
-/
inductive SlotAddr where
| leaderBuff (index : Nat)
| followerBuff (rank index : Nat)
deriving DecidableEq, Repr

/-
  The slot of a message of one sample.  The leader buffer
  has three slots for each sample and follower rank, the
  follower buffer five (one of them unused) for each sample.
-/
def slotAddr
    (numDevices follower sample : Nat) :
    Message → SlotAddr
| .connreq => .followerBuff follower (sample * 5)
| .sync => .followerBuff follower (sample * 5 + 1)
| .followup => .followerBuff follower (sample * 5 + 2)
| .delayresp => .followerBuff follower (sample * 5 + 3)
| .connresp =>
    .leaderBuff ((numDevices * sample + follower) * 3)
| .delayreq =>
    .leaderBuff ((numDevices * sample + follower) * 3 + 1)
| .report =>
    .leaderBuff ((numDevices * sample + follower) * 3 + 2)

/- Row-major positions of bounded columns are distinct. -/
theorem rowMajor_inj
    {n i j a b : Nat}
    (hA : a < n)
    (hB : b < n)
    (hEq : n * i + a = n * j + b) :
    i = j ∧ a = b := by
  have hPos : 0 < n := by omega
  have hRow : i = j := by
    have hDiv := congrArg (· / n) hEq
    simpa [Nat.mul_add_div hPos, Nat.div_eq_of_lt hA,
      Nat.div_eq_of_lt hB] using hDiv
  subst hRow
  exact ⟨rfl, by omega⟩

/- Different pairs, samples or messages use different slots. -/
theorem slotAddr_injective
    {numDevices follower follower' sample sample' : Nat}
    {m m' : Message}
    (hFollower : follower < numDevices)
    (hFollower' : follower' < numDevices)
    (hEq :
      slotAddr numDevices follower sample m =
        slotAddr numDevices follower' sample' m') :
    follower = follower' ∧ sample = sample' ∧ m = m' := by
  cases m <;> cases m' <;>
    simp only [slotAddr, SlotAddr.followerBuff.injEq,
      SlotAddr.leaderBuff.injEq, reduceCtorEq] at hEq <;>
    first
    | exact ⟨hEq.1, by omega, rfl⟩
    | omega
    | (have hRow :
          numDevices * sample + follower =
            numDevices * sample' + follower' := by
          omega
       have hParts := rowMajor_inj hFollower hFollower' hRow
       exact ⟨hParts.2, hParts.1, rfl⟩)

------------------------------------------------------------
-- Diagnostic Slots
------------------------------------------------------------

/-
  The compact diagnostic slot of the result buffer: the
  peer's row, the local rank without the peer, the sample.
-/
def compactSlot (deviceId peer sample : Nat) : Nat :=
  (peer * 7 +
    (if deviceId < peer then deviceId else deviceId - 1)) *
      20 + sample

/- `decode_ptp_slot` of `ptp_alignment.py`. -/
def decodePtpSlot
    (slotIndex samplesPerPair compactDsts : Nat) :
    Nat × Nat × Nat :=
  let pairIndex := slotIndex / samplesPerPair
  let sampleIndex := slotIndex % samplesPerPair
  let src := pairIndex / compactDsts
  let compactDst := pairIndex % compactDsts
  let dst :=
    if compactDst < src then compactDst else compactDst + 1
  (src, dst, sampleIndex)

/- The decoder recovers the pair and sample of a slot. -/
theorem decodePtpSlot_compactSlot
    {deviceId peer sample : Nat}
    (hDevice : deviceId ≤ 7)
    (hPeer : peer ≤ 7)
    (hNe : deviceId ≠ peer)
    (hSample : sample < 20) :
    decodePtpSlot (compactSlot deviceId peer sample) 20 7 =
      (peer, deviceId, sample) := by
  have hDst :
      (if deviceId < peer then deviceId else deviceId - 1) <
        7 := by
    split <;> omega
  have hPair :
      compactSlot deviceId peer sample / 20 =
        peer * 7 +
          (if deviceId < peer then deviceId
            else deviceId - 1) := by
    unfold compactSlot
    omega
  have hSampleIndex :
      compactSlot deviceId peer sample % 20 = sample := by
    unfold compactSlot
    omega
  have hSrc :
      compactSlot deviceId peer sample / 20 / 7 = peer := by
    rw [hPair]
    omega
  have hCompact :
      compactSlot deviceId peer sample / 20 % 7 =
        if deviceId < peer then deviceId
          else deviceId - 1 := by
    rw [hPair]
    omega
  simp only [decodePtpSlot, hSrc, hCompact, hSampleIndex]
  by_cases hLess : deviceId < peer
  · simp [hLess]
  · have hBelow : ¬ deviceId - 1 < peer := by omega
    have hBack : deviceId - 1 + 1 = deviceId := by omega
    simp [hLess, hBelow, hBack]

end Ptp

end FabricPerf
