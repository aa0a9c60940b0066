import FabricPerf.Lib.BitField
import Mathlib.Tactic

/-
  The words of the send and receive hooks of
  `latency.probe`: mailbox tags and addresses, published
  timestamps, and the rows the receive hook saves.

  Main declarations:
    * `Latency.mailboxTag_eq_iff`
    * `Latency.MailboxSlot`
    * `Latency.srLatencyRow`
    * `Latency.toNat_channelWord`
-/

------------------------------------------------------------
-- Mailbox Tags
------------------------------------------------------------

namespace FabricPerf

namespace Latency

/-
  The tag both hooks build: the FIFO step above bit 32, 24
  bits of `ptpRunId` above bit 8, and the message kind.
-/
def mailboxTag (step : BitVec 64) (runId : BitVec 32) :
    BitVec 64 :=
  (step <<< 32 |||
    (runId &&& 16777215).setWidth 64 <<< 8) ||| 160

/- The three fields of a tag do not overlap. -/
theorem toNat_mailboxTag
    (step : BitVec 64)
    (runId : BitVec 32) :
    (mailboxTag step runId).toNat =
      step.toNat % 2 ^ 32 * 2 ^ 32 +
        (runId.toNat % 2 ^ 24 * 2 ^ 8 + 160) := by
  have hRun :
      (runId &&& 16777215).toNat = runId.toNat % 2 ^ 24 := by
    rw [BitVec.toNat_and]
    exact Nat.and_two_pow_sub_one_eq_mod runId.toNat 24
  have hBound : runId.toNat % 2 ^ 24 < 2 ^ 24 :=
    Nat.mod_lt _ (by decide)
  have hWide :
      ((runId &&& 16777215).setWidth 64).toNat =
        runId.toNat % 2 ^ 24 := by
    rw [BitVec.toNat_setWidth, hRun]
    exact Nat.mod_eq_of_lt (by omega)
  have hLow :
      ((runId &&& 16777215).setWidth 64 <<< 8 |||
        (160 : BitVec 64)).toNat =
        runId.toNat % 2 ^ 24 * 2 ^ 8 + 160 := by
    rw [BitField.toNat_shiftLeft_or, hWide]
    · rfl
    · rw [hWide]
      omega
    · decide
  have hStep :
      step <<< 32 = (step.setWidth 32).setWidth 64 <<< 32 := by
    apply BitVec.eq_of_toNat_eq
    simp only [BitVec.toNat_shiftLeft, BitVec.toNat_setWidth,
      Nat.shiftLeft_eq]
    omega
  have hStepWide :
      ((step.setWidth 32).setWidth 64).toNat =
        step.toNat % 2 ^ 32 := by
    simp only [BitVec.toNat_setWidth]
    omega
  rw [mailboxTag, BitVec.or_assoc, hStep,
    BitField.toNat_shiftLeft_or, hStepWide, hLow]
  · rw [hStepWide]
    omega
  · rw [hLow]
    omega

/-
  Tags agree exactly for steps that agree modulo 2^32 and
  run ids that agree modulo 2^24.
-/
theorem mailboxTag_eq_iff
    {step step' : BitVec 64}
    {runId runId' : BitVec 32} :
    mailboxTag step runId = mailboxTag step' runId' ↔
      step.toNat % 2 ^ 32 = step'.toNat % 2 ^ 32 ∧
        runId.toNat % 2 ^ 24 = runId'.toNat % 2 ^ 24 := by
  rw [← BitVec.toNat_inj, toNat_mailboxTag, toNat_mailboxTag]
  omega

/- No tag is the tag of a cleared slot. -/
theorem mailboxTag_ne_zero
    (step : BitVec 64)
    (runId : BitVec 32) :
    mailboxTag step runId ≠ 0 := by
  intro hZero
  have hNat := congrArg BitVec.toNat hZero
  rw [toNat_mailboxTag] at hNat
  simp only [BitVec.ofNat_eq_ofNat, BitVec.toNat_ofNat] at hNat
  omega

------------------------------------------------------------
-- Mailbox Slots
------------------------------------------------------------

/- A byte offset into the mailbox buffer of one rank. -/
structure MailboxAddr where
  rank : BitVec 32
  offset : BitVec 64
deriving DecidableEq, Repr

/- The offset of the slot of a source rank and vblock. -/
def slotOffset (source vblock : BitVec 32) : BitVec 64 :=
  (source.setWidth 64 * 4096 + vblock.setWidth 64) * 16

/- The slot the receive hook polls and clears. -/
def recvAddr (deviceId recvPeer vblock : BitVec 32) :
    MailboxAddr where
  rank := deviceId
  offset := slotOffset recvPeer vblock

/- The slot the send hook stores into. -/
def sendAddr (deviceId sendPeer vblock : BitVec 32) :
    MailboxAddr where
  rank := sendPeer
  offset := slotOffset deviceId vblock

/-
  The hooks run for a peer inside the world other than the
  own rank, and a vblock below 4096.
-/
def hookRuns (deviceId numDevices peer vblock : BitVec 32) :
    Bool :=
  !(numDevices.ule peer) && peer != deviceId &&
    !((4096 : BitVec 32).ule vblock)

/-
  One mailbox slot: a receiver, a source and a vblock for
  which both hooks run.  The plugin prepares its buffers for
  at most 16 ranks.
-/
structure MailboxSlot where
  numDevices : BitVec 32
  receiver : BitVec 32
  source : BitVec 32
  vblock : BitVec 32
  world_le : numDevices.toNat ≤ 16
  recvRuns :
    hookRuns receiver numDevices source vblock = true
  sendRuns :
    hookRuns source numDevices receiver vblock = true

/- The two hooks of a slot use the same address. -/
theorem MailboxSlot.addr_eq (slot : MailboxSlot) :
    sendAddr slot.source slot.receiver slot.vblock =
      recvAddr slot.receiver slot.source slot.vblock := rfl

/- The ranks and the vblock of a slot are in range. -/
theorem MailboxSlot.bounds (slot : MailboxSlot) :
    slot.source.toNat < 16 ∧ slot.vblock.toNat < 4096 := by
  have hRuns := slot.recvRuns
  have hWorld := slot.world_le
  simp only [hookRuns, Bool.and_eq_true, Bool.not_eq_true',
    BitVec.ule, decide_eq_false_iff_not, BitVec.ofNat_eq_ofNat,
    BitVec.toNat_ofNat] at hRuns
  omega

/- Slot offsets of ranks and vblocks in range are distinct. -/
theorem slotOffset_injective
    {source source' vblock vblock' : BitVec 32}
    (hVblock : vblock.toNat < 4096)
    (hVblock' : vblock'.toNat < 4096)
    (hEq :
      slotOffset source vblock = slotOffset source' vblock') :
    source = source' ∧ vblock = vblock' := by
  have hNat := congrArg BitVec.toNat hEq
  have hSource := source.isLt
  have hSource' := source'.isLt
  simp only [slotOffset, BitVec.toNat_mul, BitVec.toNat_add,
    BitVec.toNat_setWidth, BitVec.ofNat_eq_ofNat,
    BitVec.toNat_ofNat] at hNat
  exact ⟨BitVec.eq_of_toNat_eq (by omega),
    BitVec.eq_of_toNat_eq (by omega)⟩

/- Different slots of one world do not share an address. -/
theorem MailboxSlot.addr_injective
    {slot slot' : MailboxSlot}
    (hEq :
      recvAddr slot.receiver slot.source slot.vblock =
        recvAddr slot'.receiver slot'.source slot'.vblock) :
    slot.receiver = slot'.receiver ∧
      slot.source = slot'.source ∧
        slot.vblock = slot'.vblock := by
  rcases MailboxAddr.mk.inj hEq with ⟨hRank, hOffset⟩
  exact ⟨hRank,
    slotOffset_injective slot.bounds.2 slot'.bounds.2
      hOffset⟩

------------------------------------------------------------
-- Timestamps
------------------------------------------------------------

/- The send hook publishes its clock as root time. -/
def publishedTime (localTime offset : BitVec 64) :
    BitVec 64 :=
  localTime - offset

/- The receive hook converts a timestamp to its own clock. -/
def correctedSenderTime (time offset : BitVec 64) :
    BitVec 64 :=
  time + offset

/- The latency the receive hook saves. -/
def savedLatency (localTime time offset : BitVec 64) :
    BitVec 64 :=
  localTime - correctedSenderTime time offset

------------------------------------------------------------
-- Saved Rows
------------------------------------------------------------

/- The poll bound of the receive hook. -/
def pollBound : Nat := 1048576

/-
  A hit is invalid when the timestamp is zero or came after
  at most one poll miss.
-/
def invalidHit (time : BitVec 64) (misses : Nat) : Bool :=
  time == 0 || decide (misses ≤ 1)

/- Source plus one, vblock, and the invalid bit 31. -/
def channelWord
    (source vblock : BitVec 32)
    (invalid : Bool) : BitVec 32 :=
  let word := (source + 1) <<< 16 ||| vblock
  if invalid then word ||| 2147483648 else word

/- One row of the map `sr_latency`. -/
structure SrLatency where
  latency : BitVec 64
  vblock : BitVec 32
  step : BitVec 32
deriving DecidableEq, Repr

/- One row of the map `sr_latency_debug`. -/
structure SrLatencyDebug where
  latency : BitVec 64
  info : BitVec 64
  step : BitVec 64
  tag : BitVec 64
  senderTime : BitVec 64
  offset : BitVec 64
  correctedSenderTime : BitVec 64
  localTime : BitVec 64
deriving DecidableEq, Repr

/- What the receive hook knows when a poll has hit. -/
structure Hit where
  source : BitVec 32
  vblock : BitVec 32
  step : BitVec 64
  tag : BitVec 64
  time : BitVec 64
  misses : Nat
  offset : BitVec 64
  localTime : BitVec 64
deriving DecidableEq, Repr

namespace Hit

/- The channel word of a hit. -/
def channel (hit : Hit) : BitVec 32 :=
  channelWord hit.source hit.vblock
    (invalidHit hit.time hit.misses)

/- The `sr_latency` row of a hit. -/
def srLatencyRow (hit : Hit) : SrLatency where
  latency :=
    savedLatency hit.localTime hit.time hit.offset
  vblock := hit.channel
  step := hit.step.setWidth 32

/- The `sr_latency_debug` row of a hit. -/
def srLatencyDebugRow (hit : Hit) : SrLatencyDebug where
  latency :=
    savedLatency hit.localTime hit.time hit.offset
  info :=
    (BitVec.ofNat 32 hit.misses).setWidth 64 <<< 32 |||
      hit.channel.setWidth 64
  step := hit.step
  tag := hit.tag
  senderTime := hit.time
  offset := hit.offset
  correctedSenderTime :=
    correctedSenderTime hit.time hit.offset
  localTime := hit.localTime

end Hit

/- The fields of a channel word do not overlap. -/
theorem toNat_channelWord
    {source vblock : BitVec 32}
    (hSource : source.toNat < 2 ^ 15 - 1)
    (hVblock : vblock.toNat < 2 ^ 16)
    (invalid : Bool) :
    (channelWord source vblock invalid).toNat =
      (if invalid then 2 ^ 31 else 0) +
        ((source.toNat + 1) * 2 ^ 16 + vblock.toNat) := by
  have hSucc : (source + 1).toNat = source.toNat + 1 := by
    rw [BitVec.toNat_add]
    simp only [BitVec.ofNat_eq_ofNat, BitVec.toNat_ofNat]
    omega
  have hWord :
      ((source + 1) <<< 16 ||| vblock).toNat =
        (source.toNat + 1) * 2 ^ 16 + vblock.toNat := by
    rw [BitField.toNat_shiftLeft_or, hSucc]
    · rw [hSucc]
      omega
    · omega
  cases invalid with
  | false =>
      simp only [channelWord, Bool.false_eq_true, if_false]
      rw [hWord]
      omega
  | true =>
      have hFlag :
          (source + 1) <<< 16 ||| vblock ||| 2147483648#32 =
            1#32 <<< 31 |||
              ((source + 1) <<< 16 ||| vblock) := by
        rw [BitVec.or_comm]
        rfl
      have hTrue :
          channelWord source vblock true =
            (source + 1) <<< 16 ||| vblock |||
              2147483648#32 := rfl
      rw [hTrue, hFlag, BitField.toNat_shiftLeft_or, hWord]
      · simp
      · decide
      · rw [hWord]
        omega

/- An invalid channel word shows its flag. -/
theorem channelWord_flag
    (source vblock : BitVec 32) :
    channelWord source vblock true &&& 2147483648#32 ≠
      0#32 := by
  have hTrue :
      channelWord source vblock true =
        (source + 1) <<< 16 ||| vblock ||| 2147483648#32 :=
    rfl
  intro hZero
  rw [hTrue, BitVec.and_comm] at hZero
  have hBit := congrArg (fun w => w.getLsbD 31) hZero
  simp at hBit

/- A valid channel word does not. -/
theorem channelWord_no_flag
    {source vblock : BitVec 32}
    (hSource : source.toNat < 2 ^ 15 - 1)
    (hVblock : vblock.toNat < 2 ^ 16) :
    channelWord source vblock false &&& 2147483648#32 =
      0#32 := by
  have hWord := toNat_channelWord hSource hVblock false
  have hLow :
      (channelWord source vblock false).toNat < 2 ^ 31 := by
    rw [hWord]
    simp only [Bool.false_eq_true, if_false]
    omega
  apply BitVec.eq_of_getLsbD_eq
  intro i hi
  by_cases hTop : i = 31
  · have hBit :
        (channelWord source vblock false).getLsbD i = false :=
      by
      rw [hTop]
      exact Nat.testBit_lt_two_pow hLow
    rw [BitVec.getLsbD_and, hBit, Bool.false_and,
      BitVec.getLsbD_zero]
  · have hMask : (2147483648#32).getLsbD i = false := by
      revert hTop
      revert i
      decide
    rw [BitVec.getLsbD_and, hMask, Bool.and_false,
      BitVec.getLsbD_zero]

end Latency

end FabricPerf
