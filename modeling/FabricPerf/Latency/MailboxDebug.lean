import FabricPerf.Latency.SavedRows

/-
  `analysis/mailbox_debug.py`: the decoders of the rows the
  receive hook saves in `sr_latency_debug`.

  The decoders work on Python integers, so they are stated
  for integers of any size and sign; a word of the map may
  reach them read with or without a sign.

  Main declarations:
    * `Latency.metaWord`
    * `Latency.decodeMeta_eq`
    * `Latency.mailboxDebug_decodes`
-/

------------------------------------------------------------
-- The Metadata Word
------------------------------------------------------------

namespace FabricPerf

namespace Latency

open Analysis

/- The poll count above the channel word. -/
def metaWord
    (pollCount source vblock : BitVec 32)
    (invalid : Bool) : BitVec 64 :=
  pollCount.setWidth 64 <<< 32 |||
    (channelWord source vblock invalid).setWidth 64

/- The receive hook saves the metadata word of its hit. -/
theorem srLatencyDebugRow_info (hit : Hit) :
    hit.srLatencyDebugRow.info =
      metaWord (BitVec.ofNat 32 hit.misses) hit.source
        hit.vblock (invalidHit hit.time hit.misses) := rfl

/- The poll count and the channel word do not overlap. -/
theorem toNat_metaWord
    (pollCount source vblock : BitVec 32)
    (invalid : Bool) :
    (metaWord pollCount source vblock invalid).toNat =
      pollCount.toNat * 2 ^ 32 +
        (channelWord source vblock invalid).toNat := by
  have hPoll : (pollCount.setWidth 64).toNat =
      pollCount.toNat := by
    rw [BitVec.toNat_setWidth]
    omega
  have hChannel :
      ((channelWord source vblock invalid).setWidth 64).toNat =
        (channelWord source vblock invalid).toNat := by
    rw [BitVec.toNat_setWidth]
    omega
  have hPollLt := pollCount.isLt
  have hChannelLt := (channelWord source vblock invalid).isLt
  rw [metaWord, BitField.toNat_shiftLeft_or, hPoll, hChannel]
  · rw [hPoll]
    omega
  · rw [hChannel]
    omega

------------------------------------------------------------
-- Decoders
------------------------------------------------------------

/- `TAG_KIND`. -/
abbrev tagKind : Int := 160

/- `decode_meta`: poll count, source and vblock. -/
def decodeMeta (info : Int) : Int × Int × Int :=
  let pollCount := Int.land (info >>> (32 : Nat)) (2 ^ 32 - 1)
  let packed :=
    Int.ldiff (Int.land info (2 ^ 32 - 1)) latencyInvalidFlag
  let packedSrc := packed >>> (16 : Nat)
  let src := if 0 < packedSrc then packedSrc - 1 else -1
  let vblock := Int.land packed (2 ^ 16 - 1)
  (pollCount, src, vblock)

/- `decode_invalid`. -/
def decodeInvalid (info latency : Int) : Bool :=
  decide (latency = latencyInvalidSentinel) ||
    decide (Int.land info latencyInvalidFlag ≠ 0)

/- `decode_tag`: step, run id and kind. -/
def decodeTag (tag : Int) : Int × Int × Int :=
  let kind := Int.land tag (2 ^ 8 - 1)
  let runId := Int.land (tag >>> (8 : Nat)) (2 ^ 24 - 1)
  let step := tag >>> (32 : Nat)
  (step, runId, kind)

------------------------------------------------------------
-- Against The Latency Analyzer
------------------------------------------------------------

/- Clearing bit 31 of a 32-bit number. -/
theorem ldiff_invalidFlag
    {word : Nat}
    (hWord : word < 2 ^ 32) :
    Int.ldiff word latencyInvalidFlag =
      (word % 2 ^ 31 : Nat) := by
  have hNat :=
    BitField.ldiff_flag (Nat.mod_lt word (Nat.two_pow_pos 31))
      (decide (2 ^ 31 ≤ word))
  rw [← BitField.eq_flagged hWord] at hNat
  exact congrArg Int.ofNat hNat

/-
  Below the flag the two decoders agree: the one asks whether
  the source bits are zero, the other whether the word
  reaches the first source.
-/
theorem splitRawChannel_eq
    {word : Nat}
    (hWord : word < 2 ^ 32) :
    splitRawChannel word "vblock" =
      (if 0 < word % 2 ^ 31 / 2 ^ 16 then
          ((word % 2 ^ 31 / 2 ^ 16 : Nat) : Int) - 1
        else
          -1,
        ((word % 2 ^ 31 % 2 ^ 16 : Nat) : Int)) := by
  have hMask :
      Int.land ((word % 2 ^ 31 : Nat) : Int)
          latencyChannelMask =
        ((word % 2 ^ 31 % 2 ^ 16 : Nat) : Int) := by
    rw [latencyChannelMask, BitField.land_two_pow_sub_one]
    rfl
  have hShift :
      ((word % 2 ^ 31 : Nat) : Int) >>> latencySourceShift =
        ((word % 2 ^ 31 / 2 ^ 16 : Nat) : Int) := by
    rw [latencySourceShift, Int.shiftRight_eq_div_pow]
    rfl
  simp only [splitRawChannel, if_true, true_and,
    ldiff_invalidFlag hWord, hMask, hShift]
  by_cases hPacked : 2 ^ 16 ≤ word % 2 ^ 31
  · have hSome : 0 < word % 2 ^ 31 / 2 ^ 16 := by
      omega
    have hReach :
        2 ^ latencySourceShift ≤
          ((word % 2 ^ 31 : Nat) : Int) := by
      exact_mod_cast hPacked
    rw [if_pos hReach, if_pos hSome]
  · have hNone : ¬ 0 < word % 2 ^ 31 / 2 ^ 16 := by
      omega
    have hReach :
        ¬ 2 ^ latencySourceShift ≤
          ((word % 2 ^ 31 : Nat) : Int) := by
      exact_mod_cast hPacked
    rw [if_neg hReach, if_neg hNone,
      Nat.mod_eq_of_lt (Nat.lt_of_not_le hPacked)]

/-
  Of any integer, `decode_meta` reads bits 32 to 63 and what
  the latency analyzer makes of the low 32 bits.
-/
theorem decodeMeta_eq (info : Int) :
    decodeMeta info =
      (info / 2 ^ 32 % 2 ^ 32,
        splitRawChannel (info % 2 ^ 32) "vblock") := by
  have hLow : 0 ≤ info % 2 ^ 32 := by
    omega
  rcases Int.eq_ofNat_of_zero_le hLow with ⟨word, hInfo⟩
  have hWord : word < 2 ^ 32 := by
    omega
  have hShift :
      ((word % 2 ^ 31 : Nat) : Int) >>> (16 : Nat) =
        ((word % 2 ^ 31 / 2 ^ 16 : Nat) : Int) := by
    rw [Int.shiftRight_eq_div_pow]
    rfl
  rw [hInfo, splitRawChannel_eq hWord]
  simp only [decodeMeta, BitField.land_two_pow_sub_one, hInfo,
    ldiff_invalidFlag hWord, hShift, Nat.cast_pos]
  rw [Int.shiftRight_eq_div_pow]
  rfl

/- The flag of any integer is bit 31. -/
theorem land_invalidFlag
    {info : Int}
    {flag : Bool}
    {low : Nat}
    (hLow : low < 2 ^ 31)
    (hInfo :
      info % 2 ^ 32 = BitField.flagged flag 31 low) :
    Int.land info latencyInvalidFlag =
      if flag then latencyInvalidFlag else 0 := by
  have hNat := BitField.and_flag hLow flag
  have hInt :
      Int.land (BitField.flagged flag 31 low : Nat)
          latencyInvalidFlag =
        ((if flag then 2 ^ 31 else 0 : Nat) : Int) :=
    congrArg Int.ofNat hNat
  rw [← BitField.land_two_pow_emod, hInfo, hInt]
  cases flag with
  | false =>
      rfl
  | true =>
      rfl

------------------------------------------------------------
-- Against The Receive Hook
------------------------------------------------------------

/- The channel word below its flag. -/
theorem channelWord_flagged
    {source vblock : BitVec 32}
    (hSource : source.toNat < 2 ^ 15 - 1)
    (hVblock : vblock.toNat < 2 ^ 16)
    (invalid : Bool) :
    (channelWord source vblock invalid).toNat =
      BitField.flagged invalid 31
        ((source.toNat + 1) * 2 ^ 16 + vblock.toNat) :=
  toNat_channelWord hSource hVblock invalid

/- A metadata word read in any way, modulo 2^64. -/
theorem emod_of_metaWord
    {info : Int}
    {pollCount source vblock : BitVec 32}
    {invalid : Bool}
    (hInfo :
      BitVec.ofInt 64 info =
        metaWord pollCount source vblock invalid) :
    info % 2 ^ 64 =
      pollCount.toNat * 2 ^ 32 +
        (channelWord source vblock invalid).toNat := by
  have hNat := congrArg BitVec.toNat hInfo
  rw [BitVec.toNat_ofInt, toNat_metaWord] at hNat
  omega

/- The low half of a metadata word is the channel word. -/
theorem emod_low_of_metaWord
    {info : Int}
    {pollCount source vblock : BitVec 32}
    {invalid : Bool}
    (hInfo :
      BitVec.ofInt 64 info =
        metaWord pollCount source vblock invalid) :
    info % 2 ^ 32 =
      (channelWord source vblock invalid).toNat := by
  have hMod := emod_of_metaWord hInfo
  have hLt := (channelWord source vblock invalid).isLt
  omega

/- The channel word of the hook splits into its fields. -/
theorem splitRawChannel_channelWord
    {source vblock : BitVec 32}
    (hSource : source.toNat < 2 ^ 15 - 1)
    (hVblock : vblock.toNat < 2 ^ 16)
    (invalid : Bool) :
    splitRawChannel (channelWord source vblock invalid).toNat
        "vblock" =
      ((source.toNat : Int), (vblock.toNat : Int)) := by
  have hWord := channelWord_flagged hSource hVblock invalid
  have hLow :
      (channelWord source vblock invalid).toNat % 2 ^ 31 =
        (source.toNat + 1) * 2 ^ 16 + vblock.toNat := by
    rw [hWord]
    unfold BitField.flagged
    cases invalid with
    | false =>
        simp only [Bool.false_eq_true, if_false]
        omega
    | true =>
        simp only [if_true]
        omega
  have hSrc :
      ((source.toNat + 1) * 2 ^ 16 + vblock.toNat) / 2 ^ 16 =
        source.toNat + 1 := by
    omega
  have hVbl :
      ((source.toNat + 1) * 2 ^ 16 + vblock.toNat) % 2 ^ 16 =
        vblock.toNat := by
    omega
  rw [splitRawChannel_eq
      (channelWord source vblock invalid).isLt,
    hLow, hSrc, hVbl, if_pos (Nat.succ_pos _)]
  simp

/- The metadata word of the hook decodes to its fields. -/
theorem decodeMeta_metaWord
    {info : Int}
    {pollCount source vblock : BitVec 32}
    {invalid : Bool}
    (hSource : source.toNat < 2 ^ 15 - 1)
    (hVblock : vblock.toNat < 2 ^ 16)
    (hInfo :
      BitVec.ofInt 64 info =
        metaWord pollCount source vblock invalid) :
    decodeMeta info =
      ((pollCount.toNat : Int), (source.toNat : Int),
        (vblock.toNat : Int)) := by
  have hPoll : info / 2 ^ 32 % 2 ^ 32 = pollCount.toNat := by
    have hMod := emod_of_metaWord hInfo
    have hLt := (channelWord source vblock invalid).isLt
    have hPollLt := pollCount.isLt
    omega
  rw [decodeMeta_eq, emod_low_of_metaWord hInfo, hPoll,
    splitRawChannel_channelWord hSource hVblock]

/- The metadata word of the hook shows its flag. -/
theorem decodeInvalid_metaWord
    {info latency : Int}
    {pollCount source vblock : BitVec 32}
    {invalid : Bool}
    (hSource : source.toNat < 2 ^ 15 - 1)
    (hVblock : vblock.toNat < 2 ^ 16)
    (hInfo :
      BitVec.ofInt 64 info =
        metaWord pollCount source vblock invalid)
    (hLatency : latency ≠ latencyInvalidSentinel) :
    decodeInvalid info latency = invalid := by
  have hLow :
      (source.toNat + 1) * 2 ^ 16 + vblock.toNat <
        2 ^ 31 := by
    omega
  have hFlag :
      info % 2 ^ 32 =
        BitField.flagged invalid 31
          ((source.toNat + 1) * 2 ^ 16 + vblock.toNat) := by
    rw [emod_low_of_metaWord hInfo,
      channelWord_flagged hSource hVblock]
  rw [decodeInvalid, land_invalidFlag hLow hFlag,
    decide_eq_false hLatency, Bool.false_or]
  cases invalid with
  | false =>
      rfl
  | true =>
      rfl

/- A tag read without a sign decodes to its fields. -/
theorem decodeTag_mailboxTag
    (step : BitVec 64)
    (runId : BitVec 32) :
    decodeTag (mailboxTag step runId).toNat =
      (((step.toNat % 2 ^ 32 : Nat) : Int),
        ((runId.toNat % 2 ^ 24 : Nat) : Int), tagKind) := by
  have hRun : runId.toNat % 2 ^ 24 < 2 ^ 24 :=
    Nat.mod_lt _ (Nat.two_pow_pos 24)
  simp only [decodeTag, BitField.land_two_pow_sub_one,
    Int.shiftRight_eq_div_pow, toNat_mailboxTag, tagKind,
    Prod.mk.injEq]
  omega

/-
  The three decoders recover what the receive hook packed,
  and `decode_meta` reads a channel word, produced by the
  hook or not, as the latency analyzer does.
-/
theorem mailboxDebug_decodes
    (pollCount source vblock : BitVec 32)
    (invalid : Bool)
    (step : BitVec 64)
    (runId : BitVec 32)
    (info latency : Int)
    (hSource : source.toNat < 2 ^ 15 - 1)
    (hVblock : vblock.toNat < 2 ^ 16)
    (hInfo :
      BitVec.ofInt 64 info =
        metaWord pollCount source vblock invalid)
    (hLatency : latency ≠ 2 ^ 63 - 1) :
    decodeMeta info =
        ((pollCount.toNat : Int), (source.toNat : Int),
          (vblock.toNat : Int)) ∧
      decodeInvalid info latency = invalid ∧
      decodeTag (mailboxTag step runId).toNat =
        (((step.toNat % 2 ^ 32 : Nat) : Int),
          ((runId.toNat % 2 ^ 24 : Nat) : Int), 160) ∧
      ∀ (word : BitVec 32) (info : Int) (record : Record),
        info % 2 ^ 32 = word.toNat →
        record.getAttr "vblock" = .ok (word.toNat : Int) →
        splitLatencyChannel record "vblock" =
          .ok (decodeMeta info).2 := by
  refine ⟨decodeMeta_metaWord hSource hVblock hInfo,
    decodeInvalid_metaWord hSource hVblock hInfo hLatency,
    decodeTag_mailboxTag step runId, ?_⟩
  intro word info record hWord hField
  rw [decodeMeta_eq, hWord]
  simp only [splitLatencyChannel, hField, Raising.ok_bind,
    Raising.pure_eq_ok]

/- The words of the unit tests, poll count 17. -/
theorem mailboxDebug_decodes_seventeen :
    decodeMeta ((metaWord 17 3 9 true).toNat : Int) =
        (17, 3, 9) ∧
      decodeInvalid ((metaWord 17 3 9 true).toNat : Int)
          1200 = true ∧
      decodeTag (mailboxTag 123 0xABCDEF).toNat =
        (123, 0xABCDEF, 160) ∧
      splitLatencyChannel (srLatencyRecord 0 (2 ^ 31 + 7) 5)
          "vblock" =
        .ok (decodeMeta (2 ^ 31 + 7)).2 := by
  have hDecodes :=
    mailboxDebug_decodes 17 3 9 true 123 0xABCDEF
      ((metaWord 17 3 9 true).toNat : Int) 1200 (by decide)
      (by decide) (by decide) (by decide)
  exact ⟨hDecodes.1, hDecodes.2.1, hDecodes.2.2.1,
    hDecodes.2.2.2 (BitVec.ofNat 32 (2 ^ 31 + 7))
      (2 ^ 31 + 7) (srLatencyRecord 0 (2 ^ 31 + 7) 5)
      (by decide) rfl⟩

end Latency

end FabricPerf
