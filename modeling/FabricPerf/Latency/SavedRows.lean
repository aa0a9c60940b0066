import FabricPerf.Latency.Hooks
import FabricPerf.Latency.Trace

/-
  The rows the receive hook saves, and what the predicates of
  the analyzer make of their records.

  A saved row and an unused slot reach the analyzer as three
  integers.  The predicates recover from these exactly what
  the hook packed into them.

  Main declarations:
    * `Latency.SavedRow`, `Latency.slotRecord`
    * `Latency.isUnwritten_slotRecord`
    * `Latency.isInvalid_slotRecord`
    * `Latency.split_slotRecord`
-/

------------------------------------------------------------
-- Saved Rows
------------------------------------------------------------

namespace FabricPerf

namespace Latency

open Analysis

/-
  What the receive hook packs into one row.  It runs for
  peers inside a world of at most 16 ranks.
-/
structure SavedRow where
  source : BitVec 32
  vblock : BitVec 32
  latency : BitVec 64
  step : BitVec 64
  invalid : Bool
  source_lt : source.toNat < 16
  vblock_lt : vblock.toNat < 4096

namespace SavedRow

/- The row as the hook stores it. -/
def row (saved : SavedRow) : SrLatency where
  latency := saved.latency
  vblock :=
    channelWord saved.source saved.vblock saved.invalid
  step := saved.step.setWidth 32

/- The row of a hit in a mailbox slot. -/
def ofHit
    (slot : MailboxSlot)
    (hit : Hit)
    (hSource : hit.source = slot.source)
    (hVblock : hit.vblock = slot.vblock) : SavedRow where
  source := hit.source
  vblock := hit.vblock
  latency := savedLatency hit.localTime hit.time hit.offset
  step := hit.step
  invalid := invalidHit hit.time hit.misses
  source_lt := by
    rw [hSource]
    exact slot.bounds.1
  vblock_lt := by
    rw [hVblock]
    exact slot.bounds.2

/- The hook saves the row of its hit. -/
theorem row_ofHit
    (slot : MailboxSlot)
    (hit : Hit)
    (hSource : hit.source = slot.source)
    (hVblock : hit.vblock = slot.vblock) :
    (ofHit slot hit hSource hVblock).row =
      hit.srLatencyRow := rfl

/- The channel of a row. -/
def channel (saved : SavedRow) : Channel :=
  (saved.source.toNat, saved.vblock.toNat)

/- Whether the row counts as a latency sample. -/
def valid (saved : SavedRow) : Bool :=
  !saved.invalid &&
    saved.latency.toInt != latencyInvalidSentinel

/- The step of a row, modulo 2^32. -/
def recordedStep (saved : SavedRow) : Int :=
  (saved.step.toNat % 2 ^ 32 : Nat)

/- The channel word of a row as an integer. -/
def word (saved : SavedRow) : Nat :=
  (channelWord saved.source saved.vblock
    saved.invalid).toNat

/- The fields of the channel word. -/
theorem word_eq (saved : SavedRow) :
    saved.word =
      (if saved.invalid then 2 ^ 31 else 0) +
        ((saved.source.toNat + 1) * 2 ^ 16 +
          saved.vblock.toNat) := by
  have hSource := saved.source_lt
  have hVblock := saved.vblock_lt
  exact toNat_channelWord (by omega) (by omega) _

end SavedRow

------------------------------------------------------------
-- Records
------------------------------------------------------------

/- The generated class of the map `sr_latency`. -/
def srLatencyType : RecordType where
  names := ["latency", "vblock", "step"]
  distinct := by decide

/- A record of the class. -/
def srLatencyRecord (latency vblock step : Int) : Record where
  type := srLatencyType
  values := [latency, vblock, step]
  arity := rfl

@[simp] theorem getAttr_latency (latency vblock step : Int) :
    (srLatencyRecord latency vblock step).getAttr "latency" =
      .ok latency := rfl

@[simp] theorem getAttr_vblock (latency vblock step : Int) :
    (srLatencyRecord latency vblock step).getAttr "vblock" =
      .ok vblock := rfl

@[simp] theorem getAttr_step (latency vblock step : Int) :
    (srLatencyRecord latency vblock step).getAttr "step" =
      .ok step := rfl

@[simp] theorem attr?_vblock (latency vblock step : Int) :
    (srLatencyRecord latency vblock step).attr? "vblock" =
      some vblock := rfl

/- The record of a slot; an unused slot is zero. -/
def slotRecord : Option SavedRow → Record
| none => srLatencyRecord 0 0 0
| some saved =>
    srLatencyRecord saved.row.latency.toInt
      saved.row.vblock.toNat saved.row.step.toNat

/- A written slot in terms of what was packed. -/
theorem slotRecord_some (saved : SavedRow) :
    slotRecord (some saved) =
      srLatencyRecord saved.latency.toInt saved.word
        saved.recordedStep := by
  unfold slotRecord SavedRow.recordedStep SavedRow.row
  simp only [BitVec.toNat_setWidth]
  rfl

------------------------------------------------------------
-- The Predicates
------------------------------------------------------------

/- The channel field of a record of the class. -/
theorem channelFieldFor_srLatencyRecord
    (latency vblock step : Int)
    (traceName : String) :
    channelFieldFor (srLatencyRecord latency vblock step)
        traceName =
      .ok "vblock" := rfl

namespace SavedRow

variable (saved : SavedRow)

/- The source and the vblock below the invalid bit. -/
def field : Nat :=
  (saved.source.toNat + 1) * 2 ^ 16 + saved.vblock.toNat

/- The field leaves the invalid bit alone. -/
theorem field_lt : saved.field < 2 ^ 31 := by
  have hSource := saved.source_lt
  have hVblock := saved.vblock_lt
  unfold field
  omega

/- The channel word is the field below the flag. -/
theorem word_flagged :
    saved.word =
      BitField.flagged saved.invalid 31 saved.field :=
  saved.word_eq

/- A saved row does not look like an unused slot. -/
theorem word_ne_zero : saved.word ≠ 0 := by
  rw [word_eq]
  omega

/- Clearing the flag of the channel word. -/
theorem ldiff_word :
    Int.ldiff saved.word latencyInvalidFlag = saved.field := by
  have hNat := BitField.ldiff_flag saved.field_lt saved.invalid
  rw [← word_flagged] at hNat
  exact congrArg Int.ofNat hNat

/- Masking the flag of the channel word. -/
theorem land_word :
    Int.land saved.word latencyInvalidFlag =
      if saved.invalid then latencyInvalidFlag else 0 := by
  have hNat := BitField.and_flag saved.field_lt saved.invalid
  rw [← word_flagged] at hNat
  have hInt := congrArg Int.ofNat hNat
  cases hInvalid : saved.invalid with
  | false =>
      rw [hInvalid] at hInt
      exact hInt
  | true =>
      rw [hInvalid] at hInt
      exact hInt

/- The channel word splits into source and vblock. -/
theorem splitRawChannel_word :
    splitRawChannel saved.word "vblock" = saved.channel := by
  have hVblock := saved.vblock_lt
  have hSource :
      saved.field / 2 ^ 16 = saved.source.toNat + 1 := by
    unfold field
    omega
  have hLow :
      saved.field % 2 ^ 16 = saved.vblock.toNat := by
    unfold field
    omega
  have hShift :
      (saved.field : Int) >>> latencySourceShift =
        ((saved.source.toNat + 1 : Nat) : Int) := by
    rw [← hSource, ← Nat.shiftRight_eq_div_pow]
    rfl
  have hMask :
      Int.land (saved.field : Int) latencyChannelMask =
        (saved.vblock.toNat : Int) := by
    rw [← hLow, ← Nat.and_two_pow_sub_one_eq_mod]
    rfl
  have hPacked : 2 ^ latencySourceShift ≤ (saved.field : Int) := by
    unfold field
    simp only [latencySourceShift]
    omega
  simp only [splitRawChannel, if_true, ldiff_word, hShift,
    hMask, hPacked, and_self, channel]
  congr 1
  omega

end SavedRow

/- Exactly the unused slots are unwritten. -/
theorem isUnwritten_slotRecord (slot : Option SavedRow) :
    isUnwrittenLatencyRecord (slotRecord slot) "vblock" =
      .ok slot.isNone := by
  cases slot with
  | none =>
      rfl
  | some saved =>
      rw [slotRecord_some]
      simp only [isUnwrittenLatencyRecord, getAttr_latency,
        getAttr_step, getAttr_vblock, Raising.ok_bind]
      split
      · rfl
      · split
        · rfl
        · simp [saved.word_ne_zero]

/- Exactly the rows that do not count are invalid. -/
theorem isInvalid_slotRecord (saved : SavedRow) :
    isInvalidLatencyRecord (slotRecord (some saved)) =
      .ok (!saved.valid) := by
  rw [slotRecord_some]
  simp only [isInvalidLatencyRecord, getAttr_latency,
    attr?_vblock, Raising.ok_bind, saved.land_word,
    SavedRow.valid]
  split
  · rename_i hSentinel
    simp [hSentinel]
  · rename_i hSentinel
    cases saved.invalid with
    | false =>
        simp [hSentinel]
    | true =>
        simp

/- A saved row is split into its channel. -/
theorem split_slotRecord (saved : SavedRow) :
    splitLatencyChannel (slotRecord (some saved)) "vblock" =
      .ok saved.channel := by
  rw [slotRecord_some]
  simp only [splitLatencyChannel, getAttr_vblock,
    Raising.ok_bind, saved.splitRawChannel_word,
    Raising.pure_eq_ok]

end Latency

end FabricPerf
