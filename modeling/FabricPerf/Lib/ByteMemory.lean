import FabricPerf.Lib.StructFormat

/-
  A byte memory with 64-bit addresses, its little-endian
  words, and loops that copy 16-byte records.

  Addresses wrap.  A copy loop reads a record before it
  writes one, so its result is the first memory with one
  range replaced as soon as no byte of the source lies in
  the destination.

  Main declarations:
    * `ByteMemory.loadPair`, `ByteMemory.storePair`
    * `ByteMemory.record_storePair`
    * `ByteMemory.copied_succ`, `ByteMemory.record_copied`
    * `ByteMemory.values_read`
-/

------------------------------------------------------------
-- Words And Bytes
------------------------------------------------------------

namespace ByteMemory

open StructFormat

/- The byte of a word at a little-endian position. -/
def wordByte (w : BitVec 64) (i : Nat) : UInt8 :=
  UInt8.ofNat (w.toNat / 256 ^ i)

/- The bytes of a list are the digits of its number. -/
theorem toNat_div_mod
    {l : List UInt8}
    {i : Nat}
    (hI : i < l.length) :
    StructFormat.toNat l / 256 ^ i % 256 = l[i].toNat := by
  induction l generalizing i with
  | nil => exact absurd hI (Nat.not_lt_zero i)
  | cons b rest ih =>
      have hByte := b.toNat_lt
      cases i with
      | zero =>
          simp only [StructFormat.toNat, pow_zero, Nat.div_one,
            List.getElem_cons_zero]
          omega
      | succ j =>
          have hRest := ih (Nat.lt_of_succ_lt_succ hI)
          have hFirst :
              (b.toNat + 256 * StructFormat.toNat rest) / 256 =
                StructFormat.toNat rest := by
            omega
          rw [StructFormat.toNat, pow_succ',
            ← Nat.div_div_eq_div_mul,
            hFirst, List.getElem_cons_succ]
          exact hRest

/- Lists of bytes stand for numbers below their range. -/
theorem toNat_lt (l : List UInt8) :
    StructFormat.toNat l < 256 ^ l.length := by
  induction l with
  | nil => exact Nat.one_pos
  | cons b rest ih =>
      have hByte := b.toNat_lt
      rw [StructFormat.toNat, List.length_cons, pow_succ']
      omega

/- The number of the first digits of a number. -/
theorem toNat_digits (k n : Nat) :
    StructFormat.toNat
        ((List.range n).map
          (fun i => UInt8.ofNat (k / 256 ^ i))) =
      k % 256 ^ n := by
  induction n generalizing k with
  | zero => simp [StructFormat.toNat, Nat.mod_one]
  | succ n ih =>
      have hRest :
          (List.range n).map
              (fun i => UInt8.ofNat (k / 256 ^ (i + 1))) =
            (List.range n).map
              (fun i => UInt8.ofNat (k / 256 / 256 ^ i)) := by
        apply List.map_congr_left
        intro i _
        rw [pow_succ', Nat.div_div_eq_div_mul]
      rw [List.range_succ_eq_map, List.map_cons,
        List.map_map, StructFormat.toNat]
      change
        (UInt8.ofNat (k / 256 ^ 0)).toNat +
            256 * StructFormat.toNat
              ((List.range n).map
                (fun i => UInt8.ofNat (k / 256 ^ (i + 1)))) =
          k % 256 ^ (n + 1)
      have hByte : (256 : Nat) ^ (n + 1) = 256 * 256 ^ n :=
        pow_succ' 256 n
      rw [hRest, ih, pow_zero, Nat.div_one,
        UInt8.toNat_ofNat', hByte, Nat.mod_mul]

------------------------------------------------------------
-- Memories
------------------------------------------------------------

/- A byte for every address. -/
abbrev Memory := BitVec 64 → UInt8

/- The bytes from an address on. -/
def read (m : Memory) (a : BitVec 64) (n : Nat) :
    List UInt8 :=
  (List.range n).map (fun i => m (a + BitVec.ofNat 64 i))

/- A 64-bit load. -/
def loadWord (m : Memory) (a : BitVec 64) : BitVec 64 :=
  BitVec.ofNat 64 (StructFormat.toNat (read m a 8))

/- A 64-bit store. -/
def storeWord (m : Memory) (a w : BitVec 64) : Memory :=
  fun x =>
    if (x - a).toNat < 8 then wordByte w (x - a).toNat
      else m x

/- Two words. -/
abbrev Pair := BitVec 64 × BitVec 64

/- A load of two neighbouring words. -/
def loadPair (m : Memory) (a : BitVec 64) : Pair :=
  (loadWord m a, loadWord m (a + 8))

/- A store of two neighbouring words. -/
def storePair (m : Memory) (a : BitVec 64) (p : Pair) :
    Memory :=
  storeWord (storeWord m a p.1) (a + 8) p.2

variable {m m' : Memory} {a b x : BitVec 64} {i n : Nat}

/- A read has the bytes it was asked for. -/
@[simp] theorem length_read : (read m a n).length = n := by
  simp [read]

/- A byte of a read. -/
@[simp] theorem getElem_read (hI : i < (read m a n).length) :
    (read m a n)[i] = m (a + BitVec.ofNat 64 i) := by
  simp [read]

/- Reads of memories that agree on the range are equal. -/
theorem read_congr
    (hSame :
      ∀ i, i < n →
        m (a + BitVec.ofNat 64 i) =
          m' (b + BitVec.ofNat 64 i)) :
    read m a n = read m' b n := by
  unfold read
  apply List.map_congr_left
  intro i hI
  exact hSame i (List.mem_range.mp hI)

/- A read goes on where a shorter one ends. -/
theorem read_add (m : Memory) (a : BitVec 64) (j n : Nat) :
    read m a (j + n) =
      read m a j ++ read m (a + BitVec.ofNat 64 j) n := by
  unfold read
  rw [List.range_add, List.map_append, List.map_map]
  congr 1
  apply List.map_congr_left
  intro i _
  simp only [Function.comp_apply, BitVec.ofNat_add,
    BitVec.add_assoc]

/- A part of a read is a read of the part. -/
theorem read_window
    {j k : Nat}
    (hInside : j + k ≤ n) :
    ((read m a n).drop j).take k =
      read m (a + BitVec.ofNat 64 j) k := by
  have hSplit : n = j + (k + (n - j - k)) := by omega
  rw [hSplit, read_add, read_add,
    List.drop_left' length_read, List.take_left' length_read]

/- The bytes of a loaded word are those of the memory. -/
theorem wordByte_loadWord (hI : i < 8) :
    wordByte (loadWord m a) i = m (a + BitVec.ofNat 64 i) := by
  have hBytes : i < (read m a 8).length := by simpa using hI
  have hRange : StructFormat.toNat (read m a 8) < 2 ^ 64 := by
    simpa using toNat_lt (read m a 8)
  have hDigit := toNat_div_mod hBytes
  rw [getElem_read] at hDigit
  unfold wordByte loadWord
  rw [BitVec.toNat_ofNat, Nat.mod_eq_of_lt hRange]
  apply UInt8.toNat_inj.mp
  rw [← hDigit]
  simp

/- The word at an address is determined by its bytes. -/
theorem loadWord_congr
    (hSame :
      ∀ i, i < 8 →
        m (a + BitVec.ofNat 64 i) =
          m' (b + BitVec.ofNat 64 i)) :
    loadWord m a = loadWord m' b := by
  unfold loadWord
  rw [read_congr hSame]

/- The word with the bytes of a word is that word. -/
theorem loadWord_eq_of_bytes
    {w : BitVec 64}
    (hBytes :
      ∀ i, i < 8 →
        m (a + BitVec.ofNat 64 i) = wordByte w i) :
    loadWord m a = w := by
  have hRead :
      read m a 8 =
        (List.range 8).map
          (fun i => UInt8.ofNat (w.toNat / 256 ^ i)) := by
    apply List.map_congr_left
    intro i hI
    exact hBytes i (List.mem_range.mp hI)
  apply BitVec.eq_of_toNat_eq
  have hRange : (256 : Nat) ^ 8 = 2 ^ 64 := by norm_num
  rw [loadWord, hRead, toNat_digits, BitVec.toNat_ofNat,
    hRange, Nat.mod_mod, Nat.mod_eq_of_lt w.isLt]

------------------------------------------------------------
-- Records Of Two Words
------------------------------------------------------------

/- What a record store leaves at an address. -/
theorem storePair_apply (p : Pair) :
    storePair m a p x =
      if (x - a).toNat < 8 then wordByte p.1 (x - a).toNat
      else if (x - a).toNat < 16 then
        wordByte p.2 ((x - a).toNat - 8)
      else m x := by
  have hShift : x - (a + 8) = x - a - 8 := by
    exact sub_add_eq_sub_sub x a 8
  have hBound := (x - a).isLt
  have hSecond :
      (x - (a + 8)).toNat =
        if (x - a).toNat < 8 then
          2 ^ 64 - 8 + (x - a).toNat
        else
          (x - a).toNat - 8 := by
    rw [hShift, BitVec.toNat_sub]
    simp only [BitVec.ofNat_eq_ofNat, BitVec.toNat_ofNat]
    split <;> omega
  unfold storePair storeWord
  rw [hSecond]
  by_cases hFirst : (x - a).toNat < 8
  · simp only [if_pos hFirst]
    rw [if_neg (by omega)]
  · simp only [if_neg hFirst]
    by_cases hLast : (x - a).toNat < 16
    · rw [if_pos (by omega), if_pos hLast]
    · rw [if_neg (by omega), if_neg hLast]

/- A record store leaves the bytes outside alone. -/
theorem storePair_of_outside
    (p : Pair)
    (hOutside : 16 ≤ (x - a).toNat) :
    storePair m a p x = m x := by
  rw [storePair_apply, if_neg (by omega),
    if_neg (by omega)]

/- A record that is loaded and stored carries its bytes. -/
theorem storePair_loadPair :
    storePair m a (loadPair m' b) x =
      if (x - a).toNat < 16 then m' (b + (x - a)) else m x := by
  have hSelf : BitVec.ofNat 64 (x - a).toNat = x - a :=
    by rw [BitVec.ofNat_toNat, BitVec.setWidth_eq]
  rw [storePair_apply]
  by_cases hFirst : (x - a).toNat < 8
  · rw [if_pos hFirst, if_pos (by omega), loadPair,
      wordByte_loadWord hFirst, hSelf]
  · rw [if_neg hFirst]
    by_cases hLast : (x - a).toNat < 16
    · have hWord : (x - a).toNat - 8 < 8 := by omega
      have hPlace :
          b + 8 + BitVec.ofNat 64 ((x - a).toNat - 8) =
            b + (x - a) := by
        rw [BitVec.add_assoc]
        congr 1
        apply BitVec.eq_of_toNat_eq
        simp only [BitVec.toNat_add, BitVec.toNat_ofNat,
          BitVec.ofNat_eq_ofNat]
        omega
      rw [if_pos hLast, if_pos hLast, loadPair,
        wordByte_loadWord hWord, hPlace]
    · rw [if_neg hLast, if_neg hLast]

/- The record after a store is the stored one. -/
theorem loadPair_storePair (p : Pair) :
    loadPair (storePair m a p) a = p := by
  have hFirst : loadWord (storePair m a p) a = p.1 := by
    apply loadWord_eq_of_bytes
    intro i hI
    rw [storePair_apply, add_sub_cancel_left,
      BitVec.toNat_ofNat, Nat.mod_eq_of_lt (by omega),
      if_pos hI]
  have hSecond : loadWord (storePair m a p) (a + 8) = p.2 := by
    apply loadWord_eq_of_bytes
    intro i hI
    have hPlace :
        (a + 8 + BitVec.ofNat 64 i - a).toNat = 8 + i := by
      rw [BitVec.add_assoc, add_sub_cancel_left]
      simp only [BitVec.toNat_add, BitVec.toNat_ofNat,
        BitVec.ofNat_eq_ofNat]
      omega
    rw [storePair_apply, hPlace, if_neg (by omega),
      if_pos (by omega), Nat.add_sub_cancel_left]
  rw [loadPair, hFirst, hSecond]

/- A record is determined by its sixteen bytes. -/
theorem loadPair_congr
    (hSame :
      ∀ i, i < 16 →
        m (a + BitVec.ofNat 64 i) =
          m' (b + BitVec.ofNat 64 i)) :
    loadPair m a = loadPair m' b := by
  have hFirst : loadWord m a = loadWord m' b := by
    apply loadWord_congr
    intro i hI
    exact hSame i (by omega)
  have hSecond : loadWord m (a + 8) = loadWord m' (b + 8) := by
    apply loadWord_congr
    intro i hI
    have hEight := hSame (8 + i) (by omega)
    rw [BitVec.ofNat_add, ← BitVec.add_assoc,
      ← BitVec.add_assoc] at hEight
    exact hEight
  rw [loadPair, loadPair, hFirst, hSecond]

------------------------------------------------------------
-- Tables Of Records
------------------------------------------------------------

/- The address of a record of a table. -/
def recordAddr (base : BitVec 64) (k : Nat) : BitVec 64 :=
  base + BitVec.ofNat 64 (16 * k)

/- The record at a position of a table. -/
def record (m : Memory) (base : BitVec 64) (k : Nat) : Pair :=
  loadPair m (recordAddr base k)

variable {base : BitVec 64} {j k : Nat}

/- How far a byte is behind a record of its table. -/
theorem toNat_sub_recordAddr
    (base x : BitVec 64)
    (hK : 16 * k < 2 ^ 64) :
    (x - recordAddr base k).toNat =
      if 16 * k ≤ (x - base).toNat then
        (x - base).toNat - 16 * k
      else
        2 ^ 64 + (x - base).toNat - 16 * k := by
  have hBound := (x - base).isLt
  have hShift :
      x - recordAddr base k =
        x - base - BitVec.ofNat 64 (16 * k) :=
    sub_add_eq_sub_sub x base _
  rw [hShift, BitVec.toNat_sub, BitVec.toNat_ofNat,
    Nat.mod_eq_of_lt hK]
  split <;> omega

/- The bytes of a record in its table. -/
theorem toNat_recordAddr_sub
    (base : BitVec 64)
    (hK : 16 * k + 16 ≤ 2 ^ 64)
    (hI : i < 16) :
    (recordAddr base k + BitVec.ofNat 64 i - base).toNat =
      16 * k + i := by
  have hPlace :
      recordAddr base k + BitVec.ofNat 64 i - base =
        BitVec.ofNat 64 (16 * k + i) := by
    rw [recordAddr, BitVec.add_assoc, add_sub_cancel_left,
      ← BitVec.ofNat_add]
  rw [hPlace, BitVec.toNat_ofNat, Nat.mod_eq_of_lt (by omega)]

/- A store into a table changes one of its records. -/
theorem record_storePair
    {p : Pair}
    (hJ : 16 * j + 16 ≤ 2 ^ 64)
    (hK : 16 * k + 16 ≤ 2 ^ 64) :
    record (storePair m (recordAddr base k) p) base j =
      if j = k then p else record m base j := by
  split
  case isTrue hSame =>
      rw [hSame]
      exact loadPair_storePair p
  case isFalse hOther =>
      apply loadPair_congr
      intro i hI
      have hPlace := toNat_recordAddr_sub base hJ hI
      apply storePair_of_outside
      rw [toNat_sub_recordAddr base _ (by omega), hPlace]
      split <;> omega

/- A run of stores into a table. -/
def storeRecords
    (m : Memory)
    (base : BitVec 64)
    (stores : List (Nat × Pair)) : Memory :=
  stores.foldl
    (fun m s => storePair m (recordAddr base s.1) s.2) m

/- A run leaves the records it does not store alone. -/
theorem record_storeRecords_of_notMem
    (m : Memory)
    (base : BitVec 64)
    {stores : List (Nat × Pair)}
    (hFits : ∀ s ∈ stores, 16 * s.1 + 16 ≤ 2 ^ 64)
    (hJ : 16 * j + 16 ≤ 2 ^ 64)
    (hAbsent : j ∉ stores.map Prod.fst) :
    record (storeRecords m base stores) base j =
      record m base j := by
  unfold storeRecords
  induction stores generalizing m with
  | nil => rfl
  | cons s rest ih =>
      rw [List.map_cons, List.mem_cons, not_or] at hAbsent
      rw [List.foldl_cons,
        ih _ (fun r hR => hFits r (List.mem_cons_of_mem _ hR))
          hAbsent.2,
        record_storePair hJ (hFits s List.mem_cons_self),
        if_neg hAbsent.1]

/- A run that stores each record once leaves what it stored. -/
theorem record_storeRecords_of_mem
    {stores : List (Nat × Pair)}
    {p : Pair}
    (hFits : ∀ s ∈ stores, 16 * s.1 + 16 ≤ 2 ^ 64)
    (hNodup : (stores.map Prod.fst).Nodup)
    (hMem : (j, p) ∈ stores) :
    record (storeRecords m base stores) base j = p := by
  have hJ := hFits (j, p) hMem
  induction stores generalizing m with
  | nil => exact absurd hMem List.not_mem_nil
  | cons s rest ih =>
      rw [List.map_cons, List.nodup_cons] at hNodup
      have hRest :
          ∀ r ∈ rest, 16 * r.1 + 16 ≤ 2 ^ 64 :=
        fun r hR => hFits r (List.mem_cons_of_mem _ hR)
      rcases List.mem_cons.mp hMem with hHead | hTail
      · rw [← hHead] at hNodup ⊢
        have hOther :=
          record_storeRecords_of_notMem
            (storePair m (recordAddr base j) p) base hRest hJ
            hNodup.1
        refine hOther.trans ?_
        rw [record_storePair hJ hJ, if_pos rfl]
      · exact ih hRest hNodup.2 hTail

/- The signed value of a word's bytes. -/
theorem value_read (m : Memory) (a : BitVec 64) :
    Code.int64.value (read m a 8) = (loadWord m a).toInt := by
  unfold loadWord
  rw [BitVec.toInt_ofNat']
  rfl

/- The signed values of a record's bytes. -/
theorem values_read (m : Memory) (a : BitVec 64) :
    values [.int64, .int64] (read m a 16) =
      [(loadPair m a).1.toInt, (loadPair m a).2.toInt] := by
  have hSplit : read m a 16 = read m a 8 ++ read m (a + 8) 8 :=
    read_add m a 8 8
  have hTake : (read m a 16).take 8 = read m a 8 := by
    rw [hSplit, List.take_left' length_read]
  have hDrop : (read m a 16).drop 8 = read m (a + 8) 8 := by
    rw [hSplit, List.drop_left' length_read]
  have hWhole : (read m (a + 8) 8).take 8 = read m (a + 8) 8 :=
    List.take_of_length_le length_read.le
  unfold values values values
  change
    [Code.int64.value ((read m a 16).take 8),
        Code.int64.value (((read m a 16).drop 8).take 8)] = _
  rw [hTake, hDrop, hWhole, value_read, value_read]
  rfl

------------------------------------------------------------
-- Copying Record By Record
------------------------------------------------------------

/- The memory with `n` records of a table copied to another. -/
def copied
    (m : Memory)
    (src dst : BitVec 64)
    (n : Nat) : Memory :=
  fun x =>
    if (x - dst).toNat < 16 * n then m (src + (x - dst))
      else m x

/- No byte of `n` source records is in the destination. -/
def Apart (src dst : BitVec 64) (n : Nat) : Prop :=
  ∀ i, i < 16 * n →
    16 * n ≤ (src + BitVec.ofNat 64 i - dst).toNat

variable {src dst : BitVec 64}

/- Nothing is copied at first. -/
theorem copied_zero : copied m src dst 0 = m := by
  funext x
  simp [copied]

/- Nothing outside of the destination changes. -/
theorem copied_of_outside
    (hOutside : 16 * n ≤ (x - dst).toNat) :
    copied m src dst n x = m x := by
  unfold copied
  rw [if_neg (by omega)]

/- Records that are apart from their copies fit the memory. -/
theorem Apart.fits (hApart : Apart src dst n) :
    16 * n < 2 ^ 64 := by
  cases n with
  | zero => exact Nat.two_pow_pos 64
  | succ n =>
      have hFirst := hApart 0 (by omega)
      have hBound := (src + BitVec.ofNat 64 0 - dst).isLt
      omega

/- One turn of a copy loop copies one record more. -/
theorem copied_succ
    (hApart : Apart src dst n)
    (hJ : j < n) :
    storePair (copied m src dst j) (recordAddr dst j)
        (record (copied m src dst j) src j) =
      copied m src dst (j + 1) := by
  have hFits := hApart.fits
  funext x
  have hBound := (x - dst).isLt
  have hBehind :=
    toNat_sub_recordAddr dst x
      (show 16 * j < 2 ^ 64 by omega)
  rw [record, storePair_loadPair]
  by_cases hBefore : (x - dst).toNat < 16 * j
  · -- a byte of an earlier record
    rw [if_neg (by omega)] at hBehind
    rw [if_neg (by omega), copied, copied, if_pos hBefore,
      if_pos (by omega)]
  · rw [if_pos (by omega)] at hBehind
    by_cases hHere : (x - dst).toNat < 16 * (j + 1)
    · have hSource :
          recordAddr src j + (x - recordAddr dst j) =
            src + (x - dst) := by
        unfold recordAddr
        abel
      have hOffset :
          src + (x - dst) =
            src + BitVec.ofNat 64 (x - dst).toNat := by
        rw [BitVec.ofNat_toNat, BitVec.setWidth_eq]
      have hOutside :
          16 * n ≤ (src + (x - dst) - dst).toNat := by
        rw [hOffset]
        exact hApart _ (by omega)
      rw [if_pos (by omega), hSource,
        copied_of_outside (by omega), copied, if_pos hHere]
    · rw [if_neg (by omega), copied_of_outside (by omega),
        copied_of_outside (by omega)]

/- The records of a copy are those of the source. -/
theorem record_copied
    (hN : 16 * n ≤ 2 ^ 64)
    (hK : k < n) :
    record (copied m src dst n) dst k = record m src k := by
  apply loadPair_congr
  intro i hI
  have hPlace :=
    toNat_recordAddr_sub dst
      (show 16 * k + 16 ≤ 2 ^ 64 by omega) hI
  have hByte :
      src + (recordAddr dst k + BitVec.ofNat 64 i - dst) =
        recordAddr src k + BitVec.ofNat 64 i := by
    unfold recordAddr
    abel
  unfold copied
  rw [if_pos (by omega), hByte]

end ByteMemory
