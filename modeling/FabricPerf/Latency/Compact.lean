import FabricPerf.Latency.SavedRows
import Mathlib.Algebra.Order.BigOperators.Group.List
import Mathlib.Algebra.Order.Group.Nat

/-
  Compact result files, decoded slot by slot.

  `sectionRows` reads every slot of every stream of the first
  section; the compact parser reads the first slot of each
  stream only.

  Main declarations:
    * `Latency.CompactFile`, `Latency.sectionRows`
    * `Latency.OneRowPerStream`
    * `Latency.parse_complete_iff`
-/

------------------------------------------------------------
-- Compact Files
------------------------------------------------------------

namespace FabricPerf

namespace Latency

open Analysis StructFormat

/-
  A result file with one or two sections, the first of which
  holds all its streams.
-/
structure CompactFile where
  file : ResultFile
  header : TraceHeader
  sect : TraceSection
  readsHeader : readHeader file = .ok header
  probes : header.numProbes = 1 ∨ header.numProbes = 2
  readsTable : TableComplete file header
  readsSection : readSection file 0 = .ok sect
  warpDiv_ne : sect.warpDiv ≠ 0
  size_dvd : 16 ∣ sect.size
  complete :
    sect.offset +
        header.gridSize.toNat *
          (header.blockSize.fdiv sect.warpDiv).toNat *
            sect.size ≤
      file.contents.length

namespace CompactFile

/- The number of warp-owned streams of a block. -/
def warpStreams (image : CompactFile) : Int :=
  image.header.blockSize.fdiv image.sect.warpDiv

/- The streams of the section in block and warp order. -/
def streams (image : CompactFile) : List (Nat × Nat) :=
  streamIndices image.header.gridSize image.warpStreams

/- The offset of a stream. -/
def offset (image : CompactFile) (stream : Nat × Nat) : Nat :=
  streamOffset image.sect image.warpStreams stream

/- The number of slots of a stream. -/
def slots (image : CompactFile) : Nat :=
  image.sect.size / 16

end CompactFile

/- The row of the 16 bytes at an offset. -/
def rowAt (file : ResultFile) (offset : Nat) : List Int :=
  values [.int64, .uint32, .uint32] (file.read offset 16)

/- The row of an unused slot. -/
abbrev zeroRow : List Int := [0, 0, 0]

/- The rows of all slots of a stream. -/
def slotRows
    (image : CompactFile)
    (stream : Nat × Nat) : List (List Int) :=
  (List.range image.slots).map
    (fun slot =>
      rowAt image.file (image.offset stream + 16 * slot))

/- The rows of the section, without the zero rows. -/
def sectionRows (image : CompactFile) : List (List Int) :=
  (image.streams.flatMap (slotRows image)).filter
    (· ≠ zeroRow)

/-
  Every stream has at most its first row.  A stream without
  slots must be followed by 16 zero bytes, since the parser
  reads a row there.
-/
def OneRowPerStream (image : CompactFile) : Prop :=
  ∀ stream ∈ image.streams,
    if image.slots = 0 then
      image.offset stream + 16 ≤ image.file.contents.length ∧
        rowAt image.file (image.offset stream) = zeroRow
    else
      ∀ slot, 1 ≤ slot → slot < image.slots →
        rowAt image.file (image.offset stream + 16 * slot) =
          zeroRow

------------------------------------------------------------
-- One Row
------------------------------------------------------------

/- A row has three values. -/
theorem length_rowAt (file : ResultFile) (offset : Nat) :
    (rowAt file offset).length = 3 := by
  simp only [rowAt, values, List.length_cons,
    List.length_nil]

/- A row inside the file is unpacked and handed on. -/
theorem compactRow_in_file
    (type : RecordType)
    {file : ResultFile}
    {offset : Nat}
    (hFits : offset + 16 ≤ file.contents.length) :
    compactRow type file offset =
      if rowAt file offset = zeroRow then .ok none
      else (type.call (rowAt file offset)).map some := by
  have hShort := file.short
  have hLength : (file.read offset 16).length = 16 := by
    rw [ResultFile.length_read]
    omega
  have hUnpack :
      structUnpack [.int64, .uint32, .uint32]
          (file.read offset 16) =
        .ok (rowAt file offset) := by
    unfold structUnpack
    rw [unpack_eq_some_iff.mpr ⟨hLength, rfl⟩]
    rfl
  unfold compactRow
  rw [if_neg (by omega)]
  simp only [hLength, ne_eq, not_true_eq_false, if_false,
    hUnpack, Raising.ok_bind]
  split
  · rfl
  · cases type.call (rowAt file offset) with
    | error err =>
        rfl
    | ok record =>
        rfl

/- A class of three names takes the row. -/
theorem compactRow_of_le
    {type : RecordType}
    (hArity : type.names.length = 3)
    {file : ResultFile}
    {offset : Nat}
    (hFits : offset + 16 ≤ file.contents.length) :
    compactRow type file offset =
      .ok
        (if rowAt file offset = zeroRow then none
          else type.make (rowAt file offset)) := by
  have hCall :
      (type.call (rowAt file offset)).map some =
        .ok (type.make (rowAt file offset)) := by
    unfold RecordType.call RecordType.make
    rw [dif_pos (by rw [length_rowAt, hArity])]
    rfl
  rw [compactRow_in_file type hFits, hCall]
  split
  · rfl
  · rfl

/- A row that the file ends before is an error. -/
theorem compactRow_of_lt
    (type : RecordType)
    {file : ResultFile}
    {offset : Nat}
    (hShort : file.contents.length < offset + 16) :
    ∃ text,
      compactRow type file offset =
        .error (.valueError text) := by
  unfold compactRow
  by_cases hSeek : 2 ^ 63 ≤ offset
  · rw [if_pos hSeek]
    exact ⟨_, rfl⟩
  · have hLength : (file.read offset 16).length ≠ 16 := by
      rw [ResultFile.length_read]
      omega
    rw [if_neg hSeek]
    simp only [if_pos hLength]
    exact ⟨_, rfl⟩

/- Rows of three values are records of the class. -/
theorem length_filterMap_make
    {type : RecordType}
    (hArity : type.names.length = 3)
    {rows : List (List Int)}
    (hRows : ∀ row ∈ rows, row.length = 3) :
    (rows.filterMap type.make).length = rows.length := by
  induction rows with
  | nil =>
      rfl
  | cons row rest ih =>
      have hRow := hRows row List.mem_cons_self
      have hMake :
          type.make row =
            some ⟨type, row, hRow.trans hArity.symm⟩ := by
        unfold RecordType.make
        rw [dif_pos]
      have hRest :=
        ih (fun other hMem =>
          hRows other (List.mem_cons_of_mem _ hMem))
      rw [List.filterMap_cons_some hMake, List.length_cons,
        List.length_cons, hRest]

------------------------------------------------------------
-- The Rows The Parser Returns
------------------------------------------------------------

/- The rows at the starts of the streams, if not zero. -/
def firstRows (image : CompactFile) : List (List Int) :=
  (image.streams.map
    (fun stream =>
      rowAt image.file (image.offset stream))).filter
    (· ≠ zeroRow)

/- The compact parser of a compact file is one loop. -/
theorem parse_compact
    {reader : Reader}
    {type : RecordType}
    (hType : reader.srLatency = some type)
    (image : CompactFile) :
    parseSrLatencyRecords reader image.file =
      (image.streams.mapM
        (fun stream =>
          compactRow type image.file
            (image.offset stream))).map
        List.reduceOption := by
  have hPos : 0 < image.header.numProbes.toNat := by
    rcases image.probes with hOne | hTwo
    · omega
    · omega
  unfold parseSrLatencyRecords
  rw [image.readsHeader, Raising.ok_bind,
    if_pos image.probes,
    parseCompact_eq hType image.readsHeader image.readsTable
      hPos image.readsSection,
    if_neg image.warpDiv_ne]
  rfl

/- The streams by their block and warp. -/
theorem mem_streamIndices
    {gridSize warpStreams : Int}
    {stream : Nat × Nat} :
    stream ∈ streamIndices gridSize warpStreams ↔
      stream.1 < gridSize.toNat ∧
        stream.2 < warpStreams.toNat := by
  rcases stream with ⟨block, warp⟩
  simp [streamIndices]

/- Every slot of a stream is inside the file. -/
theorem CompactFile.slot_fits
    (image : CompactFile)
    {stream : Nat × Nat}
    (hMem : stream ∈ image.streams)
    {slot : Nat}
    (hSlot : slot < image.slots) :
    image.offset stream + 16 * slot + 16 ≤
      image.file.contents.length := by
  rcases mem_streamIndices.mp hMem with ⟨hBlock, hWarp⟩
  have hComplete := image.complete
  have hSize : 16 * image.slots = image.sect.size :=
    Nat.mul_div_cancel' image.size_dvd
  have hIndex :
      stream.1 * image.warpStreams.toNat + stream.2 + 1 ≤
        image.header.gridSize.toNat *
          image.warpStreams.toNat := by
    have hBlocks :
        (stream.1 + 1) * image.warpStreams.toNat ≤
          image.header.gridSize.toNat *
            image.warpStreams.toNat :=
      Nat.mul_le_mul_right _ hBlock
    rw [Nat.succ_mul] at hBlocks
    omega
  have hBytes :=
    Nat.mul_le_mul_right image.sect.size hIndex
  rw [Nat.succ_mul] at hBytes
  have hOffset :
      image.offset stream =
        image.sect.offset +
          (stream.1 * image.warpStreams.toNat + stream.2) *
            image.sect.size := rfl
  unfold CompactFile.warpStreams at hBytes hOffset
  omega

/- Dropping zero rows before or after decoding is the same. -/
theorem filterMap_filter_ne_zeroRow
    {α : Type}
    {l : List α}
    {row : α → List Int}
    {type : RecordType} :
    ((l.map row).filter (· ≠ zeroRow)).filterMap type.make =
      (l.map
        (fun a =>
          if row a = zeroRow then none
          else type.make (row a))).reduceOption := by
  unfold List.reduceOption
  rw [List.filterMap_filter, List.filterMap_map,
    List.filterMap_map]
  apply List.filterMap_congr
  intro a _
  by_cases hZero : row a = zeroRow
  · simp [hZero]
  · simp [hZero]

/- Where all first rows are in the file, they are decoded. -/
theorem mapM_compactRow
    {type : RecordType}
    (hArity : type.names.length = 3)
    (image : CompactFile)
    (hFits :
      ∀ stream ∈ image.streams,
        image.offset stream + 16 ≤
          image.file.contents.length) :
    image.streams.mapM
        (fun stream =>
          compactRow type image.file
            (image.offset stream)) =
      .ok
        (image.streams.map
          (fun stream =>
            if rowAt image.file (image.offset stream) =
                zeroRow then
              none
            else
              type.make
                (rowAt image.file
                  (image.offset stream)))) := by
  apply Raising.mapM_ok
  intro stream hMem
  exact compactRow_of_le hArity (hFits stream hMem)

/- Where all first rows are in the file, they are returned. -/
theorem parse_of_fits
    {reader : Reader}
    {type : RecordType}
    (hType : reader.srLatency = some type)
    (hArity : type.names.length = 3)
    (image : CompactFile)
    (hFits :
      ∀ stream ∈ image.streams,
        image.offset stream + 16 ≤
          image.file.contents.length) :
    parseSrLatencyRecords reader image.file =
      .ok ((firstRows image).filterMap type.make) := by
  unfold firstRows
  rw [parse_compact hType, mapM_compactRow hArity image hFits,
    filterMap_filter_ne_zeroRow, Except.map]

/- Where rows are returned, all first rows are in the file. -/
theorem fits_of_parse
    {reader : Reader}
    {type : RecordType}
    (hType : reader.srLatency = some type)
    (image : CompactFile)
    {records : List Record}
    (hParse :
      parseSrLatencyRecords reader image.file = .ok records) :
    ∀ stream ∈ image.streams,
      image.offset stream + 16 ≤
        image.file.contents.length := by
  rw [parse_compact hType] at hParse
  rcases hRows : (image.streams.mapM
      (fun stream =>
        compactRow type image.file
          (image.offset stream))) with err | rows
  · rw [hRows] at hParse
    cases hParse
  · intro stream hMem
    by_contra hShort
    rcases compactRow_of_lt type (Nat.lt_of_not_le hShort)
      with ⟨text, hText⟩
    rcases Raising.forall_of_mapM_ok hRows stream hMem with
      ⟨row, hRow⟩
    rw [hText] at hRow
    cases hRow

------------------------------------------------------------
-- First Rows And All Rows
------------------------------------------------------------

/-
  Lists that are extended piece by piece keep their total
  length only if every extension is empty.
-/
theorem eq_nil_of_length_flatMap
    {α β : Type}
    {f g : α → List β}
    {l : List α}
    (hLength :
      (l.flatMap f).length =
        (l.flatMap (fun a => f a ++ g a)).length) :
    ∀ a ∈ l, g a = [] := by
  induction l with
  | nil =>
      intro a hMem
      exact absurd hMem List.not_mem_nil
  | cons a rest ih =>
      have hMono :
          (rest.flatMap f).length ≤
            (rest.flatMap (fun a => f a ++ g a)).length := by
        rw [List.length_flatMap, List.length_flatMap]
        apply List.sum_le_sum
        intro b _
        rw [List.length_append]
        exact Nat.le_add_right _ _
      simp only [List.flatMap_cons, List.length_append]
        at hLength
      intro b hMem
      rcases List.mem_cons.mp hMem with hSame | hRest
      · rw [hSame]
        exact List.length_eq_zero_iff.mp (by omega)
      · exact ih (by omega) b hRest

/- The rows after the first slot of a stream, if not zero. -/
def laterRows
    (image : CompactFile)
    (stream : Nat × Nat) : List (List Int) :=
  ((List.range (image.slots - 1)).map
    (fun slot =>
      rowAt image.file
        (image.offset stream + 16 * (slot + 1)))).filter
    (· ≠ zeroRow)

/- The first row of a stream, if not zero. -/
def firstRow
    (image : CompactFile)
    (stream : Nat × Nat) : List (List Int) :=
  [rowAt image.file (image.offset stream)].filter
    (· ≠ zeroRow)

/- The first rows, stream by stream. -/
theorem firstRows_eq (image : CompactFile) :
    firstRows image =
      image.streams.flatMap (firstRow image) := by
  unfold firstRows firstRow
  rw [List.map_eq_flatMap, List.filter_flatMap]

/- The rows of the section, stream by stream. -/
theorem sectionRows_eq
    (image : CompactFile)
    (hSlots : image.slots ≠ 0) :
    sectionRows image =
      image.streams.flatMap
        (fun stream =>
          firstRow image stream ++ laterRows image stream) := by
  have hSucc : image.slots = image.slots - 1 + 1 := by omega
  unfold sectionRows
  rw [List.filter_flatMap]
  apply List.flatMap_congr
  intro stream _
  unfold slotRows
  rw [hSucc, List.range_succ_eq_map, List.map_cons,
    List.map_map, ← List.singleton_append,
    List.filter_append]
  rfl

/- No later rows: every later slot is zero. -/
theorem laterRows_eq_nil_iff
    {image : CompactFile}
    {stream : Nat × Nat} :
    laterRows image stream = [] ↔
      ∀ slot, 1 ≤ slot → slot < image.slots →
        rowAt image.file (image.offset stream + 16 * slot) =
          zeroRow := by
  unfold laterRows
  rw [List.filter_eq_nil_iff]
  constructor
  · intro hAll slot hPos hSlot
    have hMem :
        rowAt image.file (image.offset stream + 16 * slot) ∈
          (List.range (image.slots - 1)).map
            (fun slot =>
              rowAt image.file
                (image.offset stream + 16 * (slot + 1))) := by
      apply List.mem_map.mpr
      refine ⟨slot - 1, List.mem_range.mpr (by omega), ?_⟩
      rw [Nat.sub_add_cancel hPos]
    have hZero := hAll _ hMem
    simpa using hZero
  · intro hAll row hMem
    rcases List.mem_map.mp hMem with ⟨slot, hSlot, hRow⟩
    have hZero :=
      hAll (slot + 1) (by omega)
        (by
          have hRange := List.mem_range.mp hSlot
          omega)
    rw [← hRow, hZero]
    simp

/- All rows of the section have three values. -/
theorem length_of_mem_sectionRows
    {image : CompactFile} :
    ∀ row ∈ sectionRows image, row.length = 3 := by
  intro row hMem
  rcases List.mem_flatMap.mp (List.mem_of_mem_filter hMem)
    with ⟨stream, -, hSlot⟩
  rcases List.mem_map.mp hSlot with ⟨slot, -, hRow⟩
  rw [← hRow]
  exact length_rowAt _ _

/- All first rows have three values. -/
theorem length_of_mem_firstRows
    {image : CompactFile} :
    ∀ row ∈ firstRows image, row.length = 3 := by
  intro row hMem
  rcases List.mem_map.mp (List.mem_of_mem_filter hMem) with
    ⟨stream, -, hRow⟩
  rw [← hRow]
  exact length_rowAt _ _

/-
  The compact parser loses no row exactly when no stream has
  a row after its first slot.
-/
theorem parse_complete_iff
    (reader : Reader)
    (type : RecordType)
    (hType : reader.srLatency = some type)
    (hArity : type.names.length = 3)
    (image : CompactFile) :
    parseSrLatencyRecords reader image.file =
        .ok ((sectionRows image).filterMap type.make) ↔
      OneRowPerStream image := by
  constructor
  · intro hParse
    have hFits := fits_of_parse hType image hParse
    rw [parse_of_fits hType hArity image hFits] at hParse
    have hLength :
        (firstRows image).length =
          (sectionRows image).length := by
      rw [← length_filterMap_make hArity
          length_of_mem_firstRows,
        ← length_filterMap_make hArity
          length_of_mem_sectionRows,
        Except.ok.inj hParse]
    intro stream hMem
    by_cases hSlots : image.slots = 0
    · rw [if_pos hSlots]
      constructor
      · exact hFits stream hMem
      · have hNone : sectionRows image = [] := by
          simp [sectionRows, slotRows, hSlots]
        rw [hNone, List.length_nil,
          List.length_eq_zero_iff] at hLength
        unfold firstRows at hLength
        rw [List.filter_eq_nil_iff] at hLength
        have hZero := hLength _ (List.mem_map_of_mem hMem)
        simpa using hZero
    · rw [if_neg hSlots, ← laterRows_eq_nil_iff]
      rw [firstRows_eq, sectionRows_eq image hSlots] at hLength
      exact eq_nil_of_length_flatMap hLength stream hMem
  · intro hOne
    by_cases hSlots : image.slots = 0
    · have hFits :
          ∀ stream ∈ image.streams,
            image.offset stream + 16 ≤
              image.file.contents.length := by
        intro stream hMem
        have hStream := hOne stream hMem
        rw [if_pos hSlots] at hStream
        exact hStream.1
      have hNone : sectionRows image = [] := by
        simp [sectionRows, slotRows, hSlots]
      have hFirst : firstRows image = [] := by
        unfold firstRows
        rw [List.filter_eq_nil_iff]
        intro row hRow
        rcases List.mem_map.mp hRow with ⟨stream, hMem, hEq⟩
        have hStream := hOne stream hMem
        rw [if_pos hSlots] at hStream
        rw [← hEq, hStream.2]
        simp
      rw [parse_of_fits hType hArity image hFits, hNone,
        hFirst]
    · have hFits :
          ∀ stream ∈ image.streams,
            image.offset stream + 16 ≤
              image.file.contents.length := by
        intro stream hMem
        have hFirst := image.slot_fits hMem
          (Nat.pos_of_ne_zero hSlots)
        omega
      have hSame : firstRows image = sectionRows image := by
        rw [firstRows_eq, sectionRows_eq image hSlots]
        apply List.flatMap_congr
        intro stream hMem
        have hStream := hOne stream hMem
        rw [if_neg hSlots, ← laterRows_eq_nil_iff] at hStream
        rw [hStream, List.append_nil]
      rw [parse_of_fits hType hArity image hFits, hSame]

------------------------------------------------------------
-- Files Of The Local Probe
------------------------------------------------------------

/- A reader with the generated class. -/
def localReader : Reader where
  srLatency := some srLatencyType
  parse := fun _ => .error .indexError

/-
  One block of one warp, whose stream of four slots begins
  with the given bytes.
-/
def localContents (saved : List UInt8) : List UInt8 :=
  let header : List UInt8 := [1, 1, 1, 32, 1, 1, 0, 1]
  let sect : List UInt8 :=
    [64, 0, 0, 0, 32, 0, 0, 0, 48, 0, 0, 0, 0, 0, 0, 0]
  header.flatMap (fun b => [b, 0, 0, 0]) ++ sect ++ saved ++
    List.replicate (64 - saved.length) 0

/- A row of source 5, vblock 7 and a given step. -/
def localRow (latency step : UInt8) : List UInt8 :=
  [latency, 0, 0, 0, 0, 0, 0, 0, 7, 0, 6, 0, step, 0, 0, 0]

/- A stream with one saved row. -/
def oneRow : CompactFile where
  file :=
    { path := "result/0.bin"
      contents := localContents (localRow 120 1)
      short := by decide +kernel }
  header := ⟨1, 1, 1, 32, 1, 1, 0, 1⟩
  sect := ⟨64, 32, 48⟩
  readsHeader := by decide +kernel
  probes := Or.inl rfl
  readsTable := by
    intro i hMem
    have hZero : i = 0 := by
      simpa using hMem
    exact ⟨⟨64, 32, 48⟩, by rw [hZero]; decide +kernel⟩
  readsSection := by decide +kernel
  warpDiv_ne := by decide
  size_dvd := by decide
  complete := by decide +kernel

/- Its row is returned. -/
theorem parse_complete_iff_oneRow :
    parseSrLatencyRecords localReader oneRow.file =
      .ok ((sectionRows oneRow).filterMap srLatencyType.make) := by
  apply
    (parse_complete_iff localReader srLatencyType rfl rfl
      oneRow).mpr
  have hLater :
      ∀ stream ∈ oneRow.streams,
        laterRows oneRow stream = [] := by
    decide +kernel
  intro stream hMem
  rw [if_neg (by decide), ← laterRows_eq_nil_iff]
  exact hLater stream hMem

/- A stream with two consecutive saved rows. -/
def twoRows : CompactFile where
  file :=
    { path := "result/0.bin"
      contents :=
        localContents (localRow 120 1 ++ localRow 130 2)
      short := by decide +kernel }
  header := ⟨1, 1, 1, 32, 1, 1, 0, 1⟩
  sect := ⟨64, 32, 48⟩
  readsHeader := by decide +kernel
  probes := Or.inl rfl
  readsTable := by
    intro i hMem
    have hZero : i = 0 := by
      simpa using hMem
    exact ⟨⟨64, 32, 48⟩, by rw [hZero]; decide +kernel⟩
  readsSection := by decide +kernel
  warpDiv_ne := by decide
  size_dvd := by decide
  complete := by decide +kernel

/- The second row is lost. -/
theorem not_parse_complete :
    sectionRows twoRows =
        [[120, 393223, 1], [130, 393223, 2]] ∧
      parseSrLatencyRecords localReader twoRows.file ≠
        .ok
          ((sectionRows twoRows).filterMap
            srLatencyType.make) := by
  constructor
  · decide +kernel
  · have hParse :
        parseSrLatencyRecords localReader twoRows.file =
          .ok [srLatencyRecord 120 393223 1] := by
      decide +kernel
    have hRows :
        sectionRows twoRows =
          [[120, 393223, 1], [130, 393223, 2]] := by
      decide +kernel
    rw [hParse, hRows]
    decide

end Latency

end FabricPerf
