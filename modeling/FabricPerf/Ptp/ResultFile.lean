import FabricPerf.Analysis.TraceRoot
import FabricPerf.Latency.Reader
import FabricPerf.Ptp.Alignment
import FabricPerf.Ptp.SaveLoop

/-
  The result files that `analysis/ptp_alignment.py` reads.

  A file of two sections is decoded here, 16 bytes a row from
  its second section; the generated reader of other files is
  a parameter.  The rows at the head of the map are what the
  save loop has left there.

  Main declarations:
    * `Ptp.parseCompactPtpRecords`, `Ptp.parsePtpRecords`
    * `Ptp.readPtpTraceDir`, `Ptp.readTraceOffsets`
    * `Ptp.parseCompact_cases`
    * `Ptp.saved_rows_read`
-/

------------------------------------------------------------
-- Parsing One File
------------------------------------------------------------

namespace FabricPerf

namespace Ptp

open Analysis StructFormat Latency

/-
  The module `read.py`: the class `ptp_metrics`, if it has
  one, and its `parse`.
-/
structure PtpReader where
  ptpMetrics : Option RecordType
  parse : ResultFile → Except PyErr (String → Option Blocks)

/- `getattr(reader, "ptp_metrics")`. -/
def PtpReader.ptpMetricsType
    (reader : PtpReader) : Except PyErr RecordType :=
  match reader.ptpMetrics with
  | some type => .ok type
  | none => .error .attributeError

/- The slices of 16 bytes; the last one may be short. -/
def chunks (payload : List UInt8) : List (List UInt8) :=
  (List.range ((payload.length + 15) / 16)).map
    (fun i => (payload.drop (16 * i)).take 16)

/- `ptp_metrics_type(*unpack_ptp(chunk))`. -/
def unpackPtp
    (type : RecordType)
    (chunk : List UInt8) : Except PyErr Record := do
  let values ← structUnpack [.int64, .int64] chunk
  type.call values

/- The bytes of a section. -/
def readPayload
    (file : ResultFile)
    (sect : TraceSection) : Except PyErr (List UInt8) := do
  if 2 ^ 63 ≤ sect.offset then
    throw
      (.valueError
        "cannot fit 'int' into an offset-sized integer")
  let payload := file.read sect.offset sect.size
  if payload.length ≠ sect.size then
    let path := file.path
    throw
      (.valueError
        s!"short compact ptp_metrics section in {path}")
  return payload

/- `parse_compact_ptp_records`. -/
def parseCompactPtpRecords
    (reader : PtpReader)
    (file : ResultFile)
    (sectionIndex : Nat) : Except PyErr (List Record) := do
  let type ← reader.ptpMetricsType
  let header ← readHeader file
  let sections ←
    (List.range header.numProbes.toNat).mapM
      (readSection file)
  match sections[sectionIndex]? with
  | none =>
      let path := file.path
      throw
        (.valueError
          s!"expected compact ptp_metrics section in {path}")
  | some sect =>
      let payload ← readPayload file sect
      (chunks payload).mapM (unpackPtp type)

/- `parse_ptp_records`. -/
def parsePtpRecords
    (reader : PtpReader)
    (file : ResultFile) : Except PyErr (List Record) := do
  let header ← readHeader file
  if header.numProbes = 2 then
    parseCompactPtpRecords reader file 1
  else if header.numProbes = 1 then
    return []
  else
    let records ← reader.parse file
    match records "ptp_metrics" with
    | none => return []
    | some blocks => return blocks.flatten.flatten

------------------------------------------------------------
-- Reading One Trace Directory
------------------------------------------------------------

/- One turn of the inner loop of `read_ptp_records`. -/
def readPtpRecord
    (trace : String)
    (rank : Int)
    (devices samplesPerPair compactDsts : Nat)
    (fileIndex slotIndex : Nat)
    (record : Record) : Except PyErr (Option PtpRecord) := do
  let offset ← record.getAttr "offset"
  -- the latency of a nonzero offset is not looked at yet
  if offset = 0 then
    let latency ← record.getAttr "latency"
    if latency = 0 then
      return none
  if samplesPerPair = 0 ∨ compactDsts = 0 then
    throw .zeroDivisionError
  let slot :=
    decodePtpSlot slotIndex samplesPerPair compactDsts
  if devices ≤ slot.1 ∨ devices ≤ slot.2.1 ∨
      slot.1 = slot.2.1 then
    return none
  let latency ← record.getAttr "latency"
  return some
    { trace := trace
      rank := rank
      fileIndex := fileIndex
      slotIndex := slotIndex
      sampleIndex := slot.2.2
      src := slot.1
      dst := slot.2.1
      offset := offset
      latency := latency }

/- The records of one result file. -/
def readPtpFile
    (trace : String)
    (rank : Int)
    (devices samplesPerPair compactDsts : Nat)
    (parse : ResultFile → Except PyErr (List Record))
    (file : ResultFile × Nat) :
    Except PyErr (List PtpRecord) := do
  let records ← parse file.1
  let found ←
    records.zipIdx.mapM
      (fun slot =>
        readPtpRecord trace rank devices samplesPerPair
          compactDsts file.2 slot.2 slot.1)
  return found.reduceOption

/- `read_ptp_records`. -/
def readPtpTraceDir
    (trace : String)
    (dir : TraceDir (List Record))
    (devices samplesPerPair compactDsts : Nat) :
    Except PyErr (List PtpRecord) := do
  let rank ← dir.parseRank
  let parse ← dir.loadReader
  let perFile ←
    dir.resultFiles.zipIdx.mapM
      (readPtpFile trace rank devices samplesPerPair
        compactDsts parse)
  return perFile.flatten

------------------------------------------------------------
-- Reading A Trace Root
------------------------------------------------------------

/- `infer_devices`. -/
def inferDevices
    (root : TraceRoot (List Record)) : Except PyErr Nat := do
  let dirs ← root.iterTraceDirs
  let ranks : List Nat ←
    dirs.mapM (fun dir => dir.2.parseRank)
  match ranks.max? with
  | none =>
      throw
        (.valueError
          ("no trace ranks found under " ++ root.path))
  | some last => return min (last + 1) 8

/- `"could not infer rank" in str(exc)`. -/
def namesNoRank (text : String) : Bool :=
  decide ("could not infer rank".toList <:+: text.toList)

/- The records of a directory; helpers without rank have none. -/
def readRankedDir
    (devices samplesPerPair compactDsts : Nat)
    (dir : String × TraceDir (List Record)) :
    Except PyErr (List PtpRecord) :=
  match
      readPtpTraceDir dir.1 dir.2 devices samplesPerPair
        compactDsts with
  | .error (.valueError text) =>
      if namesNoRank text then .ok []
        else .error (.valueError text)
  | result => result

/- `read_pair_offsets`. -/
def readTraceOffsets
    (root : TraceRoot (List Record))
    (devices : Option Nat)
    (samplesPerPair compactDsts : Nat) :
    Except PyErr (Dict RankPair (List Int)) := do
  let actualDevices ←
    match devices with
    | none => inferDevices root
    | some devices => pure devices
  let dirs ← root.iterTraceDirs
  let records ←
    dirs.mapM
      (readRankedDir actualDevices samplesPerPair compactDsts)
  return readPairOffsets records.flatten

------------------------------------------------------------
-- Rows Of A Payload
------------------------------------------------------------

/- A payload of whole rows is cut into rows. -/
theorem chunks_of_length
    {payload : List UInt8}
    {n : Nat}
    (hLength : payload.length = 16 * n) :
    chunks payload =
      (List.range n).map
        (fun i => (payload.drop (16 * i)).take 16) := by
  have hCount : (payload.length + 15) / 16 = n := by
    omega
  unfold chunks
  rw [hCount]

/- Behind the last whole row there is a short slice. -/
theorem exists_short_chunk
    {payload : List UInt8}
    (hLength : ¬ 16 ∣ payload.length) :
    ∃ chunk ∈ chunks payload, chunk.length ≠ 16 := by
  refine
    ⟨(payload.drop (16 * (payload.length / 16))).take 16,
      ?_, ?_⟩
  · unfold chunks
    apply List.mem_map_of_mem
    rw [List.mem_range]
    omega
  · rw [List.length_take, List.length_drop]
    omega

/- A row has the size of the format. -/
theorem structUnpack_row
    {chunk : List UInt8}
    (hLength : chunk.length = 16) :
    structUnpack [.int64, .int64] chunk =
      .ok (values [.int64, .int64] chunk) := by
  unfold structUnpack
  rw [unpack_eq_some_iff.mpr ⟨hLength, rfl⟩]

/- A short slice does not. -/
theorem structUnpack_short
    {chunk : List UInt8}
    (hLength : chunk.length ≠ 16) :
    structUnpack [.int64, .int64] chunk =
      .error .structError := by
  have hSize : chunk.length ≠ calcsize [.int64, .int64] :=
    hLength
  unfold structUnpack unpack
  rw [if_neg hSize]

/- A class of two names takes the values of a row. -/
theorem call_row
    {type : RecordType}
    (hArity : type.names.length = 2)
    (chunk : List UInt8) :
    type.call (values [.int64, .int64] chunk) =
      .ok ⟨type, values [.int64, .int64] chunk, hArity.symm⟩ := by
  have hLength :
      (values [.int64, .int64] chunk).length =
        type.names.length := hArity.symm
  unfold RecordType.call RecordType.make
  rw [dif_pos hLength]

/- The record of a row. -/
def rowRecord
    {type : RecordType}
    (hArity : type.names.length = 2)
    (chunk : List UInt8) : Record :=
  ⟨type, values [.int64, .int64] chunk, hArity.symm⟩

/- The compact parser of a complete table is one loop. -/
theorem parseCompact_eq
    {reader : PtpReader}
    {type : RecordType}
    {file : ResultFile}
    {header : TraceHeader}
    {sect : TraceSection}
    {sectionIndex : Nat}
    (hType : reader.ptpMetrics = some type)
    (hHeader : readHeader file = .ok header)
    (hTable : TableComplete file header)
    (hIndex : sectionIndex < header.numProbes.toNat)
    (hSect : readSection file sectionIndex = .ok sect) :
    parseCompactPtpRecords reader file sectionIndex =
      (readPayload file sect >>= fun payload =>
        (chunks payload).mapM (unpackPtp type)) := by
  have hRead :
      (List.range header.numProbes.toNat).mapM
          (readSection file) =
        .ok
          ((List.range header.numProbes.toNat).map
            (fun i =>
              ((readSection file i).toOption).getD sect)) := by
    apply Raising.mapM_ok
    intro i hMem
    rcases hTable i hMem with ⟨entry, hEntry⟩
    rw [hEntry]
    rfl
  have hEntry :
      ((List.range header.numProbes.toNat).map
          (fun i =>
            ((readSection file i).toOption).getD sect))[
            sectionIndex]? =
        some sect := by
    rw [List.getElem?_map, List.getElem?_range hIndex,
      Option.map_some, hSect]
    rfl
  have hReader : reader.ptpMetricsType = .ok type := by
    unfold PtpReader.ptpMetricsType
    rw [hType]
  unfold parseCompactPtpRecords
  simp only [hReader, hHeader, hRead, hEntry, Raising.ok_bind]

/- Whole rows are all unpacked. -/
theorem mapM_unpackPtp
    {type : RecordType}
    (hArity : type.names.length = 2)
    {payload : List UInt8}
    {n : Nat}
    (hLength : payload.length = 16 * n) :
    (chunks payload).mapM (unpackPtp type) =
      .ok
        ((List.range n).map
          (fun i =>
            rowRecord hArity
              ((payload.drop (16 * i)).take 16))) := by
  rw [chunks_of_length hLength]
  have hAll :
      ∀ chunk ∈
          (List.range n).map
            (fun i => (payload.drop (16 * i)).take 16),
        unpackPtp type chunk =
          .ok (rowRecord hArity chunk) := by
    intro chunk hMem
    rcases List.mem_map.mp hMem with ⟨i, hI, rfl⟩
    have hRow : ((payload.drop (16 * i)).take 16).length = 16 := by
      have hBelow := List.mem_range.mp hI
      rw [List.length_take, List.length_drop]
      omega
    unfold unpackPtp
    rw [structUnpack_row hRow, Raising.ok_bind,
      call_row hArity]
    rfl
  rw [Raising.mapM_ok hAll, List.map_map]
  rfl

/- A short slice at the end is an error. -/
theorem mapM_unpackPtp_short
    {type : RecordType}
    (hArity : type.names.length = 2)
    {payload : List UInt8}
    (hLength : ¬ 16 ∣ payload.length) :
    (chunks payload).mapM (unpackPtp type) =
      .error .structError := by
  let fails : List UInt8 → Bool := fun chunk =>
    decide (chunk.length ≠ 16)
  have hOk :
      ∀ chunk, fails chunk = false →
        ∃ record, unpackPtp type chunk = .ok record := by
    intro chunk hFails
    have hRow : chunk.length = 16 :=
      not_not.mp (of_decide_eq_false hFails)
    refine ⟨rowRecord hArity chunk, ?_⟩
    unfold unpackPtp
    rw [structUnpack_row hRow, Raising.ok_bind,
      call_row hArity]
    rfl
  rcases exists_short_chunk hLength with ⟨last, hMem, hShort⟩
  cases hFind : (chunks payload).find? fails with
  | none =>
      rw [List.find?_eq_none] at hFind
      exact absurd (decide_eq_true hShort) (hFind last hMem)
  | some chunk =>
      have hFails : chunk.length ≠ 16 :=
        of_decide_eq_true
          (List.find?_some (p := fails) hFind)
      apply Raising.mapM_error_of_find?_eq_some hOk hFind
      unfold unpackPtp
      rw [structUnpack_short hFails, Raising.error_bind]

/-
  The compact parser of a complete table: it decodes every
  row of the section, in order, exactly when the section is
  in the file and made of whole rows; otherwise it raises
  what the text says.
-/
theorem parseCompact_cases
    {reader : PtpReader}
    {type : RecordType}
    {file : ResultFile}
    {header : TraceHeader}
    {sect : TraceSection}
    {sectionIndex : Nat}
    (hType : reader.ptpMetrics = some type)
    (hArity : type.names.length = 2)
    (hHeader : readHeader file = .ok header)
    (hTable : TableComplete file header)
    (hIndex : sectionIndex < header.numProbes.toNat)
    (hSect : readSection file sectionIndex = .ok sect) :
    parseCompactPtpRecords reader file sectionIndex =
      if 2 ^ 63 ≤ sect.offset then
        .error
          (.valueError
            "cannot fit 'int' into an offset-sized integer")
      else if
          0 < sect.size ∧
            file.contents.length < sect.offset + sect.size then
        .error
          (.valueError
            ("short compact ptp_metrics section in " ++
              file.path))
      else if 16 ∣ sect.size then
        .ok
          ((List.range (sect.size / 16)).map
            (fun i =>
              rowRecord hArity
                (file.read (sect.offset + 16 * i) 16)))
      else
        .error .structError := by
  rw [parseCompact_eq hType hHeader hTable hIndex hSect]
  have hLength :
      (file.read sect.offset sect.size).length =
        min sect.size (file.contents.length - sect.offset) :=
    file.length_read sect.offset sect.size
  unfold readPayload
  split_ifs with hFar hOutside hPart
  · rfl
  · have hShort :
        (file.read sect.offset sect.size).length ≠
          sect.size := by
      omega
    simp only [if_pos hShort]
    simp [toString]
  · have hFull :
        (file.read sect.offset sect.size).length =
          sect.size := by
      omega
    have hRows : sect.size = 16 * (sect.size / 16) :=
      (Nat.mul_div_cancel' hPart).symm
    simp only [hFull, ne_eq, not_true_eq_false, if_false,
      Raising.pure_eq_ok, Raising.ok_bind]
    rw [mapM_unpackPtp hArity (hFull.trans hRows)]
    refine congrArg Except.ok (List.map_congr_left ?_)
    intro i hI
    have hBelow := List.mem_range.mp hI
    have hWindow :
        ((file.read sect.offset sect.size).drop
            (16 * i)).take 16 =
          file.read (sect.offset + 16 * i) 16 := by
      unfold ResultFile.read
      rw [List.drop_take, List.drop_drop, List.take_take]
      congr 1
      omega
    rw [hWindow]
  · have hFull :
        (file.read sect.offset sect.size).length =
          sect.size := by
      omega
    simp only [hFull, ne_eq, not_true_eq_false, if_false,
      Raising.pure_eq_ok, Raising.ok_bind]
    apply mapM_unpackPtp_short hArity
    rw [hFull]
    exact hPart

------------------------------------------------------------
-- Records As Rows
------------------------------------------------------------

/- The record has the two fields of the row. -/
structure ReadsAs (record : Record) (row : PtpRow) : Prop where
  offset : record.getAttr "offset" = .ok row.offset
  latency : record.getAttr "latency" = .ok row.latency

/- The signed values of two words. -/
def PtpRow.ofPair (p : ByteMemory.Pair) : PtpRow where
  offset := p.1.toInt
  latency := p.2.toInt

/- A row of the memory is read as its two signed words. -/
theorem readsAs_rowRecord
    {type : RecordType}
    (hNames : type.names = ["offset", "latency"])
    (hArity : type.names.length = 2)
    (m : ByteMemory.Memory)
    (a : BitVec 64) :
    ReadsAs (rowRecord hArity (ByteMemory.read m a 16))
      (PtpRow.ofPair (ByteMemory.loadPair m a)) := by
  have hValues := ByteMemory.values_read m a
  constructor <;>
    simp [Record.getAttr, Record.attr?, rowRecord, hNames,
      hValues, PtpRow.ofPair]

section Rows

variable {trace : String} {rank : Int}
variable {devices samplesPerPair compactDsts : Nat}

/- A record is read as its row is. -/
theorem readPtpRecord_ok
    {record : Record}
    {row : PtpRow}
    (hReads : ReadsAs record row)
    (hSamples : samplesPerPair ≠ 0)
    (hDsts : compactDsts ≠ 0)
    (fileIndex slotIndex : Nat) :
    readPtpRecord trace rank devices samplesPerPair
        compactDsts fileIndex slotIndex record =
      .ok
        (readPtpRow trace rank devices samplesPerPair
          compactDsts fileIndex slotIndex row) := by
  have hZero : ¬ (samplesPerPair = 0 ∨ compactDsts = 0) :=
    not_or.mpr ⟨hSamples, hDsts⟩
  unfold readPtpRecord readPtpRow isUnwrittenPtpRecord
  simp only [hReads.offset, hReads.latency, Raising.ok_bind,
    Raising.pure_eq_ok, if_neg hZero]
  by_cases hOffset : row.offset = 0
  · by_cases hLatency : row.latency = 0
    · simp [hOffset, hLatency]
    · simp only [hOffset, hLatency, if_true, if_false]
      split_ifs <;> simp_all
  · simp only [hOffset, if_false]
    split_ifs <;> simp_all

/- A file whose records read as rows. -/
def FileReadsAs
    (parse : ResultFile → Except PyErr (List Record))
    (file : ResultFile)
    (rows : List PtpRow) : Prop :=
  ∃ records,
    parse file = .ok records ∧
      List.Forall₂ ReadsAs records rows

/- A file is read as its rows are. -/
theorem readPtpFile_ok
    {parse : ResultFile → Except PyErr (List Record)}
    {file : ResultFile}
    {rows : List PtpRow}
    (hReads : FileReadsAs parse file rows)
    (hSamples : samplesPerPair ≠ 0)
    (hDsts : compactDsts ≠ 0)
    (fileIndex : Nat) :
    readPtpFile trace rank devices samplesPerPair compactDsts
        parse (file, fileIndex) =
      .ok
        (rows.zipIdx.filterMap
          (fun slot =>
            readPtpRow trace rank devices samplesPerPair
              compactDsts fileIndex slot.2 slot.1)) := by
  rcases hReads with ⟨records, hParse, hRows⟩
  have hAll :=
    Raising.mapM_ok_of_forall₂
      (f := fun slot : Record × Nat =>
        readPtpRecord trace rank devices samplesPerPair
          compactDsts fileIndex slot.2 slot.1)
      (g := fun slot : PtpRow × Nat =>
        readPtpRow trace rank devices samplesPerPair
          compactDsts fileIndex slot.2 slot.1)
      ((Raising.forall₂_zipIdx hRows 0).imp
        (fun slot row hSlot => by
          rw [hSlot.2]
          exact
            readPtpRecord_ok hSlot.1 hSamples hDsts
              fileIndex row.2))
  unfold readPtpFile
  simp only [hParse, Raising.ok_bind, hAll,
    Raising.pure_eq_ok]
  rw [List.reduceOption, List.filterMap_map]
  rfl

/- A directory is read as the rows of its files are. -/
theorem readPtpTraceDir_ok
    {dir : TraceDir (List Record)}
    {parse : ResultFile → Except PyErr (List Record)}
    {ownRank : Nat}
    {files : List (List PtpRow)}
    (hRank : dir.parseRank = .ok ownRank)
    (hReader : dir.loadReader = .ok parse)
    (hFiles :
      List.Forall₂ (FileReadsAs parse) dir.resultFiles files)
    (hSamples : samplesPerPair ≠ 0)
    (hDsts : compactDsts ≠ 0) :
    readPtpTraceDir trace dir devices samplesPerPair
        compactDsts =
      .ok
        (readPtpRecords trace ownRank files devices
          samplesPerPair compactDsts) := by
  have hAll :=
    Raising.mapM_ok_of_forall₂
      (f := readPtpFile trace ownRank devices samplesPerPair
        compactDsts parse)
      (g := fun file : List PtpRow × Nat =>
        file.1.zipIdx.filterMap
          (fun slot =>
            readPtpRow trace ownRank devices samplesPerPair
              compactDsts file.2 slot.2 slot.1))
      ((Raising.forall₂_zipIdx hFiles 0).imp
        (fun file rows hFile => by
          rcases file with ⟨file, index⟩
          simp only at hFile
          rw [hFile.2]
          exact
            readPtpFile_ok hFile.1 hSamples hDsts rows.2))
  unfold readPtpTraceDir
  simp only [hRank, hReader, Raising.ok_bind, hAll,
    Raising.pure_eq_ok]
  rfl

end Rows

------------------------------------------------------------
-- Saved Rows
------------------------------------------------------------

/-
  A file of two sections whose second one holds a table of
  the memory is parsed as the records of that table.
-/
theorem fileReadsAs_of_dump
    {reader : PtpReader}
    {type : RecordType}
    (hType : reader.ptpMetrics = some type)
    (hNames : type.names = ["offset", "latency"])
    {file : ResultFile}
    {header : TraceHeader}
    {sect : TraceSection}
    (hHeader : readHeader file = .ok header)
    (hProbes : header.numProbes = 2)
    (hTable : TableComplete file header)
    (hSect : readSection file 1 = .ok sect)
    (hSize : sect.size = 16 * diagnosticRows)
    {m : ByteMemory.Memory}
    {a : BitVec 64}
    (hDump :
      file.read sect.offset sect.size =
        ByteMemory.read m a sect.size) :
    FileReadsAs (parsePtpRecords reader) file
      ((List.range diagnosticRows).map
        (fun k => PtpRow.ofPair (ByteMemory.record m a k))) := by
  have hArity : type.names.length = 2 := by
    rw [hNames]
    rfl
  have hIndex : 1 < header.numProbes.toNat := by
    rw [hProbes]
    decide
  have hLength :
      (file.read sect.offset sect.size).length =
        sect.size := by
    rw [hDump]
    exact ByteMemory.length_read
  have hInFile := file.length_read sect.offset sect.size
  have hShort := file.short
  have hWhole : diagnosticRows = sect.size / 16 := by
    omega
  have hRows : 0 < diagnosticRows := Nat.zero_lt_succ 1119
  have hParse :=
    parseCompact_cases hType hArity hHeader hTable hIndex
      hSect
  rw [if_neg (by omega), if_neg (by omega),
    if_pos ⟨diagnosticRows, hSize⟩, ← hWhole] at hParse
  refine
    ⟨(List.range diagnosticRows).map
      (fun k =>
        rowRecord hArity
          (file.read (sect.offset + 16 * k) 16)), ?_, ?_⟩
  · unfold parsePtpRecords
    rw [hHeader, Raising.ok_bind, if_pos hProbes]
    exact hParse
  · rw [List.forall₂_map_left_iff, List.forall₂_map_right_iff,
      List.forall₂_same]
    intro k hK
    have hBelow := List.mem_range.mp hK
    have hWindow :
        file.read (sect.offset + 16 * k) 16 =
          ByteMemory.read m (ByteMemory.recordAddr a k)
            16 := by
      have hPart :=
        ByteMemory.read_window (m := m) (a := a)
          (n := sect.size) (j := 16 * k) (k := 16) (by omega)
      rw [← hDump] at hPart
      unfold ByteMemory.recordAddr
      rw [← hPart]
      unfold ResultFile.read
      rw [List.drop_take, List.drop_drop, List.take_take]
      congr 1
      omega
    rw [hWindow]
    exact readsAs_rowRecord hNames hArity m _

/-
  The rows that the parser returns for a file of two sections
  whose second one holds the head of the map, once the saving
  thread of a launch has left the block: the rows of the
  scratch from before the save loop, in order.
-/
theorem saved_rows_read
    {ι : Type}
    [DecidableEq ι]
    (launch : Launch ι)
    (buffers : SaveBuffers)
    (before : ByteMemory.Memory)
    (s : SaveState ι)
    (hReach :
      (saveMachine launch buffers before).Reachable s)
    (i : ι)
    (hSaves : (launch.thread i).Saves)
    (hExit : (s.control i).label = .doneExit)
    (reader : PtpReader)
    (type : RecordType)
    (hType : reader.ptpMetrics = some type)
    (hNames : type.names = ["offset", "latency"])
    (file : ResultFile)
    (header : TraceHeader)
    (sect : TraceSection)
    (hHeader : readHeader file = .ok header)
    (hProbes : header.numProbes = 2)
    (hTable : TableComplete file header)
    (hSect : readSection file 1 = .ok sect)
    (hSize : sect.size = 16 * diagnosticRows)
    (hDump :
      file.read sect.offset sect.size =
        ByteMemory.read s.memory buffers.map sect.size) :
    FileReadsAs (parsePtpRecords reader) file
      ((List.range diagnosticRows).map
        (fun k =>
          PtpRow.ofPair
            (ByteMemory.record before buffers.scratch k))) := by
  have hRows :=
    fileReadsAs_of_dump hType hNames hHeader hProbes hTable
      hSect hSize hDump
  have hSaved :
      (List.range diagnosticRows).map
          (fun k =>
            PtpRow.ofPair
              (ByteMemory.record s.memory buffers.map k)) =
        (List.range diagnosticRows).map
          (fun k =>
            PtpRow.ofPair
              (ByteMemory.record before buffers.scratch
                k)) := by
    apply List.map_congr_left
    intro k hK
    rw [record_map_of_exit hReach hSaves hExit
      (List.mem_range.mp hK)]
  rw [← hSaved]
  exact hRows

/- The header of one block of one warp with two sections. -/
def oneWarpHeader : List UInt8 :=
  [1, 0, 0, 0, 1, 0, 0, 0, 1, 0, 0, 0, 32, 0, 0, 0,
    1, 0, 0, 0, 1, 0, 0, 0, 0, 0, 0, 0, 2, 0, 0, 0]

/- An empty section and one of 17920 bytes at offset 64. -/
def oneWarpTable : List UInt8 :=
  [0, 0, 0, 0, 32, 0, 0, 0, 64, 0, 0, 0, 0, 0, 0, 0,
    0, 70, 0, 0, 32, 0, 0, 0, 64, 0, 0, 0, 0, 0, 0, 0]

/- A file that holds the head of the map. -/
def dumpFile (m : ByteMemory.Memory) (a : BitVec 64) :
    ResultFile where
  path := "result/0.bin"
  contents :=
    oneWarpHeader ++
      (oneWarpTable ++
        ByteMemory.read m a (16 * diagnosticRows))
  short := by
    simp only [List.length_append, ByteMemory.length_read]
    decide

/- The class in `read.py`. -/
def ptpMetricsClass : RecordType where
  names := ["offset", "latency"]
  distinct := by decide

/- A reader that is asked for its class only. -/
def ptpMetricsReader : PtpReader where
  ptpMetrics := some ptpMetricsClass
  parse := fun _ => .error .keyError

section DumpFile

variable {m : ByteMemory.Memory} {a : BitVec 64}

/- Behind its header the file goes on with the table. -/
theorem drop_dumpFile
    {k : Nat}
    (hK : k ≤ 32) :
    (dumpFile m a).contents.drop (32 + k) =
      oneWarpTable.drop k ++
        ByteMemory.read m a (16 * diagnosticRows) := by
  have hTable :
      (dumpFile m a).contents.drop 32 =
        oneWarpTable ++
          ByteMemory.read m a (16 * diagnosticRows) :=
    List.drop_left' rfl
  rw [← List.drop_drop, hTable]
  exact List.drop_append_of_le_length hK

/- Its header counts two sections. -/
theorem readHeader_dumpFile :
    readHeader (dumpFile m a) =
      .ok ⟨1, 1, 1, 32, 1, 1, 0, 2⟩ := by
  have hPrefix : (dumpFile m a).read 0 32 = oneWarpHeader := by
    unfold ResultFile.read dumpFile
    rw [List.drop_zero]
    exact List.take_left' rfl
  have hValues :
      unpack (List.replicate 8 .int32) oneWarpHeader =
        some [1, 1, 1, 32, 1, 1, 0, 2] := by
    decide +kernel
  unfold readHeader structUnpack
  rw [hPrefix, hValues]
  rfl

/- The first section is empty. -/
theorem readSection_dumpFile_zero :
    readSection (dumpFile m a) 0 = .ok ⟨0, 32, 64⟩ := by
  have hEntry :
      (dumpFile m a).read 32 16 = oneWarpTable.take 16 :=
    (congrArg (List.take 16)
      (drop_dumpFile (m := m) (a := a) (k := 0)
        (by decide))).trans
      (List.take_append_of_le_length (by decide))
  have hValues :
      unpack [.uint32, .uint32, .uint64]
          (oneWarpTable.take 16) =
        some [0, 32, 64] := by
    decide +kernel
  unfold readSection structUnpack
  rw [hEntry, hValues]
  rfl

/- The second one has the head of the map. -/
theorem readSection_dumpFile_one :
    readSection (dumpFile m a) 1 = .ok ⟨17920, 32, 64⟩ := by
  have hEntry :
      (dumpFile m a).read 48 16 = oneWarpTable.drop 16 :=
    (congrArg (List.take 16)
      (drop_dumpFile (m := m) (a := a) (k := 16)
        (by decide))).trans
      (List.take_left' rfl)
  have hValues :
      unpack [.uint32, .uint32, .uint64]
          (oneWarpTable.drop 16) =
        some [17920, 32, 64] := by
    decide +kernel
  unfold readSection structUnpack
  rw [hEntry, hValues]
  rfl

/- Both entries of the table are there. -/
theorem tableComplete_dumpFile :
    TableComplete (dumpFile m a)
      ⟨1, 1, 1, 32, 1, 1, 0, 2⟩ := by
  intro i hMem
  have hBelow : i < 2 := List.mem_range.mp hMem
  interval_cases i
  · exact ⟨_, readSection_dumpFile_zero⟩
  · exact ⟨_, readSection_dumpFile_one⟩

/- The payload is read back from the memory. -/
theorem read_dumpFile :
    (dumpFile m a).read 64 17920 =
      ByteMemory.read m a 17920 := by
  have hBytes :=
    drop_dumpFile (m := m) (a := a) (k := 32) (by decide)
  have hNone : oneWarpTable.drop 32 = [] := rfl
  rw [hNone, List.nil_append] at hBytes
  unfold ResultFile.read
  rw [hBytes]
  exact List.take_of_length_le ByteMemory.length_read.le

end DumpFile

/- What the first of two threads saves is parsed again. -/
theorem saved_rows_read_twoLanes :
    ∃ s,
      (saveMachine twoLanes megabyteApart
        addressBytes).Reachable s ∧
      FileReadsAs (parsePtpRecords ptpMetricsReader)
        (dumpFile s.memory 0x200000)
        ((List.range diagnosticRows).map
          (fun k =>
            PtpRow.ofPair
              (ByteMemory.record addressBytes 0x100000
                k))) := by
  rcases save_loop_twoLanes with
    ⟨_, s, _, _, _, hReach, hExit⟩
  exact ⟨s, hReach,
    saved_rows_read twoLanes megabyteApart addressBytes
      s hReach false (by decide) hExit ptpMetricsReader
      ptpMetricsClass rfl rfl (dumpFile s.memory 0x200000)
      ⟨1, 1, 1, 32, 1, 1, 0, 2⟩ ⟨17920, 32, 64⟩
      readHeader_dumpFile rfl tableComplete_dumpFile
      readSection_dumpFile_one rfl read_dumpFile⟩

end Ptp

end FabricPerf
