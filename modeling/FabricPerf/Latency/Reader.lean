import FabricPerf.Analysis.Python
import Mathlib.Data.List.ReduceOption

/-
  The two decoders of `analysis/latency.py`: the compact
  section parser and the generated reader.

  Main declarations:
    * `Latency.Reader`
    * `Latency.parseCompactSrLatencySection`
    * `Latency.parseSrLatencyRecords`
-/

------------------------------------------------------------
-- Headers
------------------------------------------------------------

namespace FabricPerf

namespace Latency

open Analysis StructFormat

/- The header of a result file. -/
structure TraceHeader where
  gridDimX : Int
  gridDimY : Int
  gridDimZ : Int
  blockDimX : Int
  blockDimY : Int
  blockDimZ : Int
  sharedMemBytes : Int
  numProbes : Int
deriving DecidableEq, Repr

/- A section of a result file; its fields are unsigned. -/
structure TraceSection where
  size : Nat
  warpDiv : Nat
  offset : Nat
deriving DecidableEq, Repr

namespace TraceHeader

/- `TraceHeader(*values)`. -/
def ofValues : List Int → Except PyErr TraceHeader
| [gx, gy, gz, bx, bY, bz, smem, probes] =>
    .ok
      { gridDimX := gx
        gridDimY := gy
        gridDimZ := gz
        blockDimX := bx
        blockDimY := bY
        blockDimZ := bz
        sharedMemBytes := smem
        numProbes := probes }
| _ => .error .typeError

/- The number of blocks. -/
def gridSize (header : TraceHeader) : Int :=
  header.gridDimX * header.gridDimY * header.gridDimZ

/- The number of threads of a block. -/
def blockSize (header : TraceHeader) : Int :=
  header.blockDimX * header.blockDimY * header.blockDimZ

end TraceHeader

/- `TraceSection(*values)`. -/
def TraceSection.ofValues :
    List Int → Except PyErr TraceSection
| [size, warpDiv, offset] =>
    .ok
      { size := size.toNat
        warpDiv := warpDiv.toNat
        offset := offset.toNat }
| _ => .error .typeError

/- The first 32 bytes of a result file. -/
def readHeader
    (file : ResultFile) : Except PyErr TraceHeader := do
  let values ←
    structUnpack (List.replicate 8 .int32) (file.read 0 32)
  TraceHeader.ofValues values

/- The entry of a section in the table after the header. -/
def readSection
    (file : ResultFile)
    (i : Nat) : Except PyErr TraceSection := do
  let values ←
    structUnpack [.uint32, .uint32, .uint64]
      (file.read (32 + 16 * i) 16)
  TraceSection.ofValues values

------------------------------------------------------------
-- The Compact Parser
------------------------------------------------------------

/- The streams of a section, block by block. -/
def streamIndices
    (gridSize warpStreams : Int) : List (Nat × Nat) :=
  (List.range gridSize.toNat).flatMap
    (fun blockIdx =>
      (List.range warpStreams.toNat).map
        (fun warpIdx => (blockIdx, warpIdx)))

/- The offset of the stream of a block and a warp. -/
def streamOffset
    (sect : TraceSection)
    (warpStreams : Int)
    (stream : Nat × Nat) : Nat :=
  sect.offset +
    (stream.1 * warpStreams.toNat + stream.2) * sect.size

/-
  One turn of the loop over the streams: the first slot of
  the stream, unless it is zero.
-/
def compactRow
    (srLatencyType : RecordType)
    (file : ResultFile)
    (offset : Nat) : Except PyErr (Option Record) := do
  if 2 ^ 63 ≤ offset then
    throw
      (.valueError
        "cannot fit 'int' into an offset-sized integer")
  let payload := file.read offset 16
  if payload.length ≠ 16 then
    let path := file.path
    throw
      (.valueError s!"short compact sr_latency row in {path}")
  let row ←
    structUnpack [.int64, .uint32, .uint32] payload
  if row = [0, 0, 0] then
    return none
  let record ← srLatencyType.call row
  return some record

/- The records of `map` under a name, by block and lane. -/
abbrev Blocks := List (List (List Record))

/-
  The module `read.py`: the class `sr_latency`, if it has
  one, and its `parse`, which returns a map of records or
  raises.
-/
structure Reader where
  srLatency : Option RecordType
  parse : ResultFile → Except PyErr (String → Option Blocks)

/- `getattr(reader, "sr_latency")`. -/
def Reader.srLatencyType
    (reader : Reader) : Except PyErr RecordType :=
  match reader.srLatency with
  | some type => .ok type
  | none => .error .attributeError

/- `parse_compact_sr_latency_section`. -/
def parseCompactSrLatencySection
    (reader : Reader)
    (file : ResultFile)
    (sectionIndex : Nat) : Except PyErr (List Record) := do
  let srLatencyType ← reader.srLatencyType
  let header ← readHeader file
  let sections ←
    (List.range header.numProbes.toNat).mapM
      (readSection file)
  match sections[sectionIndex]? with
  | none =>
      let path := file.path
      throw
        (.valueError
          s!"expected compact sr_latency section in {path}")
  | some sect =>
      if sect.warpDiv = 0 then
        throw .zeroDivisionError
      let warpStreams :=
        header.blockSize.fdiv (sect.warpDiv : Int)
      let rows ←
        (streamIndices header.gridSize warpStreams).mapM
          (fun stream =>
            compactRow srLatencyType file
              (streamOffset sect warpStreams stream))
      return rows.reduceOption

/- Every section of the table is in the file. -/
def TableComplete
    (file : ResultFile)
    (header : TraceHeader) : Prop :=
  ∀ i ∈ List.range header.numProbes.toNat,
    ∃ entry, readSection file i = .ok entry

/- The compact parser of a complete table is one loop. -/
theorem parseCompact_eq
    {reader : Reader}
    {type : RecordType}
    {file : ResultFile}
    {header : TraceHeader}
    {sect : TraceSection}
    (hType : reader.srLatency = some type)
    (hHeader : readHeader file = .ok header)
    (hTable : TableComplete file header)
    (hPos : 0 < header.numProbes.toNat)
    (hSect : readSection file 0 = .ok sect) :
    parseCompactSrLatencySection reader file 0 =
      if sect.warpDiv = 0 then
        .error .zeroDivisionError
      else
        ((streamIndices header.gridSize
            (header.blockSize.fdiv sect.warpDiv)).mapM
          (fun stream =>
            compactRow type file
              (streamOffset sect
                (header.blockSize.fdiv sect.warpDiv)
                stream))).map List.reduceOption := by
  have hRead :
      (List.range header.numProbes.toNat).mapM
          (readSection file) =
        .ok
          ((List.range header.numProbes.toNat).map
            (fun i =>
              ((readSection file i).toOption).getD sect)) := by
    apply Raising.mapM_ok
    intro i hMem
    rcases hTable i hMem with ⟨entry, hEntry⟩
    rw [hEntry]
    rfl
  have hFirst :
      ((List.range header.numProbes.toNat).map
        (fun i =>
          ((readSection file i).toOption).getD sect))[0]? =
        some sect := by
    rw [List.getElem?_map, List.getElem?_range hPos,
      Option.map_some, hSect]
    rfl
  have hReader : reader.srLatencyType = .ok type := by
    unfold Reader.srLatencyType
    rw [hType]
  unfold parseCompactSrLatencySection
  simp only [hHeader, Raising.ok_bind, hReader, hRead, hFirst]
  split
  · rfl
  · generalize (streamIndices header.gridSize
      (header.blockSize.fdiv sect.warpDiv)).mapM
        (fun stream =>
          compactRow type file
            (streamOffset sect
              (header.blockSize.fdiv sect.warpDiv)
              stream)) = rows
    cases rows with
    | error err =>
        rfl
    | ok found =>
        rfl

------------------------------------------------------------
-- Both Decoders
------------------------------------------------------------

/-
  The generated reader's rows.  Where the records have no
  `sr_latency`, or `parse` raises `IndexError` or `KeyError`,
  the handler calls `parse_single_section_sr_latency`, which
  the module does not define.
-/
def parseGeneratedSrLatency
    (reader : Reader)
    (file : ResultFile) : Except PyErr (List Record) :=
  match reader.parse file with
  | .ok records =>
      match records "sr_latency" with
      | some blocks => .ok (blocks.flatten.flatten)
      | none => .error .nameError
  | .error .indexError | .error .keyError =>
      .error .nameError
  | .error err => .error err

/- `parse_sr_latency_records`. -/
def parseSrLatencyRecords
    (reader : Reader)
    (file : ResultFile) : Except PyErr (List Record) := do
  let header ← readHeader file
  if header.numProbes = 1 ∨ header.numProbes = 2 then
    parseCompactSrLatencySection reader file 0
  else
    parseGeneratedSrLatency reader file

end Latency

end FabricPerf
