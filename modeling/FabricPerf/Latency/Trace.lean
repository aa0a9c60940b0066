import FabricPerf.Latency.Reader
import FabricPerf.Lib.Dict
import Mathlib.Data.Int.Bitwise

/-
  `read_trace` of `analysis/latency.py`: from the decoded
  records of the result files of one rank to the samples of
  its channels.

  Main declarations:
    * `Latency.splitLatencyChannel`
    * `Latency.readRecord`, `Latency.readFile`
    * `Latency.readTrace`
-/

------------------------------------------------------------
-- Statistics
------------------------------------------------------------

namespace FabricPerf

namespace Latency

open Analysis

/- The samples of one channel. -/
structure ChannelStats where
  latencies : List Int
  steps : List Int
  invalidSteps : List Int
deriving DecidableEq, Repr

namespace ChannelStats

/- A channel without samples. -/
def empty : ChannelStats where
  latencies := []
  steps := []
  invalidSteps := []

/- `add`. -/
def add
    (channel : ChannelStats)
    (latency step : Int) : ChannelStats :=
  { channel with
    latencies := channel.latencies ++ [latency]
    steps := channel.steps ++ [step] }

/- `add_invalid`. -/
def addInvalid
    (channel : ChannelStats)
    (step : Int) : ChannelStats :=
  { channel with
    invalidSteps := channel.invalidSteps ++ [step] }

end ChannelStats

/- A source rank and a channel of that source. -/
abbrev Channel := Int × Int

/- The samples of one trace directory. -/
structure TraceStats where
  traceName : String
  rank : Int
  channelField : String
  channels : Dict Channel ChannelStats
  perFileCounts : List (Dict Channel Nat)
  files : Nat
  skippedMalformed : Nat

/- The statistics before the first sample. -/
def TraceStats.new
    (traceName : String)
    (rank : Int)
    (channelField : String) : TraceStats where
  traceName := traceName
  rank := rank
  channelField := channelField
  channels := Dict.empty
  perFileCounts := []
  files := 0
  skippedMalformed := 0

------------------------------------------------------------
-- One Record
------------------------------------------------------------

/- `LATENCY_INVALID_SENTINEL`. -/
abbrev latencyInvalidSentinel : Int := 2 ^ 63 - 1

/- `LATENCY_INVALID_FLAG`. -/
abbrev latencyInvalidFlag : Int := 2 ^ 31

/- `LATENCY_SOURCE_SHIFT`. -/
abbrev latencySourceShift : Nat := 16

/- `LATENCY_CHANNEL_MASK`. -/
abbrev latencyChannelMask : Int := 2 ^ 16 - 1

/- `LATENCY_SOURCE_UNKNOWN`. -/
abbrev latencySourceUnknown : Int := -1

/- The `repr` of a list of names. -/
def reprNames (names : List String) : String :=
  let quoted := names.map (fun name => "'" ++ name ++ "'")
  "[" ++ String.intercalate ", " quoted ++ "]"

/- `channel_field_for`. -/
def channelFieldFor
    (record : Record)
    (traceName : String) : Except PyErr String :=
  let fields := record.type.names
  -- Sorted, as the text lists them.
  let missing :=
    ["latency", "step"].filter (fun name => name ∉ fields)
  if missing ≠ [] then
    let listed := reprNames missing
    throw
      (.valueError
        s!"sr_latency records in {traceName} are missing {listed}")
  else if "vblock" ∈ fields then
    return "vblock"
  else if "cta" ∈ fields then
    return "cta"
  else
    throw
      (.valueError
        s!"sr_latency records in {traceName} have neither vblock nor cta")

/- `is_unwritten_latency_record`. -/
def isUnwrittenLatencyRecord
    (record : Record)
    (channelField : String) : Except PyErr Bool := do
  let latency ← record.getAttr "latency"
  if latency ≠ 0 then
    return false
  let step ← record.getAttr "step"
  if step ≠ 0 then
    return false
  let channel ← record.getAttr channelField
  return channel = 0

/- `is_invalid_latency_record`. -/
def isInvalidLatencyRecord
    (record : Record) : Except PyErr Bool := do
  let latency ← record.getAttr "latency"
  if latency = latencyInvalidSentinel then
    return true
  match record.attr? "vblock" with
  | some vblock =>
      return Int.land vblock latencyInvalidFlag ≠ 0
  | none => return false

/- The channel of a raw value of the channel field. -/
def splitRawChannel
    (rawChannel : Int)
    (channelField : String) : Channel :=
  let raw :=
    if channelField = "vblock" then
      Int.ldiff rawChannel latencyInvalidFlag
    else
      rawChannel
  if channelField = "vblock" ∧ 2 ^ latencySourceShift ≤ raw then
    (raw >>> latencySourceShift - 1,
      Int.land raw latencyChannelMask)
  else
    (latencySourceUnknown, raw)

/- `split_latency_channel`. -/
def splitLatencyChannel
    (record : Record)
    (channelField : String) : Except PyErr Channel := do
  let rawChannel ← record.getAttr channelField
  return splitRawChannel rawChannel channelField

------------------------------------------------------------
-- The Loop Over The Records
------------------------------------------------------------

/- The name and rank of a trace directory. -/
structure TraceDir where
  name : String
  path : String
  rank : Int
deriving DecidableEq, Repr

/- The statistics and the counts of the current file. -/
structure Tally where
  stats : Option TraceStats
  fileCounts : Dict Channel Nat

/- Add one sample to its channel, and count it. -/
def TraceStats.record
    (stats : TraceStats)
    (channel : Channel)
    (f : ChannelStats → ChannelStats) : TraceStats :=
  { stats with
    channels :=
      stats.channels.update ChannelStats.empty channel f }

/- One turn of the loop over the records of a file. -/
def readRecord
    (dir : TraceDir)
    (channelField : String)
    (tally : Tally)
    (record : Record) : Except PyErr Tally := do
  let unwritten ← isUnwrittenLatencyRecord record channelField
  if unwritten then
    return tally
  let stats :=
    tally.stats.getD
      (TraceStats.new dir.name dir.rank channelField)
  let step ← record.getAttr "step"
  let channel ← splitLatencyChannel record channelField
  let fileCounts := tally.fileCounts.update 0 channel (· + 1)
  let invalid ← isInvalidLatencyRecord record
  if invalid then
    let stats := stats.record channel (·.addInvalid step)
    return { stats := some stats, fileCounts := fileCounts }
  let latency ← record.getAttr "latency"
  let stats := stats.record channel (·.add latency step)
  return { stats := some stats, fileCounts := fileCounts }

/- What a file with samples adds after its records. -/
def Tally.finish (tally : Tally) : Option TraceStats :=
  match tally.stats with
  | none => none
  | some stats =>
      if tally.fileCounts.entries = [] then
        some stats
      else
        some
          { stats with
            files := stats.files + 1
            perFileCounts :=
              stats.perFileCounts ++ [tally.fileCounts] }

------------------------------------------------------------
-- The Loop Over The Files
------------------------------------------------------------

/- The statistics and the number of undecodable files. -/
structure Progress where
  stats : Option TraceStats
  skippedMalformed : Nat

/- The exceptions of `except (OSError, struct.error, ...)`. -/
def PyErr.skipsFile : PyErr → Bool
| .osError | .fileNotFoundError _ | .structError
| .valueError _ => true
| .indexError | .keyError | .attributeError | .typeError
| .nameError | .zeroDivisionError => false

/- The channel field may not change between files. -/
def checkChannelField
    (dir : TraceDir)
    (stats : Option TraceStats)
    (channelField : String) : Except PyErr Unit :=
  match stats with
  | none => return ()
  | some old =>
      if old.channelField = channelField then
        return ()
      else
        let path := dir.path
        let before := old.channelField
        throw
          (.valueError
            s!"channel field changed for {path}: {before} to {channelField}")

/- The records of one decoded file. -/
def readRecords
    (dir : TraceDir)
    (stats : Option TraceStats)
    (records : List Record) :
    Except PyErr (Option TraceStats) := do
  match records with
  | [] => return stats
  | first :: _ =>
      let channelField ← channelFieldFor first dir.name
      checkChannelField dir stats channelField
      let tally ←
        records.foldlM (readRecord dir channelField)
          { stats := stats, fileCounts := Dict.empty }
      return tally.finish

/- One turn of the loop over the result files. -/
def readFile
    (reader : Reader)
    (dir : TraceDir)
    (progress : Progress)
    (file : ResultFile) : Except PyErr Progress := do
  match parseSrLatencyRecords reader file with
  | .error err =>
      if PyErr.skipsFile err then
        let skipped := progress.skippedMalformed + 1
        return { progress with skippedMalformed := skipped }
      throw err
  | .ok records =>
      let stats ← readRecords dir progress.stats records
      return { progress with stats := stats }

/- `read_trace`, given the reader, the files and the rank. -/
def readTrace
    (reader : Reader)
    (dir : TraceDir)
    (resultFiles : List ResultFile) :
    Except PyErr TraceStats := do
  let path := dir.path
  if resultFiles = [] then
    throw
      (.fileNotFoundError
        s!"no result/*.bin files under: {path}")
  let progress ←
    resultFiles.foldlM (readFile reader dir)
      { stats := none, skippedMalformed := 0 }
  match progress.stats with
  | none =>
      throw
        (.valueError
          s!"no sr_latency records found under: {path}")
  | some stats =>
      let skipped := progress.skippedMalformed
      return { stats with skippedMalformed := skipped }

end Latency

end FabricPerf
