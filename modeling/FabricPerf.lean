import FabricPerf.Lib.Transition
import FabricPerf.Lib.Traced
import FabricPerf.Lib.SignedWord
import FabricPerf.Lib.BitField
import FabricPerf.Lib.CNumber
import FabricPerf.Lib.RowMajor
import FabricPerf.Lib.LastWriter
import FabricPerf.Latency.Clock
import FabricPerf.Latency.Pairing
import FabricPerf.Ptp.Fabric
import FabricPerf.Throughput.RoundTrip
import FabricPerf.Throughput.WorkgroupIds
import FabricPerf.Throughput.CellTotals
import FabricPerf.Throughput.SharedSlices
import FabricPerf.Throughput.ReadRoot
import FabricPerf.Throughput.RootLaunches
import FabricPerf.Throughput.Conservation
import FabricPerf.Throughput.SharedIds
import FabricPerf.Throughput.LegacyStreams
import FabricPerf.Latency.Samples
import FabricPerf.Latency.Survival
import FabricPerf.Ptp.Alignment
import FabricPerf.Ptp.RootRelative
import FabricPerf.Nccl.DispatchRuns
import FabricPerf.Latency.Consume
import FabricPerf.Latency.Exchange
import FabricPerf.Runtime.CsvRows
import FabricPerf.Runtime.CsvHeader
import FabricPerf.Runtime.Balance
import FabricPerf.Runtime.Brackets
import FabricPerf.Latency.ReceiveBlock
import FabricPerf.Ptp.GridBarrier
import FabricPerf.Nccl.Descriptor
import FabricPerf.Memory.ProbeBytes
import FabricPerf.Nccl.FuncId
import FabricPerf.Memory.Merge
import FabricPerf.Memory.LongMetrics
import FabricPerf.Memory.Report
import FabricPerf.Ptp.SlotCodec
import FabricPerf.Ptp.ReportLatency
import FabricPerf.Ptp.RootReport
import FabricPerf.Latency.MailboxDebug
import FabricPerf.Latency.DebugWorld
import FabricPerf.Runtime.ContextSetup
import FabricPerf.Runtime.Counters
import FabricPerf.Runtime.Settings
import FabricPerf.Nccl.Hoist
import FabricPerf.Nccl.Steady
import FabricPerf.Nccl.Postprocess
import FabricPerf.Throughput.Report
