import FabricPerf.Lib.Scanner
import FabricPerf.Lib.Transition
import Mathlib.Data.List.Infix

/-
  The launch brackets of the memory runtime.

  `neutrino_plugin_begin_launch_v1` takes the state mutex and
  keeps it when it succeeds; `neutrino_plugin_end_launch_v1`
  reads the counters, writes a CSV row and unlocks.  What the
  driver and CUPTI return is an input of each call, and a
  counter value remembers the begin whose counter data it was
  evaluated from.

  Main declarations:
    * `Runtime.beginLaunch`, `Runtime.endLaunch`
    * `Runtime.evaluatePmMetrics`
    * `Runtime.launchMachine`
-/

------------------------------------------------------------
-- Values And Rows
------------------------------------------------------------

namespace FabricPerf

namespace Runtime

/- The double arithmetic of the runtime. -/
structure FloatOps (V : Type) where
  zero : V
  add : V → V → V
  divCount : V → Nat → V
  nanoseconds : V → V
  perSecond : V → V → V
  positive : V → Bool

/- A counter value and the begins it was evaluated for. -/
structure Counter (V : Type) where
  val : V
  sources : List Nat
deriving DecidableEq, Repr

/- `neutrino_plugin_launch_context_v1`. -/
structure LaunchContext where
  launchIndex : Nat := 0
  kernelName : Option Text := none
  gridDim : Nat × Nat × Nat := (0, 0, 0)
  blockDim : Nat × Nat × Nat := (0, 0, 0)
  sharedMemBytes : Nat := 0
  stream : Nat := 0
deriving DecidableEq, Repr

/- What `raw_metrics` says of one metric. -/
inductive MetricCell (V : Type) where
| value (counter : Counter V)
| unsupported (status : Nat)
| evalError (status : Nat)
| missing
deriving DecidableEq, Repr

/- A row before its fields are printed. -/
structure CsvRow (V : Type) where
  rank : Nat
  device : Nat
  launch : LaunchContext
  duration : Option (Counter V)
  dramRead : Option (Counter V)
  dramWrite : Option (Counter V)
  nvlinkRx : Option (Counter V)
  nvlinkTx : Option (Counter V)
  rawMetrics : List (Text × MetricCell V)
  samplesTotal : Nat
  samplesPopulated : Nat
  samplesCompleted : Nat
  overflow : Bool
  eventDuration : V
  launchResult : Nat
deriving DecidableEq, Repr

/- The counter of a `raw_metrics` entry. -/
def MetricCell.counter
    {V : Type} : MetricCell V → Option (Counter V)
| .value counter => some counter
| _ => none

/- All counter values in a row. -/
def CsvRow.counters
    {V : Type}
    (row : CsvRow V) : List (Counter V) :=
  row.duration.toList ++ row.dramRead.toList ++
    row.dramWrite.toList ++ row.nvlinkRx.toList ++
    row.nvlinkTx.toList ++
    row.rawMetrics.filterMap (fun entry => entry.2.counter)

------------------------------------------------------------
-- The Runtime State
------------------------------------------------------------

/- What one context offers, as `setup_context_locked` finds. -/
structure ContextMetrics where
  device : Nat
  requested : List Text
  supported : List Text
  unsupported : Text → Option Nat

/-
  `CupTiState`.  `counterData` is empty or was initialised by
  the begin with the given number.
-/
structure CuptiState (V : Type) where
  active : Bool
  activeEvents : Bool
  activePmSampling : Bool
  ready : Bool
  context : Nat
  rank : Nat
  device : Nat
  csv : Bool
  requestedMetrics : List Text
  supportedMetrics : List Text
  unsupportedMetrics : Text → Option Nat
  evalErrors : Text → Option Nat
  values : Text → Option (Counter V)
  counterData : Option Nat
  launch : LaunchContext
  eventDuration : V
  pmOverflow : Bool
  pmTotalSamples : Nat
  pmPopulatedSamples : Nat
  pmCompletedSamples : Nat

/- The state of a loaded plugin. -/
def CuptiState.start
    {V : Type}
    (ops : FloatOps V) : CuptiState V where
  active := false
  activeEvents := false
  activePmSampling := false
  ready := false
  context := 0
  rank := 0
  device := 0
  csv := false
  requestedMetrics := []
  supportedMetrics := []
  unsupportedMetrics := fun _ => none
  evalErrors := fun _ => none
  values := fun _ => none
  counterData := none
  launch := {}
  eventDuration := ops.zero
  pmOverflow := false
  pmTotalSamples := 0
  pmPopulatedSamples := 0
  pmCompletedSamples := 0

/- What the calls of one begin return. -/
structure BeginCalls where
  -- `cuCtxGetCurrent`: an error, or the context (0 is null).
  current : Option Nat
  -- `fopen` of the CSV file.
  csvOpens : Bool
  -- `parse_rank`.
  rank : Nat
  -- The calls of `setup_context_locked`, if none fails.
  setup : Option ContextMetrics
  -- The calls of `prepare_counter_data_locked`.
  counterData : Bool
  -- `cuStreamSynchronize`, `cuEventRecord`, `PmSamplingStart`.
  streamSync : Bool
  eventRecord : Bool
  pmStart : Bool

/- What CUPTI returns for one counter data image. -/
structure PmDecode (V : Type) where
  decodeStatus : Nat
  overflow : Bool
  infoStatus : Nat
  totalSamples : Nat
  populatedSamples : Nat
  completedSamples : Nat
  evaluate : Nat → Text → Except Nat V

/- What the calls of one end return. -/
structure EndCalls (V : Type) where
  eventRecord : Bool
  eventSync : Bool
  elapsed : Option V
  pmStop : Bool
  decode : PmDecode V
  launchResult : Nat

------------------------------------------------------------
-- Begin
------------------------------------------------------------

section Calls

variable {V : Type} (ops : FloatOps V)

/- `open_csv_locked`. -/
def openCsv
    (state : CuptiState V)
    (opens : Bool) : Option (CuptiState V) :=
  if state.csv then
    some state
  else if opens then
    some { state with csv := true }
  else
    none

/- `teardown_context_locked`. -/
def teardownContext
    (state : CuptiState V) : CuptiState V :=
  { state with
    ready := false
    context := 0
    device := 0
    counterData := none
    requestedMetrics := []
    supportedMetrics := []
    unsupportedMetrics := fun _ => none
    activePmSampling := false
    pmOverflow := false
    pmTotalSamples := 0
    pmPopulatedSamples := 0
    pmCompletedSamples := 0 }

/-
  `setup_context_locked`.  What a failing setup has filled in
  is cleared by the next one, as `ready` stays false.
-/
def setupContext
    (state : CuptiState V)
    (context rank : Nat)
    (setup : Option ContextMetrics) :
    CuptiState V × Bool :=
  if state.ready && state.context == context then
    (state, true)
  else
    let state :=
      { teardownContext state with
        context := context
        rank := rank }
    match setup with
    | none => (state, false)
    | some metrics =>
        ({ state with
           device := metrics.device
           requestedMetrics := metrics.requested
           supportedMetrics := metrics.supported
           unsupportedMetrics := metrics.unsupported
           ready := true }, true)

/-
  `prepare_counter_data_locked` of the begin with the given
  number.
-/
def prepareCounterData
    (state : CuptiState V)
    (number : Nat)
    (succeeds : Bool) : CuptiState V × Bool :=
  let state := { state with counterData := none }
  if state.supportedMetrics = [] then
    (state, true)
  else if succeeds then
    ({ state with counterData := some number }, true)
  else
    (state, false)

/- The fields every begin resets under the lock. -/
def resetLaunch
    (state : CuptiState V)
    (context : Option LaunchContext) : CuptiState V :=
  { state with
    active := false
    activePmSampling := false
    activeEvents := false
    eventDuration := ops.zero
    pmOverflow := false
    pmTotalSamples := 0
    pmPopulatedSamples := 0
    pmCompletedSamples := 0
    values := fun _ => none
    evalErrors := fun _ => none
    launch := context.getD {} }

/-
  The second half of a begin: the start event and, where the
  context has metrics, the sampling.
-/
def startEvents
    (state : CuptiState V)
    (calls : BeginCalls) : CuptiState V × Bool :=
  if calls.streamSync && calls.eventRecord then
    let state := { state with activeEvents := true }
    if state.supportedMetrics = [] then
      ({ state with active := true }, true)
    else if calls.pmStart then
      ({ state with
         activePmSampling := true
         active := true }, true)
    else
      (state, false)
  else
    (state, false)

/- The context and its counters, then the events. -/
def prepareLaunch
    (state : CuptiState V)
    (context number : Nat)
    (calls : BeginCalls) : CuptiState V × Bool :=
  match setupContext state context calls.rank calls.setup with
  | (state, false) => (state, false)
  | (state, true) =>
      match prepareCounterData state number
          calls.counterData with
      | (state, false) => (state, false)
      | (state, true) => startEvents state calls

/-
  The body of `neutrino_plugin_begin_launch_v1` after it has
  locked: the new state and whether it returns 0.
-/
def beginLaunch
    (state : CuptiState V)
    (context : Option LaunchContext)
    (number : Nat)
    (calls : BeginCalls) : CuptiState V × Bool :=
  let state := resetLaunch ops state context
  match calls.current with
  | none | some 0 => (state, false)
  | some ctx =>
      match openCsv state calls.csvOpens with
      | none => (state, false)
      | some state => prepareLaunch state ctx number calls

------------------------------------------------------------
-- The Metrics Of A Launch
------------------------------------------------------------

/- The accumulators of the sample loop. -/
structure SampleSums (V : Type) where
  values : Text → Option (Counter V)
  counts : Text → Nat
  errors : Text → Option Nat

/- One metric of one sample, read from a counter image. -/
def addSample
    (image : Nat)
    (decode : PmDecode V)
    (sample : Nat)
    (sums : SampleSums V)
    (metric : Text) : SampleSums V :=
  match decode.evaluate sample metric with
  | .ok value =>
      let before :=
        (sums.values metric).getD
          { val := ops.zero, sources := [] }
      { sums with
        values :=
          Function.update sums.values metric
            (some
              { val := ops.add before.val value
                sources := before.sources ++ [image] })
        counts :=
          Function.update sums.counts metric
            (sums.counts metric + 1) }
  | .error status =>
      if sums.counts metric = 0 then
        { sums with
          errors :=
            Function.update sums.errors metric
              (some status) }
      else
        sums

/- The loop over the completed samples. -/
def sumSamples
    (image : Nat)
    (decode : PmDecode V)
    (metrics : List Text)
    (sums : SampleSums V) : SampleSums V :=
  (List.range decode.completedSamples).foldl
    (fun sums sample =>
      metrics.foldl (addSample ops image decode sample) sums)
    sums

/- Ratio metrics are averaged over the samples. -/
def averageMetric (metric : Text) : Bool :=
  [".avg".toList, "pct_of_peak".toList,
    "throughput".toList].any
      (fun part => decide (part <:+: metric))

/- The value a metric ends with. -/
def settleValue
    (sums : SampleSums V)
    (metric : Text) : Option (Counter V) :=
  if sums.counts metric ≠ 0 && averageMetric metric then
    (sums.values metric).map
      (fun counter =>
        { counter with
          val :=
            ops.divCount counter.val (sums.counts metric) })
  else
    sums.values metric

/- All supported metrics get the same error. -/
def failMetrics
    (metrics : List Text)
    (status : Nat) : Text → Option Nat :=
  fun metric => if metric ∈ metrics then some status else none

/- `CUPTI_ERROR_UNKNOWN`. -/
def cuptiErrorUnknown : Nat := 999

/- `evaluate_pm_metrics_locked`. -/
def evaluatePmMetrics
    (state : CuptiState V)
    (decode : PmDecode V) : CuptiState V :=
  let state :=
    { state with
      values := fun _ => none
      evalErrors := fun _ => none
      pmOverflow := false
      pmTotalSamples := 0
      pmPopulatedSamples := 0
      pmCompletedSamples := 0 }
  let metrics := state.supportedMetrics
  match state.counterData with
  | none => state
  | some image =>
      if metrics = [] then
        state
      else
        let state :=
          { state with pmOverflow := decode.overflow }
        if decode.decodeStatus ≠ 0 then
          { state with
            evalErrors :=
              failMetrics metrics decode.decodeStatus }
        else if decode.infoStatus ≠ 0 then
          { state with
            evalErrors :=
              failMetrics metrics decode.infoStatus }
        else
          let state :=
            { state with
              pmTotalSamples := decode.totalSamples
              pmPopulatedSamples := decode.populatedSamples
              pmCompletedSamples := decode.completedSamples }
          if decode.completedSamples = 0 then
            { state with
              evalErrors :=
                failMetrics metrics cuptiErrorUnknown }
          else
            let sums :=
              sumSamples ops image decode metrics
                { values := fun _ => none
                  counts := fun _ => 0
                  errors := fun _ => none }
            { state with
              values := settleValue ops sums
              evalErrors := fun metric =>
                if sums.counts metric ≠ 0 then none
                else sums.errors metric }

------------------------------------------------------------
-- The Row Of A Launch
------------------------------------------------------------

/- `duration_seconds_locked`. -/
def durationSeconds (state : CuptiState V) : Counter V :=
  match state.values "gpu__time_duration.sum".toList with
  | some counter =>
      if ops.positive counter.val then
        { counter with val := ops.nanoseconds counter.val }
      else
        { val := state.eventDuration, sources := [] }
  | none => { val := state.eventDuration, sources := [] }

/- `bps_field`. -/
def bpsField
    (state : CuptiState V)
    (metric : Text)
    (duration : Counter V) : Option (Counter V) :=
  if ops.positive duration.val then
    (state.values metric).map
      (fun bytes =>
        { val := ops.perSecond bytes.val duration.val
          sources := bytes.sources ++ duration.sources })
  else
    none

/- One entry of `raw_metrics_field_locked`. -/
def rawMetric
    (state : CuptiState V)
    (metric : Text) : MetricCell V :=
  match state.values metric with
  | some counter => .value counter
  | none =>
      match state.unsupportedMetrics metric with
      | some status => .unsupported status
      | none =>
          match state.evalErrors metric with
          | some status => .evalError status
          | none => .missing

/- The fields of `write_csv_row_locked`. -/
def csvRow
    (state : CuptiState V)
    (launchResult : Nat) : CsvRow V :=
  let duration := durationSeconds ops state
  { rank := state.rank
    device := state.device
    launch := state.launch
    duration :=
      if ops.positive duration.val then some duration
      else none
    dramRead :=
      bpsField ops state "dram__bytes_read.sum".toList duration
    dramWrite :=
      bpsField ops state "dram__bytes_write.sum".toList
        duration
    nvlinkRx :=
      bpsField ops state "nvlrx__bytes.sum".toList duration
    nvlinkTx :=
      bpsField ops state "nvltx__bytes.sum".toList duration
    rawMetrics :=
      state.requestedMetrics.map
        (fun metric => (metric, rawMetric state metric))
    samplesTotal := state.pmTotalSamples
    samplesPopulated := state.pmPopulatedSamples
    samplesCompleted := state.pmCompletedSamples
    overflow := state.pmOverflow
    eventDuration := state.eventDuration
    launchResult := launchResult }

/- The event duration of an end. -/
def recordDuration
    (state : CuptiState V)
    (calls : EndCalls V) : CuptiState V :=
  if state.activeEvents && calls.eventRecord &&
      calls.eventSync then
    match calls.elapsed with
    | some seconds => { state with eventDuration := seconds }
    | none => state
  else
    state

/-
  The body of `neutrino_plugin_end_launch_v1` up to its
  unlock: the new state and the row it writes.
-/
def endLaunch
    (state : CuptiState V)
    (calls : EndCalls V) : CuptiState V × Option (CsvRow V) :=
  if state.active then
    let state := recordDuration state calls
    let state :=
      if state.activePmSampling && calls.pmStop then
        evaluatePmMetrics ops state calls.decode
      else
        state
    ({ state with
       active := false
       activePmSampling := false },
     if state.csv then
       some (csvRow ops state calls.launchResult)
     else
       none)
  else
    (state, none)

end Calls

------------------------------------------------------------
-- Threads
------------------------------------------------------------

/- A successful begin: its number and its launch. -/
structure Begin where
  number : Nat
  launch : LaunchContext
deriving DecidableEq, Repr

/- Where a thread stands between its calls. -/
inductive CallPhase where
| idle
| locked
| returned (begun : Option Begin)
deriving DecidableEq, Repr

/-
  The mutex, the threads and the shared state.  `rows` pairs
  each row with the begin whose end wrote it; `unlocks` and
  `begins` (history) log who unlocked the mutex, who held it
  then, and the successful begins.
-/
structure LaunchState (T V : Type) where
  mutex : Option T
  phase : T → CallPhase
  state : CuptiState V
  count : Nat
  rows : List (Option Begin × CsvRow V)
  unlocks : List (T × Option T)
  begins : List Begin

/- The steps of the threads. -/
inductive LaunchAction (T V : Type) where
| lock (thread : T)
| begin
    (thread : T) (context : Option LaunchContext)
    (calls : BeginCalls)
| finish (thread : T) (calls : EndCalls V)

namespace LaunchState

variable {T V : Type} [DecidableEq T]

/- Move one thread. -/
def setPhase
    (s : LaunchState T V)
    (thread : T)
    (phase : CallPhase) : LaunchState T V :=
  { s with phase := Function.update s.phase thread phase }

/- `state.mutex.unlock()`. -/
def unlock
    (s : LaunchState T V)
    (thread : T) : LaunchState T V :=
  { s with
    mutex := none
    unlocks := s.unlocks ++ [(thread, s.mutex)] }

/-
  One step.  A thread alternates begin and end; `lock` waits
  for the mutex.
-/
def step
    (ops : FloatOps V)
    (s : LaunchState T V) :
    LaunchAction T V → Option (LaunchState T V)
| .lock thread =>
    if s.phase thread = .idle ∧ s.mutex = none then
      some ({ s with mutex := some thread }.setPhase thread
        .locked)
    else
      none
| .begin thread context calls =>
    if s.phase thread = .locked then
      let result :=
        beginLaunch ops s.state context s.count calls
      let begun : Begin :=
        { number := s.count
          launch := context.getD {} }
      let s' :=
        { s with state := result.1, count := s.count + 1 }
      if result.2 then
        some ({ s' with begins := s.begins ++ [begun] }.setPhase
          thread (.returned (some begun)))
      else
        some ((s'.unlock thread).setPhase thread
          (.returned none))
    else
      none
| .finish thread calls =>
    match s.phase thread with
    | .returned begun =>
        let result := endLaunch ops s.state calls
        let rows :=
          s.rows ++
            result.2.toList.map (fun row => (begun, row))
        some (({ s with
          state := result.1
          rows := rows }.unlock thread).setPhase thread .idle)
    | _ => none

end LaunchState

/- Any number of threads over one runtime. -/
def launchMachine
    (T : Type) [DecidableEq T]
    {V : Type}
    (ops : FloatOps V) :
    Machine (LaunchState T V) (LaunchAction T V) where
  init := fun s =>
    s =
      { mutex := none
        phase := fun _ => .idle
        state := CuptiState.start ops
        count := 0
        rows := []
        unlocks := []
        begins := [] }
  step := LaunchState.step ops

end Runtime

end FabricPerf
