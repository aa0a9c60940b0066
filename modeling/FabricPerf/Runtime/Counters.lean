import FabricPerf.Runtime.Brackets
import FabricPerf.Runtime.ContextSetup

/-
  Every requested counter is accounted for: by the setup of
  the context, by the evaluation of the counter data, and in
  the `raw_metrics` field.

  Main declarations:
    * `Runtime.evaluatedSamples`, `Runtime.metricValue`
    * `Runtime.evaluatePmMetrics_spec`
    * `Runtime.MetricsAccounted`
    * `Runtime.counters_accounted`
-/

------------------------------------------------------------
-- The Samples Of One Metric
------------------------------------------------------------

namespace FabricPerf

namespace Runtime

section Samples

variable {V : Type} (ops : FloatOps V)

/- What the sample loop holds for one metric. -/
structure MetricSum (V : Type) where
  value : Option (Counter V)
  count : Nat
  error : Option Nat

/- The part of the accumulators that belongs to a metric. -/
def SampleSums.of
    (sums : SampleSums V)
    (metric : Text) : MetricSum V where
  value := sums.values metric
  count := sums.counts metric
  error := sums.errors metric

/- One evaluation enters the sum of its metric. -/
def MetricSum.enter
    (image : Nat)
    (sum : MetricSum V) : Except Nat V → MetricSum V
| .ok value =>
    let before :=
      sum.value.getD { val := ops.zero, sources := [] }
    { sum with
      value :=
        some
          { val := ops.add before.val value
            sources := before.sources ++ [image] }
      count := sum.count + 1 }
| .error status =>
    if sum.count = 0 then
      { sum with error := some status }
    else
      sum

/- A sample enters the sum of its own metric. -/
theorem of_addSample_self
    (image sample : Nat)
    (decode : PmDecode V)
    (sums : SampleSums V)
    (metric : Text) :
    (addSample ops image decode sample sums metric).of metric =
      (sums.of metric).enter ops image
        (decode.evaluate sample metric) := by
  unfold addSample MetricSum.enter SampleSums.of
  cases decode.evaluate sample metric with
  | ok value => simp
  | error status =>
      by_cases hFirst : sums.counts metric = 0
      · simp [hFirst]
      · simp [hFirst]

/- It leaves the sums of other metrics alone. -/
theorem of_addSample_of_ne
    {image sample : Nat}
    {decode : PmDecode V}
    {sums : SampleSums V}
    {metric other : Text}
    (hNe : other ≠ metric) :
    (addSample ops image decode sample sums metric).of other =
      sums.of other := by
  unfold addSample SampleSums.of
  cases decode.evaluate sample metric with
  | ok value => simp [hNe]
  | error status =>
      by_cases hFirst : sums.counts metric = 0
      · simp [hFirst, hNe]
      · simp [hFirst]

/- One sample enters every supported metric once. -/
theorem of_foldl_addSample
    {metrics : List Text}
    (hDistinct : metrics.Nodup)
    (image sample : Nat)
    (decode : PmDecode V)
    (sums : SampleSums V)
    (metric : Text) :
    (metrics.foldl (addSample ops image decode sample)
        sums).of metric =
      if metric ∈ metrics then
        (sums.of metric).enter ops image
          (decode.evaluate sample metric)
      else
        sums.of metric := by
  induction metrics generalizing sums with
  | nil => simp
  | cons own rest ih =>
      rw [List.nodup_cons] at hDistinct
      rw [List.foldl_cons, ih hDistinct.2]
      by_cases hSame : metric = own
      · subst hSame
        rw [if_neg hDistinct.1, if_pos List.mem_cons_self,
          of_addSample_self]
      · simp only [of_addSample_of_ne ops hSame,
          List.mem_cons, hSame, false_or]

/- All samples enter the metric in their order. -/
theorem of_foldl_samples
    {metrics : List Text}
    (hDistinct : metrics.Nodup)
    (image : Nat)
    (decode : PmDecode V)
    (samples : List Nat)
    (sums : SampleSums V)
    (metric : Text) :
    (samples.foldl
        (fun sums sample =>
          metrics.foldl (addSample ops image decode sample)
            sums) sums).of metric =
      if metric ∈ metrics then
        (samples.map (fun sample =>
          decode.evaluate sample metric)).foldl
            (MetricSum.enter ops image) (sums.of metric)
      else
        sums.of metric := by
  induction samples generalizing sums with
  | nil => simp
  | cons sample rest ih =>
      rw [List.foldl_cons, ih, of_foldl_addSample ops hDistinct]
      by_cases hMem : metric ∈ metrics
      · simp [hMem]
      · simp [hMem]

/- The values among evaluations, in their order. -/
def okValues (outcomes : List (Except Nat V)) : List V :=
  outcomes.filterMap Except.toOption

/- The sum of a metric before the first sample. -/
def MetricSum.start : MetricSum V where
  value := none
  count := 0
  error := none

/-
  After some evaluations a metric has the sum of those that
  succeeded, and without one of these it has an error.
-/
structure Summed
    (outcomes : List (Except Nat V))
    (sum : MetricSum V) : Prop where
  count : sum.count = (okValues outcomes).length
  value :
    sum.value.map Counter.val =
      if okValues outcomes = [] then none
      else some ((okValues outcomes).foldl ops.add ops.zero)
  error :
    okValues outcomes = [] → outcomes ≠ [] →
      sum.error.isSome = true

/- Nothing is summed before the first sample. -/
theorem summed_start :
    Summed ops ([] : List (Except Nat V)) MetricSum.start where
  count := rfl
  value := rfl
  error := fun _ hSome => absurd rfl hSome

/- One more evaluation keeps the sum right. -/
theorem summed_enter
    {outcomes : List (Except Nat V)}
    {sum : MetricSum V}
    (hSum : Summed ops outcomes sum)
    (image : Nat)
    (outcome : Except Nat V) :
    Summed ops (outcomes ++ [outcome])
      (sum.enter ops image outcome) := by
  cases outcome with
  | ok value =>
      have hValues :
          okValues (outcomes ++ [.ok value]) =
            okValues outcomes ++ [value] := by
        simp [okValues, Except.toOption]
      have hBefore :
          (sum.value.getD
            { val := ops.zero, sources := [] }).val =
              (okValues outcomes).foldl ops.add ops.zero := by
        have hValue := hSum.value
        cases hSome : sum.value with
        | none =>
            rw [hSome] at hValue
            have hNone : okValues outcomes = [] := by
              by_contra hNe
              rw [if_neg hNe] at hValue
              cases hValue
            rw [hNone]
            rfl
        | some counter =>
            rw [hSome] at hValue
            split at hValue
            · cases hValue
            · exact Option.some.inj hValue
      constructor
      · rw [hValues, List.length_append, ← hSum.count]
        rfl
      · rw [hValues, if_neg (by simp), List.foldl_append,
          ← hBefore]
        rfl
      · rw [hValues]
        intro hNone
        exact absurd hNone (by simp)
  | error status =>
      have hValues :
          okValues (outcomes ++ [.error status]) =
            okValues outcomes := by
        simp [okValues, Except.toOption]
      unfold MetricSum.enter
      by_cases hFirst : sum.count = 0
      · simp only [if_pos hFirst]
        constructor
        · rw [hValues]
          exact hSum.count
        · rw [hValues]
          exact hSum.value
        · intro _ _
          rfl
      · simp only [if_neg hFirst]
        constructor
        · rw [hValues]
          exact hSum.count
        · rw [hValues]
          exact hSum.value
        · rw [hValues]
          intro hNone
          have hCount := hSum.count
          rw [hNone] at hCount
          exact absurd hCount hFirst

/- All evaluations of a metric. -/
theorem summed_foldl
    (image : Nat)
    (outcomes : List (Except Nat V)) :
    Summed ops outcomes
      (outcomes.foldl (MetricSum.enter ops image)
        MetricSum.start) := by
  induction outcomes using List.reverseRecOn with
  | nil => exact summed_start ops
  | append_singleton before outcome ih =>
      rw [List.foldl_append]
      exact summed_enter ops ih image outcome

------------------------------------------------------------
-- One Evaluation
------------------------------------------------------------

/-
  The values of the samples that evaluated for a metric, in
  order; none where the data could not be decoded.
-/
def evaluatedSamples
    (decode : PmDecode V)
    (metric : Text) : List V :=
  if decode.decodeStatus ≠ 0 ∨ decode.infoStatus ≠ 0 then
    []
  else
    okValues
      ((List.range decode.completedSamples).map
        (fun sample => decode.evaluate sample metric))

/- Their sum or, for an averaged metric, their mean. -/
def metricValue
    (decode : PmDecode V)
    (metric : Text) : V :=
  let samples := evaluatedSamples decode metric
  let sum := samples.foldl ops.add ops.zero
  if averageMetric metric then
    ops.divCount sum samples.length
  else
    sum

/-
  The supported metrics are divided among values and errors:
  a value for each metric with an evaluated sample.
-/
structure Evaluated
    (metrics : List Text)
    (decode : PmDecode V)
    (values : Text → Option (Counter V))
    (evalErrors : Text → Option Nat) : Prop where
  value :
    ∀ metric,
      (values metric).map Counter.val =
        if metric ∈ metrics ∧ evaluatedSamples decode metric ≠ []
        then some (metricValue ops decode metric)
        else none
  error :
    ∀ metric,
      (evalErrors metric).isSome = true ↔
        metric ∈ metrics ∧ evaluatedSamples decode metric = []

/- Without any evaluated sample all metrics fail. -/
theorem evaluated_failMetrics
    {decode : PmDecode V}
    (hNone : ∀ metric, evaluatedSamples decode metric = [])
    (metrics : List Text)
    (status : Nat) :
    Evaluated ops metrics decode (fun _ => none)
      (failMetrics metrics status) where
  value := by
    intro metric
    simp [hNone]
  error := by
    intro metric
    unfold failMetrics
    by_cases hMem : metric ∈ metrics
    · simp [hMem, hNone]
    · simp [hMem]

/- The settled value of a summed metric. -/
theorem settleValue_of_summed
    {decode : PmDecode V}
    {metric : Text}
    {sums : SampleSums V}
    (hSum :
      Summed ops
        ((List.range decode.completedSamples).map
          (fun sample => decode.evaluate sample metric))
        (sums.of metric))
    (hDecoded :
      ¬ (decode.decodeStatus ≠ 0 ∨ decode.infoStatus ≠ 0)) :
    (settleValue ops sums metric).map Counter.val =
      if evaluatedSamples decode metric ≠ [] then
        some (metricValue ops decode metric)
      else
        none := by
  have hSamples :
      evaluatedSamples decode metric =
        okValues
          ((List.range decode.completedSamples).map
            (fun sample => decode.evaluate sample metric)) := by
    unfold evaluatedSamples
    rw [if_neg hDecoded]
  have hCount : sums.counts metric =
      (evaluatedSamples decode metric).length := by
    rw [hSamples]
    exact hSum.count
  have hValue : (sums.values metric).map Counter.val =
      if evaluatedSamples decode metric = [] then none
      else
        some ((evaluatedSamples decode metric).foldl ops.add
          ops.zero) := by
    rw [hSamples]
    exact hSum.value
  unfold settleValue metricValue
  by_cases hNone : evaluatedSamples decode metric = []
  · rw [hNone] at hCount
    simp only [hNone, if_true] at hValue
    simp [hCount, hNone, hValue]
  · rw [if_neg hNone] at hValue
    cases hAverage : averageMetric metric with
    | false =>
        simp [hNone, hValue]
    | true =>
        rcases Option.map_eq_some_iff.mp hValue with
          ⟨counter, hCounter, hVal⟩
        simp [hNone, hCounter, hVal, hCount]

/-
  What the sample loop and the settling leave, when the data
  was decoded and has completed samples.
-/
theorem evaluated_sumSamples
    {metrics : List Text}
    (hDistinct : metrics.Nodup)
    {decode : PmDecode V}
    (hDecoded :
      ¬ (decode.decodeStatus ≠ 0 ∨ decode.infoStatus ≠ 0))
    (hCompleted : decode.completedSamples ≠ 0)
    (image : Nat) :
    let sums :=
      sumSamples ops image decode metrics
        { values := fun _ => none
          counts := fun _ => 0
          errors := fun _ => none }
    Evaluated ops metrics decode (settleValue ops sums)
      (fun metric =>
        if sums.counts metric ≠ 0 then none
        else sums.errors metric) := by
  intro sums
  have hOf (metric : Text) :
      sums.of metric =
        if metric ∈ metrics then
          ((List.range decode.completedSamples).map
            (fun sample =>
              decode.evaluate sample metric)).foldl
                (MetricSum.enter ops image) MetricSum.start
        else
          MetricSum.start :=
    of_foldl_samples ops hDistinct image decode _ _ metric
  have hSummed :
      ∀ metric ∈ metrics,
        Summed ops
          ((List.range decode.completedSamples).map
            (fun sample => decode.evaluate sample metric))
          (sums.of metric) := by
    intro metric hMem
    rw [hOf, if_pos hMem]
    exact summed_foldl ops image _
  have hOut :
      ∀ metric, metric ∉ metrics →
        sums.values metric = none ∧
          sums.errors metric = none := by
    intro metric hMem
    have hStart := hOf metric
    rw [if_neg hMem] at hStart
    exact ⟨congrArg MetricSum.value hStart,
      congrArg MetricSum.error hStart⟩
  constructor
  · intro metric
    by_cases hMem : metric ∈ metrics
    · rw [settleValue_of_summed ops (hSummed metric hMem)
        hDecoded]
      simp only [hMem, true_and]
    · have hNone : settleValue ops sums metric = none := by
        unfold settleValue
        rw [(hOut metric hMem).1]
        simp
      rw [hNone, if_neg (fun hBoth => hMem hBoth.1)]
      rfl
  · intro metric
    by_cases hMem : metric ∈ metrics
    · have hSum := hSummed metric hMem
      have hSamples :
          evaluatedSamples decode metric =
            okValues
              ((List.range decode.completedSamples).map
                (fun sample =>
                  decode.evaluate sample metric)) := by
        unfold evaluatedSamples
        rw [if_neg hDecoded]
      have hCount :
          sums.counts metric =
            (evaluatedSamples decode metric).length := by
        rw [hSamples]
        exact hSum.count
      rw [hCount]
      by_cases hNone : evaluatedSamples decode metric = []
      · have hError : (sums.errors metric).isSome = true := by
          apply hSum.error
          · rw [← hSamples]
            exact hNone
          · simpa using hCompleted
        simp [hNone, hMem, hError]
      · simp [hNone]
    · simp [hMem, (hOut metric hMem).2]

/-
  `evaluate_pm_metrics_locked` with supported metrics and a
  counter image.
-/
theorem evaluatePmMetrics_spec
    {state : CuptiState V}
    (hDistinct : state.supportedMetrics.Nodup)
    (hSome : state.supportedMetrics ≠ [])
    (hData : state.counterData ≠ none)
    (decode : PmDecode V) :
    Evaluated ops state.supportedMetrics decode
      (evaluatePmMetrics ops state decode).values
      (evaluatePmMetrics ops state decode).evalErrors := by
  rcases Option.ne_none_iff_exists'.mp hData with
    ⟨image, hImage⟩
  unfold evaluatePmMetrics
  simp only [hImage, if_neg hSome]
  split
  case isTrue hDecode =>
      apply evaluated_failMetrics
      intro metric
      unfold evaluatedSamples
      rw [if_pos (Or.inl hDecode)]
  case isFalse hDecode =>
      split
      case isTrue hInfo =>
          apply evaluated_failMetrics
          intro metric
          unfold evaluatedSamples
          rw [if_pos (Or.inr hInfo)]
      case isFalse hInfo =>
          split
          case isTrue hCompleted =>
              apply evaluated_failMetrics
              intro metric
              unfold evaluatedSamples
              rw [hCompleted]
              simp [okValues]
          case isFalse hCompleted =>
              apply evaluated_sumSamples ops hDistinct _
                hCompleted
              rintro (hBad | hBad)
              · exact hDecode hBad
              · exact hInfo hBad

end Samples

------------------------------------------------------------
-- Reached States
------------------------------------------------------------

section Run

variable {V : Type}

/-
  The metrics of a state are divided, and those of a ready
  context are the requested ones and need at most one pass.
-/
structure MetricsAccounted
    (requested : List Text)
    (build : Nat → List Text → Option Nat)
    (state : CuptiState V) : Prop where
  divides :
    Divides state.requestedMetrics state.supportedMetrics
      state.unsupportedMetrics
  requested :
    state.ready = true → state.requestedMetrics = requested
  passes :
    state.ready = true → state.supportedMetrics ≠ [] →
      ∃ passes ≤ 1,
        build state.context state.supportedMetrics =
          some passes

/- A call that leaves the context and its metrics alone. -/
structure SameContext (state next : CuptiState V) :
    Prop where
  ready : next.ready = state.ready
  context : next.context = state.context
  requested : next.requestedMetrics = state.requestedMetrics
  supported : next.supportedMetrics = state.supportedMetrics
  unsupported :
    next.unsupportedMetrics = state.unsupportedMetrics

theorem SameContext.refl (state : CuptiState V) :
    SameContext state state :=
  ⟨rfl, rfl, rfl, rfl, rfl⟩

theorem SameContext.trans
    {state next last : CuptiState V}
    (hFirst : SameContext state next)
    (hSecond : SameContext next last) :
    SameContext state last where
  ready := hSecond.ready.trans hFirst.ready
  context := hSecond.context.trans hFirst.context
  requested := hSecond.requested.trans hFirst.requested
  supported := hSecond.supported.trans hFirst.supported
  unsupported := hSecond.unsupported.trans hFirst.unsupported

/- Such a call keeps the account. -/
theorem MetricsAccounted.of_same
    {requested : List Text}
    {build : Nat → List Text → Option Nat}
    {state next : CuptiState V}
    (hState : MetricsAccounted requested build state)
    (hSame : SameContext state next) :
    MetricsAccounted requested build next := by
  constructor
  · rw [hSame.requested, hSame.supported, hSame.unsupported]
    exact hState.divides
  · rw [hSame.ready, hSame.requested]
    exact hState.requested
  · rw [hSame.ready, hSame.supported, hSame.context]
    exact hState.passes

/- The evaluation only fills values, errors and counts. -/
theorem sameContext_evaluatePmMetrics
    (ops : FloatOps V)
    (state : CuptiState V)
    (decode : PmDecode V) :
    SameContext state (evaluatePmMetrics ops state decode) := by
  unfold evaluatePmMetrics
  dsimp only
  split
  · exact ⟨rfl, rfl, rfl, rfl, rfl⟩
  · split_ifs
    all_goals exact ⟨rfl, rfl, rfl, rfl, rfl⟩

/- So does an end. -/
theorem sameContext_endLaunch
    (ops : FloatOps V)
    (state : CuptiState V)
    (calls : EndCalls V) :
    SameContext state (endLaunch ops state calls).1 := by
  have hRecord :
      SameContext state (recordDuration state calls) := by
    unfold recordDuration
    split
    · split
      all_goals exact ⟨rfl, rfl, rfl, rfl, rfl⟩
    · exact SameContext.refl state
  unfold endLaunch
  split
  · dsimp only
    split
    · have hEvaluate :=
        hRecord.trans
          (sameContext_evaluatePmMetrics ops
            (recordDuration state calls) calls.decode)
      exact ⟨hEvaluate.ready, hEvaluate.context,
        hEvaluate.requested, hEvaluate.supported,
        hEvaluate.unsupported⟩
    · exact ⟨hRecord.ready, hRecord.context,
        hRecord.requested, hRecord.supported,
        hRecord.unsupported⟩
  · exact SameContext.refl state

/- What follows the setup in a begin leaves the metrics. -/
theorem sameContext_prepareCounterData
    (state : CuptiState V)
    (number : Nat)
    (succeeds : Bool) :
    SameContext state
      (prepareCounterData state number succeeds).1 := by
  unfold prepareCounterData
  dsimp only
  split_ifs
  all_goals exact ⟨rfl, rfl, rfl, rfl, rfl⟩

theorem sameContext_startEvents
    (state : CuptiState V)
    (calls : BeginCalls) :
    SameContext state (startEvents state calls).1 := by
  unfold startEvents
  dsimp only
  split_ifs
  all_goals exact ⟨rfl, rfl, rfl, rfl, rfl⟩

theorem sameContext_openCsv
    {state next : CuptiState V}
    {opens : Bool}
    (hOpen : openCsv state opens = some next) :
    SameContext state next := by
  unfold openCsv at hOpen
  split at hOpen
  · rw [← Option.some.inj hOpen]
    exact SameContext.refl state
  · split at hOpen
    · rw [← Option.some.inj hOpen]
      exact ⟨rfl, rfl, rfl, rfl, rfl⟩
    · cases hOpen

section Setup

variable {requested : List Text}
  {build : Nat → List Text → Option Nat}

/- A setup from the calls of CUPTI keeps the account. -/
theorem accounted_setupContext
    (hDistinct : requested.Nodup)
    (hNamed : [] ∉ requested)
    {state : CuptiState V}
    (hState : MetricsAccounted requested build state)
    {context : Nat}
    (rank : Nat)
    {calls : SetupCalls}
    (hBuild : calls.buildConfigImage = build context) :
    MetricsAccounted requested build
        (setupContext state context rank
          (contextMetrics requested calls)).1 ∧
      ((setupContext state context rank
          (contextMetrics requested calls)).2 = true →
        (setupContext state context rank
          (contextMetrics requested calls)).1.ready = true ∧
        (setupContext state context rank
          (contextMetrics requested calls)).1.context =
            context) := by
  unfold setupContext
  split
  case isTrue hReady =>
      rw [Bool.and_eq_true, beq_iff_eq] at hReady
      exact ⟨hState, fun _ => hReady⟩
  case isFalse =>
      cases hSetup : contextMetrics requested calls with
      | none =>
          refine ⟨⟨divides_empty, ?_, ?_⟩, ?_⟩
          · intro hReady
            cases hReady
          · intro hReady
            cases hReady
          · intro hOk
            cases hOk
      | some metrics =>
          rcases contextMetrics_spec hDistinct hNamed hSetup
            with ⟨hRequested, hDivides, hPasses⟩
          refine ⟨⟨?_, fun _ => hRequested, ?_⟩,
            fun _ => ⟨rfl, rfl⟩⟩
          · change Divides metrics.requested metrics.supported
              metrics.unsupported
            rw [hRequested]
            exact hDivides
          · intro _ hSome
            rw [← hBuild]
            exact hPasses hSome

/-
  The setup of every begin is what the calls of CUPTI make
  of the requested metrics, with a deterministic builder for
  each context.
-/
def SetupsFrom
    {T : Type}
    (requested : List Text)
    (build : Nat → List Text → Option Nat) :
    LaunchState T V → LaunchAction T V → Prop
| _, .begin _ _ calls =>
    ∀ context, calls.current = some context →
      ∃ setup : SetupCalls,
        setup.buildConfigImage = build context ∧
        calls.setup = contextMetrics requested setup
| _, _ => True

/- Setup, counter data and events keep the account. -/
theorem accounted_prepareLaunch
    (hDistinct : requested.Nodup)
    (hNamed : [] ∉ requested)
    {state : CuptiState V}
    (hState : MetricsAccounted requested build state)
    {context : Nat}
    (number : Nat)
    {calls : BeginCalls}
    {setup : SetupCalls}
    (hBuild : setup.buildConfigImage = build context)
    (hSetup : calls.setup = contextMetrics requested setup) :
    MetricsAccounted requested build
      (prepareLaunch state context number calls).1 := by
  have hEntered :=
    (accounted_setupContext hDistinct hNamed hState calls.rank
      hBuild).1
  unfold prepareLaunch
  rw [hSetup]
  rcases hEnter :
      setupContext state context calls.rank
        (contextMetrics requested setup) with ⟨entered, ok⟩
  rw [hEnter] at hEntered
  cases ok with
  | false => exact hEntered
  | true =>
      have hPrepared :=
        hEntered.of_same
          (sameContext_prepareCounterData entered number
            calls.counterData)
      rcases hData :
          prepareCounterData entered number
            calls.counterData with ⟨prepared, prepares⟩
      rw [hData] at hPrepared
      simp only [hData]
      cases prepares with
      | false => exact hPrepared
      | true =>
          exact
            hPrepared.of_same
              (sameContext_startEvents prepared calls)

/- A begin keeps the account. -/
theorem accounted_beginLaunch
    (ops : FloatOps V)
    (hDistinct : requested.Nodup)
    (hNamed : [] ∉ requested)
    {state : CuptiState V}
    (hState : MetricsAccounted requested build state)
    (context : Option LaunchContext)
    (number : Nat)
    {calls : BeginCalls}
    (hCalls :
      ∀ context, calls.current = some context →
        ∃ setup : SetupCalls,
          setup.buildConfigImage = build context ∧
          calls.setup = contextMetrics requested setup) :
    MetricsAccounted requested build
      (beginLaunch ops state context number calls).1 := by
  have hReset :
      MetricsAccounted requested build
        (resetLaunch ops state context) :=
    hState.of_same ⟨rfl, rfl, rfl, rfl, rfl⟩
  unfold beginLaunch
  dsimp only
  split
  · exact hReset
  · exact hReset
  · next ctx _ hCurrent =>
      rcases hCalls ctx hCurrent with
        ⟨setup, hBuild, hSetup⟩
      split
      · exact hReset
      · next opened hOpen =>
          exact
            accounted_prepareLaunch hDistinct hNamed
              (hReset.of_same (sameContext_openCsv hOpen))
              number hBuild hSetup

/- Every reached state is accounted for. -/
theorem accounted_of_reach
    {T : Type}
    [DecidableEq T]
    {ops : FloatOps V}
    (hDistinct : requested.Nodup)
    (hNamed : [] ∉ requested)
    {s : LaunchState T V}
    (hReach :
      (launchMachine T ops).Reach
        (SetupsFrom requested build) s) :
    MetricsAccounted requested build s.state := by
  apply hReach.invariant
    (fun s => MetricsAccounted requested build s.state)
  · intro s hInit
    rw [hInit]
    refine ⟨divides_empty, ?_, ?_⟩
    · intro hReady
      cases hReady
    · intro hReady
      cases hReady
  · intro s action s' hState hGuard hStep
    cases action with
    | lock thread =>
        simp only [launchMachine, LaunchState.step] at hStep
        split at hStep
        · rw [← Option.some.inj hStep]
          exact hState
        · cases hStep
    | begin thread context calls =>
        have hBegin :=
          accounted_beginLaunch ops hDistinct hNamed hState
            context s.count hGuard
        simp only [launchMachine, LaunchState.step] at hStep
        split at hStep
        · split at hStep
          · rw [← Option.some.inj hStep]
            exact hBegin
          · rw [← Option.some.inj hStep]
            exact hBegin
        · cases hStep
    | finish thread calls =>
        simp only [launchMachine, LaunchState.step] at hStep
        split at hStep
        · rw [← Option.some.inj hStep]
          exact
            hState.of_same
              (sameContext_endLaunch ops s.state calls)
        · cases hStep

end Setup

------------------------------------------------------------
-- The Raw Metrics
------------------------------------------------------------

/-
  After an evaluation no requested metric is missing, if the
  counter image is there when metrics are supported.
-/
theorem rawMetric_ne_missing
    (ops : FloatOps V)
    {requested : List Text}
    {build : Nat → List Text → Option Nat}
    {state : CuptiState V}
    (hState : MetricsAccounted requested build state)
    (hData :
      state.supportedMetrics ≠ [] →
        state.counterData ≠ none)
    (decode : PmDecode V)
    {metric : Text}
    (hMem : metric ∈ state.requestedMetrics) :
    rawMetric (evaluatePmMetrics ops state decode) metric ≠
      .missing := by
  have hSame := sameContext_evaluatePmMetrics ops state decode
  by_cases hSupported : metric ∈ state.supportedMetrics
  · have hSome : state.supportedMetrics ≠ [] :=
      List.ne_nil_of_mem hSupported
    have hEvaluated :=
      evaluatePmMetrics_spec ops hState.divides.nodup hSome
        (hData hSome) decode
    have hValue := hEvaluated.value metric
    have hError := hEvaluated.error metric
    unfold rawMetric
    cases hCell :
        (evaluatePmMetrics ops state decode).values metric with
    | some counter =>
        intro hMissing
        cases hMissing
    | none =>
        rw [hCell] at hValue
        have hNone : evaluatedSamples decode metric = [] := by
          by_contra hNe
          rw [if_pos ⟨hSupported, hNe⟩] at hValue
          cases hValue
        rcases Option.isSome_iff_exists.mp
            (hError.mpr ⟨hSupported, hNone⟩) with
          ⟨status, hStatus⟩
        rw [hStatus]
        cases (evaluatePmMetrics ops state
            decode).unsupportedMetrics metric with
        | some code =>
            intro hMissing
            cases hMissing
        | none =>
            intro hMissing
            cases hMissing
  · rcases Option.isSome_iff_exists.mp
        ((hState.divides.rest metric).mpr
          ⟨hMem, hSupported⟩) with ⟨status, hStatus⟩
    unfold rawMetric
    rw [hSame.unsupported, hStatus]
    cases (evaluatePmMetrics ops state decode).values metric with
    | some counter =>
        intro hMissing
        cases hMissing
    | none =>
        intro hMissing
        cases hMissing

end Run

/-
  Every requested counter is accounted for, in every run of
  the launch brackets with a deterministic builder: after a
  successful setup, after every evaluation of a counter
  image, and in the printed `raw_metrics`.
-/
theorem counters_accounted
    {T V : Type}
    [DecidableEq T]
    (ops : FloatOps V)
    (requested : List Text)
    (hDistinct : requested.Nodup)
    (hNamed : [] ∉ requested)
    (build : Nat → List Text → Option Nat)
    (s : LaunchState T V)
    (hReach :
      (launchMachine T ops).Reach
        (SetupsFrom requested build) s) :
    (∀ (context rank : Nat) (calls : SetupCalls),
        calls.buildConfigImage = build context →
        let result :=
          setupContext s.state context rank
            (contextMetrics requested calls)
        result.2 = true →
          result.1.requestedMetrics = requested ∧
            Divides requested result.1.supportedMetrics
              result.1.unsupportedMetrics ∧
            (result.1.supportedMetrics ≠ [] →
              ∃ passes ≤ 1,
                build context result.1.supportedMetrics =
                  some passes)) ∧
      (∀ decode : PmDecode V,
        s.state.supportedMetrics ≠ [] →
        s.state.counterData ≠ none →
        let after := evaluatePmMetrics ops s.state decode
        (∀ metric,
          (after.values metric).map Counter.val =
            if metric ∈ s.state.supportedMetrics ∧
                evaluatedSamples decode metric ≠ []
            then some (metricValue ops decode metric)
            else none) ∧
          ∀ metric,
            (after.evalErrors metric).isSome = true ↔
              metric ∈ s.state.supportedMetrics ∧
                evaluatedSamples decode metric = []) ∧
      ∀ (decode : PmDecode V) (launchResult : Nat),
        (s.state.supportedMetrics ≠ [] →
          s.state.counterData ≠ none) →
        let after := evaluatePmMetrics ops s.state decode
        ∀ entry ∈ (csvRow ops after launchResult).rawMetrics,
          entry.2 ≠ .missing := by
  have hState := accounted_of_reach hDistinct hNamed hReach
  refine ⟨?_, ?_, ?_⟩
  · intro context rank calls hBuild result hOk
    rcases accounted_setupContext hDistinct hNamed hState rank
      hBuild with ⟨hAfter, hReady⟩
    rcases hReady hOk with ⟨hIsReady, hContext⟩
    have hRequested := hAfter.requested hIsReady
    have hDivides := hAfter.divides
    rw [hRequested] at hDivides
    refine ⟨hRequested, hDivides, ?_⟩
    intro hSome
    have hPasses := hAfter.passes hIsReady hSome
    rw [hContext] at hPasses
    exact hPasses
  · intro decode hSome hData after
    have hEvaluated :=
      evaluatePmMetrics_spec ops hState.divides.nodup hSome
        hData decode
    exact ⟨hEvaluated.value, hEvaluated.error⟩
  · intro decode launchResult hData after entry hMem
    have hSame :=
      sameContext_evaluatePmMetrics ops s.state decode
    rcases List.mem_map.mp hMem with
      ⟨metric, hMetric, hEntry⟩
    rw [← hEntry]
    apply rawMetric_ne_missing ops hState hData decode
    rw [← hSame.requested]
    exact hMetric

/- All calls of a setup succeed, with images of one pass. -/
def onePassSetup : SetupCalls where
  profilerInitialized := true
  device := some 0
  chipName := true
  availabilitySize := 0
  availabilityImage := 0
  configStatus := fun _ => 0
  buildConfigImage := fun _ => some 1
  enable := true
  eventCreate := true

/- A begin whose setup samples the default metrics. -/
def defaultBegin : BeginCalls where
  current := some 1
  csvOpens := true
  rank := 0
  setup := contextMetrics defaultPmMetrics onePassSetup
  counterData := true
  streamSync := true
  eventRecord := true
  pmStart := true

/- The mutex is taken, and the launch has begun. -/
def lockedState : LaunchState Nat Nat :=
  { LaunchState.start with mutex := some 0 }.setPhase 0 .locked

def begunState : LaunchState Nat Nat :=
  { lockedState with
    state :=
      (beginLaunch wholeOps lockedState.state none 0
        defaultBegin).1
    count := 1
    begins := [{ number := 0, launch := {} }] }.setPhase 0
      (.returned (some { number := 0, launch := {} }))

/- Of two samples only the second evaluates. -/
def secondSample : PmDecode Nat where
  decodeStatus := 0
  overflow := false
  infoStatus := 0
  totalSamples := 2
  populatedSamples := 2
  completedSamples := 2
  evaluate := fun sample _ =>
    if sample = 0 then .error 1 else .ok 5

/- The counters of the default metrics after one begin. -/
theorem counters_accounted_default :
    let setup :=
      setupContext begunState.state 1 0
        (contextMetrics defaultPmMetrics onePassSetup)
    let after :=
      evaluatePmMetrics wholeOps begunState.state secondSample
    Divides defaultPmMetrics setup.1.supportedMetrics
        setup.1.unsupportedMetrics ∧
      (after.values "gpu__time_duration.sum".toList).map
        Counter.val = some 5 ∧
      ∀ entry ∈ (csvRow wholeOps after 0).rawMetrics,
        entry.2 ≠ .missing := by
  have hLock :
      (launchMachine Nat wholeOps).Reach
        (SetupsFrom defaultPmMetrics (fun _ _ => some 1))
        lockedState :=
    Machine.Reach.step (a := .lock 0)
      (Machine.Reach.init rfl) trivial rfl
  have hReach :
      (launchMachine Nat wholeOps).Reach
        (SetupsFrom defaultPmMetrics (fun _ _ => some 1))
        begunState :=
    Machine.Reach.step (a := .begin 0 none defaultBegin) hLock
      (fun _ _ => ⟨onePassSetup, rfl, rfl⟩) rfl
  have hAccounted :=
    counters_accounted wholeOps defaultPmMetrics (by decide)
      (by decide) (fun _ _ => some 1) begunState hReach
  have hSome : begunState.state.supportedMetrics ≠ [] := by
    decide +kernel
  have hData : begunState.state.counterData ≠ none := by
    decide +kernel
  refine ⟨(hAccounted.1 1 0 onePassSetup rfl rfl).2.1, ?_,
    hAccounted.2.2 secondSample 0 (fun _ => hData)⟩
  have hValue :=
    (hAccounted.2.1 secondSample hSome hData).1
      "gpu__time_duration.sum".toList
  rw [hValue]
  decide +kernel

end Runtime

end FabricPerf
