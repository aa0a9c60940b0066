import FabricPerf.Runtime.Launches

/-
  When the launches of the memory runtime are bracketed.

  A begin whose calls all succeed keeps the mutex until its
  end, which writes its row.  A begin that fails has unlocked
  already, and its end unlocks once more.

  Main declarations:
    * `Runtime.CallsSucceed`
    * `Runtime.Bracketed`
    * `Runtime.launches_bracketed`
-/

------------------------------------------------------------
-- Begin
------------------------------------------------------------

namespace FabricPerf

namespace Runtime

section Begin

variable {V : Type} {ops : FloatOps V}

/- The metrics a begin samples in the given context. -/
def sampledMetrics
    (state : CuptiState V)
    (context : Nat)
    (calls : BeginCalls) : Option (List Text) :=
  if state.ready && state.context == context then
    some state.supportedMetrics
  else
    calls.setup.map ContextMetrics.supported

/- Every call that a begin makes in this state succeeds. -/
def CallsSucceed
    (state : CuptiState V)
    (calls : BeginCalls) : Prop :=
  ∃ context metrics,
    calls.current = some context ∧ context ≠ 0 ∧
    (state.csv || calls.csvOpens) = true ∧
    sampledMetrics state context calls = some metrics ∧
    (metrics ≠ [] → calls.counterData = true) ∧
    calls.streamSync = true ∧ calls.eventRecord = true ∧
    (metrics ≠ [] → calls.pmStart = true)

/- What a begin that returns 0 leaves for its end. -/
structure OpenFor
    (state : CuptiState V)
    (begun : Begin) : Prop where
  active : state.active = true
  csv : state.csv = true
  launch : state.launch = begun.launch
  values : state.values = fun _ => none
  counterData :
    ∀ n, state.counterData = some n → n = begun.number

theorem openCsv_eq_some
    {state next : CuptiState V}
    {opens : Bool}
    (hOpen : openCsv state opens = some next) :
    next = { state with csv := true } ∧
      (state.csv || opens) = true := by
  unfold openCsv at hOpen
  split at hOpen
  · next hCsv =>
      cases hOpen
      cases state
      simp_all
  · split at hOpen
    · next hOpens =>
        cases hOpen
        simp [hOpens]
    · cases hOpen

theorem openCsv_eq_none
    {state : CuptiState V}
    {opens : Bool}
    (hOpen : openCsv state opens = none) :
    (state.csv || opens) = false := by
  unfold openCsv at hOpen
  split at hOpen
  · cases hOpen
  · split at hOpen
    · cases hOpen
    · simp_all

/- A call that leaves the fields of the launch alone. -/
structure SameLaunch (state next : CuptiState V) : Prop where
  active : next.active = state.active
  csv : next.csv = state.csv
  launch : next.launch = state.launch
  values : next.values = state.values

theorem SameLaunch.trans
    {state next last : CuptiState V}
    (hFirst : SameLaunch state next)
    (hSecond : SameLaunch next last) :
    SameLaunch state last where
  active := hSecond.active.trans hFirst.active
  csv := hSecond.csv.trans hFirst.csv
  launch := hSecond.launch.trans hFirst.launch
  values := hSecond.values.trans hFirst.values

/- What the setup of a context leaves. -/
theorem setupContext_spec
    {state next : CuptiState V}
    {context rank : Nat}
    {calls : BeginCalls}
    {ok : Bool}
    (hSetup :
      setupContext state context rank calls.setup =
        (next, ok)) :
    SameLaunch state next ∧
      sampledMetrics state context calls =
        if ok then some next.supportedMetrics else none := by
  unfold setupContext at hSetup
  unfold sampledMetrics
  split at hSetup
  · next hReady =>
      cases hSetup
      rw [if_pos hReady]
      exact ⟨⟨rfl, rfl, rfl, rfl⟩, rfl⟩
  · next hReady =>
      rw [if_neg hReady]
      cases hMetrics : calls.setup with
      | none =>
          rw [hMetrics] at hSetup
          cases hSetup
          exact ⟨⟨rfl, rfl, rfl, rfl⟩, rfl⟩
      | some metrics =>
          rw [hMetrics] at hSetup
          cases hSetup
          exact ⟨⟨rfl, rfl, rfl, rfl⟩, rfl⟩

/- What the preparation of the counter data leaves. -/
theorem prepareCounterData_spec
    {state next : CuptiState V}
    {number : Nat}
    {succeeds ok : Bool}
    (hData :
      prepareCounterData state number succeeds = (next, ok)) :
    SameLaunch state next ∧
      next.supportedMetrics = state.supportedMetrics ∧
      (∀ n, next.counterData = some n → n = number) ∧
      (ok = true ↔
        (state.supportedMetrics ≠ [] → succeeds = true)) := by
  unfold prepareCounterData at hData
  dsimp only at hData
  split at hData
  · next hMetrics =>
      cases hData
      refine ⟨⟨rfl, rfl, rfl, rfl⟩, rfl, nofun, ?_⟩
      simp [hMetrics]
  · next hMetrics =>
      split at hData
      · next hSucceeds =>
          cases hData
          refine ⟨⟨rfl, rfl, rfl, rfl⟩, rfl, ?_, ?_⟩
          · intro n hN
            exact (Option.some.inj hN).symm
          · simp [hSucceeds]
      · next hSucceeds =>
          cases hData
          refine ⟨⟨rfl, rfl, rfl, rfl⟩, rfl, ?_, ?_⟩
          · intro n hN
            cases hN
          · simp [hMetrics, hSucceeds]

/- What the events and the sampling of a begin leave. -/
theorem startEvents_spec
    (state : CuptiState V)
    (calls : BeginCalls) :
    let result := startEvents state calls
    SameLaunch state { result.1 with active := state.active } ∧
      result.1.counterData = state.counterData ∧
      result.1.active = (result.2 || state.active) ∧
      (result.2 = true ↔
        calls.streamSync = true ∧ calls.eventRecord = true ∧
          (state.supportedMetrics ≠ [] →
            calls.pmStart = true)) := by
  unfold startEvents
  dsimp only
  split
  · next hEvents =>
      rw [Bool.and_eq_true] at hEvents
      split
      · next hMetrics =>
          exact ⟨⟨rfl, rfl, rfl, rfl⟩, rfl, rfl, by
            simp [hEvents, hMetrics]⟩
      · next hMetrics =>
          split
          · next hStart =>
              exact ⟨⟨rfl, rfl, rfl, rfl⟩, rfl, rfl, by
                simp [hEvents, hStart]⟩
          · next hStart =>
              exact ⟨⟨rfl, rfl, rfl, rfl⟩, rfl, rfl, by
                simp [hMetrics, hStart]⟩
  · next hEvents =>
      rw [Bool.and_eq_true] at hEvents
      refine ⟨⟨rfl, rfl, rfl, rfl⟩, rfl, rfl, ?_⟩
      constructor
      · intro hFalse
        cases hFalse
      · rintro ⟨hSync, hRecord, _⟩
        exact absurd ⟨hSync, hRecord⟩ hEvents

/- The preparation after the CSV file is open. -/
theorem prepareLaunch_spec
    (state : CuptiState V)
    (context number : Nat)
    (calls : BeginCalls) :
    let result := prepareLaunch state context number calls
    SameLaunch state { result.1 with active := state.active } ∧
      result.1.active = (result.2 || state.active) ∧
      (result.2 = true →
        ∀ n, result.1.counterData = some n → n = number) ∧
      (result.2 = true ↔
        ∃ metrics,
          sampledMetrics state context calls = some metrics ∧
          (metrics ≠ [] → calls.counterData = true) ∧
          calls.streamSync = true ∧
          calls.eventRecord = true ∧
          (metrics ≠ [] → calls.pmStart = true)) := by
  unfold prepareLaunch
  rcases hSetup :
      setupContext state context calls.rank calls.setup with
    ⟨entered, entersOk⟩
  rcases setupContext_spec hSetup with ⟨hSame, hMetrics⟩
  cases entersOk with
  | false =>
      refine ⟨⟨rfl, hSame.csv, hSame.launch, hSame.values⟩,
        hSame.active, nofun, ?_⟩
      simp [hMetrics]
  | true =>
      dsimp only
      rcases hData :
          prepareCounterData entered number
            calls.counterData with
        ⟨prepared, preparesOk⟩
      rcases prepareCounterData_spec hData with
        ⟨hSame', hMetrics', hCounter, hOk⟩
      have hBoth := hSame.trans hSame'
      cases preparesOk with
      | false =>
          refine ⟨⟨rfl, hBoth.csv, hBoth.launch,
            hBoth.values⟩, hBoth.active, nofun, ?_⟩
          have hNo := mt hOk.mpr Bool.false_ne_true
          simp only [hMetrics, if_true, Option.some.injEq,
            exists_eq_left']
          constructor
          · intro hFalse
            cases hFalse
          · rintro ⟨hPrepared, _⟩
            exact absurd hPrepared hNo
      | true =>
          dsimp only
          rcases startEvents_spec prepared calls with
            ⟨hStart, hStartData, hActive, hStartOk⟩
          have hYes := hOk.mp rfl
          refine ⟨⟨rfl, hStart.csv.trans hBoth.csv,
            hStart.launch.trans hBoth.launch,
            hStart.values.trans hBoth.values⟩, ?_, ?_, ?_⟩
          · rw [hActive, hBoth.active]
          · intro _ n hN
            rw [hStartData] at hN
            exact hCounter n hN
          · rw [hStartOk, hMetrics']
            simp only [hMetrics, if_true, Option.some.injEq,
              exists_eq_left']
            constructor
            · intro hAll
              exact ⟨hYes, hAll⟩
            · rintro ⟨_, hAll⟩
              exact hAll

/-
  A begin returns 0 iff its calls succeed; then its launch is
  open, and otherwise no launch is active.
-/
theorem beginLaunch_spec
    (ops : FloatOps V)
    (state : CuptiState V)
    (context : Option LaunchContext)
    (number : Nat)
    (calls : BeginCalls) :
    let result := beginLaunch ops state context number calls
    (result.2 = true ↔ CallsSucceed state calls) ∧
      (result.2 = true →
        OpenFor result.1
          { number := number, launch := context.getD {} }) ∧
      (result.2 = false → result.1.active = false) := by
  cases hCurrent : calls.current with
  | none =>
      simp [beginLaunch, CallsSucceed, hCurrent, resetLaunch]
  | some ctx =>
      by_cases hNull : ctx = 0
      · subst hNull
        simp [beginLaunch, CallsSucceed, hCurrent,
          resetLaunch]
      cases hOpen :
          openCsv (resetLaunch ops state context)
            calls.csvOpens with
      | none =>
          have hClosed := openCsv_eq_none hOpen
          have hCsv :
              (state.csv || calls.csvOpens) = false :=
            hClosed
          simp [beginLaunch, CallsSucceed, hCurrent, hOpen,
            hCsv]
          rfl
      | some opened =>
          rcases openCsv_eq_some hOpen with ⟨hOpened, hIsOpen⟩
          have hCsv : (state.csv || calls.csvOpens) = true :=
            hIsOpen
          have hBegin :
              beginLaunch ops state context number calls =
                prepareLaunch opened ctx number calls := by
            simp [beginLaunch, hCurrent, hOpen]
          have hSampled :
              sampledMetrics opened ctx calls =
                sampledMetrics state ctx calls := by
            rw [hOpened]
            rfl
          rcases prepareLaunch_spec opened ctx number calls with
            ⟨hSame, hActive, hCounter, hOk⟩
          rw [hBegin]
          refine ⟨?_, ?_, ?_⟩
          · rw [hOk, hSampled]
            simp [CallsSucceed, hCurrent, hNull, hCsv]
          · intro hTrue
            rw [hTrue] at hActive
            refine ⟨hActive, ?_, ?_, ?_, hCounter hTrue⟩
            · rw [hSame.csv, hOpened]
            · rw [hSame.launch, hOpened]
              rfl
            · rw [hSame.values, hOpened]
              rfl
          · intro hFalse
            rw [hFalse] at hActive
            rw [hActive, hOpened]
            rfl

end Begin

------------------------------------------------------------
-- End
------------------------------------------------------------

section Finish

variable {V : Type} {ops : FloatOps V}

/- All values were evaluated for one begin. -/
def ValuesFor
    (values : Text → Option (Counter V))
    (number : Nat) : Prop :=
  ∀ metric counter, values metric = some counter →
    ∀ n ∈ counter.sources, n = number

theorem valuesFor_none
    (number : Nat) :
    ValuesFor (fun _ => (none : Option (Counter V))) number :=
  fun _ _ h => by cases h

/- Adding a sample of the begin's own counter image. -/
theorem valuesFor_addSample
    {number sample : Nat}
    {decode : PmDecode V}
    {sums : SampleSums V}
    (hSums : ValuesFor sums.values number)
    (metric : Text) :
    ValuesFor
      (addSample ops number decode sample sums metric).values
      number := by
  unfold addSample
  cases decode.evaluate sample metric with
  | error status =>
      dsimp only
      split <;> exact hSums
  | ok value =>
      intro other counter hSome n hN
      dsimp only at hSome
      by_cases hSame : other = metric
      · subst hSame
        rw [Function.update_self] at hSome
        cases hSome
        rcases List.mem_append.mp hN with hOld | hNew
        · cases hBefore : sums.values other with
          | none =>
              rw [hBefore] at hOld
              cases hOld
          | some before =>
              rw [hBefore] at hOld
              exact hSums other before hBefore n hOld
        · exact List.mem_singleton.mp hNew
      · rw [Function.update_of_ne hSame] at hSome
        exact hSums other counter hSome n hN

/- The whole sample loop. -/
theorem valuesFor_sumSamples
    {number : Nat}
    {decode : PmDecode V}
    (metrics : List Text)
    {sums : SampleSums V}
    (hSums : ValuesFor sums.values number) :
    ValuesFor
      (sumSamples ops number decode metrics sums).values
      number := by
  have hMetrics :
      ∀ (sample : Nat) (rest : List Text)
        (sums : SampleSums V),
        ValuesFor sums.values number →
          ValuesFor
            (rest.foldl (addSample ops number decode sample)
              sums).values number := by
    intro sample rest
    induction rest with
    | nil => exact fun _ h => h
    | cons metric rest ih =>
        intro sums h
        exact ih _ (valuesFor_addSample h metric)
  unfold sumSamples
  generalize List.range decode.completedSamples = samples
  induction samples generalizing sums with
  | nil => exact hSums
  | cons sample rest ih =>
      exact ih (hMetrics sample metrics sums hSums)

/- Averaging keeps where a value comes from. -/
theorem valuesFor_settleValue
    {number : Nat}
    {sums : SampleSums V}
    (hSums : ValuesFor sums.values number) :
    ValuesFor (settleValue ops sums) number := by
  intro metric counter hSome n hN
  unfold settleValue at hSome
  split at hSome
  · rcases Option.map_eq_some_iff.mp hSome with
      ⟨before, hBefore, hCounter⟩
    rw [← hCounter] at hN
    exact hSums metric before hBefore n hN
  · exact hSums metric counter hSome n hN

/- The evaluation reads the begin's own counter image. -/
theorem valuesFor_evaluatePmMetrics
    {number : Nat}
    {state : CuptiState V}
    (hData :
      ∀ image, state.counterData = some image →
        image = number)
    (decode : PmDecode V) :
    ValuesFor (evaluatePmMetrics ops state decode).values
      number := by
  unfold evaluatePmMetrics
  dsimp only
  split
  · exact valuesFor_none number
  · next image hImage =>
      rw [hData image hImage]
      split_ifs
      · exact valuesFor_none number
      · exact valuesFor_none number
      · exact valuesFor_none number
      · exact valuesFor_none number
      · apply valuesFor_settleValue
        apply valuesFor_sumSamples
        exact valuesFor_none number

/- It keeps what the row says of the launch. -/
theorem evaluatePmMetrics_launch
    (ops : FloatOps V)
    (state : CuptiState V)
    (decode : PmDecode V) :
    (evaluatePmMetrics ops state decode).launch =
        state.launch ∧
      (evaluatePmMetrics ops state decode).csv =
        state.csv := by
  unfold evaluatePmMetrics
  dsimp only
  split
  · exact ⟨rfl, rfl⟩
  · split_ifs <;> exact ⟨rfl, rfl⟩

/- The duration comes from the launch's own values. -/
theorem sources_durationSeconds
    (ops : FloatOps V)
    {number : Nat}
    {state : CuptiState V}
    (hValues : ValuesFor state.values number) :
    ∀ n ∈ (durationSeconds ops state).sources,
      n = number := by
  unfold durationSeconds
  split
  · next counter hCounter =>
      split
      · exact hValues _ counter hCounter
      · exact fun _ h => absurd h List.not_mem_nil
  · exact fun _ h => absurd h List.not_mem_nil

/- So do the rates of the row. -/
theorem sources_bpsField
    (ops : FloatOps V)
    {number : Nat}
    {state : CuptiState V}
    (hValues : ValuesFor state.values number)
    (metric : Text)
    (counter : Counter V)
    (hSome :
      bpsField ops state metric (durationSeconds ops state) =
        some counter) :
    ∀ n ∈ counter.sources, n = number := by
  intro n hN
  unfold bpsField at hSome
  split at hSome
  · rcases Option.map_eq_some_iff.mp hSome with
      ⟨bytes, hBytes, hCounter⟩
    rw [← hCounter] at hN
    rcases List.mem_append.mp hN with hLeft | hRight
    · exact hValues metric bytes hBytes n hLeft
    · exact sources_durationSeconds ops hValues n hRight
  · cases hSome

/- Every counter of a row comes from the values. -/
theorem sources_csvRow
    {number : Nat}
    {state : CuptiState V}
    (hValues : ValuesFor state.values number)
    (launchResult : Nat) :
    ∀ counter ∈ (csvRow ops state launchResult).counters,
      ∀ n ∈ counter.sources, n = number := by
  have hDuration := sources_durationSeconds ops hValues
  have hField := sources_bpsField ops hValues
  intro counter hMem
  simp only [CsvRow.counters, csvRow, List.mem_append,
    Option.mem_toList, List.mem_filterMap, List.mem_map]
    at hMem
  rcases hMem with
    ((((hTime | hRead) | hWrite) | hRx) | hTx) | hRaw
  · split at hTime
    · cases hTime
      exact hDuration
    · cases hTime
  · exact hField _ counter hRead
  · exact hField _ counter hWrite
  · exact hField _ counter hRx
  · exact hField _ counter hTx
  · rcases hRaw with ⟨entry, ⟨metric, _, hEntry⟩, hCell⟩
    rw [← hEntry] at hCell
    simp only [rawMetric] at hCell
    cases hValue : state.values metric with
    | some value =>
        rw [hValue] at hCell
        cases hCell
        exact hValues metric _ hValue
    | none =>
        rw [hValue] at hCell
        dsimp only at hCell
        split at hCell
        · cases hCell
        · split at hCell <;> cases hCell

/- The end of an open launch writes the launch's row. -/
theorem endLaunch_spec
    (ops : FloatOps V)
    {state : CuptiState V}
    {begun : Begin}
    (hOpen : OpenFor state begun)
    (calls : EndCalls V) :
    ∃ row, (endLaunch ops state calls).2 = some row ∧
      row.launch = begun.launch ∧
      ∀ counter ∈ row.counters,
        ∀ n ∈ counter.sources, n = begun.number := by
  have hTimed :
      OpenFor (recordDuration state calls) begun := by
    unfold recordDuration
    split
    · split
      · exact ⟨hOpen.active, hOpen.csv, hOpen.launch,
          hOpen.values, hOpen.counterData⟩
      · exact hOpen
    · exact hOpen
  unfold endLaunch
  rw [if_pos hOpen.active]
  dsimp only
  split
  · rcases evaluatePmMetrics_launch ops
        (recordDuration state calls) calls.decode with
      ⟨hLaunch, hCsv⟩
    rw [hCsv, if_pos hTimed.csv]
    refine ⟨_, rfl, hLaunch.trans hTimed.launch, ?_⟩
    apply sources_csvRow
    exact valuesFor_evaluatePmMetrics hTimed.counterData _
  · rw [if_pos hTimed.csv]
    refine ⟨_, rfl, hTimed.launch, ?_⟩
    apply sources_csvRow
    rw [hTimed.values]
    exact valuesFor_none _

end Finish

------------------------------------------------------------
-- Brackets
------------------------------------------------------------

section Threads

variable {T V : Type}

/- The thread is between a successful begin and its end. -/
def LaunchState.IsOpen
    (s : LaunchState T V)
    (thread : T)
    (begun : Begin) : Prop :=
  s.phase thread = .returned (some begun)

/- The row is the begin's and has the begin's values only. -/
def RowOf
    (begun : Begin)
    (row : CsvRow V) : Prop :=
  row.launch = begun.launch ∧
    ∀ counter ∈ row.counters,
      ∀ n ∈ counter.sources, n = begun.number

/-
  Only the holder unlocks, one launch is open at a time, and
  the rows are those of the begins that have ended, in order.
-/
structure Bracketed (s : LaunchState T V) : Prop where
  unlocks : ∀ entry ∈ s.unlocks, entry.2 = some entry.1
  single :
    ∀ t u b c, s.IsOpen t b → s.IsOpen u c → t = u
  numbers : (s.begins.map Begin.number).Nodup
  rows :
    (∃ t b, s.IsOpen t b ∧
      s.begins.map some = s.rows.map Prod.fst ++ [some b]) ∨
    (∀ t b, ¬ s.IsOpen t b) ∧
      s.begins.map some = s.rows.map Prod.fst
  carried :
    ∀ entry ∈ s.rows, ∃ b, entry.1 = some b ∧
      RowOf b entry.2

/- Every begin's calls succeed. -/
def CallsOk
    (s : LaunchState T V) : LaunchAction T V → Prop
| .begin _ _ calls => CallsSucceed s.state calls
| .lock _ | .finish _ _ => True

/- The invariant of runs in which all begins succeed. -/
structure BracketOk (s : LaunchState T V) : Prop where
  holder :
    ∀ t, s.mutex = some t ↔ s.phase t ≠ .idle
  succeeded : ∀ t, s.phase t ≠ .returned none
  unlocks : ∀ entry ∈ s.unlocks, entry.2 = some entry.1
  numbers : (s.begins.map Begin.number).Nodup
  fresh : ∀ b ∈ s.begins, b.number < s.count
  carried :
    ∀ entry ∈ s.rows, ∃ b, entry.1 = some b ∧
      RowOf b entry.2
  opened :
    ∀ t b, s.IsOpen t b →
      OpenFor s.state b ∧
        s.begins.map some = s.rows.map Prod.fst ++ [some b]
  closed :
    (∀ t b, ¬ s.IsOpen t b) →
      s.begins.map some = s.rows.map Prod.fst

namespace BracketOk

variable {s s' : LaunchState T V}

/- Threads that are not idle are one thread. -/
theorem eq_of_not_idle
    (hOk : BracketOk s)
    {t u : T}
    (hT : s.phase t ≠ .idle)
    (hU : s.phase u ≠ .idle) :
    t = u := by
  have hMutexT := (hOk.holder t).mpr hT
  have hMutexU := (hOk.holder u).mpr hU
  rw [hMutexT] at hMutexU
  exact Option.some.inj hMutexU

/- Beside a thread in a call every thread is idle. -/
theorem idle_of_ne
    (hOk : BracketOk s)
    {t : T}
    (hT : s.phase t ≠ .idle) :
    ∀ u, u ≠ t → s.phase u = .idle := by
  intro u hU
  by_contra hBusy
  exact hU (hOk.eq_of_not_idle hBusy hT)

/- The invariant gives the brackets. -/
theorem bracketed (hOk : BracketOk s) : Bracketed s where
  unlocks := hOk.unlocks
  single := by
    intro t u b c hT hU
    apply hOk.eq_of_not_idle
    · rw [hT]
      simp
    · rw [hU]
      simp
  numbers := hOk.numbers
  rows := by
    by_cases hSome : ∃ t b, s.IsOpen t b
    · rcases hSome with ⟨t, b, hOpen⟩
      exact Or.inl ⟨t, b, hOpen, (hOk.opened t b hOpen).2⟩
    · have hNone : ∀ t b, ¬ s.IsOpen t b :=
        fun t b hOpen => hSome ⟨t, b, hOpen⟩
      exact Or.inr ⟨hNone, hOk.closed hNone⟩
  carried := hOk.carried

end BracketOk

variable [DecidableEq T] {ops : FloatOps V}
variable {s s' : LaunchState T V}

/- A lock is taken when every thread is idle. -/
theorem BracketOk.lock
    (hOk : BracketOk s)
    {t : T}
    (hIdle : s.phase t = .idle)
    (hFree : s.mutex = none) :
    BracketOk
      ({ s with mutex := some t }.setPhase t .locked) := by
  have hAllIdle : ∀ u, s.phase u = .idle := by
    intro u
    by_contra hBusy
    have hHeld := (hOk.holder u).mpr hBusy
    rw [hFree] at hHeld
    cases hHeld
  have hPhase :
      ∀ u b, Function.update s.phase t .locked u ≠
        .returned b := by
    intro u b hReturned
    by_cases hU : u = t
    · subst hU
      rw [Function.update_self] at hReturned
      cases hReturned
    · rw [Function.update_of_ne hU, hAllIdle u] at hReturned
      cases hReturned
  have hClosed :=
    hOk.closed (fun u b hOpen => by
      have hBusy := hOpen.symm.trans (hAllIdle u)
      cases hBusy)
  exact
    { holder := by
        intro u
        by_cases hU : u = t
        · simp [LaunchState.setPhase, hU]
        · simp [LaunchState.setPhase, hU, hAllIdle u,
            Ne.symm hU]
      succeeded := fun u => hPhase u none
      unlocks := hOk.unlocks
      numbers := hOk.numbers
      fresh := hOk.fresh
      carried := hOk.carried
      opened := fun u b hOpen => absurd hOpen (hPhase u b)
      closed := fun _ => hClosed }

/- A begin whose calls succeed opens its launch. -/
theorem BracketOk.begin
    (hOk : BracketOk s)
    {t : T}
    (hLocked : s.phase t = .locked)
    {state : CuptiState V}
    {launch : LaunchContext}
    (hOpen :
      OpenFor state { number := s.count, launch := launch }) :
    BracketOk
      ({ s with
         state := state
         count := s.count + 1
         begins :=
           s.begins ++
             [(⟨s.count, launch⟩ : Begin)] }.setPhase
        t (.returned
          (some { number := s.count, launch := launch }))) := by
  have hOthers :=
    hOk.idle_of_ne (show s.phase t ≠ .idle by simp [hLocked])
  have hClosed :
      s.begins.map some = s.rows.map Prod.fst := by
    apply hOk.closed
    intro u b hReturned
    by_cases hU : u = t
    · subst hU
      have hBoth := hReturned.symm.trans hLocked
      cases hBoth
    · have hBoth := hReturned.symm.trans (hOthers u hU)
      cases hBoth
  exact
    { holder := by
        intro u
        by_cases hU : u = t
        · have hHeld := (hOk.holder t).mpr (by simp [hLocked])
          simp [LaunchState.setPhase, hU, hHeld]
        · have hHeld := hOk.holder u
          simp [LaunchState.setPhase, hU, hHeld]
      succeeded := by
        intro u
        by_cases hU : u = t
        · simp [LaunchState.setPhase, hU]
        · simp [LaunchState.setPhase, hU, hOthers u hU]
      unlocks := hOk.unlocks
      numbers := by
        simp only [LaunchState.setPhase, List.map_append,
          List.map_cons, List.map_nil]
        refine List.nodup_append.mpr
          ⟨hOk.numbers, by simp, ?_⟩
        intro n hN m hM hSame
        rcases List.mem_map.mp hN with ⟨b, hB, hNumber⟩
        have hLess := hOk.fresh b hB
        rw [List.mem_singleton] at hM
        omega
      fresh := by
        intro b hB
        rcases List.mem_append.mp hB with hOld | hNew
        · exact Nat.lt_succ_of_lt (hOk.fresh b hOld)
        · rw [List.mem_singleton.mp hNew]
          exact Nat.lt_succ_self _
      carried := hOk.carried
      opened := by
        intro u b hReturned
        by_cases hU : u = t
        · subst hU
          simp only [LaunchState.IsOpen, LaunchState.setPhase,
            Function.update_self, CallPhase.returned.injEq,
            Option.some.injEq] at hReturned
          subst hReturned
          refine ⟨hOpen, ?_⟩
          simp [LaunchState.setPhase, hClosed]
        · simp [LaunchState.IsOpen, LaunchState.setPhase, hU,
            hOthers u hU] at hReturned
      closed := by
        intro hNone
        refine absurd ?_
          (hNone t { number := s.count, launch := launch })
        simp [LaunchState.IsOpen, LaunchState.setPhase] }

/- The end of an open launch writes its row and unlocks. -/
theorem BracketOk.finish
    (hOk : BracketOk s)
    {t : T}
    {b : Begin}
    (hOpen : s.IsOpen t b)
    (calls : EndCalls V) :
    BracketOk
      (({ s with
          state := (endLaunch ops s.state calls).1
          rows :=
            s.rows ++
              (endLaunch ops s.state calls).2.toList.map
                (fun row => (some b, row)) }.unlock t).setPhase
        t .idle) := by
  rcases hOk.opened t b hOpen with ⟨hState, hBegins⟩
  rcases endLaunch_spec ops hState calls with
    ⟨row, hRow, hLaunch, hSources⟩
  have hBusy : s.phase t ≠ .idle := by
    rw [hOpen]
    simp
  have hHeld := (hOk.holder t).mpr hBusy
  have hOthers := hOk.idle_of_ne hBusy
  have hPhase :
      ∀ u, Function.update s.phase t .idle u = .idle := by
    intro u
    by_cases hU : u = t
    · simp [hU]
    · simp [hU, hOthers u hU]
  exact
    { holder := by
        intro u
        simp [LaunchState.setPhase, LaunchState.unlock,
          hPhase u]
      succeeded := by
        intro u
        simp [LaunchState.setPhase, LaunchState.unlock,
          hPhase u]
      unlocks := by
        intro entry hMem
        rcases List.mem_append.mp hMem with hOld | hNew
        · exact hOk.unlocks entry hOld
        · rw [List.mem_singleton.mp hNew]
          exact hHeld
      numbers := hOk.numbers
      fresh := hOk.fresh
      carried := by
        intro entry hMem
        rcases List.mem_append.mp hMem with hOld | hNew
        · exact hOk.carried entry hOld
        · rw [hRow] at hNew
          rw [List.mem_singleton.mp hNew]
          exact ⟨b, rfl, hLaunch, hSources⟩
      opened := by
        intro u c hReturned
        simp [LaunchState.IsOpen, LaunchState.setPhase,
          LaunchState.unlock, hPhase u] at hReturned
      closed := by
        intro _
        simp [LaunchState.setPhase, LaunchState.unlock, hRow,
          hBegins] }

/- Runs in which all begins succeed keep the invariant. -/
theorem bracketOk_of_reach
    (hReach : (launchMachine T ops).Reach CallsOk s) :
    BracketOk s := by
  apply hReach.invariant BracketOk
  · intro s hInit
    rw [hInit]
    exact
      { holder := by simp
        succeeded := by simp
        unlocks := by simp
        numbers := by simp
        fresh := by simp
        carried := by simp
        opened := by simp [LaunchState.IsOpen]
        closed := by simp }
  · intro s a s' hOk hCalls hStep
    cases a with
    | lock t =>
        simp only [launchMachine, LaunchState.step,
          Option.ite_none_right_eq_some, Option.some.injEq]
          at hStep
        rcases hStep with ⟨⟨hIdle, hFree⟩, hNext⟩
        rw [← hNext]
        exact hOk.lock hIdle hFree
    | begin t context calls =>
        simp only [launchMachine, LaunchState.step,
          Option.ite_none_right_eq_some] at hStep
        rcases hStep with ⟨hLocked, hBody⟩
        rcases beginLaunch_spec ops s.state context
            s.count calls with
          ⟨hReturns, hOpen, _⟩
        have hTrue := hReturns.mpr hCalls
        rw [if_pos hTrue, Option.some.injEq] at hBody
        rw [← hBody]
        exact hOk.begin hLocked (hOpen hTrue)
    | finish t calls =>
        simp only [launchMachine, LaunchState.step] at hStep
        split at hStep
        · next begun hReturned =>
            cases hStep
            cases begun with
            | none =>
                exact absurd hReturned (hOk.succeeded t)
            | some b =>
                exact hOk.finish hReturned calls
        · cases hStep

/- A begin whose calls do not all succeed has unlocked. -/
theorem step_begin_of_failed
    (ops : FloatOps V)
    {t : T}
    (hLocked : s.phase t = .locked)
    (context : Option LaunchContext)
    {calls : BeginCalls}
    (hFails : ¬ CallsSucceed s.state calls) :
    ∃ s', (launchMachine T ops).step s
        (.begin t context calls) = some s' ∧
      s'.phase t = .returned none ∧ s'.mutex = none := by
  rcases beginLaunch_spec ops s.state context
      s.count calls with
    ⟨hReturns, _, _⟩
  have hFalse := mt hReturns.mp hFails
  simp only [launchMachine, LaunchState.step, hLocked, if_true,
    if_neg hFalse, Option.some.injEq, exists_eq_left']
  exact ⟨Function.update_self _ _ _, rfl⟩

/- An end without the mutex unlocks all the same. -/
theorem step_finish_of_free
    (ops : FloatOps V)
    {t : T}
    {begun : Option Begin}
    (hReturned : s.phase t = .returned begun)
    (hFree : s.mutex = none)
    (calls : EndCalls V) :
    ∃ s', (launchMachine T ops).step s (.finish t calls) =
        some s' ∧
      (t, none) ∈ s'.unlocks := by
  simp only [launchMachine, LaunchState.step, hReturned,
    Option.some.injEq, exists_eq_left']
  apply List.mem_append_right
  rw [hFree]
  exact List.mem_singleton_self _

/-
  In runs in which every begin's calls succeed, launches are
  bracketed; the first begin with a failing call breaks the
  brackets at its end.
-/
theorem launches_bracketed
    (T V : Type) [DecidableEq T]
    (ops : FloatOps V)
    (s : LaunchState T V)
    (hReach : (launchMachine T ops).Reach CallsOk s) :
    Bracketed s ∧
      ∀ t context calls endCalls,
        s.phase t = .locked →
        ¬ CallsSucceed s.state calls →
          ∃ s', (launchMachine T ops).run s
              [.begin t context calls, .finish t endCalls] =
                some s' ∧
            ¬ Bracketed s' := by
  refine ⟨(bracketOk_of_reach hReach).bracketed, ?_⟩
  intro t context calls endCalls hLocked hFails
  rcases step_begin_of_failed ops hLocked context hFails with
    ⟨failed, hBegin, hReturned, hFree⟩
  rcases step_finish_of_free ops hReturned hFree endCalls with
    ⟨ended, hFinish, hUnlock⟩
  refine ⟨ended, ?_, ?_⟩
  · simp [Machine.run, Machine.runWhile, hBegin, hFinish]
  · intro hBracketed
    cases hBracketed.unlocks _ hUnlock

end Threads

/- Whole numbers for doubles: sums of small counters. -/
def wholeOps : FloatOps Nat where
  zero := 0
  add := fun a b => a + b
  divCount := fun a n => a / n
  nanoseconds := fun a => a / 1000000000
  perSecond := fun a b => a / b
  positive := fun a => 0 < a

/- A context that samples one metric. -/
def readMetric : ContextMetrics where
  device := 0
  requested := ["dram__bytes_read.sum".toList]
  supported := ["dram__bytes_read.sum".toList]
  unsupported := fun _ => none

/- All calls of a begin succeed. -/
def goodBegin : BeginCalls where
  current := some 1
  csvOpens := true
  rank := 0
  setup := some readMetric
  counterData := true
  streamSync := true
  eventRecord := true
  pmStart := true

/- An end that reads two samples. -/
def twoSamples : EndCalls Nat where
  eventRecord := true
  eventSync := true
  elapsed := none
  pmStop := true
  decode :=
    { decodeStatus := 0
      overflow := false
      infoStatus := 0
      totalSamples := 2
      populatedSamples := 2
      completedSamples := 2
      evaluate := fun sample _ => .ok (sample + 3) }
  launchResult := 0

/- Two threads launch one after the other. -/
def twoLaunches : List (LaunchAction Nat Nat) :=
  [.lock 0, .begin 0 (some { launchIndex := 7 }) goodBegin,
    .finish 0 twoSamples,
    .lock 1, .begin 1 (some { launchIndex := 8 }) goodBegin,
    .finish 1 twoSamples]

/- No thread has called yet. -/
def LaunchState.start : LaunchState Nat Nat where
  mutex := none
  phase := fun _ => .idle
  state := CuptiState.start wholeOps
  count := 0
  rows := []
  unlocks := []
  begins := []

/- Their launches are bracketed and write two rows. -/
theorem launches_bracketed_twoLaunches :
    ∃ s, (launchMachine Nat wholeOps).Reach CallsOk s ∧
      s.rows.map (fun entry => entry.2.launch.launchIndex) =
        [7, 8] ∧
      Bracketed s := by
  have hRun :
      ((launchMachine Nat wholeOps).runWhile
        (fun s a =>
          match a with
          | .begin _ context calls =>
              (beginLaunch wholeOps s.state context s.count
                calls).2
          | .lock _ | .finish _ _ => true)
        LaunchState.start twoLaunches).any
        (fun s =>
          s.rows.map
              (fun entry => entry.2.launch.launchIndex) ==
            [7, 8]) = true := by
    decide +kernel
  rcases (Option.any_eq_true _ _).mp hRun with
    ⟨s, hSome, hRows⟩
  have hReach :
      (launchMachine Nat wholeOps).Reach CallsOk s := by
    refine Machine.reach_of_runWhile ?_
      (Machine.Reach.init rfl) hSome
    intro s a hCheck
    cases a with
    | lock t => trivial
    | begin t context calls =>
        exact (beginLaunch_spec wholeOps s.state context
          s.count calls).1.mp hCheck
    | finish t calls => trivial
  exact ⟨s, hReach, eq_of_beq hRows,
    (launches_bracketed Nat Nat wholeOps s hReach).1⟩

/- A begin without a context fails and unlocks. -/
def failedLaunch : List (LaunchAction Nat Nat) :=
  [.lock 0, .begin 0 none { goodBegin with current := none },
    .finish 0 twoSamples]

/- Its end unlocks a mutex that nobody holds. -/
theorem not_launches_bracketed :
    ¬ ∀ (T V : Type) [DecidableEq T] (ops : FloatOps V)
        (s : LaunchState T V),
      (launchMachine T ops).Reachable s → Bracketed s := by
  intro hAll
  have hRun :
      ((launchMachine Nat wholeOps).run LaunchState.start
        failedLaunch).any
        (fun s => s.unlocks.contains (0, none)) = true := by
    decide +kernel
  rcases (Option.any_eq_true _ _).mp hRun with
    ⟨s, hSome, hUnlock⟩
  have hReach :=
    Machine.reachable_of_run (Machine.Reach.init rfl) hSome
  have hMem := List.contains_iff_mem.mp hUnlock
  cases (hAll Nat Nat wholeOps s hReach).unlocks _ hMem

end Runtime

end FabricPerf
