import FabricPerf.Runtime.Launches
import Mathlib.Data.List.Nodup

/-
  What `setup_context_locked` makes of the requested metrics:
  the ones CUPTI can sample in one pass, and a status for
  each of the others.

  The results of the CUPTI calls are inputs.  A configuration
  image is built from a list of metrics and nothing else, so
  the builder is a function.  The metrics requested by the
  plugin are those of `default_pm_metrics`; the code works
  with any list, and so does the model.

  Main declarations:
    * `Runtime.contextMetrics`
    * `Runtime.Divides`
    * `Runtime.divides_contextMetrics`
    * `Runtime.singlePass_contextMetrics`
-/

------------------------------------------------------------
-- The Calls Of A Setup
------------------------------------------------------------

namespace FabricPerf

namespace Runtime

/- `default_pm_metrics`. -/
def defaultPmMetrics : List Text :=
  ["nvlrx__bytes.sum".toList, "nvltx__bytes.sum".toList,
    "gpu__time_duration.sum".toList]

/- `CUPTI_ERROR_NOT_SUPPORTED`. -/
def cuptiErrorNotSupported : Nat := 27

/- What the calls of one `setup_context_locked` return. -/
structure SetupCalls where
  -- `initialize_profiler_once_locked`.
  profilerInitialized : Bool
  -- `cuCtxGetDevice`.
  device : Option Nat
  -- `cuptiDeviceGetChipName`.
  chipName : Bool
  -- The size and the image of the counter availability.
  availabilitySize : Nat
  availabilityImage : Nat
  -- `metric_config_status_locked`.
  configStatus : Text → Nat
  -- `build_config_image_locked`: the passes, if it succeeds.
  buildConfigImage : List Text → Option Nat
  -- `cuptiPmSamplingEnable`.
  enable : Bool
  -- Both `cuEventCreate`.
  eventCreate : Bool

/- `supported_metrics` and `unsupported_metrics`. -/
structure MetricLists where
  supported : List Text
  unsupported : Text → Option Nat

namespace MetricLists

/- Both lists after `teardown_context_locked`. -/
def empty : MetricLists where
  supported := []
  unsupported := fun _ => none

/- `state.unsupported_metrics[metric] = status`. -/
def reject
    (lists : MetricLists)
    (metric : Text)
    (status : Nat) : MetricLists :=
  { lists with
    unsupported :=
      Function.update lists.unsupported metric
        (some status) }

end MetricLists

/- `add_unique`. -/
def addUnique (values : List Text) (value : Text) :
    List Text :=
  if value.isEmpty then
    values
  else if values.contains value then
    values
  else
    values ++ [value]

/- One turn of the loop over the requested metrics. -/
def classifyMetric
    (calls : SetupCalls)
    (lists : MetricLists)
    (metric : Text) : MetricLists :=
  let status := calls.configStatus metric
  if status = 0 then
    { lists with
      supported := addUnique lists.supported metric }
  else
    lists.reject metric status

/- One turn of the selection of single-pass metrics. -/
def selectMetric
    (calls : SetupCalls)
    (lists : MetricLists)
    (metric : Text) : MetricLists :=
  let candidate := lists.supported ++ [metric]
  if calls.buildConfigImage candidate = some 1 then
    { lists with supported := candidate }
  else
    lists.reject metric cuptiErrorNotSupported

/- The selection, from no metrics on. -/
def selectSinglePass
    (calls : SetupCalls)
    (lists : MetricLists) : MetricLists :=
  lists.supported.foldl (selectMetric calls)
    { lists with supported := [] }

/- `create_config_image_locked`; `none` where it fails. -/
def createConfigImage
    (calls : SetupCalls)
    (lists : MetricLists) : Option MetricLists :=
  if lists.supported = [] then
    some lists
  else
    match calls.buildConfigImage lists.supported with
    | none => none
    | some passes =>
        if 1 < passes then
          let selected := selectSinglePass calls lists
          if selected.supported = [] then
            some selected
          else
            (calls.buildConfigImage selected.supported).map
              (fun _ => selected)
        else
          some lists

/- `mark_requested_metrics_unavailable_locked`. -/
def markUnavailable
    (requested : List Text)
    (status : Nat) : MetricLists :=
  requested.foldl (fun lists metric => lists.reject metric status)
    MetricLists.empty

/- The lists of a setup up to the label `create_events`. -/
def setupLists
    (requested : List Text)
    (calls : SetupCalls) : Option MetricLists :=
  if calls.availabilitySize ≠ 0 then
    some (markUnavailable requested calls.availabilitySize)
  else if calls.availabilityImage ≠ 0 then
    some (markUnavailable requested calls.availabilityImage)
  else
    match createConfigImage calls
        (requested.foldl (classifyMetric calls)
          MetricLists.empty) with
    | none => none
    | some lists =>
        if lists.supported ≠ [] ∧ calls.enable = false then
          none
        else
          some lists

/- `setup_context_locked` after its teardown. -/
def contextMetrics
    (requested : List Text)
    (calls : SetupCalls) : Option ContextMetrics :=
  if calls.profilerInitialized = false then
    none
  else
    match calls.device with
    | none => none
    | some device =>
        if calls.chipName = false then
          none
        else
          match setupLists requested calls with
          | none => none
          | some lists =>
              if calls.eventCreate then
                some
                  { device := device
                    requested := requested
                    supported := lists.supported
                    unsupported := lists.unsupported }
              else
                none

------------------------------------------------------------
-- The Partition
------------------------------------------------------------

/-
  The supported metrics and the ones with a status divide the
  given metrics among them.
-/
structure Divides
    (metrics supported : List Text)
    (unsupported : Text → Option Nat) : Prop where
  nodup : supported.Nodup
  subset : supported ⊆ metrics
  rest :
    ∀ metric,
      (unsupported metric).isSome = true ↔
        metric ∈ metrics ∧ metric ∉ supported

/- No metrics are divided by the empty lists. -/
theorem divides_empty :
    Divides [] MetricLists.empty.supported
      MetricLists.empty.unsupported where
  nodup := List.nodup_nil
  subset := fun _ hMem => hMem
  rest := by
    intro metric
    simp [MetricLists.empty]

/- A rejected metric joins the ones with a status. -/
theorem divides_reject
    {metrics : List Text}
    {lists : MetricLists}
    {metric : Text}
    (hDivides :
      Divides metrics lists.supported lists.unsupported)
    (hNew : metric ∉ metrics)
    (status : Nat) :
    Divides (metrics ++ [metric])
      (lists.reject metric status).supported
      (lists.reject metric status).unsupported where
  nodup := hDivides.nodup
  subset := fun _ hMem =>
    List.mem_append_left _ (hDivides.subset hMem)
  rest := by
    intro other
    have hOut : metric ∉ lists.supported :=
      fun hMem => hNew (hDivides.subset hMem)
    by_cases hSame : other = metric
    · subst hSame
      simp [MetricLists.reject, hOut]
    · have hRest := hDivides.rest other
      simp [MetricLists.reject, hSame, hRest]

/- An added metric joins the supported ones. -/
theorem divides_addUnique
    {metrics : List Text}
    {lists : MetricLists}
    {metric : Text}
    (hDivides :
      Divides metrics lists.supported lists.unsupported)
    (hNew : metric ∉ metrics)
    (hNamed : metric ≠ []) :
    Divides (metrics ++ [metric])
      (addUnique lists.supported metric)
      lists.unsupported := by
  have hOut : metric ∉ lists.supported :=
    fun hMem => hNew (hDivides.subset hMem)
  have hAdded :
      addUnique lists.supported metric =
        lists.supported ++ [metric] := by
    unfold addUnique
    rw [if_neg (by simpa using hNamed),
      if_neg (by simpa using hOut)]
  rw [hAdded]
  constructor
  · rw [List.nodup_append]
    refine ⟨hDivides.nodup, List.nodup_singleton metric, ?_⟩
    intro own hOwn other hOther hSame
    rw [List.mem_singleton.mp hOther] at hSame
    rw [hSame] at hOwn
    exact hOut hOwn
  · intro own hMem
    rcases List.mem_append.mp hMem with hOld | hLast
    · exact List.mem_append_left _ (hDivides.subset hOld)
    · exact List.mem_append_right _ hLast
  · intro other
    have hRest := hDivides.rest other
    by_cases hSame : other = metric
    · subst hSame
      simp [hRest, hNew]
    · simp [hRest, hSame]

/- Classifying one more metric keeps the division. -/
theorem divides_classifyMetric
    {metrics : List Text}
    {lists : MetricLists}
    {metric : Text}
    (calls : SetupCalls)
    (hDivides :
      Divides metrics lists.supported lists.unsupported)
    (hNew : metric ∉ metrics)
    (hNamed : metric ≠ []) :
    Divides (metrics ++ [metric])
      (classifyMetric calls lists metric).supported
      (classifyMetric calls lists metric).unsupported := by
  simp only [classifyMetric]
  split
  · exact divides_addUnique hDivides hNew hNamed
  · exact divides_reject hDivides hNew _

/-
  A loop that divides one more metric each turn divides all
  metrics, if these are distinct.
-/
theorem divides_foldl
    {step : MetricLists → Text → MetricLists}
    {todo : List Text}
    (hStep :
      ∀ metrics lists, ∀ metric ∈ todo,
        Divides metrics lists.supported lists.unsupported →
        metric ∉ metrics →
        Divides (metrics ++ [metric])
          (step lists metric).supported
          (step lists metric).unsupported)
    {metrics : List Text}
    {lists : MetricLists}
    (hDistinct : (metrics ++ todo).Nodup)
    (hDivides :
      Divides metrics lists.supported lists.unsupported) :
    Divides (metrics ++ todo)
      (todo.foldl step lists).supported
      (todo.foldl step lists).unsupported := by
  induction todo generalizing metrics lists with
  | nil =>
      rw [List.append_nil]
      exact hDivides
  | cons metric rest ih =>
      have hSplit :
          metrics ++ metric :: rest =
            (metrics ++ [metric]) ++ rest := by
        simp
      have hNew : metric ∉ metrics := by
        intro hMem
        have hApart := (List.nodup_append.mp hDistinct).2.2
        exact hApart metric hMem metric List.mem_cons_self rfl
      rw [hSplit] at hDistinct ⊢
      rw [List.foldl_cons]
      apply ih
      · intro done own other hMem
        exact
          hStep done own other (List.mem_cons_of_mem _ hMem)
      · exact hDistinct
      · exact
          hStep metrics lists metric List.mem_cons_self
            hDivides hNew

/- Rejecting metrics supports none of them. -/
theorem supported_markUnavailable
    (requested : List Text)
    (status : Nat) :
    (markUnavailable requested status).supported = [] := by
  have hFold (lists : MetricLists) :
      (requested.foldl
        (fun lists metric => lists.reject metric status)
        lists).supported = lists.supported := by
    induction requested generalizing lists with
    | nil => rfl
    | cons metric rest ih =>
        rw [List.foldl_cons, ih]
        rfl
  exact hFold MetricLists.empty

/- Without counters every metric has the status. -/
theorem divides_markUnavailable
    {requested : List Text}
    (hDistinct : requested.Nodup)
    (status : Nat) :
    Divides requested
      (markUnavailable requested status).supported
      (markUnavailable requested status).unsupported := by
  have hAll : ([] ++ requested).Nodup := hDistinct
  apply divides_foldl _ hAll divides_empty
  intro metrics lists metric _ hDivides hNew
  exact divides_reject hDivides hNew status

/- The first loop divides the requested metrics. -/
theorem divides_classify
    {requested : List Text}
    (hDistinct : requested.Nodup)
    (hNamed : [] ∉ requested)
    (calls : SetupCalls) :
    Divides requested
      (requested.foldl (classifyMetric calls)
        MetricLists.empty).supported
      (requested.foldl (classifyMetric calls)
        MetricLists.empty).unsupported := by
  have hAll : ([] ++ requested).Nodup := hDistinct
  apply divides_foldl _ hAll divides_empty
  intro metrics lists metric hMem hDivides hNew
  apply divides_classifyMetric calls hDivides hNew
  intro hEmpty
  rw [hEmpty] at hMem
  exact hNamed hMem

------------------------------------------------------------
-- Single Passes
------------------------------------------------------------

/-
  The selection keeps the division: a metric leaves the
  supported ones when it gets its status.
-/
theorem divides_select
    {metrics todo : List Text}
    {lists : MetricLists}
    (calls : SetupCalls)
    (hDivides :
      Divides metrics (lists.supported ++ todo)
        lists.unsupported) :
    Divides metrics
      (todo.foldl (selectMetric calls) lists).supported
      (todo.foldl (selectMetric calls) lists).unsupported := by
  induction todo generalizing lists with
  | nil =>
      rw [List.append_nil] at hDivides
      exact hDivides
  | cons metric rest ih =>
      rw [List.foldl_cons]
      apply ih
      simp only [selectMetric]
      split
      · rw [List.append_assoc]
        exact hDivides
      · have hParts := List.nodup_append.mp hDivides.nodup
        have hRest := List.nodup_cons.mp hParts.2.1
        have hOut : metric ∉ lists.supported := by
          intro hMem
          exact
            hParts.2.2 metric hMem metric List.mem_cons_self rfl
        have hMember : metric ∈ metrics :=
          hDivides.subset (by simp)
        constructor
        · exact
            hDivides.nodup.sublist
              ((List.sublist_cons_self metric rest).append_left
                lists.supported)
        · intro own hMem
          apply hDivides.subset
          rcases List.mem_append.mp hMem with hOld | hLater
          · exact List.mem_append_left _ hOld
          · exact
              List.mem_append_right _
                (List.mem_cons_of_mem _ hLater)
        · intro other
          by_cases hSame : other = metric
          · subst hSame
            simp [MetricLists.reject, hOut, hRest.1, hMember]
          · have hOther := hDivides.rest other
            simp only [List.mem_append, List.mem_cons, hSame,
              false_or] at hOther
            simp [MetricLists.reject, hSame, hOther]

/- What is selected needs one pass. -/
theorem buildConfigImage_select
    {todo : List Text}
    {lists : MetricLists}
    (calls : SetupCalls)
    (hOne :
      lists.supported = [] ∨
        calls.buildConfigImage lists.supported = some 1) :
    (todo.foldl (selectMetric calls) lists).supported = [] ∨
      calls.buildConfigImage
          (todo.foldl (selectMetric calls) lists).supported =
        some 1 := by
  induction todo generalizing lists with
  | nil => exact hOne
  | cons metric rest ih =>
      rw [List.foldl_cons]
      apply ih
      simp only [selectMetric]
      split
      case isTrue hBuilt => exact Or.inr hBuilt
      case isFalse => exact hOne

/- The selection from no metrics on. -/
theorem selectSinglePass_spec
    {metrics : List Text}
    {lists : MetricLists}
    (calls : SetupCalls)
    (hDivides :
      Divides metrics lists.supported lists.unsupported) :
    Divides metrics (selectSinglePass calls lists).supported
        (selectSinglePass calls lists).unsupported ∧
      ((selectSinglePass calls lists).supported = [] ∨
        calls.buildConfigImage
            (selectSinglePass calls lists).supported =
          some 1) := by
  have hStart :
      Divides metrics ([] ++ lists.supported)
        lists.unsupported := hDivides
  exact ⟨divides_select calls hStart,
    buildConfigImage_select calls (Or.inl rfl)⟩

/-
  A created configuration divides the metrics it was given
  and needs at most one pass.
-/
theorem createConfigImage_spec
    {metrics : List Text}
    {lists next : MetricLists}
    {calls : SetupCalls}
    (hDivides :
      Divides metrics lists.supported lists.unsupported)
    (hCreate : createConfigImage calls lists = some next) :
    Divides metrics next.supported next.unsupported ∧
      (next.supported ≠ [] →
        ∃ passes ≤ 1,
          calls.buildConfigImage next.supported =
            some passes) := by
  unfold createConfigImage at hCreate
  split at hCreate
  case isTrue hNone =>
      rw [← Option.some.inj hCreate]
      exact ⟨hDivides, fun hSome => absurd hNone hSome⟩
  case isFalse hSome =>
      cases hBuild :
          calls.buildConfigImage lists.supported with
      | none =>
          rw [hBuild] at hCreate
          cases hCreate
      | some passes =>
          rcases selectSinglePass_spec calls hDivides with
            ⟨hSelected, hOne⟩
          simp only [hBuild] at hCreate
          split at hCreate
          case isFalse hFew =>
              rw [← Option.some.inj hCreate]
              exact ⟨hDivides, fun _ =>
                ⟨passes, by omega, hBuild⟩⟩
          case isTrue =>
              split at hCreate
              case isTrue hEmpty =>
                  rw [← Option.some.inj hCreate]
                  exact ⟨hSelected, fun hNe =>
                    absurd hEmpty hNe⟩
              case isFalse hNe =>
                  rcases Option.map_eq_some_iff.mp hCreate with
                    ⟨_, _, hNext⟩
                  rw [← hNext]
                  exact ⟨hSelected, fun _ =>
                    ⟨1, Nat.le_refl 1,
                      hOne.resolve_left hNe⟩⟩

/- The lists of a successful setup. -/
theorem setupLists_spec
    {requested : List Text}
    (hDistinct : requested.Nodup)
    (hNamed : [] ∉ requested)
    {calls : SetupCalls}
    {lists : MetricLists}
    (hSetup : setupLists requested calls = some lists) :
    Divides requested lists.supported lists.unsupported ∧
      (lists.supported ≠ [] →
        ∃ passes ≤ 1,
          calls.buildConfigImage lists.supported =
            some passes) := by
  unfold setupLists at hSetup
  split at hSetup
  case isTrue =>
      rw [← Option.some.inj hSetup]
      exact ⟨divides_markUnavailable hDistinct _,
        fun hNe =>
          absurd (supported_markUnavailable requested _) hNe⟩
  case isFalse =>
      split at hSetup
      case isTrue =>
          rw [← Option.some.inj hSetup]
          exact ⟨divides_markUnavailable hDistinct _,
            fun hNe =>
          absurd (supported_markUnavailable requested _) hNe⟩
      case isFalse =>
          cases hCreate : createConfigImage calls
              (requested.foldl (classifyMetric calls)
                MetricLists.empty) with
          | none =>
              rw [hCreate] at hSetup
              cases hSetup
          | some created =>
              rw [hCreate] at hSetup
              simp only at hSetup
              split at hSetup
              · cases hSetup
              · rw [← Option.some.inj hSetup]
                exact
                  createConfigImage_spec
                    (divides_classify hDistinct hNamed calls)
                    hCreate

/-
  What a successful setup offers: the requested metrics are
  divided, and the supported ones need at most one pass.
-/
theorem contextMetrics_spec
    {requested : List Text}
    (hDistinct : requested.Nodup)
    (hNamed : [] ∉ requested)
    {calls : SetupCalls}
    {metrics : ContextMetrics}
    (hSetup : contextMetrics requested calls = some metrics) :
    metrics.requested = requested ∧
      Divides requested metrics.supported
        metrics.unsupported ∧
      (metrics.supported ≠ [] →
        ∃ passes ≤ 1,
          calls.buildConfigImage metrics.supported =
            some passes) := by
  unfold contextMetrics at hSetup
  split at hSetup
  · cases hSetup
  · split at hSetup
    · cases hSetup
    · split at hSetup
      · cases hSetup
      · split at hSetup
        · cases hSetup
        · next lists hLists =>
          split at hSetup
          · rw [← Option.some.inj hSetup]
            exact ⟨rfl,
              setupLists_spec hDistinct hNamed hLists⟩
          · cases hSetup

end Runtime

end FabricPerf
