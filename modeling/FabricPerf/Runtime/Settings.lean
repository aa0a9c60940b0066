import FabricPerf.Lib.CNumber
import FabricPerf.Lib.KeyValues
import FabricPerf.Lib.Scanner

/-
  Numeric settings of the plugins: the CUPTI options of
  `memory.cc`, read from `FABRICPERF_CUPTI_DEV_OPTIONS`, and
  the integers `latency.c` and `throughput.c` read from the
  environment.

  An environment text is a list of characters without the
  terminating zero.  The order in which an `unordered_map` is
  visited is any permutation of its entries.

  Main declarations:
    * `Settings.parseKeyValueList`
    * `Settings.configureDevOptions`
    * `Settings.selectedEnvInt`
    * `Settings.notNarrowed_iff`
-/

------------------------------------------------------------
-- Options Of The Form key=value
------------------------------------------------------------

namespace FabricPerf

namespace Settings

/- The characters `trim` removes. -/
def isBlank (c : Char) : Bool :=
  c = ' ' || c = '\t' || c = '\r' || c = '\n'

/- `trim` -/
def trim (value : Text) : Text :=
  ((value.dropWhile isBlank).reverse.dropWhile
    isBlank).reverse

/- The key and the value of a token, around its first `=`. -/
def keyValue (token : Text) : Text × Text :=
  let halves := KeyValues.entry '=' token
  (trim halves.1, trim halves.2)

/- Enter the token collected up to a comma or the end. -/
def addToken (result : Dict Text Text) (current : Text) :
    Dict Text Text :=
  let token := trim current
  if List.contains token '=' then
    result.set (keyValue token).1 (keyValue token).2
  else
    result

/- The loop of `parse_key_value_list` over the characters. -/
def scanOptions (current : Text) (result : Dict Text Text) :
    Text → Dict Text Text
| [] => addToken result current
| c :: rest =>
    if c = ',' then
      scanOptions [] (addToken result current) rest
    else
      scanOptions (current ++ [c]) result rest

/- `parse_key_value_list` -/
def parseKeyValueList : Option Text → Dict Text Text
| none => Dict.empty
| some raw =>
    if raw.isEmpty then
      Dict.empty
    else
      scanOptions [] Dict.empty raw

/- The keys and values written in a text, in its order. -/
def writtenOptions (raw : Option Text) : List (Text × Text) :=
  ((((raw.getD []).splitOn ',').map trim).filter
    (fun token => List.contains token '=')).map keyValue

/- The values written for one key, in the order of the text. -/
def writtenFor (raw : Option Text) (key : Text) : List Text :=
  ((writtenOptions raw).filter (fun e => e.1 = key)).map
    Prod.snd

/- The tokens of the loop are the parts between commas. -/
theorem scanOptions_eq
    (text current : Text)
    (result : Dict Text Text) :
    scanOptions current result text =
      ((text.splitOn ',').modifyHead (current ++ ·)).foldl
        addToken result := by
  induction text generalizing current result with
  | nil => simp [scanOptions]
  | cons c rest ih =>
      rw [scanOptions, List.splitOn_cons_eq_if_modifyHead]
      by_cases hComma : c = ','
      · subst hComma
        rw [if_pos rfl, if_pos (by rfl), ih]
        cases hParts : rest.splitOn ',' with
        | nil =>
            exact absurd hParts (List.splitOn_ne_nil ',' rest)
        | cons first more => simp
      · rw [if_neg hComma, if_neg (by simpa using hComma), ih]
        cases hParts : rest.splitOn ',' with
        | nil =>
            exact absurd hParts (List.splitOn_ne_nil ',' rest)
        | cons first more => simp

/- Entering the tokens is assigning what they write. -/
theorem foldl_addToken
    (parts : List Text)
    (result : Dict Text Text) :
    parts.foldl addToken result =
      (((parts.map trim).filter
        (fun token => List.contains token '=')).map keyValue).foldl
          (fun d e => d.set e.1 e.2) result := by
  induction parts generalizing result with
  | nil => rfl
  | cons part rest ih =>
      rw [List.foldl_cons, ih, List.map_cons, List.filter_cons]
      by_cases hEq : '=' ∈ trim part
      · simp [addToken, hEq]
      · simp [addToken, hEq]

/- The options are what the text writes, in its order. -/
theorem parseKeyValueList_eq (raw : Option Text) :
    parseKeyValueList raw =
      (writtenOptions raw).foldl
        (fun d e => d.set e.1 e.2) Dict.empty := by
  unfold writtenOptions
  rw [← foldl_addToken]
  cases raw with
  | none => rfl
  | some raw =>
      cases raw with
      | nil => rfl
      | cons c rest =>
          have hScan :=
            scanOptions_eq (c :: rest) [] Dict.empty
          cases hParts : (c :: rest).splitOn ',' with
          | nil =>
              exact
                absurd hParts (List.splitOn_ne_nil ',' _)
          | cons first more =>
              rw [hParts] at hScan
              simpa [parseKeyValueList, hParts] using hScan

/- An option has the value written last. -/
theorem find?_parseKeyValueList
    (raw : Option Text)
    (key : Text) :
    (parseKeyValueList raw).find? key =
      (writtenFor raw key).getLast? := by
  unfold writtenFor
  rw [parseKeyValueList_eq, Dict.find?_foldl_set,
    ← List.head?_filter, List.filter_reverse,
    List.head?_reverse, List.getLast?_map]
  exact Option.or_none

------------------------------------------------------------
-- The CUPTI Settings
------------------------------------------------------------

/- `CUpti_PmSampling_TriggerMode` -/
inductive TriggerMode where
| gpuSysclkInterval
| gpuTimeInterval
deriving DecidableEq, Repr

/- `CUpti_PmSampling_HardwareBuffer_AppendMode` -/
inductive AppendMode where
| keepLatest
| keepOldest
deriving DecidableEq, Repr

/- The settings of the CUPTI state. -/
structure PmSettings where
  pmSamplingInterval : BitVec 64
  pmHardwareBufferSize : BitVec 64
  pmMaxSamples : BitVec 32
  pmTriggerMode : TriggerMode
  pmAppendMode : AppendMode
  pmDisableOnTeardown : Bool
deriving DecidableEq, Repr

/- The settings before any option. -/
def PmSettings.start : PmSettings where
  pmSamplingInterval := 1000
  pmHardwareBufferSize := 8388608
  pmMaxSamples := 256
  pmTriggerMode := .gpuTimeInterval
  pmAppendMode := .keepOldest
  pmDisableOnTeardown := false

/- Settings that satisfy the stated minima. -/
structure PmSettings.Valid (settings : PmSettings) : Prop where
  interval : 1 ≤ settings.pmSamplingInterval.toNat
  buffer : 4096 ≤ settings.pmHardwareBufferSize.toNat
  samples : 1 ≤ settings.pmMaxSamples.toNat

/- The initial settings do. -/
theorem PmSettings.valid_start : PmSettings.start.Valid where
  interval := by decide
  buffer := by decide
  samples := by decide

/- `truthy_value` -/
def truthyValue (raw : Text) (fallback : Bool) : Bool :=
  if raw.isEmpty then
    fallback
  else
    !(raw = "0".toList || raw = "false".toList ||
      raw = "False".toList || raw = "FALSE".toList ||
      raw = "no".toList || raw = "off".toList)

/- `parse_u64_value` -/
def parseU64Value
    (raw : Text)
    (fallback : BitVec 64)
    (minimum : Nat) : BitVec 64 :=
  if raw.isEmpty then
    fallback
  else
    match CNumber.strtoull 0 raw with
    | none => fallback
    | some (value, rest) =>
        if !rest.isEmpty || value.toNat < minimum then
          fallback
        else
          value

/- `apply_pm_trigger_option` -/
def applyPmTriggerOption
    (settings : PmSettings)
    (raw : Text) : PmSettings :=
  if raw = "sysclk".toList ∨ raw = "cycles".toList then
    { settings with pmTriggerMode := .gpuSysclkInterval }
  else if raw = "time".toList ∨ raw = "ns".toList then
    { settings with pmTriggerMode := .gpuTimeInterval }
  else
    settings

/- `apply_pm_append_option` -/
def applyPmAppendOption
    (settings : PmSettings)
    (raw : Text) : PmSettings :=
  if raw = "latest".toList then
    { settings with pmAppendMode := .keepLatest }
  else if raw = "oldest".toList then
    { settings with pmAppendMode := .keepOldest }
  else
    settings

/- The keys of the numeric options. -/
def intervalKey : Text :=
  "pm_interval_ns".toList

def bufferKey : Text :=
  "pm_hardware_buffer_bytes".toList

def samplesKey : Text :=
  "pm_max_samples".toList

/- One turn of the loop of `configure_dev_options_locked`. -/
def configureOption
    (settings : PmSettings)
    (item : Text × Text) : PmSettings :=
  if item.1 = intervalKey then
    { settings with
      pmSamplingInterval :=
        parseU64Value item.2 settings.pmSamplingInterval 1 }
  else if item.1 = bufferKey then
    { settings with
      pmHardwareBufferSize :=
        parseU64Value item.2 settings.pmHardwareBufferSize
          4096 }
  else if item.1 = samplesKey then
    { settings with
      pmMaxSamples :=
        (parseU64Value item.2
          (settings.pmMaxSamples.setWidth 64) 1).setWidth 32 }
  else if item.1 = "pm_trigger".toList then
    applyPmTriggerOption settings item.2
  else if item.1 = "pm_append".toList then
    applyPmAppendOption settings item.2
  else if item.1 = "pm_disable_on_teardown".toList then
    { settings with
      pmDisableOnTeardown := truthyValue item.2 false }
  else
    settings

/-
  `configure_dev_options_locked`, visiting the options in the
  given order.
-/
def configureDevOptions
    (options : List (Text × Text))
    (settings : PmSettings) : PmSettings :=
  options.foldl configureOption settings

------------------------------------------------------------
-- One Setting
------------------------------------------------------------

/-
  A setting that one key changes: after the loop it is what
  the entry of the key makes of the old value.
-/
theorem foldl_setting
    {σ β : Type}
    {step : σ → Text × Text → σ}
    {setting : σ → β}
    {key : Text}
    {take : Text → β → β}
    (hOwn : ∀ state value,
      setting (step state (key, value)) =
        take value (setting state))
    (hOther : ∀ state (item : Text × Text),
      item.1 ≠ key →
        setting (step state item) = setting state)
    {items : List (Text × Text)}
    (hDistinct : (items.map Prod.fst).Nodup)
    (state : σ) :
    setting (items.foldl step state) =
      match items.find? (fun e => e.1 = key) with
      | some item => take item.2 (setting state)
      | none => setting state := by
  induction items generalizing state with
  | nil => rfl
  | cons item rest ih =>
      rw [List.map_cons, List.nodup_cons] at hDistinct
      rw [List.foldl_cons, ih hDistinct.2]
      by_cases hKey : item.1 = key
      · have hAbsent :
            rest.find? (fun e => e.1 = key) = none := by
          rw [List.find?_eq_none]
          intro other hMem hSame
          apply hDistinct.1
          rw [hKey, ← of_decide_eq_true hSame]
          exact List.mem_map_of_mem hMem
        rcases item with ⟨own, value⟩
        subst hKey
        simp [hAbsent, hOwn]
      · simp [hOther state item hKey, hKey]

/- Any order of the entries finds the same value. -/
theorem find?_perm
    {options : Dict Text Text}
    {order : List (Text × Text)}
    (hOrder : order.Perm options.entries)
    (key : Text) :
    order.find? (fun e => e.1 = key) =
      (options.find? key).map (fun value => (key, value)) := by
  have hDistinct : (order.map Prod.fst).Nodup :=
    (hOrder.map Prod.fst).nodup_iff.mpr options.distinct
  cases hFind : options.find? key with
  | none =>
      rw [Option.map_none, List.find?_eq_none]
      intro e hMem hSame
      have hThere : key ∈ options.keys := by
        rw [← of_decide_eq_true hSame]
        exact List.mem_map_of_mem (hOrder.subset hMem)
      rcases Dict.mem_keys_iff.mp hThere with ⟨value, hSome⟩
      rw [hFind] at hSome
      cases hSome
  | some value =>
      have hMem : (key, value) ∈ order :=
        hOrder.symm.subset (Dict.find?_eq_some_iff.mp hFind)
      have hSame :
          (Dict.mk order hDistinct).find? key = some value :=
        Dict.find?_eq_some_iff.mpr hMem
      unfold Dict.find? at hSame
      rcases Option.map_eq_some_iff.mp hSame with
        ⟨e, hFound, hValue⟩
      have hKey := List.find?_some hFound
      rw [hFound, Option.map_some]
      exact congrArg some
        (Prod.ext (of_decide_eq_true hKey) hValue)

/-
  A setting of one key after the options of a text: the
  value written last decides.
-/
theorem setting_configureDevOptions
    {β : Type}
    (setting : PmSettings → β)
    (key : Text)
    (take : Text → β → β)
    (hOwn : ∀ state value,
      setting (configureOption state (key, value)) =
        take value (setting state))
    (hOther : ∀ state (item : Text × Text),
      item.1 ≠ key →
        setting (configureOption state item) = setting state)
    {raw : Option Text}
    {order : List (Text × Text)}
    (hOrder : order.Perm (parseKeyValueList raw).entries)
    (settings : PmSettings) :
    setting (configureDevOptions order settings) =
      match (writtenFor raw key).getLast? with
      | some value => take value (setting settings)
      | none => setting settings := by
  have hDistinct : (order.map Prod.fst).Nodup :=
    (hOrder.map Prod.fst).nodup_iff.mpr
      (parseKeyValueList raw).distinct
  have hFold :=
    foldl_setting hOwn hOther hDistinct settings
  rw [find?_perm hOrder, find?_parseKeyValueList] at hFold
  unfold configureDevOptions
  rw [hFold]
  cases (writtenFor raw key).getLast? with
  | none => rfl
  | some value => rfl

/- What `parse_u64_value` makes of a text. -/
theorem toNat_parseU64Value
    (raw : Text)
    (fallback : BitVec 64)
    (minimum : Nat) :
    ((parseU64Value raw fallback minimum).toNat : Int) =
      match CNumber.denoted 0 raw with
      | some n =>
          if CNumber.unsignedOf n < minimum then
            (fallback.toNat : Int)
          else
            CNumber.unsignedOf n
      | none => fallback.toNat := by
  cases raw with
  | nil => rfl
  | cons c rest =>
      simp only [parseU64Value, CNumber.denoted,
        CNumber.strtoull, List.isEmpty_cons,
        Bool.false_eq_true, if_false]
      cases CNumber.subject 0 (c :: rest) with
      | none => rfl
      | some s =>
          have hValue := CNumber.toNat_toULL s
          have hLow :
              s.toULL.toNat < minimum ↔
                CNumber.unsignedOf s.integer < minimum := by
            omega
          by_cases hEnd : s.rest = []
          · by_cases hMinimum : s.toULL.toNat < minimum
            · have hInt := hLow.mp hMinimum
              simp [hEnd, hMinimum, hInt]
            · have hInt := mt hLow.mpr hMinimum
              simp [hEnd, hMinimum, hInt, hValue]
          · simp [hEnd]

/- The trigger and append options change no number. -/
theorem applyPmTriggerOption_numbers
    (settings : PmSettings)
    (raw : Text) :
    (applyPmTriggerOption settings raw).pmSamplingInterval =
        settings.pmSamplingInterval ∧
      (applyPmTriggerOption settings raw).pmHardwareBufferSize =
        settings.pmHardwareBufferSize ∧
      (applyPmTriggerOption settings raw).pmMaxSamples =
        settings.pmMaxSamples := by
  unfold applyPmTriggerOption
  split_ifs
  all_goals exact ⟨rfl, rfl, rfl⟩

theorem applyPmAppendOption_numbers
    (settings : PmSettings)
    (raw : Text) :
    (applyPmAppendOption settings raw).pmSamplingInterval =
        settings.pmSamplingInterval ∧
      (applyPmAppendOption settings raw).pmHardwareBufferSize =
        settings.pmHardwareBufferSize ∧
      (applyPmAppendOption settings raw).pmMaxSamples =
        settings.pmMaxSamples := by
  unfold applyPmAppendOption
  split_ifs
  all_goals exact ⟨rfl, rfl, rfl⟩

/- The keys of the numeric options differ. -/
theorem keys_distinct :
    bufferKey ≠ intervalKey ∧ samplesKey ≠ intervalKey ∧
      samplesKey ≠ bufferKey := by
  decide

/- The integer written last for a key, if it is one. -/
def lastInteger (raw : Option Text) (key : Text) :
    Option Int :=
  (writtenFor raw key).getLast?.bind (CNumber.denoted 0)

/-
  What a setting of some width is after the options: the
  value written last for its key, converted, unless that is
  no integer or lies below the minimum.
-/
def adopted
    (raw : Option Text)
    (key : Text)
    (bits minimum : Nat)
    (previous : Int) : Int :=
  match lastInteger raw key with
  | some n =>
      if CNumber.unsignedOf n < minimum then
        previous
      else
        CNumber.unsignedOf n % 2 ^ bits
  | none => previous

section Options

variable {raw : Option Text} {order : List (Text × Text)}

/-
  A setting of a width that takes the parsed value adopts
  what its key wrote last.
-/
theorem toNat_setting
    {w minimum : Nat}
    (hWidth : w ≤ 64)
    (setting : PmSettings → BitVec w)
    (key : Text)
    (hOwn : ∀ state value,
      setting (configureOption state (key, value)) =
        (parseU64Value value ((setting state).setWidth 64)
          minimum).setWidth w)
    (hOther : ∀ state (item : Text × Text),
      item.1 ≠ key →
        setting (configureOption state item) = setting state)
    (hOrder : order.Perm (parseKeyValueList raw).entries)
    (settings : PmSettings) :
    ((setting (configureDevOptions order
        settings)).toNat : Int) =
      adopted raw key w minimum (setting settings).toNat := by
  have hOld := (setting settings).isLt
  have hPow : 2 ^ w ≤ 2 ^ 64 :=
    Nat.pow_le_pow_right (by decide) hWidth
  have hWide :
      ((setting settings).setWidth 64).toNat =
        (setting settings).toNat := by
    rw [BitVec.toNat_setWidth]
    exact Nat.mod_eq_of_lt (lt_of_lt_of_le hOld hPow)
  have hKept :
      ((setting settings).toNat : Int) % 2 ^ w =
        (setting settings).toNat := by
    exact_mod_cast Nat.mod_eq_of_lt hOld
  rw [setting_configureDevOptions setting key
    (fun value old =>
      (parseU64Value value (old.setWidth 64) minimum).setWidth
        w) hOwn hOther hOrder settings]
  unfold adopted lastInteger
  cases (writtenFor raw key).getLast? with
  | none => rfl
  | some value =>
      have hParsed :=
        toNat_parseU64Value value
          ((setting settings).setWidth 64) minimum
      simp only [BitVec.toNat_setWidth, Int.natCast_emod,
        Nat.cast_pow, Nat.cast_ofNat, hParsed, hWide,
        Option.bind_some]
      cases CNumber.denoted 0 value with
      | none => exact hKept
      | some n =>
          by_cases hLow : CNumber.unsignedOf n < minimum
          · simp only [if_pos hLow]
            exact hKept
          · simp only [if_neg hLow]

/- The options of other keys leave a number alone. -/
theorem configureOption_of_ne
    (state : PmSettings)
    (item : Text × Text) :
    (item.1 ≠ intervalKey →
        (configureOption state item).pmSamplingInterval =
          state.pmSamplingInterval) ∧
      (item.1 ≠ bufferKey →
        (configureOption state item).pmHardwareBufferSize =
          state.pmHardwareBufferSize) ∧
      (item.1 ≠ samplesKey →
        (configureOption state item).pmMaxSamples =
          state.pmMaxSamples) := by
  unfold configureOption
  split_ifs
  case pos hKey =>
      exact ⟨fun hNe => absurd hKey hNe, fun _ => rfl,
        fun _ => rfl⟩
  case pos hKey =>
      exact ⟨fun _ => rfl, fun hNe => absurd hKey hNe,
        fun _ => rfl⟩
  case pos hKey =>
      exact ⟨fun _ => rfl, fun _ => rfl,
        fun hNe => absurd hKey hNe⟩
  case pos =>
      have hNumbers := applyPmTriggerOption_numbers state item.2
      exact ⟨fun _ => hNumbers.1, fun _ => hNumbers.2.1,
        fun _ => hNumbers.2.2⟩
  case pos =>
      have hNumbers := applyPmAppendOption_numbers state item.2
      exact ⟨fun _ => hNumbers.1, fun _ => hNumbers.2.1,
        fun _ => hNumbers.2.2⟩
  case pos => exact ⟨fun _ => rfl, fun _ => rfl, fun _ => rfl⟩
  case neg => exact ⟨fun _ => rfl, fun _ => rfl, fun _ => rfl⟩

/- Each numeric setting is the one its key adopts. -/
theorem toNat_pmSamplingInterval
    (hOrder : order.Perm (parseKeyValueList raw).entries)
    (settings : PmSettings) :
    ((configureDevOptions order
        settings).pmSamplingInterval.toNat : Int) =
      adopted raw intervalKey 64 1
        settings.pmSamplingInterval.toNat := by
  apply toNat_setting (by decide)
    PmSettings.pmSamplingInterval intervalKey _ _ hOrder
  · intro state value
    rw [configureOption, if_pos rfl, BitVec.setWidth_eq,
      BitVec.setWidth_eq]
  · intro state item
    exact (configureOption_of_ne state item).1

theorem toNat_pmHardwareBufferSize
    (hOrder : order.Perm (parseKeyValueList raw).entries)
    (settings : PmSettings) :
    ((configureDevOptions order
        settings).pmHardwareBufferSize.toNat : Int) =
      adopted raw bufferKey 64 4096
        settings.pmHardwareBufferSize.toNat := by
  apply toNat_setting (by decide)
    PmSettings.pmHardwareBufferSize bufferKey _ _ hOrder
  · intro state value
    rw [configureOption, if_neg keys_distinct.1, if_pos rfl,
      BitVec.setWidth_eq, BitVec.setWidth_eq]
  · intro state item
    exact (configureOption_of_ne state item).2.1

theorem toNat_pmMaxSamples
    (hOrder : order.Perm (parseKeyValueList raw).entries)
    (settings : PmSettings) :
    ((configureDevOptions order
        settings).pmMaxSamples.toNat : Int) =
      adopted raw samplesKey 32 1
        settings.pmMaxSamples.toNat := by
  apply toNat_setting (by decide) PmSettings.pmMaxSamples
    samplesKey _ _ hOrder
  · intro state value
    rw [configureOption, if_neg keys_distinct.2.1,
      if_neg keys_distinct.2.2, if_pos rfl]
  · intro state item
    exact (configureOption_of_ne state item).2.2

end Options

------------------------------------------------------------
-- Narrowing
------------------------------------------------------------

/- An integer is written for a key in a text. -/
def Written (raw : Option Text) (key : Text) (n : Int) :
    Prop :=
  ∃ text ∈ writtenFor raw key, CNumber.denoted 0 text = some n

/-
  A setting keeps its value or takes an integer written for
  its key, and satisfies its minimum.
-/
structure Kept
    (raw : Option Text)
    (key : Text)
    (minimum : Nat)
    (previous value : Int) : Prop where
  source : value = previous ∨ Written raw key value
  minimum_le : minimum ≤ value

/- The integer written last for a key is written for it. -/
theorem written_lastInteger
    {raw : Option Text}
    {key : Text}
    {n : Int}
    (hLast : lastInteger raw key = some n) :
    Written raw key n := by
  rcases Option.bind_eq_some_iff.mp hLast with
    ⟨text, hText, hDenoted⟩
  exact ⟨text, List.mem_of_getLast? hText, hDenoted⟩

/-
  The value written last for a key, if an integer, fits the
  setting; or its residue happens to be below the minimum,
  the old value, or another integer written for the key.
-/
def Fits
    (raw : Option Text)
    (key : Text)
    (bits minimum : Nat)
    (previous : Int) : Prop :=
  ∀ n, lastInteger raw key = some n →
    (0 ≤ n ∧ n < 2 ^ bits) ∨
      CNumber.unsignedOf n < minimum ∨
        (minimum ≤ CNumber.unsignedOf n % 2 ^ bits ∧
          (CNumber.unsignedOf n % 2 ^ bits = previous ∨
            Written raw key
              (CNumber.unsignedOf n % 2 ^ bits)))

/- An adopted value is kept exactly when it fits. -/
theorem kept_adopted_iff
    {raw : Option Text}
    {key : Text}
    {bits minimum : Nat}
    {previous : Int}
    (hBits : bits ≤ 64)
    (hPrevious : minimum ≤ previous) :
    Kept raw key minimum previous
        (adopted raw key bits minimum previous) ↔
      Fits raw key bits minimum previous := by
  have hOld : Kept raw key minimum previous previous :=
    ⟨Or.inl rfl, hPrevious⟩
  have hPow : (2 : Int) ^ bits ≤ 2 ^ 64 :=
    pow_le_pow_right₀ (by decide) hBits
  unfold adopted Fits
  cases hLast : lastInteger raw key with
  | none =>
      simpa using hOld
  | some n =>
      have hWritten := written_lastInteger hLast
      by_cases hLow : CNumber.unsignedOf n < minimum
      · simp only [if_pos hLow]
        constructor
        · intro _ m hSome
          rw [← Option.some.inj hSome]
          exact Or.inr (Or.inl hLow)
        · intro _
          exact hOld
      · simp only [if_neg hLow]
        constructor
        · intro hKept m hSome
          rw [← Option.some.inj hSome]
          exact
            Or.inr (Or.inr ⟨hKept.minimum_le, hKept.source⟩)
        · intro hFits
          rcases hFits n rfl with hRange | hBelow | hChance
          · have hSame :
                CNumber.unsignedOf n % 2 ^ bits = n := by
              rw [CNumber.unsignedOf_eq
                ⟨hRange.1, lt_of_lt_of_le hRange.2 hPow⟩]
              exact Int.emod_eq_of_lt hRange.1 hRange.2
            have hValue : CNumber.unsignedOf n = n :=
              CNumber.unsignedOf_eq
                ⟨hRange.1, lt_of_lt_of_le hRange.2 hPow⟩
            rw [hSame]
            exact ⟨Or.inr hWritten, by omega⟩
          · exact absurd hBelow hLow
          · exact ⟨hChance.2, hChance.1⟩

/- All three numeric settings are kept. -/
structure NotNarrowed
    (raw : Option Text)
    (previous settings : PmSettings) : Prop where
  interval :
    Kept raw intervalKey 1
      previous.pmSamplingInterval.toNat
      settings.pmSamplingInterval.toNat
  buffer :
    Kept raw bufferKey 4096
      previous.pmHardwareBufferSize.toNat
      settings.pmHardwareBufferSize.toNat
  samples :
    Kept raw samplesKey 1
      previous.pmMaxSamples.toNat
      settings.pmMaxSamples.toNat

/- All three numeric options fit their settings. -/
structure OptionsFit
    (raw : Option Text)
    (previous : PmSettings) : Prop where
  interval :
    Fits raw intervalKey 64 1
      previous.pmSamplingInterval.toNat
  buffer :
    Fits raw bufferKey 64 4096
      previous.pmHardwareBufferSize.toNat
  samples :
    Fits raw samplesKey 32 1 previous.pmMaxSamples.toNat

/- The settings are kept exactly when the options fit. -/
theorem configureDevOptions_notNarrowed_iff
    {raw : Option Text}
    {order : List (Text × Text)}
    (hOrder : order.Perm (parseKeyValueList raw).entries)
    {previous : PmSettings}
    (hPrevious : previous.Valid) :
    NotNarrowed raw previous
        (configureDevOptions order previous) ↔
      OptionsFit raw previous := by
  have hInterval :
      Kept raw intervalKey 1
          previous.pmSamplingInterval.toNat
          (configureDevOptions order
            previous).pmSamplingInterval.toNat ↔
        Fits raw intervalKey 64 1
          previous.pmSamplingInterval.toNat := by
    rw [toNat_pmSamplingInterval hOrder]
    exact
      kept_adopted_iff (by decide)
        (Int.ofNat_le.mpr hPrevious.interval)
  have hBuffer :
      Kept raw bufferKey 4096
          previous.pmHardwareBufferSize.toNat
          (configureDevOptions order
            previous).pmHardwareBufferSize.toNat ↔
        Fits raw bufferKey 64 4096
          previous.pmHardwareBufferSize.toNat := by
    rw [toNat_pmHardwareBufferSize hOrder]
    exact
      kept_adopted_iff (by decide)
        (Int.ofNat_le.mpr hPrevious.buffer)
  have hSamples :
      Kept raw samplesKey 1
          previous.pmMaxSamples.toNat
          (configureDevOptions order
            previous).pmMaxSamples.toNat ↔
        Fits raw samplesKey 32 1
          previous.pmMaxSamples.toNat := by
    rw [toNat_pmMaxSamples hOrder]
    exact
      kept_adopted_iff (by decide)
        (Int.ofNat_le.mpr hPrevious.samples)
  constructor
  · intro hKept
    exact
      ⟨hInterval.mp hKept.interval, hBuffer.mp hKept.buffer,
        hSamples.mp hKept.samples⟩
  · intro hFits
    exact
      ⟨hInterval.mpr hFits.interval,
        hBuffer.mpr hFits.buffer, hSamples.mpr hFits.samples⟩

------------------------------------------------------------
-- Environment Integers
------------------------------------------------------------

/-
  `selected_env_int`; `latency.c` and `throughput.c` hold the
  same code.
-/
def selectedEnvInt
    (getenv : Text → Option Text)
    (fallback : BitVec 32) :
    List Text → BitVec 32
| [] => fallback
| name :: rest =>
    match getenv name with
    | none => selectedEnvInt getenv fallback rest
    | some raw =>
        if raw.isEmpty then
          selectedEnvInt getenv fallback rest
        else
          match CNumber.strtol 10 raw with
          | none => selectedEnvInt getenv fallback rest
          | some (value, _) => value.setWidth 32

/-
  The integer at the start of the first variable that has
  one.
-/
def acceptedInteger
    (getenv : Text → Option Text)
    (names : List Text) : Option Int :=
  names.findSome? (fun name =>
    (getenv name).bind (CNumber.leading 10))

/- The result is the accepted integer, clamped and cast. -/
theorem toInt_selectedEnvInt
    (getenv : Text → Option Text)
    (fallback : BitVec 32)
    (names : List Text) :
    (selectedEnvInt getenv fallback names).toInt =
      match acceptedInteger getenv names with
      | some n => (CNumber.signedOf n).bmod (2 ^ 32)
      | none => fallback.toInt := by
  induction names with
  | nil => rfl
  | cons name rest ih =>
      unfold acceptedInteger at *
      rw [selectedEnvInt, List.findSome?_cons]
      cases getenv name with
      | none => simpa using ih
      | some raw =>
          cases raw with
          | nil =>
              have hNone : CNumber.subject 10 [] = none := rfl
              simpa [CNumber.leading, hNone] using ih
          | cons c text =>
              simp only [List.isEmpty_cons,
                Bool.false_eq_true, if_false,
                CNumber.strtol, CNumber.leading,
                Option.bind_some]
              cases CNumber.subject 10 (c :: text) with
              | none => simpa using ih
              | some s => exact CNumber.toInt_setWidth_toLong s

/- The result is the fallback or the accepted integer. -/
def EnvExact
    (getenv : Text → Option Text)
    (fallback : BitVec 32)
    (names : List Text)
    (result : BitVec 32) : Prop :=
  result = fallback ∨
    acceptedInteger getenv names = some result.toInt

/-
  The accepted integer fits an `int`, or what is left of it
  happens to be the fallback.
-/
def EnvFits
    (getenv : Text → Option Text)
    (fallback : BitVec 32)
    (names : List Text) : Prop :=
  ∀ n, acceptedInteger getenv names = some n →
    (-2 ^ 31 ≤ n ∧ n < 2 ^ 31) ∨
      (CNumber.signedOf n).bmod (2 ^ 32) = fallback.toInt

/- The result is exact when the accepted integer fits. -/
theorem selectedEnvInt_exact_iff
    (getenv : Text → Option Text)
    (fallback : BitVec 32)
    (names : List Text) :
    EnvExact getenv fallback names
        (selectedEnvInt getenv fallback names) ↔
      EnvFits getenv fallback names := by
  have hResult := toInt_selectedEnvInt getenv fallback names
  unfold EnvExact EnvFits
  rw [← BitVec.toInt_inj, hResult]
  cases acceptedInteger getenv names with
  | none => simp
  | some n =>
      have hKept :
          some n = some ((CNumber.signedOf n).bmod (2 ^ 32)) ↔
            -2 ^ 31 ≤ n ∧ n < 2 ^ 31 := by
        rw [Option.some.injEq]
        unfold CNumber.signedOf
        rw [Int.bmod_def]
        omega
      simp only [hKept, Option.some.injEq, forall_eq']
      exact or_comm

/-
  Numeric settings are not narrowed exactly when the integers
  written last fit them, and an environment integer is read
  exactly when it fits an `int`.
-/
theorem notNarrowed_iff
    (raw : Option Text)
    (order : List (Text × Text))
    (hOrder : order.Perm (parseKeyValueList raw).entries)
    (previous : PmSettings)
    (hPrevious : previous.Valid)
    (getenv : Text → Option Text)
    (fallback : BitVec 32)
    (names : List Text) :
    (NotNarrowed raw previous
          (configureDevOptions order previous) ↔
        OptionsFit raw previous) ∧
      (EnvExact getenv fallback names
          (selectedEnvInt getenv fallback names) ↔
        EnvFits getenv fallback names) :=
  ⟨configureDevOptions_notNarrowed_iff hOrder hPrevious,
    selectedEnvInt_exact_iff getenv fallback names⟩

/- A last integer of the setting's width fits. -/
theorem fits_of_lastInteger
    {raw : Option Text}
    {key : Text}
    {bits minimum : Nat}
    {previous n : Int}
    (hLast : lastInteger raw key = some n)
    (hRange : 0 ≤ n ∧ n < 2 ^ bits) :
    Fits raw key bits minimum previous := by
  intro m hOther
  rw [hLast] at hOther
  rw [← Option.some.inj hOther]
  exact Or.inl hRange

/- Options of four keys, one of them written twice. -/
def fourKeys : Text :=
  ("pm_interval_ns=9, pm_hardware_buffer_bytes=0x1000000," ++
    "pm_max_samples = 64,pm_trigger=sysclk," ++
    "pm_interval_ns=2000").toList

/- They may be visited from the last to the first. -/
def fourKeysOrder : List (Text × Text) :=
  (parseKeyValueList (some fourKeys)).entries.reverse

/- Their integers fit, and so does that of the variable. -/
theorem notNarrowed_iff_fourKeys :
    configureDevOptions fourKeysOrder PmSettings.start =
        { PmSettings.start with
          pmSamplingInterval := 2000
          pmHardwareBufferSize := 16777216
          pmMaxSamples := 64
          pmTriggerMode := .gpuSysclkInterval } ∧
      NotNarrowed (some fourKeys) PmSettings.start
        (configureDevOptions fourKeysOrder PmSettings.start) ∧
      EnvExact (fun _ => some "12ms".toList) 7
        ["TIMEOUT".toList]
        (selectedEnvInt (fun _ => some "12ms".toList) 7
          ["TIMEOUT".toList]) := by
  have hIff :=
    notNarrowed_iff (some fourKeys) fourKeysOrder
      (List.reverse_perm _) PmSettings.start
      PmSettings.valid_start (fun _ => some "12ms".toList) 7
      ["TIMEOUT".toList]
  have hInterval :
      lastInteger (some fourKeys) intervalKey = some 2000 := by
    decide +kernel
  have hBuffer :
      lastInteger (some fourKeys) bufferKey =
        some 16777216 := by
    decide +kernel
  have hSamples :
      lastInteger (some fourKeys) samplesKey = some 64 := by
    decide +kernel
  have hEnv :
      acceptedInteger (fun _ => some "12ms".toList)
        ["TIMEOUT".toList] = some 12 := by
    decide +kernel
  refine ⟨by decide +kernel, hIff.1.mpr ?_, hIff.2.mpr ?_⟩
  · exact
      ⟨fits_of_lastInteger hInterval (by decide),
        fits_of_lastInteger hBuffer (by decide),
        fits_of_lastInteger hSamples (by decide)⟩
  · intro n hAccepted
    rw [hEnv] at hAccepted
    rw [← Option.some.inj hAccepted]
    exact Or.inl (by decide)

/-
  2^32 passes the range check of the sample count and is cast
  to zero; -1 becomes the largest interval; and 2^32 in the
  environment is read as zero.
-/
theorem narrowed_pm_max_samples :
    (configureDevOptions
          (parseKeyValueList
            (some "pm_max_samples=4294967296".toList)).entries
          PmSettings.start).pmMaxSamples = 0 ∧
      ¬ NotNarrowed
          (some "pm_max_samples=4294967296".toList)
          PmSettings.start
          (configureDevOptions
            (parseKeyValueList
              (some
                "pm_max_samples=4294967296".toList)).entries
            PmSettings.start) ∧
      (configureDevOptions
          (parseKeyValueList
            (some "pm_interval_ns=-1".toList)).entries
          PmSettings.start).pmSamplingInterval =
        18446744073709551615 ∧
      ¬ EnvExact (fun _ => some "4294967296".toList) (-1)
          ["RANK".toList]
          (selectedEnvInt (fun _ => some "4294967296".toList)
            (-1) ["RANK".toList]) := by
  have hSamples :
      (configureDevOptions
          (parseKeyValueList
            (some "pm_max_samples=4294967296".toList)).entries
          PmSettings.start).pmMaxSamples = 0 := by
    decide +kernel
  have hResult :
      selectedEnvInt (fun _ => some "4294967296".toList) (-1)
        ["RANK".toList] = 0 := by
    decide +kernel
  refine ⟨hSamples, ?_, by decide +kernel, ?_⟩
  · intro hKept
    have hMinimum := hKept.samples.minimum_le
    rw [hSamples] at hMinimum
    exact absurd hMinimum (by decide)
  · rw [hResult]
    intro hExact
    rcases hExact with hFallback | hAccepted
    · exact absurd hFallback (by decide)
    · have hOther :
          acceptedInteger (fun _ => some "4294967296".toList)
            ["RANK".toList] ≠ some (0 : BitVec 32).toInt := by
        decide +kernel
      exact hOther hAccepted

end Settings

end FabricPerf
