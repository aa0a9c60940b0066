import FabricPerf.Lib.Search
import Mathlib.Data.List.Dedup

/-
  Selecting the NCCL device function of a kernel
  (`nccl/table.py`).

  The scanners are the regular expressions of the table.
  PTX source and mangled names are ASCII, so `\d` is a
  decimal digit.

  Main declarations:
    * `Nccl.kernelDescriptor`
    * `Nccl.descriptorMatches`
    * `Nccl.inferSingleFuncId`
    * `Nccl.selectTarget`
-/

namespace FabricPerf

namespace Nccl

open Text

------------------------------------------------------------
-- Rules And Targets
------------------------------------------------------------

/- One kernel-name rule of the built-in table. -/
structure NcclDevFuncRule where
  kernelSubstring : String
  functionSubstring : String
  description : String
deriving DecidableEq, Repr

/- The target selected for one generated PTX module. -/
structure NcclDevFuncTarget where
  kernelName : Text
  functionName : Text
  functionId : Option Nat
  source : String
  candidates : List Text
deriving DecidableEq, Repr

/- `DEFAULT_RULES` -/
def defaultRules : List NcclDevFuncRule :=
  [{ kernelSubstring := "ncclDevKernel_SendRecv"
     functionSubstring := "ncclDevFunc_SendRecv"
     description :=
       "NCCL SendRecv wrapper dispatches to the SendRecv devFunc." }]

------------------------------------------------------------
-- Local Functions
------------------------------------------------------------

/- `[A-Za-z_$]` -/
def isSymbolStart (c : Char) : Bool :=
  c.isAlpha || c == '_' || c == '$'

/- `[A-Za-z0-9_$]` -/
def isSymbol (c : Char) : Bool :=
  c.isAlphanum || c == '_' || c == '$'

/- A text that starts as a PTX symbol does. -/
def startsSymbol : Text → Bool
| [] => false
| c :: _ => isSymbolStart c

/-
  A symbol, `ncclDevFunc_` and a symbol make up the name: the
  name is split at some occurrence of the middle part.
-/
def isDevFuncName (name : Text) : Bool :=
  startsSymbol name &&
    (search
      (fun s =>
        match literal "ncclDevFunc_" s with
        | some rest => if startsSymbol rest then some () else none
        | none => none)
      (name.drop 1)).isSome

/- `LOCAL_DEVFUNC_RE`: the name, and the text behind. -/
def localDevFunc (s : Text) : Option (Text × Text) := do
  let s ← literal ".visible" (skipSpaces s)
  let s ← spaces s
  let s ← literal ".func" s
  let s ← spaces s
  let name := s.takeWhile isSymbol
  let rest ← literal "(" (skipSpaces (s.dropWhile isSymbol))
  if isDevFuncName name then some (name, rest) else none

/- `local_devfuncs`: each name once, in the order of the PTX. -/
def localDevFuncs (ptx : Text) : List Text :=
  (finditer localDevFunc ptx).foldl
    (fun functions name =>
      if functions.contains name then functions
      else functions ++ [name])
    []

------------------------------------------------------------
-- The FuncId Of A Wrapper
------------------------------------------------------------

/- `SET_EQ_S16_IMM_RE`: the immediate, and the text behind. -/
def setEqS16Imm (s : Text) : Option (Nat × Text) := do
  let s ← literal "setp.eq.s16" (skipSpaces s)
  let s ← spaces s
  let (_, s) ← numbered "%p" s
  let s ← literal "," s
  let s ← spaces s
  let s ← literal "%" s
  let register := s.takeWhile isWord
  let s ← literal "," (s.dropWhile isWord)
  let s ← spaces s
  let (index, s) ← digits s
  let s ← literal ";" s
  if register = [] then none else some (intOf index, s)

/- The immediates of the 16-bit equality compares. -/
def setEqImmediates (entryPtx : Text) : List Nat :=
  finditer setEqS16Imm entryPtx

/- `infer_single_func_id` -/
def inferSingleFuncId (entryPtx : Text) : Option Nat :=
  match ((setEqImmediates entryPtx).filter (· ≠ 0)).dedup with
  | [index] => some index
  | _ => none

/- It is the only immediate other than zero. -/
theorem inferSingleFuncId_eq_some_iff
    {entryPtx : Text}
    {f : Nat} :
    inferSingleFuncId entryPtx = some f ↔
      ∀ i, (i ∈ setEqImmediates entryPtx ∧ i ≠ 0) ↔ i = f := by
  have hMem (i : Nat) :
      i ∈ ((setEqImmediates entryPtx).filter (· ≠ 0)).dedup ↔
        i ∈ setEqImmediates entryPtx ∧ i ≠ 0 := by
    simp
  have hNodup :=
    List.nodup_dedup ((setEqImmediates entryPtx).filter (· ≠ 0))
  unfold inferSingleFuncId
  generalize
    ((setEqImmediates entryPtx).filter (· ≠ 0)).dedup =
      candidates at hMem hNodup
  constructor
  · intro hInfer i
    rw [← hMem i]
    split at hInfer
    case h_1 index =>
      simp only [Option.some.injEq] at hInfer
      simp [hInfer]
    case h_2 =>
      contradiction
  · intro hOnly
    have hIff (i : Nat) : i ∈ candidates ↔ i = f :=
      (hMem i).trans (hOnly i)
    have hSingle : candidates = [f] :=
      List.perm_singleton.mp
        ((List.perm_ext_iff_of_nodup hNodup
          (List.nodup_singleton f)).mpr (by simpa using hIff))
    simp [hSingle]

------------------------------------------------------------
-- Descriptors
------------------------------------------------------------

/- What follows the descriptor in a kernel name. -/
def endsKernelDescriptor (s : Text) : Bool :=
  ((digits s).any fun (_, rest) =>
    (literal "ncclDevKernelArgsStorage" rest).isSome) || atEnd s

/- `kernel_descriptor`, by `KERNEL_DESCRIPTOR_RE`. -/
def kernelDescriptor (kernelName : Text) : Option Text :=
  search
    (fun s =>
      (literal "ncclDevKernel_" s).bind
        (shortest endsKernelDescriptor))
    kernelName

/-
  `[A-Za-z0-9_]+v$`: the longest run of word characters that
  leaves a `v` and the end.
-/
def beforeFinalV (s : Text) : Option Text :=
  if atEnd (s.dropWhile isWord) &&
      (s.takeWhile isWord).getLast? == some 'v' &&
      (s.takeWhile isWord).length != 1 then
    some (s.takeWhile isWord).dropLast
  else
    none

/- `devfunc_descriptor`, by `DEVFUNC_DESCRIPTOR_RE`. -/
def devFuncDescriptor (functionName : Text) : Option Text :=
  search
    (fun s => (literal "ncclDevFunc_" s).bind beforeFinalV)
    functionName

/- `descriptor_matches` -/
def descriptorMatches
    (kernelName : Text)
    (functions : List Text) : List Text :=
  match kernelDescriptor kernelName with
  | none => []
  | some descriptor =>
      functions.filter
        (fun name => devFuncDescriptor name = some descriptor)

------------------------------------------------------------
-- Selection
------------------------------------------------------------

/- The first rule whose names single out one function. -/
def ruleMatch
    (kernelName : Text)
    (functions : List Text)
    (rule : NcclDevFuncRule) : Option (Text × String) :=
  if contains rule.kernelSubstring kernelName then
    match functions.filter (contains rule.functionSubstring) with
    | [name] => some (name, rule.description)
    | _ => none
  else
    none

/- The function, and the reason it is selected for. -/
def selectFunction
    (kernelName : Text)
    (functions : List Text) : Option (Text × String) :=
  match descriptorMatches kernelName functions with
  | [name] => some (name, "kernel-descriptor-match")
  | _ =>
      match defaultRules.findSome?
          (ruleMatch kernelName functions) with
      | some found => some found
      | none =>
          match functions with
          | [name] => some (name, "single-local-devfunc")
          | _ => none

/- `select_target` -/
def selectTarget
    (kernelName ptx entryPtx : Text) :
    Option NcclDevFuncTarget :=
  let functions := localDevFuncs ptx
  (selectFunction kernelName functions).map
    fun (name, source) =>
      { kernelName := kernelName
        functionName := name
        functionId := inferSingleFuncId entryPtx
        source := source
        candidates := functions }

end Nccl

end FabricPerf
