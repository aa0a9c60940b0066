import FabricPerf.Lib.Dict
import FabricPerf.Nccl.Table

/-
  The funcId of the selected device function.

  It comes from the immediates of the entry's compares or,
  where these do not single one out, from the runtime table
  of the module.

  Main declarations:
    * `Nccl.selectedTargetFuncId`
    * `Nccl.selected_id_correct_iff`
-/

namespace FabricPerf

namespace Nccl

open Text

------------------------------------------------------------
-- The Selected Id
------------------------------------------------------------

/- The runtime table of a module: funcIds and functions. -/
abbrev LocalMapping := Dict Nat Text

/- The only funcId that the table sends to a function. -/
def funcIdOf
    (mapping : LocalMapping)
    (functionName : Text) : Option Nat :=
  match (mapping.entries.filter
      (fun e => e.2 = functionName)).map Prod.fst with
  | [funcId] => some funcId
  | _ => none

/- `selected_target_func_id` -/
def selectedTargetFuncId
    (target : NcclDevFuncTarget)
    (mapping : LocalMapping) : Option Nat :=
  match target.functionId with
  | some functionId => some functionId
  | none => funcIdOf mapping target.functionName

/- The id belongs to the selected function. -/
def IdCorrect
    (target : NcclDevFuncTarget)
    (mapping : LocalMapping) : Prop :=
  ∀ f, selectedTargetFuncId target mapping = some f →
    mapping.find? f = some target.functionName

/- An id looked up in the table belongs to the function. -/
theorem find?_of_funcIdOf
    {mapping : LocalMapping}
    {functionName : Text}
    {f : Nat}
    (hFound : funcIdOf mapping functionName = some f) :
    mapping.find? f = some functionName := by
  unfold funcIdOf at hFound
  split at hFound
  case h_1 funcId hOnly =>
    simp only [Option.some.injEq] at hFound
    have hMem :
        f ∈ (mapping.entries.filter
          (fun e => e.2 = functionName)).map Prod.fst := by
      simp [hOnly, hFound]
    rcases List.mem_map.mp hMem with ⟨e, hEntry, hKey⟩
    rcases List.mem_filter.mp hEntry with ⟨hIn, hName⟩
    have hValue : e.2 = functionName := of_decide_eq_true hName
    rw [Dict.find?_eq_some_iff, ← hKey, ← hValue]
    exact hIn
  case h_2 =>
    contradiction

/- The target carries what the entry's compares single out. -/
theorem functionId_of_selectTarget
    {kernelName ptx entryPtx : Text}
    {target : NcclDevFuncTarget}
    (hTarget :
      selectTarget kernelName ptx entryPtx = some target) :
    target.functionId = inferSingleFuncId entryPtx := by
  unfold selectTarget at hTarget
  rcases Option.map_eq_some_iff.mp hTarget with
    ⟨⟨name, source⟩, hFunction, hEq⟩
  rw [← hEq]

/-
  The id belongs to the selected function unless the entry
  compares with exactly one immediate other than zero, and
  the table does not send that to the function.
-/
theorem selected_id_correct_iff
    (kernelName ptx entryPtx : Text)
    (mapping : LocalMapping)
    (target : NcclDevFuncTarget)
    (hTarget :
      selectTarget kernelName ptx entryPtx = some target) :
    IdCorrect target mapping ↔
      ∀ f,
        (∀ i, (i ∈ setEqImmediates entryPtx ∧ i ≠ 0) ↔
          i = f) →
        mapping.find? f = some target.functionName := by
  have hId := functionId_of_selectTarget hTarget
  simp only [← inferSingleFuncId_eq_some_iff, ← hId]
  constructor
  · intro hCorrect f hInferred
    apply hCorrect f
    simp [selectedTargetFuncId, hInferred]
  · intro hInferred f hSelected
    cases hFunction : target.functionId with
    | some functionId =>
        simp only [selectedTargetFuncId, hFunction,
          Option.some.injEq] at hSelected
        exact hInferred f (by rw [hFunction, hSelected])
    | none =>
        simp only [selectedTargetFuncId, hFunction] at hSelected
        exact find?_of_funcIdOf hSelected

/- The kernel of `SendRecv`. -/
def sendRecvKernel : Text :=
  "ncclDevKernel_SendRecv".toList

/- Its module, with one local device function. -/
def sendRecvPtx : Text :=
  ".visible .func _Z20ncclDevFunc_SendRecvv()\n".toList

/- An entry with one compare, of the given immediate. -/
def compareEntryPtx (immediate : String) : Text :=
  "setp.eq.s16 %p1, %rs9, ".toList ++ immediate.toList ++
    ";\n".toList

/- The target that is selected, with the given id. -/
def sendRecvTarget (functionId : Nat) : NcclDevFuncTarget where
  kernelName := sendRecvKernel
  functionName := "_Z20ncclDevFunc_SendRecvv".toList
  functionId := some functionId
  source := "kernel-descriptor-match"
  candidates := ["_Z20ncclDevFunc_SendRecvv".toList]

/- The runtime table sends 669 to the function. -/
def sendRecvMapping : LocalMapping where
  entries := [(669, "_Z20ncclDevFunc_SendRecvv".toList)]
  distinct := by decide

/- The compare is with the funcId of the function. -/
theorem selected_id_correct_iff_sendRecv :
    IdCorrect (sendRecvTarget 669) sendRecvMapping := by
  have hIff :=
    selected_id_correct_iff sendRecvKernel sendRecvPtx
      (compareEntryPtx "669") sendRecvMapping
      (sendRecvTarget 669) (by decide +kernel)
  rw [hIff]
  intro f hOnly
  have hCompared :
      669 ∈ setEqImmediates (compareEntryPtx "669") := by
    decide +kernel
  have hIs := (hOnly 669).mp ⟨hCompared, by decide⟩
  rw [← hIs]
  rfl

/- The compare is of some other register, with 5. -/
theorem not_selected_id_correct :
    selectTarget sendRecvKernel sendRecvPtx
        (compareEntryPtx "5") =
      some (sendRecvTarget 5) ∧
    sendRecvMapping.find? 669 =
      some (sendRecvTarget 5).functionName ∧
    ¬ IdCorrect (sendRecvTarget 5) sendRecvMapping := by
  refine ⟨by decide +kernel, rfl, ?_⟩
  intro hCorrect
  have hWrong := hCorrect 5 rfl
  have hAbsent : sendRecvMapping.find? 5 = none := rfl
  rw [hAbsent] at hWrong
  contradiction

end Nccl

end FabricPerf
