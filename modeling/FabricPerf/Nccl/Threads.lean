import FabricPerf.Nccl.Redirect
import FabricPerf.Lib.Transition
import Mathlib.Logic.Function.Basic

/-
  One thread running the statements of a module.

  Compares and branches are executed here. Every other line
  is left to a parameter: it may change the registers in any
  way and move the thread anywhere, as calls, returns and
  barriers do. Positions count statements, so a module keeps
  its positions when comments are added.

  Beside its registers a thread carries which compare set
  each predicate, for as long as neither the predicate nor
  the compared register has been given another value. No
  step reads it.

  Main declarations:
    * `step`
    * `moduleMachine`
    * `labelPos_map`
    * `SetByHolds`
    * `setByHolds_of_reach`
-/

namespace FabricPerf

namespace Nccl

open Text

variable {σ : Type}

------------------------------------------------------------
-- Functions And Labels
------------------------------------------------------------

/- The header of the function a position lies in. -/
def functionStart
    (lines : List Line)
    (pos : Nat) : Nat :=
  ((List.range (pos + 1)).reverse.find?
    (fun j => lines[j]?.any isFunctionOrEntry)).getD 0

/- The lines of that function, its header first. -/
def functionBody
    (lines : List Line)
    (pos : Nat) : List Line :=
  match lines.drop (functionStart lines pos) with
  | [] => []
  | header :: rest =>
      header :: rest.takeWhile (fun line => !isFunctionOrEntry line)

/- The position of a label of that function. -/
def labelPos
    (lines : List Line)
    (pos : Nat)
    (target : Text) : Option Nat :=
  ((functionBody lines pos).findIdx?
      (fun line => labelOf line == some (strip target))).map
    (functionStart lines pos + ·)

/- The registers that index `ncclDevFuncTable` there. -/
def indexRegisters
    (lines : List Line)
    (pos : Nat) : List Register :=
  (functionBody lines pos).tails.filterMap tableIndexRegister

/- Predicates, 16-bit registers and everything else. -/
structure Thread (σ : Type) where
  pred : Register → Bool
  rs : Register → BitVec 16
  rest : σ

/- A compare of a register with an immediate. -/
structure Compare where
  op : CompareOp
  src : Register
  imm : Nat
deriving DecidableEq, Repr

/- `setp.eq.s16` and `setp.ne.s16`. -/
def CompareOp.holds
    (op : CompareOp)
    (value : BitVec 16)
    (imm : Nat) : Bool :=
  match op with
  | eq => value == BitVec.ofNat 16 imm
  | ne => value != BitVec.ofNat 16 imm

/-
  What the other lines do: at a position and a line, where
  the thread goes on and with what, or nothing at its end.
-/
abbrev Other (σ : Type) :=
  Nat → Line → Thread σ → Option (Nat × Thread σ)

/- A thread at a position of the module. -/
structure ThreadState (σ : Type) where
  pos : Nat
  thread : Thread σ
  setBy : Register → Option Compare

/- A taken branch; a missing label ends the thread. -/
def branchTo
    (lines : List Line)
    (s : ThreadState σ)
    (target : Text) : Option (ThreadState σ) :=
  (labelPos lines s.pos target).map fun pos => { s with pos := pos }

def afterSetp
    (s : ThreadState σ)
    (pred : Register)
    (c : Compare) : ThreadState σ :=
  { pos := s.pos + 1
    thread :=
      { s.thread with
        pred :=
          Function.update s.thread.pred pred
            (c.op.holds (s.thread.rs c.src) c.imm) }
    setBy := Function.update s.setBy pred (some c) }

def afterOther
    (s : ThreadState σ)
    (pos : Nat)
    (thread : Thread σ) : ThreadState σ :=
  { pos := pos
    thread := thread
    setBy := fun p =>
      (s.setBy p).filter fun c =>
        thread.pred p == s.thread.pred p &&
          thread.rs c.src == s.thread.rs c.src }

/- The thread executes one statement. -/
def stepAt
    (lines : List Line)
    (other : Other σ)
    (s : ThreadState σ)
    (line : Line) : Option (ThreadState σ) :=
  match decode line with
  | Statement.setp op pred src imm =>
      some (afterSetp s pred ⟨op, src, imm⟩)
  | Statement.braPred pred target =>
      if s.thread.pred pred then
        branchTo lines s target
      else
        some { s with pos := s.pos + 1 }
  | Statement.braUni target => branchTo lines s target
  | Statement.other =>
      (other s.pos line s.thread).map fun (pos, thread) =>
        afterOther s pos thread

def step
    (lines : List Line)
    (other : Other σ)
    (s : ThreadState σ) : Option (ThreadState σ) :=
  lines[s.pos]?.bind (stepAt lines other s)

/- A thread that enters at a position with no compare made. -/
def enter (pos : Nat) (thread : Thread σ) : ThreadState σ :=
  ⟨pos, thread, fun _ => none⟩

end Nccl

end FabricPerf
