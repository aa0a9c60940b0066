import FabricPerf.Lib.Transition
import Mathlib.Tactic

/-
  Machines that stop on every stream of actions.

  A machine that takes its actions from outside (the values
  its loads return) stops on all of them if some measure
  falls with every step.  `Countdown.left` is the measure of
  a loop that counts a register up to a bound.

  Main declarations:
    * `Machine.Halts`
    * `Machine.exists_halts`
    * `Countdown.left_succ_lt`
-/

------------------------------------------------------------
-- Halting Runs
------------------------------------------------------------

namespace Machine

variable {σ α : Type}
variable {M : Machine σ α}

/-
  The run that takes its actions from the stream stops: it
  reaches `last`, which refuses the next action.
-/
def Halts
    (M : Machine σ α)
    (s : σ)
    (stream : Nat → α)
    (last : σ) : Prop :=
  ∃ n,
    M.run s ((List.range n).map stream) = some last ∧
      M.step last (stream n) = none

/- A stopped run from an initial state ends in a reachable one. -/
theorem Halts.reachable
    {s last : σ}
    {stream : Nat → α}
    (hHalts : M.Halts s stream last)
    (hInit : M.init s) :
    M.Reachable last := by
  rcases hHalts with ⟨n, hRun, hRefuses⟩
  exact reachable_of_run (Reach.init hInit) hRun

/- One step and a stopped run make a stopped run. -/
theorem Halts.cons
    {s next last : σ}
    {stream : Nat → α}
    (hStep : M.step s (stream 0) = some next)
    (hHalts : M.Halts next (fun i => stream (i + 1)) last) :
    M.Halts s stream last := by
  rcases hHalts with ⟨n, hRun, hRefuses⟩
  refine ⟨n + 1, ?_, hRefuses⟩
  have hActions :
      (List.range (n + 1)).map stream =
        stream 0 ::
          (List.range n).map (fun i => stream (i + 1)) := by
    simp [List.range_succ_eq_map, Function.comp_def]
  rw [hActions]
  simpa [run, runWhile, hStep] using hRun

/-
  The termination rule: if every step lowers a measure into
  a well-founded order, every stream of actions stops.
-/
theorem exists_halts
    {μ : Type}
    [LT μ]
    [WellFoundedLT μ]
    (measure : σ → μ)
    (hFalls :
      ∀ s a s', M.step s a = some s' →
        measure s' < measure s)
    (s : σ)
    (stream : Nat → α) :
    ∃ last, M.Halts s stream last := by
  generalize hStart : measure s = start
  induction start using WellFoundedLT.induction
      generalizing s stream with
  | ind start ih =>
      cases hStep : M.step s (stream 0) with
      | none =>
          exact ⟨s, 0, rfl, hStep⟩
      | some next =>
          have hLess : measure next < start := by
            rw [← hStart]
            exact hFalls s (stream 0) next hStep
          rcases ih (measure next) hLess next
              (fun i => stream (i + 1)) rfl with
            ⟨last, hHalts⟩
          exact ⟨last, Halts.cons hStep hHalts⟩

end Machine

------------------------------------------------------------
-- Counting Loops
------------------------------------------------------------

namespace Countdown

variable {w : Nat}

/-
  The further rounds of a loop that adds one to a register
  and goes on while the sum is below the bound.
-/
def left (bound x : BitVec w) : Nat :=
  bound.toNat - (x + 1).toNat

/- A round that goes on leaves fewer rounds. -/
theorem left_succ_lt
    {bound x : BitVec w}
    (hBelow : (x + 1).ult bound = true) :
    left bound (x + 1) < left bound x := by
  have hLess : (x + 1).toNat < bound.toNat := by
    simpa [BitVec.ult] using hBelow
  have hFits : (x + 1).toNat + 1 < 2 ^ w := by
    have hBound := bound.isLt
    omega
  have hNext : (x + 1 + 1).toNat = (x + 1).toNat + 1 := by
    have hOne : 1 < 2 ^ w := by
      omega
    have hUnit : (1 : BitVec w).toNat = 1 := by
      simp [Nat.mod_eq_of_lt hOne]
    rw [BitVec.toNat_add, hUnit, Nat.mod_eq_of_lt hFits]
  unfold left
  omega

end Countdown
