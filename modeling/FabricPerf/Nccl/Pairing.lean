import FabricPerf.Nccl.Redirect

/-
  Which branch a compare is paired with, and which compare
  writes a branch line in the end, read off the lines.

  Main declarations:
    * `Nccl.accepts`, `Nccl.pairedWith`, `Nccl.writerOf`
    * `Nccl.findSome?_pyRange_eq_some_iff`
    * `Nccl.redirectOf_eq_bind`
    * `Nccl.map_changeOf`
-/

------------------------------------------------------------
-- Pairs
------------------------------------------------------------

namespace FabricPerf

namespace Nccl

open Text

/-
  A branch a compare may redirect: one on its predicate, and
  for an `eq` compare one in front of an unconditional branch
  to elsewhere.
-/
def accepts
    (lines : List Line)
    (dispatch : DispatchSet)
    (b : Nat) : Bool :=
  match lines[b]?.bind ncclPredicatedBra with
  | none => false
  | some m =>
      m.pred == dispatch.pred &&
        match dispatch.op with
        | CompareOp.eq =>
            (lines[b + 1]?.bind ncclUnconditionalBra).any
              (fun f => m.target != f.target)
        | CompareOp.ne => true

/- The first such branch in the 79 lines behind a compare. -/
def pairedWith
    (lines : List Line)
    (dispatch : DispatchSet)
    (idx b : Nat) : Bool :=
  decide (idx < b ∧ b < idx + 80) &&
    accepts lines dispatch b &&
    (pyRange (idx + 1) b).all
      (fun c => !accepts lines dispatch c)

/- The last compare of the id that is paired with a line. -/
def writerOf
    (lines : List Line)
    (functionId : Nat)
    (b : Nat) : Option DispatchSet :=
  lines.zipIdx.reverse.findSome? fun numbered =>
    (ncclDirectDispatchSet numbered.1).filter fun dispatch =>
      dispatch.funcId == functionId &&
        pairedWith lines dispatch numbered.2 b

------------------------------------------------------------
-- The Window Of A Compare
------------------------------------------------------------

/- The positions of Python's `range`. -/
theorem mem_pyRange_iff
    {start stop place : Nat} :
    place ∈ pyRange start stop ↔ start ≤ place ∧ place < stop := by
  rw [pyRange, List.mem_range'_1]
  omega

/- The first position with a result. -/
theorem findSome?_pyRange_eq_some_iff
    {α : Type}
    {f : Nat → Option α}
    {start stop : Nat}
    {a : α} :
    (pyRange start stop).findSome? f = some a ↔
      ∃ place, start ≤ place ∧ place < stop ∧ f place = some a ∧
        ∀ c, start ≤ c → c < place → f c = none := by
  unfold pyRange
  induction hCount : stop - start generalizing start with
  | zero =>
      simp only [List.range'_zero, List.findSome?_nil]
      constructor
      · intro hNone
        cases hNone
      · rintro ⟨place, hFrom, hTo, -⟩
        omega
  | succ count ih =>
      have hLater := @ih (start + 1) (by omega)
      rw [List.range'_succ, List.findSome?_cons]
      cases hHere : f start with
      | some own =>
          constructor
          · intro hOwn
            exact
              ⟨start, le_refl start, by omega, hHere.trans hOwn,
                fun c hFrom hTo => by omega⟩
          · rintro ⟨place, hFrom, hTo, hPlace, hFirst⟩
            rcases Nat.eq_or_lt_of_le hFrom with hSame | hLess
            · rw [← hSame, hHere] at hPlace
              exact hPlace
            · have hNone := hFirst start (le_refl start) hLess
              rw [hHere] at hNone
              cases hNone
      | none =>
          dsimp only
          rw [hLater]
          constructor
          · rintro ⟨place, hFrom, hTo, hPlace, hFirst⟩
            refine ⟨place, by omega, hTo, hPlace, ?_⟩
            intro c hC hLess
            rcases Nat.eq_or_lt_of_le hC with hSame | hBehind
            · rw [← hSame]
              exact hHere
            · exact hFirst c hBehind hLess
          · rintro ⟨place, hFrom, hTo, hPlace, hFirst⟩
            rcases Nat.eq_or_lt_of_le hFrom with hSame | hLess
            · rw [← hSame, hHere] at hPlace
              cases hPlace
            · exact
                ⟨place, hLess, hTo, hPlace,
                  fun c hC hBefore =>
                    hFirst c (by omega) hBefore⟩

/- Positions without results may be left out. -/
theorem findSome?_pyRange_min
    {α : Type}
    {f : Nat → Option α}
    {start stop bound : Nat}
    (hNone : ∀ place, bound ≤ place → f place = none) :
    (pyRange start (min stop bound)).findSome? f =
      (pyRange start stop).findSome? f := by
  apply Option.ext
  intro a
  rw [findSome?_pyRange_eq_some_iff,
    findSome?_pyRange_eq_some_iff]
  constructor
  · rintro ⟨place, hFrom, hTo, hPlace, hFirst⟩
    exact ⟨place, hFrom, by omega, hPlace, hFirst⟩
  · rintro ⟨place, hFrom, hTo, hPlace, hFirst⟩
    refine ⟨place, hFrom, ?_, hPlace, hFirst⟩
    by_contra hOut
    rw [hNone place (by omega)] at hPlace
    cases hPlace

------------------------------------------------------------
-- The Redirect Of A Compare
------------------------------------------------------------

/- What a compare makes of a line. -/
def attempt
    (lines : List Line)
    (dispatch : DispatchSet)
    (b : Nat) : Option Redirect :=
  match dispatch.op with
  | CompareOp.eq => eqRedirectAt lines dispatch.pred b
  | CompareOp.ne => neRedirectAt lines dispatch.pred b

section

variable {lines : List Line}
variable {dispatch : DispatchSet}

/- A redirect is one of the line, with the compare's op. -/
theorem attempt_eq_some
    {b : Nat}
    {r : Redirect}
    (hAttempt : attempt lines dispatch b = some r) :
    r.branchIdx = b ∧ r.op = dispatch.op := by
  unfold attempt at hAttempt
  cases hOp : dispatch.op with
  | eq =>
      rw [hOp] at hAttempt
      simp only [eqRedirectAt, bind, Option.bind_eq_some_iff,
        Option.ite_none_left_eq_some, Option.some.injEq]
        at hAttempt
      rcases hAttempt with ⟨_, _, _, _, _, _, _, _, _, _, hEq⟩
      rw [← hEq]
      exact ⟨rfl, rfl⟩
  | ne =>
      rw [hOp] at hAttempt
      simp only [neRedirectAt, bind, Option.bind_eq_some_iff,
        Option.ite_none_left_eq_some, Option.some.injEq]
        at hAttempt
      rcases hAttempt with ⟨_, _, _, _, _, hEq⟩
      rw [← hEq]
      exact ⟨rfl, rfl⟩

/- A compare redirects the branches it accepts. -/
theorem isSome_attempt (b : Nat) :
    (attempt lines dispatch b).isSome =
      accepts lines dispatch b := by
  unfold attempt accepts
  cases hLine : lines[b]? with
  | none =>
      cases dispatch.op with
      | eq => simp [eqRedirectAt, hLine]
      | ne => simp [neRedirectAt, hLine]
  | some line =>
      cases hBranch : ncclPredicatedBra line with
      | none =>
          cases dispatch.op with
          | eq =>
              cases hNext : lines[b + 1]? with
              | none => simp [eqRedirectAt, hNext, hBranch]
              | some next =>
                  simp [eqRedirectAt, hLine, hNext, hBranch]
          | ne => simp [neRedirectAt, hLine, hBranch]
      | some m =>
          by_cases hPred : m.pred = dispatch.pred
          · cases dispatch.op with
            | eq =>
                cases hNext : lines[b + 1]? with
                | none =>
                    simp [eqRedirectAt, hLine, hNext, hBranch]
                | some next =>
                    cases hFallback :
                        ncclUnconditionalBra next with
                    | none =>
                        simp [eqRedirectAt, hLine, hNext,
                          hBranch, hFallback]
                    | some f =>
                        by_cases hTarget : m.target = f.target
                        · simp [eqRedirectAt, hLine, hNext,
                            hBranch, hFallback, hTarget]
                        · simp [eqRedirectAt, hLine, hNext,
                            hBranch, hFallback, hTarget, hPred]
            | ne => simp [neRedirectAt, hLine, hBranch, hPred]
          · cases dispatch.op with
            | eq =>
                cases hNext : lines[b + 1]? with
                | none =>
                    simp [eqRedirectAt, hLine, hNext, hBranch]
                | some next =>
                    simp [eqRedirectAt, hLine, hNext, hBranch,
                      hPred]
            | ne => simp [neRedirectAt, hLine, hBranch, hPred]

theorem attempt_eq_none_iff_accepts {b : Nat} :
    attempt lines dispatch b = none ↔
      accepts lines dispatch b = false := by
  rw [← isSome_attempt, Option.isSome_eq_false_iff,
    Option.isNone_iff_eq_none]

end

/- The search through the window of a compare of the id. -/
theorem redirectOf_eq_bind
    (lines : List Line)
    (functionId : Nat)
    (line : Line)
    (idx : Nat) :
    redirectOf lines functionId line idx =
      ((ncclDirectDispatchSet line).filter
        (fun dispatch => dispatch.funcId == functionId)).bind
        fun dispatch =>
          (pyRange (idx + 1) (idx + 80)).findSome?
            (attempt lines dispatch) := by
  unfold redirectOf attempt
  cases ncclDirectDispatchSet line with
  | none => rfl
  | some dispatch =>
      by_cases hId : dispatch.funcId = functionId
      · simp only [bind, Option.bind_some, Option.filter_some,
          hId, ne_eq, not_true_eq_false, if_false,
          beq_self_eq_true, if_true]
        cases dispatch.op with
        | eq =>
            apply findSome?_pyRange_min
            intro b hBehind
            have hNext : lines[b + 1]? = none := by
              rw [List.getElem?_eq_none_iff]
              omega
            simp [eqRedirectAt, hNext]
        | ne =>
            apply findSome?_pyRange_min
            intro b hBehind
            simp [neRedirectAt, List.getElem?_eq_none hBehind]
      · simp [Option.filter_some, hId]

------------------------------------------------------------
-- The Last Writer Of A Branch
------------------------------------------------------------

/- A compare is paired with the first branch it redirects. -/
theorem pairedWith_iff
    {lines : List Line}
    {dispatch : DispatchSet}
    {idx b : Nat} :
    pairedWith lines dispatch idx b = true ↔
      ∃ r,
        (pyRange (idx + 1) (idx + 80)).findSome?
            (attempt lines dispatch) = some r ∧
          r.branchIdx = b := by
  unfold pairedWith
  simp only [Bool.and_eq_true, decide_eq_true_eq,
    List.all_eq_true, mem_pyRange_iff, Bool.not_eq_true']
  constructor
  · rintro ⟨⟨⟨hFrom, hTo⟩, hHere⟩, hFirst⟩
    rw [← isSome_attempt, Option.isSome_iff_exists] at hHere
    rcases hHere with ⟨r, hAttempt⟩
    refine ⟨r, ?_, (attempt_eq_some hAttempt).1⟩
    exact
      findSome?_pyRange_eq_some_iff.mpr
        ⟨b, hFrom, hTo, hAttempt,
          fun c hC hBefore =>
            attempt_eq_none_iff_accepts.mpr
              (hFirst c ⟨hC, hBefore⟩)⟩
  · rintro ⟨r, hFound, hBranch⟩
    rcases findSome?_pyRange_eq_some_iff.mp hFound with
      ⟨place, hFrom, hTo, hAttempt, hFirst⟩
    have hPlace : place = b :=
      (attempt_eq_some hAttempt).1.symm.trans hBranch
    rw [hPlace] at hAttempt hFrom hTo hFirst
    have hAccepts : accepts lines dispatch b = true := by
      rw [← isSome_attempt, hAttempt]
      rfl
    exact
      ⟨⟨⟨hFrom, hTo⟩, hAccepts⟩,
        fun c hRange =>
          attempt_eq_none_iff_accepts.mp
            (hFirst c hRange.1 hRange.2)⟩

section

variable {κ : Type}
variable {lines : List Line}
variable {f : Redirect → κ}
variable {g : DispatchSet → κ}

/- A compare redirects a line if it is paired with it. -/
theorem map_filter_redirectOf
    (hSame :
      ∀ dispatch b r,
        attempt lines dispatch b = some r → f r = g dispatch)
    (functionId : Nat)
    (line : Line)
    (idx b : Nat) :
    ((redirectOf lines functionId line idx).filter
        (fun r => r.branchIdx == b)).map f =
      ((ncclDirectDispatchSet line).filter (fun dispatch =>
        dispatch.funcId == functionId &&
          pairedWith lines dispatch idx b)).map g := by
  rw [redirectOf_eq_bind]
  cases ncclDirectDispatchSet line with
  | none => rfl
  | some dispatch =>
      rw [Option.filter_some, Option.filter_some]
      cases dispatch.funcId == functionId with
      | false => rfl
      | true =>
          rw [if_pos rfl, Option.bind_some, Bool.true_and]
          cases hFound :
              (pyRange (idx + 1) (idx + 80)).findSome?
                (attempt lines dispatch) with
          | none =>
              have hPaired :
                  pairedWith lines dispatch idx b = false := by
                rw [← Bool.not_eq_true, pairedWith_iff, hFound]
                simp
              rw [hPaired]
              rfl
          | some r =>
              have hPaired :
                  pairedWith lines dispatch idx b =
                    (r.branchIdx == b) := by
                rw [Bool.eq_iff_iff, pairedWith_iff, hFound]
                simp
              rcases findSome?_pyRange_eq_some_iff.mp hFound with
                ⟨place, hFrom, hTo, hAttempt, hFirst⟩
              have hKey := hSame dispatch place r hAttempt
              rw [Option.filter_some, hPaired]
              split
              · rw [Option.map_some, Option.map_some, hKey]
              · rfl

/- The last redirect of a line is its last writer's. -/
theorem map_changeOf
    (hSame :
      ∀ dispatch b r,
        attempt lines dispatch b = some r → f r = g dispatch)
    (functionId b : Nat) :
    (changeOf lines functionId b).map f =
      (writerOf lines functionId b).map g := by
  unfold changeOf redirectsOf writerOf
  rw [← List.filterMap_reverse]
  induction lines.zipIdx.reverse with
  | nil => rfl
  | cons numbered rest ih =>
      have hHere :=
        map_filter_redirectOf hSame functionId numbered.1
          numbered.2 b
      rw [List.findSome?_cons, List.filterMap_cons]
      cases hOf :
          redirectOf lines functionId numbered.1 numbered.2 with
      | none =>
          rw [hOf, Option.filter_none, Option.map_none, eq_comm,
            Option.map_eq_none_iff] at hHere
          rw [hHere]
          exact ih
      | some r =>
          rw [hOf, Option.filter_some] at hHere
          dsimp only
          rw [List.find?_cons]
          cases hBranch : r.branchIdx == b with
          | true =>
              rw [hBranch, if_pos rfl, Option.map_some, eq_comm,
                Option.map_eq_some_iff] at hHere
              rcases hHere with ⟨dispatch, hDispatch, hKey⟩
              rw [hDispatch]
              simp [hKey]
          | false =>
              rw [hBranch, if_neg Bool.false_ne_true,
                Option.map_none, eq_comm,
                Option.map_eq_none_iff] at hHere
              rw [hHere]
              exact ih

end

/- The last redirect of a line has its writer's op. -/
theorem map_op_changeOf
    (lines : List Line)
    (functionId b : Nat) :
    (changeOf lines functionId b).map Redirect.op =
      (writerOf lines functionId b).map DispatchSet.op :=
  map_changeOf
    (fun _ _ _ hAttempt => (attempt_eq_some hAttempt).2)
    functionId b

end Nccl

end FabricPerf
