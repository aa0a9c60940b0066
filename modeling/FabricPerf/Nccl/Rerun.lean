import FabricPerf.Nccl.Pairing

/-
  When a run of the redirects finds nothing to redirect.

  Main declarations:
    * `Nccl.Settled`
    * `Nccl.redirectsOf_eq_nil_iff`
-/

------------------------------------------------------------
-- Nothing Left To Redirect
------------------------------------------------------------

namespace FabricPerf

namespace Nccl

open Text

/-
  No compare of the function id has a branch to redirect in
  its window: a branch on its predicate in the next 79 lines
  belongs to an `eq` compare, and is not followed by an
  unconditional branch to elsewhere.
-/
def Settled (functionId : Nat) (lines : List Line) : Prop :=
  ∀ front line gap branch back dispatch m,
    lines = front ++ line :: (gap ++ branch :: back) →
      ncclDirectDispatchSet line = some dispatch →
        dispatch.funcId = functionId →
          gap.length < 79 →
            ncclPredicatedBra branch = some m →
              m.pred = dispatch.pred →
                dispatch.op = CompareOp.eq ∧
                  ∀ next rest f, back = next :: rest →
                    ncclUnconditionalBra next = some f →
                      m.target = f.target

section

variable {lines : List Line}
variable {pred : Register}
variable {b : Nat}

/- A branch that a compare passes over. -/
theorem attempt_eq_none_iff
    {dispatch : DispatchSet} :
    attempt lines dispatch b = none ↔
      ∀ line, lines[b]? = some line →
        ∀ m, ncclPredicatedBra line = some m →
          m.pred = dispatch.pred →
            dispatch.op = CompareOp.eq ∧
              ∀ next, lines[b + 1]? = some next →
                ∀ f, ncclUnconditionalBra next = some f →
                  m.target = f.target := by
  rw [attempt_eq_none_iff_accepts, accepts]
  cases hLine : lines[b]? with
  | none => simp
  | some line =>
      cases hBranch : ncclPredicatedBra line with
      | none => simp [hBranch]
      | some m =>
          by_cases hPred : m.pred = dispatch.pred
          · cases dispatch.op with
            | ne => simp [hBranch, hPred]
            | eq =>
                cases hNext : lines[b + 1]? with
                | none => simp [hBranch, hPred]
                | some next =>
                    cases hFallback :
                        ncclUnconditionalBra next with
                    | none => simp [hBranch, hPred, hFallback]
                    | some f => simp [hBranch, hPred, hFallback]
          · simp [hBranch, hPred]

/- The positions behind a gap. -/
theorem getElem?_behind
    (front gap rest : List Line)
    (line : Line)
    (k : Nat) :
    (front ++ line :: (gap ++ rest))[
        front.length + 1 + gap.length + k]? =
      rest[k]? := by
  have hSplit :
      front ++ line :: (gap ++ rest) =
        (front ++ line :: gap) ++ rest := by simp
  have hLength :
      front.length + 1 + gap.length =
        (front ++ line :: gap).length := by
    simp only [List.length_append, List.length_cons]
    omega
  rw [hSplit, hLength,
    List.getElem?_append_right (Nat.le_add_right _ k),
    Nat.add_sub_cancel_left]

/- A list split at two of its positions. -/
theorem exists_split_of_getElem?
    {idx : Nat}
    {line branch : Line}
    (hLine : lines[idx]? = some line)
    (hBranch : lines[b]? = some branch)
    (hLess : idx < b) :
    ∃ front gap back,
      lines = front ++ line :: (gap ++ branch :: back) ∧
        front.length = idx ∧ idx + 1 + gap.length = b := by
  rcases List.getElem?_eq_some_iff.mp hLine with ⟨hIdx, hHere⟩
  rcases List.getElem?_eq_some_iff.mp hBranch with ⟨hB, hThere⟩
  refine
    ⟨lines.take idx, (lines.drop (idx + 1)).take (b - (idx + 1)),
      lines.drop (b + 1), ?_, ?_, ?_⟩
  · have hRest :
        (lines.drop (idx + 1)).drop (b - (idx + 1)) =
          lines[b] :: lines.drop (b + 1) := by
      rw [List.drop_drop, Nat.add_sub_cancel' hLess,
        List.drop_eq_getElem_cons hB]
    rw [← hThere, ← hRest, List.take_append_drop, ← hHere,
      ← List.drop_eq_getElem_cons hIdx, List.take_append_drop]
  · rw [List.length_take]
    omega
  · rw [List.length_take, List.length_drop]
    omega

/- A compare without a branch to redirect. -/
theorem redirectOf_eq_none_iff
    {functionId idx : Nat}
    {line : Line} :
    redirectOf lines functionId line idx = none ↔
      ∀ dispatch, ncclDirectDispatchSet line = some dispatch →
        dispatch.funcId = functionId →
          ∀ place, idx + 1 ≤ place → place < idx + 80 →
            attempt lines dispatch place = none := by
  rw [redirectOf_eq_bind, Option.bind_eq_none_iff]
  simp only [Option.filter_eq_some_iff, beq_iff_eq,
    List.findSome?_eq_none_iff, mem_pyRange_iff]
  constructor
  · intro hAll dispatch hDispatch hId place hFrom hTo
    exact hAll dispatch ⟨hDispatch, hId⟩ place ⟨hFrom, hTo⟩
  · intro hAll dispatch hOwn place hRange
    exact
      hAll dispatch hOwn.1 hOwn.2 place hRange.1 hRange.2

end

/- A run without redirects is one over settled lines. -/
theorem redirectsOf_eq_nil_iff
    {lines : List Line}
    {functionId : Nat} :
    redirectsOf lines functionId = [] ↔
      Settled functionId lines := by
  rw [redirectsOf, List.filterMap_eq_nil_iff]
  constructor
  · intro hAll front line gap branch back dispatch m hLines
      hDispatch hId hGap hBranch hPred
    have hHere : lines[front.length]? = some line := by
      rw [hLines]
      simp
    have hPlace :
        lines[front.length + 1 + gap.length]? = some branch := by
      rw [hLines]
      exact getElem?_behind front gap (branch :: back) line 0
    have hNone :=
      hAll (line, front.length)
        (List.mem_zipIdx_iff_getElem?.mpr hHere)
    have hWindow :=
      redirectOf_eq_none_iff.mp hNone dispatch hDispatch hId
        (front.length + 1 + gap.length) (by omega) (by omega)
    rcases attempt_eq_none_iff.mp hWindow branch hPlace m hBranch
        hPred with ⟨hOp, hFallback⟩
    refine ⟨hOp, ?_⟩
    intro next rest f hBack hNext
    have hNextAt :
        lines[front.length + 1 + gap.length + 1]? = some next := by
      rw [hLines, hBack]
      exact
        getElem?_behind front gap (branch :: next :: rest) line 1
    exact hFallback next hNextAt f hNext
  · intro hSettled numbered hMem
    have hHere := List.mem_zipIdx_iff_getElem?.mp hMem
    rw [redirectOf_eq_none_iff]
    intro dispatch hDispatch hId place hFrom hTo
    rw [attempt_eq_none_iff]
    intro branch hBranchAt m hBranch hPred
    rcases exists_split_of_getElem? hHere hBranchAt hFrom with
      ⟨front, gap, back, hLines, hFront, hGap⟩
    rcases hSettled front numbered.1 gap branch back dispatch m
        hLines hDispatch hId (by omega) hBranch hPred with
      ⟨hOp, hFallback⟩
    refine ⟨hOp, ?_⟩
    intro next hNextAt f hNext
    have hPlace : back[0]? = some next := by
      have hBehind :=
        getElem?_behind front gap (branch :: back) numbered.1 1
      rw [hLines, ← hGap, ← hFront, hBehind,
        List.getElem?_cons_succ] at hNextAt
      exact hNextAt
    cases back with
    | nil => cases hPlace
    | cons own rest =>
        rw [List.getElem?_cons_zero, Option.some.injEq] at hPlace
        exact hFallback next rest f (by rw [hPlace]) hNext

end Nccl

end FabricPerf
