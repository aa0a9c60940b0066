import FabricPerf.Nccl.Rerun
import FabricPerf.Nccl.Written
import Mathlib.Algebra.Ring.Nat

/-
  The condition on a module under which its rewritten lines
  hold nothing more to redirect.

  Main declarations:
    * `Nccl.marks`, `Nccl.distance`
    * `Nccl.Repeatable`
    * `Nccl.repeatable_of_settled`
    * `Nccl.settled_of_repeatable`
-/

------------------------------------------------------------
-- The Condition
------------------------------------------------------------

namespace FabricPerf

namespace Nccl

open Text

/- A line, and the compare that redirects it in the end. -/
structure Mark where
  line : Line
  writer : Option CompareOp
deriving DecidableEq, Repr

/- The lines of a module with their writers. -/
def marks
    (lines : List Line)
    (functionId : Nat) : List Mark :=
  lines.mapIdx fun b line =>
    ⟨line, (writerOf lines functionId b).map DispatchSet.op⟩

/- How many lines are written where a line stands. -/
def Mark.length
    (symbols : List Text)
    (m : Mark) : Nat :=
  if generatedDeclLine symbols m.line then
    0
  else if m.writer.isSome then
    2
  else
    1

/-
  How many lines are written between a compare and a branch:
  those of the lines between them, the comment of the branch,
  and the declarations if the first header is between them.
-/
def distance
    (symbols : List Text)
    (lines : List Line)
    (before between : List Mark)
    (branch : Mark) : Nat :=
  (between.map (Mark.length symbols)).sum +
    (if branch.writer.isSome then 1 else 0) +
    (if before.any (fun m => isHeader symbols m.line) then
      0
    else if between.any (fun m => isHeader symbols m.line) then
      blockLength symbols lines
    else
      0)

/-
  Every branch on the predicate of a compare of the id, in
  the 79 lines written behind that compare, becomes an
  unconditional one; or the compare is an `eq` one and the
  branch, unless redirected, is not followed by an
  unconditional branch to elsewhere.
-/
def Repeatable
    (symbols : List Text)
    (functionId : Nat)
    (lines : List Line) : Prop :=
  ∀ before compare between branch after dispatch m,
    marks lines functionId =
        before ++ compare :: (between ++ branch :: after) →
      ncclDirectDispatchSet compare.line = some dispatch →
        dispatch.funcId = functionId →
          ncclPredicatedBra branch.line = some m →
            m.pred = dispatch.pred →
              distance symbols lines before between branch < 79 →
                branch.writer = some CompareOp.ne ∨
                  dispatch.op = CompareOp.eq ∧
                    (branch.writer = none →
                      ∀ skipped next rest f,
                        after = skipped ++ next :: rest →
                          (∀ other ∈ skipped,
                            generatedDeclLine symbols
                              other.line = true) →
                            ncclUnconditionalBra next.line =
                                some f →
                              m.target = f.target)

------------------------------------------------------------
-- Sites And Marks
------------------------------------------------------------

/- The mark of a site. -/
def Site.mark (s : Site) : Mark where
  line := s.line
  writer := s.change.map Redirect.op

theorem marks_eq_map
    (lines : List Line)
    (functionId : Nat) :
    marks lines functionId =
      (siteList lines functionId).map Site.mark := by
  apply List.ext_getElem?
  intro b
  rw [marks, siteList, List.getElem?_mapIdx, List.getElem?_map,
    List.getElem?_mapIdx, Option.map_map]
  apply congrArg (fun f => Option.map f lines[b]?)
  funext line
  rw [Function.comp_apply, Site.mark, map_op_changeOf]

/- A decoded predicated branch is matched. -/
theorem exists_of_decode_braPred
    {line : Line}
    {pred : Register}
    {target : Text}
    (hDecode : decode line = Statement.braPred pred target) :
    ∃ m, ncclPredicatedBra line = some m ∧
      m.pred = pred ∧ m.target = target := by
  unfold decode at hDecode
  split at hDecode
  case h_1 dispatch hDispatch =>
    split at hDecode
    · cases hDecode
    · cases hDecode
  case h_2 hDispatch =>
    split at hDecode
    case h_1 m hBranch =>
      split at hDecode
      · rw [Statement.braPred.injEq] at hDecode
        exact ⟨m, hBranch, hDecode⟩
      · cases hDecode
    case h_2 hBranch =>
      split at hDecode
      · split at hDecode
        · cases hDecode
        · cases hDecode
      · cases hDecode

section

variable {lines : List Line}
variable {s : Site}

/- A redirect that is not an `ne` one is an `eq` one. -/
theorem Site.op_eq_of_writer_ne
    (hWriter : s.mark.writer ≠ some CompareOp.ne)
    {r : Redirect}
    (hChange : s.change = some r) :
    r.op = CompareOp.eq := by
  cases hOp : r.op with
  | eq => rfl
  | ne =>
      rw [Site.mark, hChange, Option.map_some, hOp] at hWriter
      exact absurd rfl hWriter

/- What a redirect leaves of a predicated branch. -/
theorem Site.Valid.newLine_predicated
    (hValid : s.Valid lines)
    {m : PredicatedBra}
    (hBranch : ncclPredicatedBra s.line = some m)
    (hWriter : s.mark.writer ≠ some CompareOp.ne) :
    ∃ own, ncclPredicatedBra s.newLine = some own ∧
      own.pred = m.pred ∧
      (s.change = none → own = m) ∧
      ∀ r, s.change = some r → own.target = r.target := by
  cases hChange : s.change with
  | none =>
      refine ⟨m, ?_, rfl, fun _ => rfl, ?_⟩
      · rw [Site.newLine, hChange]
        exact hBranch
      · intro r hNone
        cases hNone
  | some r =>
      rcases hValid.change r hChange with ⟨hRedirect, hOld⟩
      have hOp := Site.op_eq_of_writer_ne hWriter hChange
      rcases hRedirect.branch with ⟨old, hMatch, -, hPred, -⟩
      rw [hOld, hBranch, Option.some.injEq] at hMatch
      rcases exists_of_decode_braPred
          (decode_predicatedLine hRedirect.indent_space
            hRedirect.pred_ok hRedirect.target_ok) with
        ⟨own, hOwn, hOwnPred, hOwnTarget⟩
      refine ⟨own, ?_, ?_, ?_, ?_⟩
      · rw [Site.newLine, hChange, Option.map_some,
          Option.getD_some, Redirect.newLine, hOp]
        exact hOwn
      · rw [hOwnPred, ← hPred, hMatch]
      · intro hNone
        cases hNone
      · intro other hOther
        rw [Option.some.injEq] at hOther
        rw [← hOther]
        exact hOwnTarget

/- What a written predicated branch was. -/
theorem Site.Valid.line_predicated
    (hValid : s.Valid lines)
    {own : PredicatedBra}
    (hOwn : ncclPredicatedBra s.newLine = some own) :
    ∃ m, ncclPredicatedBra s.line = some m ∧
      s.mark.writer ≠ some CompareOp.ne := by
  cases hChange : s.change with
  | none =>
      refine ⟨own, ?_, ?_⟩
      · rw [Site.newLine, hChange] at hOwn
        exact hOwn
      · rw [Site.mark, hChange]
        exact fun hNone => by cases hNone
  | some r =>
      rcases hValid.change r hChange with ⟨hRedirect, hOld⟩
      rcases hRedirect.branch with ⟨m, hMatch, -⟩
      refine ⟨m, ?_, ?_⟩
      · rw [← hOld]
        exact hMatch
      · intro hWriter
        rw [Site.mark, hChange, Option.map_some,
          Option.some.injEq] at hWriter
        have hFirst := firstChar_ncclPredicatedBra hOwn
        rw [Site.newLine, hChange, Option.map_some,
          Option.getD_some, Redirect.newLine, hWriter, firstChar,
          skipSpaces_uniLine r.target hRedirect.indent_space]
          at hFirst
        cases hFirst

/- A compare is written as it is. -/
theorem Site.Valid.change_of_compare
    (hValid : s.Valid lines)
    {dispatch : DispatchSet}
    (hDispatch : ncclDirectDispatchSet s.newLine = some dispatch) :
    s.change = none ∧ s.newLine = s.line := by
  cases hChange : s.change with
  | none =>
      refine ⟨rfl, ?_⟩
      rw [Site.newLine, hChange]
      rfl
  | some r =>
      have hRedirect := (hValid.change r hChange).1
      have hFirst := firstChar_ncclDirectDispatchSet hDispatch
      rw [Site.newLine, hChange, Option.map_some,
        Option.getD_some] at hFirst
      rcases hRedirect.firstChar_newLine with hAt | hUni
      · rw [hFirst] at hAt
        cases hAt
      · rw [hFirst] at hUni
        cases hUni

/- A branch is redirected by what a compare makes of it. -/
theorem exists_attempt_of_redirectOf
    {functionId idx : Nat}
    {line : Line}
    {r : Redirect}
    (hOf : redirectOf lines functionId line idx = some r) :
    ∃ dispatch, attempt lines dispatch r.branchIdx = some r := by
  rw [redirectOf_eq_bind, Option.bind_eq_some_iff] at hOf
  rcases hOf with ⟨dispatch, -, hFound⟩
  rcases findSome?_pyRange_eq_some_iff.mp hFound with
    ⟨place, hFrom, hTo, hAttempt, hFirst⟩
  refine ⟨dispatch, ?_⟩
  rw [(attempt_eq_some hAttempt).1]
  exact hAttempt

/-
  The branch an `eq` compare redirects is followed by the
  branch to the fallback.
-/
theorem exists_next_of_eq
    {functionId : Nat}
    {before after : List Site}
    {r : Redirect}
    (hSites : siteList lines functionId = before ++ s :: after)
    (hChange : s.change = some r)
    (hOp : r.op = CompareOp.eq) :
    ∃ next rest f,
      after = next :: rest ∧
        ncclUnconditionalBra next.line = some f ∧
        f.target = r.target := by
  have hSite :
      (siteList lines functionId)[before.length]? = some s := by
    rw [hSites]
    simp
  rw [siteList, List.getElem?_mapIdx, Option.map_eq_some_iff]
    at hSite
  rcases hSite with ⟨line, hLine, hEq⟩
  rw [← hEq] at hChange
  have hFound := List.mem_of_find?_eq_some hChange
  have hAt : r.branchIdx = before.length := by
    simpa using List.find?_some hChange
  rcases List.mem_filterMap.mp (List.mem_reverse.mp hFound) with
    ⟨numbered, -, hOf⟩
  rcases exists_attempt_of_redirectOf hOf with
    ⟨dispatch, hAttempt⟩
  have hDispatch := (attempt_eq_some hAttempt).2
  rw [hOp] at hDispatch
  rw [attempt, ← hDispatch, hAt] at hAttempt
  simp only [eqRedirectAt, bind, Option.bind_eq_some_iff,
    Option.ite_none_left_eq_some, Option.some.injEq] at hAttempt
  rcases hAttempt with
    ⟨_, _, next, hNext, _, _, f, hFallback, _, _, hRedirect⟩
  have hBehind :
      (siteList lines functionId)[before.length + 1]? =
        some ⟨next, changeOf lines functionId
          (before.length + 1)⟩ := by
    rw [siteList, List.getElem?_mapIdx, hNext]
    rfl
  rw [hSites, List.getElem?_append_right (Nat.le_add_right _ _),
    Nat.add_sub_cancel_left, List.getElem?_cons_succ] at hBehind
  cases after with
  | nil => cases hBehind
  | cons own rest =>
      rw [List.getElem?_cons_zero, Option.some.injEq] at hBehind
      refine ⟨own, rest, f, rfl, ?_, ?_⟩
      · rw [hBehind]
        exact hFallback
      · rw [← hRedirect]

------------------------------------------------------------
-- Written Distances
------------------------------------------------------------

variable {symbols : List Text}

/- How many lines are written for some lines. -/
theorem length_writtenFrom
    (block : List Line)
    {ss : List Site}
    (hValid : ∀ t ∈ ss, t.Valid lines) :
    (writtenFrom symbols block ss).length =
      ((ss.map Site.mark).map (Mark.length symbols)).sum +
        if (ss.map Site.mark).any
            (fun m => isHeader symbols m.line) then
          block.length
        else
          0 := by
  induction ss generalizing block with
  | nil => rfl
  | cons t ss ih =>
      have hHere := hValid t List.mem_cons_self
      have hLater : ∀ own ∈ ss, own.Valid lines :=
        fun own hMem => hValid own (List.mem_cons_of_mem t hMem)
      have hLength :
          t.lines.length =
            if t.mark.writer.isSome then 2 else 1 := by
        rcases hHere.lines_eq with ⟨comment, hLines, -, hCount⟩
        rw [hLines, List.length_append, hCount, Site.mark,
          Option.isSome_map]
        split
        · rfl
        · rfl
      rw [writtenFrom]
      cases hGenerated : generatedDeclLine symbols t.line with
      | true =>
          simp only [if_true, ih block hLater, List.map_cons,
            List.sum_cons, List.any_cons]
          simp [Mark.length, Site.mark, hGenerated, isHeader]
      | false =>
          have hMark : t.mark.length symbols = t.lines.length := by
            rw [hLength, Mark.length]
            simp [Site.mark, hGenerated]
          cases hHeader : isFunctionOrEntry t.line with
          | true =>
              have hAny :
                  isHeader symbols t.mark.line = true := by
                simp [isHeader, Site.mark, hGenerated, hHeader]
              simp only [Bool.false_eq_true, if_false, if_true,
                List.length_append, ih [] hLater, List.map_cons,
                List.sum_cons, List.any_cons, hMark, hAny,
                Bool.true_or, List.length_nil, ite_self]
              omega
          | false =>
              have hAny :
                  isHeader symbols t.mark.line = false := by
                simp [isHeader, Site.mark, hHeader]
              simp only [Bool.false_eq_true, if_false,
                List.length_append, ih block hLater,
                List.map_cons, List.sum_cons, List.any_cons,
                hMark, hAny, Bool.false_or]
              omega

/- The block is written once. -/
theorem length_leftOver
    (block : List Line)
    (ss : List Site) :
    (leftOver symbols block ss).length =
      if (ss.map Site.mark).any
          (fun m => isHeader symbols m.line) then
        0
      else
        block.length := by
  have hAny :
      (ss.map Site.mark).any (fun m => isHeader symbols m.line) =
        ss.any (fun t => isHeader symbols t.line) := by
    rw [List.any_map]
    rfl
  rw [leftOver, hAny]
  split
  · rfl
  · rfl

/- What is written between a compare and a branch. -/
theorem length_gap
    {block : List Line}
    {before between : List Site}
    {branch : Site}
    {comment : List Line}
    {x : Line}
    (hBetween : ∀ t ∈ between, t.Valid lines)
    (hBranch : branch.Valid lines)
    (hLines : branch.lines = comment ++ [x])
    (hBlock : block.length = blockLength symbols lines) :
    (writtenFrom symbols (leftOver symbols block before)
          between ++ comment).length =
      distance symbols lines (before.map Site.mark)
        (between.map Site.mark) branch.mark := by
  have hComment :
      comment.length = if branch.mark.writer.isSome then 1 else 0 := by
    rcases hBranch.lines_eq with ⟨own, hOwn, -, hCount⟩
    have hSame := congrArg List.length (hOwn.symm.trans hLines)
    rw [List.length_append, List.length_append, hCount] at hSame
    rw [Site.mark, Option.isSome_map]
    simpa using hSame.symm
  rw [List.length_append, length_writtenFrom _ hBetween,
    length_leftOver, hComment, hBlock, distance]
  split
  · omega
  · rw [ite_self]
    omega

end

------------------------------------------------------------
-- Settled Output
------------------------------------------------------------

section

variable {symbols : List Text}
variable {functionId : Nat}
variable {lines : List Line}

/- Lines without output are declarations. -/
theorem generated_of_writtenFrom_eq_nil
    {block : List Line}
    {ss : List Site}
    (hValid : ∀ t ∈ ss, t.Valid lines)
    (hNil : writtenFrom symbols block ss = []) :
    ∀ t ∈ ss, generatedDeclLine symbols t.line = true := by
  induction ss with
  | nil => exact fun t hMem => absurd hMem List.not_mem_nil
  | cons s ss ih =>
      rcases (hValid s List.mem_cons_self).lines_eq with
        ⟨comment, hLines, -⟩
      rw [writtenFrom, hLines] at hNil
      cases hGenerated : generatedDeclLine symbols s.line with
      | true =>
          rw [hGenerated, if_pos rfl] at hNil
          have hLater :=
            ih (fun t hMem => hValid t (List.mem_cons_of_mem s hMem))
              hNil
          intro t hMem
          rcases List.mem_cons.mp hMem with hHere | hRest
          · rw [hHere]
            exact hGenerated
          · exact hLater t hRest
      | false =>
          rw [hGenerated, if_neg Bool.false_ne_true] at hNil
          split at hNil
          · simp at hNil
          · simp at hNil

/- The sites of a split of the marks. -/
theorem exists_sites_of_marks
    {before between after : List Mark}
    {compare branch : Mark}
    {ss : List Site}
    (hMarks :
      ss.map Site.mark =
        before ++ compare :: (between ++ branch :: after)) :
    ∃ front s gap t back,
      ss = front ++ s :: (gap ++ t :: back) ∧
        front.map Site.mark = before ∧
        s.mark = compare ∧
        gap.map Site.mark = between ∧
        t.mark = branch ∧
        back.map Site.mark = after := by
  rcases List.map_eq_append_iff.mp hMarks with
    ⟨front, rest, hSites, hFront, hRest⟩
  rcases List.map_eq_cons_iff.mp hRest with
    ⟨s, later, hLater, hCompare, hBehind⟩
  rcases List.map_eq_append_iff.mp hBehind with
    ⟨gap, own, hOwn, hGap, hBranch⟩
  rcases List.map_eq_cons_iff.mp hBranch with
    ⟨t, back, hBack, hT, hAfter⟩
  exact
    ⟨front, s, gap, t, back,
      by rw [hSites, hLater, hOwn, hBack],
      hFront, hCompare, hGap, hT, hAfter⟩

/- A line that is looked for is written where it stands. -/
theorem plain_of_matched
    {s : Site}
    (hMatched : Matched s.line) :
    s.Plain symbols := by
  constructor
  case other =>
    cases hGenerated : generatedDeclLine symbols s.line with
    | false => rfl
    | true =>
        exact
          absurd hMatched
            (not_matched_of_dot
              (firstChar_of_generatedDeclLine hGenerated))
  case no_header =>
    cases hHeader : isFunctionOrEntry s.line with
    | false => rfl
    | true =>
        exact
          absurd hMatched
            (not_matched_of_dot
              (firstChar_of_isFunctionOrEntry hHeader))

/- Declarations write nothing where they stand. -/
theorem writtenFrom_of_generated
    (block : List Line)
    {ss : List Site}
    (hAll :
      ∀ t ∈ ss, generatedDeclLine symbols t.line = true) :
    writtenFrom symbols block ss = [] := by
  induction ss with
  | nil => rfl
  | cons s ss ih =>
      rw [writtenFrom, if_pos (hAll s List.mem_cons_self)]
      exact ih (fun t hMem => hAll t (List.mem_cons_of_mem s hMem))

/- A branch to the fallback is written as the next line. -/
theorem exists_writtenFrom_fallback
    (left : List Line)
    {hidden behind : List Site}
    {n : Site}
    {f : UnconditionalBra}
    (hValid : n.Valid lines)
    (hHidden :
      ∀ t ∈ hidden, generatedDeclLine symbols t.line = true)
    (hFallback : ncclUnconditionalBra n.line = some f) :
    ∃ rest,
      writtenFrom symbols left (hidden ++ n :: behind) =
        n.line :: rest := by
  have hPlain : n.Plain symbols :=
    plain_of_matched
      (Or.inr (Or.inr (Option.isSome_of_eq_some hFallback)))
  have hLines : n.lines = [n.line] :=
    hValid.lines_of_firstChar
      (firstChar_ncclUnconditionalBra hFallback) (by decide)
  refine
    ⟨writtenFrom symbols (leftOver symbols left hidden) behind, ?_⟩
  rw [writtenFrom_append, writtenFrom_of_generated _ hHidden,
    writtenFrom_plain _ hPlain, hLines]
  rfl

/-
  A written line that is a branch to the fallback is the next
  line that is no declaration; a redirected branch has its
  comment in front of it.
-/
theorem exists_fallback_of_writtenFrom
    {left : List Line}
    {after : List Site}
    {next : Line}
    {rest : List Line}
    {f : UnconditionalBra}
    (hValid : ∀ t ∈ after, t.Valid lines)
    (hLeft : ∀ line ∈ left, ¬ Matched line)
    (hWritten : writtenFrom symbols left after = next :: rest)
    (hFallback : ncclUnconditionalBra next = some f) :
    ∃ skipped n behind,
      after = skipped ++ n :: behind ∧
        (∀ t ∈ skipped,
          generatedDeclLine symbols t.line = true) ∧
        ncclUnconditionalBra n.line = some f := by
  have hAhead :
      writtenFrom symbols left after = [] ++ next :: rest :=
    hWritten
  rcases exists_site_of_split hValid hLeft
      (Or.inr (Or.inr (Option.isSome_of_eq_some hFallback)))
      hAhead with
    ⟨skipped, n, own, behind, hAfter, -, hLines, hNew, hNil, -⟩
  rw [eq_comm, List.append_eq_nil_iff] at hNil
  have hN : n.Valid lines := hValid n (by rw [hAfter]; simp)
  have hNone : n.change = none := by
    rcases hN.lines_eq with ⟨comment, hOwn, -, hCount⟩
    have hOne := congrArg List.length hLines
    rw [hOwn, hNil.2, List.length_append, hCount] at hOne
    cases hChange : n.change with
    | none => rfl
    | some r => simp [hChange] at hOne
  have hUnchanged : n.newLine = n.line := by
    rw [Site.newLine, hNone]
    rfl
  refine ⟨skipped, n, behind, hAfter, ?_, ?_⟩
  · have hEarlier : ∀ t ∈ skipped, t.Valid lines := by
      intro t hMem
      apply hValid
      rw [hAfter]
      exact List.mem_append_left _ hMem
    exact generated_of_writtenFrom_eq_nil hEarlier hNil.1
  · rw [← hUnchanged, hNew]
    exact hFallback

variable {lead block : List Line}

/- Where the output is settled, the module is repeatable. -/
theorem repeatable_of_settled
    (hLength : block.length = blockLength symbols lines)
    (hSettled :
      Settled functionId
        (lead ++
          writtenFrom symbols block (siteList lines functionId))) :
    Repeatable symbols functionId lines := by
  intro before compare between branch after dispatch m hMarks
    hDispatch hId hBranch hPred hDistance
  rw [marks_eq_map] at hMarks
  rcases exists_sites_of_marks hMarks with
    ⟨front, s, gap, t, back, hSites, hFront, hCompare, hGap,
      hMark, hBack⟩
  subst hFront hCompare hGap hMark hBack
  change ncclDirectDispatchSet s.line = some dispatch at hDispatch
  change ncclPredicatedBra t.line = some m at hBranch
  have hValid :
      ∀ own ∈ front ++ s :: (gap ++ t :: back), own.Valid lines := by
    intro own hMem
    rw [← hSites] at hMem
    exact siteList_valid hMem
  have hS : s.Valid lines := hValid s (by simp)
  have hT : t.Valid lines := hValid t (by simp)
  have hFirst : s.Plain symbols :=
    plain_of_matched (Or.inl (Option.isSome_of_eq_some hDispatch))
  have hSecond : t.Plain symbols :=
    plain_of_matched
      (Or.inr (Or.inl (Option.isSome_of_eq_some hBranch)))
  have hLine : s.lines = [s.line] :=
    hS.lines_of_firstChar
      (firstChar_ncclDirectDispatchSet hDispatch) (by decide)
  rcases hT.lines_eq with ⟨comment, hLines, -⟩
  by_cases hWriter : t.mark.writer = some CompareOp.ne
  · exact Or.inl hWriter
  · right
    rcases hT.newLine_predicated hBranch hWriter with
      ⟨own, hOwn, hOwnPred, hOwnSame, -⟩
    have hWritten :
        lead ++ writtenFrom symbols block
            (siteList lines functionId) =
          (lead ++ writtenFrom symbols block front) ++
            s.line ::
              ((writtenFrom symbols
                    (leftOver symbols block front) gap ++
                  comment) ++
                t.newLine ::
                  writtenFrom symbols
                    (leftOver symbols
                      (leftOver symbols block front) gap)
                    back) := by
      rw [hSites, writtenFrom_append,
        writtenFrom_plain _ hFirst, writtenFrom_append,
        writtenFrom_plain _ hSecond, hLine, hLines]
      simp
    have hGapLength :
        (writtenFrom symbols (leftOver symbols block front) gap ++
            comment).length =
          distance symbols lines (front.map Site.mark)
            (gap.map Site.mark) t.mark :=
      length_gap (fun own hMem => hValid own (by simp [hMem]))
        hT hLines hLength
    rw [← hGapLength] at hDistance
    rcases hSettled _ _ _ _ _ dispatch own hWritten hDispatch hId
        hDistance hOwn (hOwnPred.trans hPred) with
      ⟨hOp, hNext⟩
    refine ⟨hOp, ?_⟩
    intro hNone skipped next rest f hAfter hSkipped hFallback
    rcases List.map_eq_append_iff.mp hAfter with
      ⟨hidden, later, hBack, hHidden, hLater⟩
    rcases List.map_eq_cons_iff.mp hLater with
      ⟨n, behind, hBehind, hN, -⟩
    subst hN hHidden hBack hBehind
    change ncclUnconditionalBra n.line = some f at hFallback
    have hAll :
        ∀ other ∈ hidden,
          generatedDeclLine symbols other.line = true :=
      fun other hMem =>
        hSkipped other.mark (List.mem_map_of_mem hMem)
    rcases exists_writtenFrom_fallback _
        (hValid n (by simp)) hAll hFallback with
      ⟨written, hAhead⟩
    have hSame : own = m := by
      apply hOwnSame
      rw [Site.mark, Option.map_eq_none_iff] at hNone
      exact hNone
    rw [← hSame]
    exact hNext n.line written f hAhead hFallback

/- Where the module is repeatable, the output is settled. -/
theorem settled_of_repeatable
    (hLead : ∀ line ∈ lead, ¬ Matched line)
    (hBlock : ∀ line ∈ block, ¬ Matched line)
    (hLength : block.length = blockLength symbols lines)
    (hRepeatable : Repeatable symbols functionId lines) :
    Settled functionId
      (lead ++
        writtenFrom symbols block (siteList lines functionId)) := by
  intro front line gap branch back dispatch own hSplit hDispatch
    hId hGap hOwn hPred
  have hValid :
      ∀ s ∈ siteList lines functionId, s.Valid lines :=
    fun s hMem => siteList_valid hMem
  rcases split_of_not_matched hLead
      (Or.inl (Option.isSome_of_eq_some hDispatch)) hSplit with
    ⟨inner, -, hRest⟩
  rcases exists_site_of_split hValid hBlock
      (Or.inl (Option.isSome_of_eq_some hDispatch)) hRest with
    ⟨before, s, comment, later, hSites, hFirst, -, hLine, -,
      hLater⟩
  rw [hSites] at hValid
  have hLeft :
      ∀ line ∈ leftOver symbols block before, ¬ Matched line :=
    fun line hMem => hBlock line (leftOver_subset hMem)
  rcases exists_site_of_split
      (fun t hMem => hValid t (by simp [hMem])) hLeft
      (Or.inr (Or.inl (Option.isSome_of_eq_some hOwn)))
      hLater.symm with
    ⟨between, t, note, after, hBehind, hSecond, hLines, hNew,
      hGapLines, hBack⟩
  subst hBehind
  have hS : s.Valid lines := hValid s (by simp)
  have hT : t.Valid lines := hValid t (by simp)
  rw [← hLine] at hDispatch
  rw [(hS.change_of_compare hDispatch).2] at hDispatch
  rw [← hNew] at hOwn
  rcases hT.line_predicated hOwn with ⟨m, hBranch, hWriter⟩
  rcases hT.newLine_predicated hBranch hWriter with
    ⟨same, hSame, hSamePred, hSameNone, hSameTarget⟩
  rw [hOwn, Option.some.injEq] at hSame
  subst hSame
  have hMarks :
      marks lines functionId =
        before.map Site.mark ++
          s.mark ::
            (between.map Site.mark ++
              t.mark :: after.map Site.mark) := by
    rw [marks_eq_map, hSites]
    simp
  have hGapLength :
      gap.length =
        distance symbols lines (before.map Site.mark)
          (between.map Site.mark) t.mark := by
    rw [hGapLines]
    exact
      length_gap (fun own hMem => hValid own (by simp [hMem])) hT
        hLines hLength
  rw [hGapLength] at hGap
  rcases hRepeatable _ _ _ _ _ dispatch m hMarks hDispatch hId
      hBranch (hSamePred.symm.trans hPred) hGap with
    hNe | ⟨hOp, hNext⟩
  · exact absurd hNe hWriter
  · refine ⟨hOp, ?_⟩
    intro next rest f hRest hFallback
    rw [hBack] at hRest
    cases hChange : t.change with
    | none =>
        rcases exists_fallback_of_writtenFrom
            (fun own hMem => hValid own (by simp [hMem]))
            (fun line hMem => hLeft line (leftOver_subset hMem))
            hRest hFallback with
          ⟨skipped, n, behind, hAfter, hSkipped, hOwn⟩
        rw [hSameNone hChange]
        apply hNext (by rw [Site.mark, hChange]; rfl)
          (skipped.map Site.mark) n.mark (behind.map Site.mark) f
          (by simp [hAfter]) _ hOwn
        intro other hMem
        rcases List.mem_map.mp hMem with ⟨t, hT, hMark⟩
        rw [← hMark]
        exact hSkipped t hT
    | some r =>
        have hOpEq := Site.op_eq_of_writer_ne hWriter hChange
        have hAround :
            siteList lines functionId =
              (before ++ s :: between) ++ t :: after := by
          rw [hSites]
          simp
        rcases exists_next_of_eq hAround hChange hOpEq with
          ⟨n, behind, own, hAfter, hOwnFallback, hTarget⟩
        subst hAfter
        rcases exists_writtenFrom_fallback
            (leftOver symbols (leftOver symbols block before)
              between)
            (hValid n (by simp))
            (fun t hMem => absurd hMem List.not_mem_nil)
            hOwnFallback with
          ⟨written, hAhead⟩
        rw [List.nil_append] at hAhead
        rw [hAhead, List.cons.injEq] at hRest
        rw [← hRest.1, hOwnFallback, Option.some.injEq]
          at hFallback
        rw [hSameTarget r hChange, ← hTarget, hFallback]

end

end Nccl

end FabricPerf
