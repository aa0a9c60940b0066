import FabricPerf.Nccl.PtxLines
import Mathlib.Data.List.Infix

/-
  Redirecting the direct dispatch of one devFunc to the
  fallback block of its kernel.

  The prober pairs a compare with a branch on the same
  predicate name and rewrites the branch. `sites` lists the
  lines of a module with the rewrite of each, and the lines
  of the written module are read off it.

  Main declarations:
    * `redirectDirectDispatchToFallback`
    * `Redirect.Valid`
    * `sites`
    * `statements_redirect`
-/

namespace FabricPerf

namespace Nccl

open Text

------------------------------------------------------------
-- The Rewrite
------------------------------------------------------------

/- One rewritten branch line. -/
structure Redirect where
  branchIdx : Nat
  old : Line
  op : CompareOp
  indent : Text
  pred : Register
  target : Text
deriving DecidableEq, Repr

/- The branch that takes the place of the old one. -/
def Redirect.newLine (r : Redirect) : Line :=
  match r.op with
  | CompareOp.eq => predicatedLine r.indent r.pred r.target
  | CompareOp.ne => uniLine r.indent r.target

/- The old line as a comment, then the new branch. -/
def Redirect.lines (r : Redirect) : List Line :=
  [oldLine r.indent r.old, r.newLine]

/-
  A branch on the compared predicate, followed by the
  unconditional branch to the fallback. A branch that goes
  there already is passed over.
-/
def eqRedirectAt
    (lines : List Line)
    (pred : Register)
    (branchIdx : Nat) : Option Redirect := do
  let line ← lines[branchIdx]?
  let next ← lines[branchIdx + 1]?
  let predBranch ← ncclPredicatedBra line
  let fallbackBranch ← ncclUnconditionalBra next
  if predBranch.pred ≠ pred then
    none
  else if predBranch.target = fallbackBranch.target then
    none
  else
    some ⟨branchIdx, line, CompareOp.eq, predBranch.indent,
      pred, fallbackBranch.target⟩

/- A branch on the compared predicate to the fallback. -/
def neRedirectAt
    (lines : List Line)
    (pred : Register)
    (branchIdx : Nat) : Option Redirect := do
  let line ← lines[branchIdx]?
  let predBranch ← ncclPredicatedBra line
  if predBranch.pred ≠ pred then
    none
  else
    some ⟨branchIdx, line, CompareOp.ne, predBranch.indent,
      pred, predBranch.target⟩

/- Python's `range(start, stop)`. -/
def pyRange (start stop : Nat) : List Nat :=
  List.range' start (stop - start)

/- The branch paired with a compare, if there is one. -/
def redirectOf
    (lines : List Line)
    (functionId : Nat)
    (line : Line)
    (idx : Nat) : Option Redirect := do
  let dispatch ← ncclDirectDispatchSet line
  if dispatch.funcId ≠ functionId then
    none
  else
    match dispatch.op with
    | CompareOp.eq =>
        (pyRange (idx + 1)
            (min (idx + 80) (lines.length - 1))).findSome?
          (eqRedirectAt lines dispatch.pred)
    | CompareOp.ne =>
        (pyRange (idx + 1)
            (min (idx + 80) lines.length)).findSome?
          (neRedirectAt lines dispatch.pred)

/- One pass of the loop over the lines. -/
def redirectLine
    (lines : List Line)
    (functionId : Nat)
    (state : List Text × Nat)
    (numbered : Line × Nat) : List Text × Nat :=
  match redirectOf lines functionId numbered.1 numbered.2 with
  | none => state
  | some r =>
      (state.1.set r.branchIdx (joinLines r.lines), state.2 + 1)

/- `redirect_direct_dispatch_to_fallback` -/
def redirectDirectDispatchToFallback
    (ptx : Text)
    (functionId : Option Nat) : Text × Nat :=
  match functionId with
  | none => (ptx, 0)
  | some functionId =>
      let lines := splitLines ptx
      let (out, redirects) :=
        lines.zipIdx.foldl (redirectLine lines functionId)
          (lines, 0)
      (joinLines out ++ ['\n'], redirects)

------------------------------------------------------------
-- What A Redirect Is Made Of
------------------------------------------------------------

/- A redirect of a branch line of the module. -/
structure Redirect.Valid
    (lines : List Line)
    (r : Redirect) : Prop where
  old_eq : lines[r.branchIdx]? = some r.old
  branch :
    ∃ m, ncclPredicatedBra r.old = some m ∧
      m.indent = r.indent ∧ m.pred = r.pred ∧
      (r.op = CompareOp.ne → m.target = r.target)
  pred_ok : IsNumbered "%p" r.pred
  target_ok : IsOperand r.target
  target_line :
    (∀ l ∈ lines, OneLine l) → OneLine r.target

theorem eqRedirectAt_valid
    {lines : List Line}
    {pred : Register}
    {b : Nat}
    {r : Redirect}
    (hAt : eqRedirectAt lines pred b = some r) :
    r.Valid lines := by
  simp only [eqRedirectAt, bind, Option.bind_eq_some_iff,
    Option.ite_none_left_eq_some, Option.some.injEq] at hAt
  rcases hAt with
    ⟨line, hLine, next, hNext, m, hBranch, f, hFallback, hPred,
      _, hEq⟩
  have hParts := ncclPredicatedBra_eq_some hBranch
  have hTarget := ncclUnconditionalBra_eq_some hFallback
  rw [ne_eq, not_not] at hPred
  subst hEq
  constructor
  case old_eq =>
    exact hLine
  case branch =>
    exact ⟨m, hBranch, rfl, hPred, fun hOp => by simp at hOp⟩
  case pred_ok =>
    rw [← hPred]
    exact hParts.2.2.1
  case target_ok =>
    exact hTarget.1
  case target_line =>
    intro hLines
    exact (hLines next (List.mem_of_getElem? hNext)).mono
      hTarget.2

theorem neRedirectAt_valid
    {lines : List Line}
    {pred : Register}
    {b : Nat}
    {r : Redirect}
    (hAt : neRedirectAt lines pred b = some r) :
    r.Valid lines := by
  simp only [neRedirectAt, bind, Option.bind_eq_some_iff,
    Option.ite_none_left_eq_some, Option.some.injEq] at hAt
  rcases hAt with ⟨line, hLine, m, hBranch, hPred, hEq⟩
  have hParts := ncclPredicatedBra_eq_some hBranch
  rw [ne_eq, not_not] at hPred
  subst hEq
  constructor
  case old_eq =>
    exact hLine
  case branch =>
    exact ⟨m, hBranch, rfl, hPred, fun _ => rfl⟩
  case pred_ok =>
    rw [← hPred]
    exact hParts.2.2.1
  case target_ok =>
    exact hParts.2.2.2.1
  case target_line =>
    intro hLines
    exact (hLines line (List.mem_of_getElem? hLine)).mono
      hParts.2.2.2.2

/- Every redirect of the loop is one of a branch line. -/
theorem redirectOf_valid
    {lines : List Line}
    {functionId : Nat}
    {line : Line}
    {idx : Nat}
    {r : Redirect}
    (hOf : redirectOf lines functionId line idx = some r) :
    r.Valid lines := by
  simp only [redirectOf, bind, Option.bind_eq_some_iff,
    Option.ite_none_left_eq_some] at hOf
  rcases hOf with ⟨dispatch, _, _, hFound⟩
  cases hOp : dispatch.op with
  | eq =>
      rw [hOp] at hFound
      rcases List.exists_of_findSome?_eq_some hFound with
        ⟨b, _, hAt⟩
      exact eqRedirectAt_valid hAt
  | ne =>
      rw [hOp] at hFound
      rcases List.exists_of_findSome?_eq_some hFound with
        ⟨b, _, hAt⟩
      exact neRedirectAt_valid hAt

------------------------------------------------------------
-- The Last Writer Of A Line
------------------------------------------------------------

/- The redirects of the loop, in its order. -/
def redirectsOf
    (lines : List Line)
    (functionId : Nat) : List Redirect :=
  lines.zipIdx.filterMap fun numbered =>
    redirectOf lines functionId numbered.1 numbered.2

/- The redirect whose text a line holds in the end. -/
def changeOf
    (lines : List Line)
    (functionId : Nat)
    (b : Nat) : Option Redirect :=
  (redirectsOf lines functionId).reverse.find?
    (fun r => r.branchIdx == b)

/- Writing one entry after the other. -/
def writeAll
    (redirects : List Redirect)
    (out : List Text) : List Text :=
  redirects.foldl
    (fun out r => out.set r.branchIdx (joinLines r.lines)) out

theorem writeAll_getElem?
    (redirects : List Redirect)
    (out : List Text)
    (b : Nat) :
    (writeAll redirects out)[b]? =
      out[b]?.map fun line =>
        ((redirects.reverse.find? (fun r => r.branchIdx == b)).map
          (fun r => joinLines r.lines)).getD line := by
  induction redirects generalizing out with
  | nil =>
      simp [writeAll]
  | cons r redirects ih =>
      have hRest := ih (out.set r.branchIdx (joinLines r.lines))
      rw [writeAll, List.foldl_cons]
      rw [writeAll] at hRest
      rw [hRest, List.getElem?_set, List.reverse_cons,
        List.find?_append]
      by_cases hAt : r.branchIdx = b
      · cases hLater :
            redirects.reverse.find? (fun r => r.branchIdx == b) with
        | none =>
            subst hAt
            by_cases hLength : r.branchIdx < out.length
            · simp [hLength]
            · simp [hLength]
        | some later =>
            subst hAt
            by_cases hLength : r.branchIdx < out.length
            · simp [hLength]
            · simp [hLength]
      · simp [hAt]

/- The loop writes its redirects and counts them. -/
theorem foldl_redirectLine
    (lines : List Line)
    (functionId : Nat)
    (todo : List (Line × Nat))
    (out : List Text)
    (redirects : Nat) :
    todo.foldl (redirectLine lines functionId) (out, redirects) =
      (writeAll
          (todo.filterMap fun numbered =>
            redirectOf lines functionId numbered.1 numbered.2) out,
        redirects +
          (todo.filterMap fun numbered =>
            redirectOf lines functionId numbered.1
              numbered.2).length) := by
  induction todo generalizing out redirects with
  | nil =>
      simp [writeAll]
  | cons numbered todo ih =>
      rw [List.foldl_cons, List.filterMap_cons, redirectLine]
      cases hOf :
          redirectOf lines functionId numbered.1 numbered.2 with
      | none =>
          exact ih out redirects
      | some r =>
          rw [ih, writeAll, writeAll, List.foldl_cons,
            List.length_cons]
          simp only [Prod.mk.injEq, true_and]
          omega

------------------------------------------------------------
-- Lines With Their Rewrites
------------------------------------------------------------

/- A line of the module and the redirect that replaces it. -/
structure Site where
  line : Line
  change : Option Redirect
deriving DecidableEq, Repr

/- The line of the written module that is no comment. -/
def Site.newLine (s : Site) : Line :=
  (s.change.map Redirect.newLine).getD s.line

/- The lines of the written module. -/
def Site.lines (s : Site) : List Line :=
  (s.change.map Redirect.lines).getD [s.line]

/- The lines of a module, each with its last redirect. -/
def siteList
    (lines : List Line)
    (functionId : Nat) : List Site :=
  lines.mapIdx fun b line =>
    ⟨line, changeOf lines functionId b⟩

/- A line that is replaced by a redirect of its own. -/
structure Site.Valid
    (lines : List Line)
    (s : Site) : Prop where
  mem : s.line ∈ lines
  change :
    ∀ r, s.change = some r → r.Valid lines ∧ r.old = s.line

/- The sites are those of the lines. -/
theorem map_line_siteList
    (lines : List Line)
    (functionId : Nat) :
    (siteList lines functionId).map Site.line = lines := by
  apply List.ext_getElem?
  intro b
  rw [siteList, List.getElem?_map, List.getElem?_mapIdx,
    Option.map_map]
  exact congrFun Option.map_id _

/- Something is written for every line. -/
theorem Site.lines_ne_nil (s : Site) : s.lines ≠ [] := by
  cases hChange : s.change with
  | none => simp [Site.lines, hChange]
  | some r => simp [Site.lines, hChange, Redirect.lines]

theorem siteList_valid
    {lines : List Line}
    {functionId : Nat}
    {s : Site}
    (hMem : s ∈ siteList lines functionId) :
    s.Valid lines := by
  rcases List.mem_mapIdx.mp hMem with ⟨b, hLength, hEq⟩
  subst hEq
  constructor
  case mem =>
    exact List.getElem_mem hLength
  case change =>
    intro r hChange
    have hFound := List.mem_of_find?_eq_some hChange
    rcases List.mem_filterMap.mp (List.mem_reverse.mp hFound) with
      ⟨numbered, _, hOf⟩
    have hValid := redirectOf_valid hOf
    have hAt : r.branchIdx = b := by
      simpa using List.find?_some hChange
    have hOld := hValid.old_eq
    rw [hAt, List.getElem?_eq_getElem hLength,
      Option.some.injEq] at hOld
    exact ⟨hValid, hOld.symm⟩

/- The entries of the loop are the lines of the sites. -/
theorem writeAll_redirectsOf
    (lines : List Line)
    (functionId : Nat) :
    writeAll (redirectsOf lines functionId) lines =
      (siteList lines functionId).map
        (fun s => joinLines s.lines) := by
  apply List.ext_getElem?
  intro b
  rw [writeAll_getElem?, siteList, List.getElem?_map,
    List.getElem?_mapIdx, Option.map_map]
  apply congrArg (fun f => Option.map f lines[b]?)
  funext line
  cases hChange : changeOf lines functionId b with
  | none =>
      rw [changeOf] at hChange
      simp [hChange, Site.lines, joinLines]
  | some r =>
      rw [changeOf] at hChange
      simp [hChange, Site.lines]

/- The written text of a module, line by line. -/
theorem redirect_text
    (ptx : Text)
    (functionId : Nat) :
    (redirectDirectDispatchToFallback ptx
        (some functionId)).1 =
      joinLines
          (((siteList (splitLines ptx) functionId).map
            Site.lines).map joinLines) ++ ['\n'] := by
  have hFold :=
    foldl_redirectLine (splitLines ptx) functionId
      (splitLines ptx).zipIdx (splitLines ptx) 0
  have hWrite := writeAll_redirectsOf (splitLines ptx) functionId
  rw [redirectsOf] at hWrite
  simp only [redirectDirectDispatchToFallback, hFold, hWrite,
    List.map_map]
  rfl

/- The number of redirects that is returned. -/
theorem redirect_count
    (ptx : Text)
    (functionId : Nat) :
    (redirectDirectDispatchToFallback ptx
        (some functionId)).2 =
      (redirectsOf (splitLines ptx) functionId).length := by
  have hFold :=
    foldl_redirectLine (splitLines ptx) functionId
      (splitLines ptx).zipIdx (splitLines ptx) 0
  simp [redirectDirectDispatchToFallback, hFold, redirectsOf]

------------------------------------------------------------
-- Statements Of Both Modules
------------------------------------------------------------

/- The lines of a text a thread executes. -/
def statements (lines : List Line) : List Line :=
  lines.filter fun line => !isSkipped line

/- The statements of a module text. -/
def program (ptx : Text) : List Line :=
  statements (splitLines ptx)

/- The line of the white space in front of a branch. -/
theorem Redirect.Valid.indent_space
    {lines : List Line}
    {r : Redirect}
    (hValid : r.Valid lines) :
    ∀ c ∈ r.indent, isSpace c = true := by
  rcases hValid.branch with ⟨m, hMatch, hIndent, _⟩
  rw [← hIndent, (ncclPredicatedBra_eq_some hMatch).2.1]
  exact fun c hMem => List.mem_takeWhile_imp hMem

/- Both written lines of a redirect stay within one line. -/
theorem Redirect.Valid.oneLine
    {lines : List Line}
    {r : Redirect}
    (hValid : r.Valid lines)
    (hLines : ∀ l ∈ lines, OneLine l) :
    ∀ l ∈ r.lines, OneLine l := by
  rcases hValid.branch with ⟨m, hMatch, hIndentEq, _⟩
  have hOld : OneLine r.old :=
    hLines r.old (List.mem_of_getElem? hValid.old_eq)
  have hIndent : OneLine r.indent := by
    rw [← hIndentEq, (ncclPredicatedBra_eq_some hMatch).2.1]
    exact hOld.mono (List.takeWhile_prefix isSpace).subset
  have hPred : OneLine r.pred := by
    rcases hValid.pred_ok with ⟨ds, hText, _, hDigit⟩
    rw [hText]
    exact
      OneLine.append (by simp [OneLine, isLineBreak])
        (oneLine_of_isDigit hDigit)
  have hTarget := hValid.target_line hLines
  have hSemi : OneLine [';'] := by
    simp [OneLine, isLineBreak]
  intro l hMem
  simp only [Redirect.lines, List.mem_cons, List.not_mem_nil,
    or_false] at hMem
  rcases hMem with hMem | hMem
  · rw [hMem, oldLine]
    exact
      (hIndent.append (by simp [OneLine, isLineBreak])).append
        (hOld.mono (strip_subset r.old))
  · cases hOp : r.op with
    | eq =>
        have hHead : OneLine ['@'] := by
          simp [OneLine, isLineBreak]
        rw [hMem, newLine, hOp]
        exact
          hIndent.append (hHead.append
            (((hPred.append (by simp [OneLine, isLineBreak])).append
              hTarget).append hSemi))
    | ne =>
        rw [hMem, newLine, hOp]
        exact
          ((hIndent.append (by simp [OneLine, isLineBreak])).append
            hTarget).append hSemi

/- The lines of the written module. -/
theorem splitLines_redirect
    {ptx : Text}
    (functionId : Nat)
    (hSome : splitLines ptx ≠ []) :
    splitLines
        (redirectDirectDispatchToFallback ptx
          (some functionId)).1 =
      ((siteList (splitLines ptx) functionId).map
        Site.lines).flatten := by
  have hOneLine : ∀ l ∈ splitLines ptx, OneLine l :=
    fun l hMem => oneLine_of_mem_splitLines hMem
  rw [redirect_text]
  apply splitLines_joinLines
  case hGroups =>
    simpa [siteList] using hSome
  case hSome =>
    intro g hGroup
    rcases List.mem_map.mp hGroup with ⟨s, _, hEq⟩
    rw [← hEq]
    exact s.lines_ne_nil
  case hLines =>
    intro g hGroup l hLine
    rcases List.mem_map.mp hGroup with ⟨s, hSite, hEq⟩
    have hValid := siteList_valid hSite
    rw [← hEq] at hLine
    cases hChange : s.change with
    | none =>
        simp only [Site.lines, hChange, Option.map_none,
          Option.getD_none, List.mem_singleton] at hLine
        rw [hLine]
        exact hOneLine s.line hValid.mem
    | some r =>
        simp only [Site.lines, hChange, Option.map_some,
          Option.getD_some] at hLine
        exact (hValid.change r hChange).1.oneLine hOneLine l hLine

end Nccl

end FabricPerf
