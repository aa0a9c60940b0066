import FabricPerf.Lib.Scanner

/-
  Lines of a text together with their line breaks.

  `keepLines` cuts a text into its lines; the cuts of texts
  are described without the text, and are exactly the lists
  of lines that are cut again where they were joined.

  Main declarations:
    * `Text.keepLines`, `Text.Cut`
    * `Text.cut_keepLines`
    * `Text.keepLines_flatten`
    * `Text.Cut.sublist`, `Text.Cut.append`
-/

namespace Text

------------------------------------------------------------
-- Lines With Their Breaks
------------------------------------------------------------

/- `keepLines` with the characters read since the break. -/
def keepLinesFrom (line : Text) : Text → List Text
| [] => if line.isEmpty then [] else [line]
| [c] => [line ++ [c]]
| c :: d :: rest =>
    if isLineBreak c then
      -- A carriage return and its line feed are one break.
      if c = '\r' ∧ d = '\n' then
        (line ++ [c, d]) :: keepLinesFrom [] rest
      else
        (line ++ [c]) :: keepLinesFrom [] (d :: rest)
    else
      keepLinesFrom (line ++ [c]) (d :: rest)

/- Python's `str.splitlines(keepends=True)`. -/
def keepLines (s : Text) : List Text :=
  keepLinesFrom [] s

/- A line with its break. -/
inductive Closed : Text → Prop
| single
    {line : Text} {c : Char}
    (hLine : OneLine line)
    (hBreak : isLineBreak c = true) :
    Closed (line ++ [c])
| double
    {line : Text}
    (hLine : OneLine line) :
    Closed (line ++ ['\r', '\n'])

/-
  Two neighbouring lines whose breaks stay apart: no carriage
  return meets a line feed.
-/
def Apart (line : Text) (rest : Text) : Prop :=
  line.getLast? = some '\r' → rest.head? ≠ some '\n'

/-
  A list of lines as a text is cut into: closed lines whose
  breaks stay apart, and at most one open line at the end.
-/
inductive Cut : List Text → Prop
| nil : Cut []
| last
    {line : Text}
    (hLine : OneLine line)
    (hSome : line ≠ []) :
    Cut [line]
| cons
    {line : Text} {rest : List Text}
    (hLine : Closed line)
    (hApart : Apart line rest.flatten)
    (hRest : Cut rest) :
    Cut (line :: rest)

/- The lines of a text, one after the other. -/
theorem flatten_keepLinesFrom (s line : Text) :
    (keepLinesFrom line s).flatten = line ++ s := by
  fun_induction keepLinesFrom line s with
  | case1 line hEmpty => simp_all
  | case2 line hSome => simp
  | case3 line c => simp
  | case4 line c d rest hBreak hBoth ih => simp [ih]
  | case5 line c d rest hBreak hOne ih => simp [ih]
  | case6 line c d rest hNone ih => simp [ih]

/- A text is cut into closed lines and an open rest. -/
theorem cut_keepLinesFrom
    (s line : Text)
    (hLine : OneLine line) :
    Cut (keepLinesFrom line s) := by
  have hNil : OneLine [] := fun c hMem => by simp at hMem
  fun_induction keepLinesFrom line s with
  | case1 line hEmpty => exact Cut.nil
  | case2 line hSome =>
      exact Cut.last hLine (by simpa using hSome)
  | case3 line c =>
      by_cases hBreak : isLineBreak c = true
      · apply Cut.cons (Closed.single hLine hBreak) _ Cut.nil
        intro _ hHead
        cases hHead
      · apply Cut.last
        · apply hLine.append
          simpa [OneLine] using hBreak
        · simp
  | case4 line c d rest hBreak hBoth ih =>
      rcases hBoth with ⟨hReturn, hFeed⟩
      subst hReturn hFeed
      apply Cut.cons (Closed.double hLine) _ (ih hNil)
      intro hLast
      simp at hLast
  | case5 line c d rest hBreak hOne ih =>
      apply Cut.cons (Closed.single hLine hBreak) _ (ih hNil)
      intro hLast hHead
      rw [flatten_keepLinesFrom] at hHead
      apply hOne
      constructor
      · simpa using hLast
      · simpa using hHead
  | case6 line c d rest hNone ih =>
      apply ih
      apply hLine.append
      simpa [OneLine] using hNone

theorem cut_keepLines (s : Text) : Cut (keepLines s) :=
  cut_keepLinesFrom s [] (fun c hMem => by simp at hMem)

------------------------------------------------------------
-- Cutting Joined Lines
------------------------------------------------------------

/- Characters without a break are collected. -/
theorem keepLinesFrom_append
    {line : Text}
    (hLine : OneLine line)
    (before : Text)
    {s : Text}
    (hSome : s ≠ []) :
    keepLinesFrom before (line ++ s) =
      keepLinesFrom (before ++ line) s := by
  induction line generalizing before with
  | nil => simp
  | cons c line ih =>
      have hHead : isLineBreak c = false := hLine c (by simp)
      have hTail : OneLine line :=
        hLine.mono (List.subset_cons_self c line)
      have hNext := ih hTail (before ++ [c])
      cases hRest : line ++ s with
      | nil =>
          simp only [List.append_eq_nil_iff] at hRest
          exact absurd hRest.2 hSome
      | cons d rest =>
          rw [hRest] at hNext
          rw [List.cons_append, hRest, keepLinesFrom,
            if_neg (by simp [hHead]), hNext]
          simp

/- A closed line is the first line of what it starts. -/
theorem keepLines_closed
    {line s : Text}
    (hLine : Closed line)
    (hApart : Apart line s) :
    keepLines (line ++ s) = line :: keepLines s := by
  unfold keepLines
  cases hLine with
  | @double content hContent =>
      have hBreak : isLineBreak '\r' = true := by decide
      have hCut :
          keepLinesFrom [] (content ++ '\r' :: '\n' :: s) =
            keepLinesFrom ([] ++ content) ('\r' :: '\n' :: s) :=
        keepLinesFrom_append hContent [] (by simp)
      rw [List.append_assoc, List.cons_append,
        List.cons_append, List.nil_append, hCut]
      simp [keepLinesFrom, hBreak]
  | @single content c hContent hBreak =>
      have hCut :
          keepLinesFrom [] (content ++ c :: s) =
            keepLinesFrom ([] ++ content) (c :: s) :=
        keepLinesFrom_append hContent [] (by simp)
      rw [List.append_assoc, List.singleton_append, hCut]
      cases s with
      | nil => simp [keepLinesFrom]
      | cons d rest =>
          have hOne : ¬ (c = '\r' ∧ d = '\n') := by
            rintro ⟨hReturn, hFeed⟩
            subst hReturn hFeed
            exact hApart (by simp) rfl
          simp [keepLinesFrom, hBreak, hOne]

/- An open line is its own cut. -/
theorem keepLines_open
    {line : Text}
    (hLine : OneLine line)
    (hSome : line ≠ []) :
    keepLines line = [line] := by
  unfold keepLines
  rcases List.eq_nil_or_concat line with hNil | ⟨front, c, hEq⟩
  · exact absurd hNil hSome
  · subst hEq
    have hFront : OneLine front :=
      hLine.mono (by simp)
    have hCut :
        keepLinesFrom [] (front ++ [c]) =
          keepLinesFrom ([] ++ front) [c] :=
      keepLinesFrom_append hFront [] (by simp)
    rw [List.concat_eq_append, hCut]
    simp [keepLinesFrom]

/- Joined lines are cut where they were joined. -/
theorem keepLines_flatten
    {lines : List Text}
    (hCut : Cut lines) :
    keepLines lines.flatten = lines := by
  induction hCut with
  | nil => rfl
  | last hLine hSome =>
      simpa using keepLines_open hLine hSome
  | cons hLine hApart hRest ih =>
      rw [List.flatten_cons, keepLines_closed hLine hApart, ih]

------------------------------------------------------------
-- Parts Of A Cut
------------------------------------------------------------

namespace Cut

variable {lines front rest : List Text}

/- The lines before another line are closed. -/
theorem closed_of_append
    (hCut : Cut (front ++ rest))
    (hRest : rest ≠ []) :
    ∀ line ∈ front, Closed line := by
  induction front with
  | nil => exact fun line hMem => by simp at hMem
  | cons first front ih =>
      generalize hAll : first :: front ++ rest = all at hCut
      cases hCut with
      | nil => simp at hAll
      | last hLine hSome =>
          simp only [List.cons_append, List.cons.injEq,
            List.append_eq_nil_iff] at hAll
          exact absurd hAll.2.2 hRest
      | cons hLine hApart hTail =>
          rw [List.cons_append, List.cons.injEq] at hAll
          rw [← hAll.1] at hLine
          rw [← hAll.2] at hTail
          intro line hMem
          rcases List.mem_cons.mp hMem with hFirst | hLater
          · rw [hFirst]
            exact hLine
          · exact ih hTail line hLater

/- A line of a cut is closed, or the open last one. -/
theorem closed_or_open
    (hCut : Cut lines) :
    ∀ line ∈ lines,
      Closed line ∨ OneLine line ∧ line ≠ [] := by
  induction hCut with
  | nil => exact fun line hMem => by simp at hMem
  | last hLine hSome =>
      intro line hMem
      rw [List.mem_singleton.mp hMem]
      exact Or.inr ⟨hLine, hSome⟩
  | cons hLine hApart hRest ih =>
      intro line hMem
      rcases List.mem_cons.mp hMem with hFirst | hLater
      · rw [hFirst]
        exact Or.inl hLine
      · exact ih line hLater

/- Closed lines in front of a cut. -/
theorem append
    (hFront : ∀ line ∈ front, Closed line)
    (hReturn :
      ∀ line ∈ front, line.getLast? ≠ some '\r')
    (hRest : Cut rest) :
    Cut (front ++ rest) := by
  induction front with
  | nil => exact hRest
  | cons line front ih =>
      have hTail :=
        ih (fun l hMem => hFront l (List.mem_cons_of_mem _ hMem))
          (fun l hMem => hReturn l (List.mem_cons_of_mem _ hMem))
      apply Cut.cons (hFront line List.mem_cons_self) _ hTail
      intro hLast
      exact absurd hLast (hReturn line List.mem_cons_self)

/-
  Where no line ends with a lone carriage return, any lines
  of a cut in their order are a cut.
-/
theorem sublist
    (hCut : Cut lines)
    (hReturn :
      ∀ line ∈ lines, line.getLast? ≠ some '\r')
    {part : List Text}
    (hSub : part.Sublist lines) :
    Cut part := by
  induction hCut generalizing part with
  | nil =>
      rw [List.sublist_nil.mp hSub]
      exact Cut.nil
  | last hLine hSome =>
      rcases List.sublist_singleton.mp hSub with hNone | hAll
      · rw [hNone]
        exact Cut.nil
      · rw [hAll]
        exact Cut.last hLine hSome
  | cons hLine hApart hRest ih =>
      have hLater := fun l hMem =>
        hReturn l (List.mem_cons_of_mem _ hMem)
      cases hSub with
      | cons _ hTail => exact ih hLater hTail
      | cons_cons _ hTail =>
          apply Cut.cons hLine _ (ih hLater hTail)
          intro hLast
          exact absurd hLast (hReturn _ List.mem_cons_self)

end Cut

end Text
