import FabricPerf.Lib.Search
import FabricPerf.Nccl.PtxLines

/-
  The header expression of `function_span`, and the lines of
  a module that it accepts.

  A match takes its whole line; of two accepted lines the
  later one ends no earlier.

  Main declarations:
    * `Nccl.funcHeader`
    * `Nccl.HeaderLine`
    * `Nccl.HeaderLine.behind_length_le`
-/

------------------------------------------------------------
-- The Header Expression
------------------------------------------------------------

namespace FabricPerf

namespace Nccl

open Text

/- `\s*(?:\.visible\s+)?\.func\b`, and what follows. -/
def funcStart (s : Text) : Option Text :=
  let start := skipSpaces s
  let start := ((literal ".visible" start).bind spaces).getD start
  (literal ".func" start).filter atWordEnd

/- `\b<name>\s*\([^\n]*`, and what follows. -/
def calledAt
    (name : Text)
    (before : Option Char)
    (s : Text) : Option Text :=
  if atBoundary before s then do
    let s ← s.dropPrefix? name
    let s ← literal "(" (skipSpaces s)
    some (s.dropWhile (· != '\n'))
  else
    none

/-
  `[^\n]*` in front of that: the last position of the line
  at which it matches.
-/
def lastCall
    (name : Text) : Option Char → Text → Option Text
| before, [] => calledAt name before []
| before, c :: rest =>
    if c = '\n' then
      calledAt name before (c :: rest)
    else
      (lastCall name (some c) rest).or
        (calledAt name before (c :: rest))

/- `header_re`, at the start of a line: what follows. -/
def funcHeader
    (name : Text)
    (s : Text) : Option Text :=
  (funcStart s).bind (lastCall name (some 'c'))

------------------------------------------------------------
-- What The Expression Leaves
------------------------------------------------------------

/- A scanner leaves an end of its text. -/
theorem literal_suffix
    {lit : String}
    {s rest : Text}
    (hScan : literal lit s = some rest) :
    rest <:+ s := by
  rw [literal_eq_some hScan]
  exact List.suffix_append _ _

theorem spaces_suffix
    {s rest : Text}
    (hScan : spaces s = some rest) :
    rest <:+ s := by
  cases s with
  | nil => cases hScan
  | cons c s =>
      simp only [spaces, Option.ite_none_right_eq_some,
        Option.some.injEq] at hScan
      rw [← hScan.2]
      exact
        (List.dropWhile_suffix isSpace).trans
          (List.suffix_cons c s)

theorem funcStart_suffix
    {s rest : Text}
    (hScan : funcStart s = some rest) :
    rest <:+ s := by
  simp only [funcStart, Option.filter_eq_some_iff] at hScan
  have hStart : skipSpaces s <:+ s := List.dropWhile_suffix _
  cases hVisible :
      (literal ".visible" (skipSpaces s)).bind spaces with
  | none =>
      rw [hVisible, Option.getD_none] at hScan
      exact (literal_suffix hScan.1).trans hStart
  | some start =>
      rw [hVisible, Option.getD_some] at hScan
      rcases Option.bind_eq_some_iff.mp hVisible with
        ⟨behind, hLiteral, hSpaces⟩
      exact
        (literal_suffix hScan.1).trans
          ((spaces_suffix hSpaces).trans
            ((literal_suffix hLiteral).trans hStart))

theorem calledAt_suffix
    {name : Text}
    {before : Option Char}
    {s rest : Text}
    (hScan : calledAt name before s = some rest) :
    rest <:+ s := by
  simp only [calledAt, bind, Option.ite_none_right_eq_some,
    Option.bind_eq_some_iff, Option.some.injEq] at hScan
  rcases hScan with ⟨-, behind, hName, inner, hOpen, hRest⟩
  rcases List.dropPrefix?_eq_some_iff.mp hName with
    ⟨front, hText, -⟩
  have hBehind : behind <:+ s := by
    rw [hText]
    exact List.suffix_append _ _
  rw [← hRest]
  exact
    (List.dropWhile_suffix _).trans
      ((literal_suffix hOpen).trans
        ((List.dropWhile_suffix _).trans hBehind))

theorem lastCall_suffix
    {name : Text}
    {before : Option Char}
    {s rest : Text}
    (hScan : lastCall name before s = some rest) :
    rest <:+ s := by
  induction s generalizing before with
  | nil => exact calledAt_suffix hScan
  | cons c s ih =>
      rw [lastCall] at hScan
      split at hScan
      · exact calledAt_suffix hScan
      · rcases Option.or_eq_some_iff.mp hScan with
          hLater | ⟨-, hHere⟩
        · exact (ih hLater).trans (List.suffix_cons c s)
        · exact calledAt_suffix hHere

theorem funcHeader_suffix
    {name s rest : Text}
    (hScan : funcHeader name s = some rest) :
    rest <:+ s := by
  rcases Option.bind_eq_some_iff.mp hScan with
    ⟨behind, hStart, hCall⟩
  exact (lastCall_suffix hCall).trans (funcStart_suffix hStart)

------------------------------------------------------------
-- Accepted Lines
------------------------------------------------------------

/-
  A line of a module that the expression accepts for a name,
  cut in front of it and behind what the match takes.
-/
structure HeaderLine
    (name ptx before taken behind : Text) : Prop where
  text : ptx = before ++ (taken ++ behind)
  start : startsLine before = true
  hit : funcHeader name (taken ++ behind) = some behind

/- The start of a header, up to its directive. -/
theorem funcStart_eq_some
    {s rest : Text}
    (hScan : funcStart s = some rest) :
    ∃ lead, s = lead ++ (".func".toList ++ rest) ∧
      'f' ∉ lead := by
  have hSpaces : ∀ t : Text, 'f' ∉ t.takeWhile isSpace := by
    intro t hMem
    exact absurd (List.mem_takeWhile_imp hMem) (by decide)
  have hSkip :
      ∀ t : Text, t = t.takeWhile isSpace ++ skipSpaces t :=
    fun t => List.takeWhile_append_dropWhile.symm
  simp only [funcStart, Option.filter_eq_some_iff] at hScan
  have hFunc := literal_eq_some hScan.1
  cases hVisible :
      (literal ".visible" (skipSpaces s)).bind spaces with
  | none =>
      rw [hVisible, Option.getD_none] at hFunc
      refine ⟨s.takeWhile isSpace, ?_, hSpaces s⟩
      rw [← hFunc]
      exact hSkip s
  | some start =>
      rw [hVisible, Option.getD_some] at hFunc
      rcases Option.bind_eq_some_iff.mp hVisible with
        ⟨behind, hLiteral, hBehind⟩
      have hWord := literal_eq_some hLiteral
      have hStart : start = skipSpaces behind := by
        cases behind with
        | nil => cases hBehind
        | cons c behind =>
            simp only [spaces, Option.ite_none_right_eq_some,
              Option.some.injEq] at hBehind
            rw [skipSpaces, List.dropWhile_cons_of_pos hBehind.1]
            exact hBehind.2.symm
      refine
        ⟨s.takeWhile isSpace ++ (".visible".toList ++
          behind.takeWhile isSpace), ?_, ?_⟩
      · rw [List.append_assoc, List.append_assoc, ← hFunc,
          hStart, ← hSkip behind, ← hWord]
        exact hSkip s
      · simp only [List.mem_append, not_or]
        exact ⟨hSpaces s, by decide, hSpaces behind⟩

/- A header starts with a directive. -/
theorem literal_open_of_funcStart
    {s rest : Text}
    (hScan : funcStart s = some rest) :
    literal "(" (skipSpaces s) = none := by
  have hDot :
      ∀ (lit : String) (t own : Text), lit.toList.head? = some '.' →
        literal lit t = some own → literal "(" t = none := by
    intro lit t own hHead hLiteral
    have hText := literal_eq_some hLiteral
    cases hLit : lit.toList with
    | nil =>
        rw [hLit] at hHead
        cases hHead
    | cons c more =>
        rw [hLit, List.head?_cons, Option.some.injEq] at hHead
        rw [hText, hLit, hHead]
        simp [literal, List.dropPrefix?]
  simp only [funcStart, Option.filter_eq_some_iff] at hScan
  cases hVisible :
      (literal ".visible" (skipSpaces s)).bind spaces with
  | none =>
      rw [hVisible, Option.getD_none] at hScan
      exact hDot ".func" _ _ rfl hScan.1
  | some start =>
      rcases Option.bind_eq_some_iff.mp hVisible with
        ⟨behind, hLiteral, -⟩
      exact hDot ".visible" _ _ rfl hLiteral

section

variable {name : Text}

/- A call ends no earlier than a line that starts in it. -/
theorem calledAt_length_ge
    (hNewline : '\n' ∉ name)
    {before : Option Char}
    (line : Text)
    {rest tail : Text}
    (hCall : calledAt name before (line ++ '\n' :: rest) =
      some tail)
    (hRest : literal "(" (skipSpaces rest) = none) :
    rest.length ≤ tail.length := by
  simp only [calledAt, bind, Option.ite_none_right_eq_some,
    Option.bind_eq_some_iff, Option.some.injEq] at hCall
  rcases hCall with ⟨-, behind, hName, inner, hOpen, hTail⟩
  rcases List.dropPrefix?_eq_some_iff.mp hName with
    ⟨front, hText, hFront⟩
  rw [beq_iff_eq] at hFront
  rw [hFront] at hText
  -- The name ends in front of the line feed.
  have hBehind : ∃ own, behind = own ++ '\n' :: rest := by
    rcases List.append_eq_append_iff.mp hText with
      ⟨more, hLong, hMore⟩ | ⟨own, -, hOwn⟩
    · cases more with
      | nil => exact ⟨[], hMore.symm⟩
      | cons c more =>
          rw [List.cons_append, List.cons.injEq] at hMore
          apply absurd _ hNewline
          rw [hLong, ← hMore.1]
          simp
    · exact ⟨own, hOwn⟩
  rcases hBehind with ⟨own, hOwn⟩
  have hParen := literal_eq_some hOpen
  rw [hOwn, skipSpaces, List.dropWhile_append] at hParen
  cases hWord : own.dropWhile isSpace with
  | nil =>
      have hSpace : isSpace '\n' = true := by decide
      have hSkip : skipSpaces behind = skipSpaces rest := by
        rw [hOwn, skipSpaces, List.dropWhile_append, hWord,
          List.isEmpty_nil, if_pos rfl,
          List.dropWhile_cons_of_pos hSpace]
        rfl
      rw [hSkip, hRest] at hOpen
      cases hOpen
  | cons c word =>
      have hInner : inner = word ++ '\n' :: rest := by
        rw [hWord] at hParen
        simp only [List.isEmpty_cons, Bool.false_eq_true,
          if_false, List.cons_append] at hParen
        exact (List.cons.inj hParen).2.symm
      rw [← hTail, hInner, List.dropWhile_append]
      split
      · rw [List.dropWhile_cons_of_neg (by simp)]
        simp
      · rw [List.length_append, List.length_cons]
        omega

theorem lastCall_length_ge
    (hNewline : '\n' ∉ name)
    {before : Option Char}
    {line rest tail : Text}
    (hCall : lastCall name before (line ++ '\n' :: rest) =
      some tail)
    (hRest : literal "(" (skipSpaces rest) = none) :
    rest.length ≤ tail.length := by
  induction line generalizing before with
  | nil =>
      rw [List.nil_append, lastCall, if_pos rfl] at hCall
      exact calledAt_length_ge hNewline [] hCall hRest
  | cons c line ih =>
      rw [List.cons_append, lastCall] at hCall
      split at hCall
      · exact
          calledAt_length_ge hNewline (c :: line) hCall hRest
      · rcases Option.or_eq_some_iff.mp hCall with
          hLater | ⟨-, hHere⟩
        · exact ih hLater
        · exact
            calledAt_length_ge hNewline (c :: line) hHere hRest

/-
  A line that starts in a match starts a header of its own or
  belongs to the start of the same one.
-/
theorem funcStart_later
    {line later rest rest' : Text}
    (hStart : funcStart (line ++ '\n' :: later) = some rest)
    (hLater : funcStart later = some rest') :
    rest = rest' ∨ ∃ own, rest = own ++ '\n' :: later := by
  rcases funcStart_eq_some hStart with ⟨lead, hText, hLead⟩
  rcases funcStart_eq_some hLater with
    ⟨lead', hText', hLead'⟩
  have hFunc : ".func".toList = ['.', 'f', 'u', 'n', 'c'] := rfl
  have hBoth :
      (line ++ '\n' :: lead') ++ (".func".toList ++ rest') =
        lead ++ (".func".toList ++ rest) := by
    rw [← hText, hText', List.append_assoc, List.cons_append]
  rw [hFunc] at hBoth hText hText'
  rcases List.append_eq_append_iff.mp hBoth with
    ⟨more, hLong, hMore⟩ | ⟨more, hLong, hMore⟩
  · -- The later directive cannot stand in front.
    match more with
    | [] =>
        left
        simpa using hMore.symm
    | [c] => simp at hMore
    | c :: d :: more =>
        simp only [List.cons_append, List.cons.injEq] at hMore
        apply absurd _ hLead
        rw [hLong, ← hMore.2.1]
        simp
  · match more with
    | [] =>
        left
        simpa using hMore
    | [c] => simp at hMore
    | [c, d] => simp at hMore
    | [c, d, e] => simp at hMore
    | [c, d, e, f] => simp at hMore
    | c :: d :: e :: f :: g :: more =>
        simp only [List.cons_append, List.cons.injEq,
          List.nil_append] at hMore
        rcases hMore with ⟨rfl, rfl, rfl, rfl, rfl, hRest⟩
        right
        have hLine :
            line ++ '\n' :: lead' =
              (lead ++ ['.', 'f', 'u', 'n', 'c']) ++ more := by
          rw [hLong]
          simp
        rcases List.append_eq_append_iff.mp hLine with
          ⟨beyond, hOver, hEnd⟩ | ⟨own, -, hOwn⟩
        · cases beyond with
          | nil =>
              refine ⟨[], ?_⟩
              rw [hRest, ← List.nil_append more, ← hEnd, hText']
              simp
          | cons c beyond =>
              -- The directive would hold the line feed.
              rw [List.cons_append, List.cons.injEq] at hEnd
              rcases List.append_eq_append_iff.mp hOver with
                ⟨k, -, hK⟩ | ⟨k, -, hK⟩
              · have hMem : c ∈ ['.', 'f', 'u', 'n', 'c'] := by
                  rw [hK]
                  simp
                rw [← hEnd.1] at hMem
                exact absurd hMem (by decide)
              · cases k with
                | nil =>
                    simp only [List.nil_append,
                      List.cons.injEq] at hK
                    rw [← hEnd.1] at hK
                    exact absurd hK.1 (by decide)
                | cons d k =>
                    rw [List.cons_append, List.cons.injEq] at hK
                    apply absurd _ hLead'
                    rw [hEnd.2, hK.2]
                    simp
        · refine ⟨own, ?_⟩
          rw [hRest, hOwn, hText']
          simp

/- Of two accepted lines the later one ends no earlier. -/
theorem HeaderLine.behind_length_le
    (hNewline : '\n' ∉ name)
    {ptx before taken behind before' taken' behind' : Text}
    (hLine : HeaderLine name ptx before taken behind)
    (hOther : HeaderLine name ptx before' taken' behind')
    (hLe : before.length ≤ before'.length) :
    behind'.length ≤ behind.length := by
  have hText := hLine.text.symm.trans hOther.text
  rcases List.append_eq_append_iff.mp hText with
    ⟨between, hBefore, hBetween⟩ | ⟨between, hBefore, hBetween⟩
  · rcases List.eq_nil_or_concat between with
      hNone | ⟨line, c, hSome⟩
    · have hHit := hLine.hit
      rw [hBetween, hNone, List.nil_append, hOther.hit,
        Option.some.injEq] at hHit
      rw [hHit]
    · have hEnd := hOther.start
      rw [hBefore, hSome, List.concat_eq_append,
        ← List.append_assoc, startsLine_append_singleton,
        beq_iff_eq] at hEnd
      have hHit := hLine.hit
      rw [hBetween, hSome, List.concat_eq_append, hEnd,
        List.append_assoc, List.singleton_append] at hHit
      rcases Option.bind_eq_some_iff.mp hHit with
        ⟨rest, hStart, hCall⟩
      rcases Option.bind_eq_some_iff.mp hOther.hit with
        ⟨rest', hStart', hCall'⟩
      rcases funcStart_later hStart hStart' with
        hSame | ⟨own, hOwn⟩
      · rw [hSame, hCall', Option.some.injEq] at hCall
        rw [hCall]
      · rw [hOwn] at hCall
        have hLength :=
          lastCall_length_ge hNewline hCall
            (literal_open_of_funcStart hStart')
        rw [List.length_append] at hLength
        omega
  · have hNone : between = [] := by
      have hLength := congrArg List.length hBefore
      rw [List.length_append] at hLength
      exact List.length_eq_zero_iff.mp (by omega)
    have hHit := hOther.hit
    rw [hBetween, hNone, List.nil_append, hLine.hit,
      Option.some.injEq] at hHit
    rw [hHit]

end

end Nccl

end FabricPerf
