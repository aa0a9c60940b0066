import FabricPerf.Nccl.FunctionSpan

/-
  What decides whether the header expression matches.

  A match in front of an opening brace does not depend on
  what follows the brace, and a text without the start of a
  header line holds no match.

  Main declarations:
    * `Nccl.funcHeader_own`
    * `Nccl.funcHeader_none`
    * `Nccl.NoFuncLine`
-/

------------------------------------------------------------
-- The Start Of A Header
------------------------------------------------------------

namespace FabricPerf

namespace Nccl

open Text

/- A character that ends what the scanners read. -/
structure IsStop (c : Char) : Prop where
  space : isSpace c = false
  word : isWord c = false
  dot : c ≠ '.'

theorem isStop_openBrace : IsStop '\x7b' := by
  constructor <;> decide

theorem isStop_closeBrace : IsStop '\x7d' := by
  constructor <;> decide

/- No directive holds such a character. -/
theorem IsStop.notMem_visible
    {c : Char}
    (hStop : IsStop c) :
    c ∉ ".visible".toList := by
  have hAll :
      ".visible".toList.all (fun d => d == '.' || isWord d) = true := by
    decide
  intro hMem
  have hHere := List.all_eq_true.mp hAll c hMem
  rw [Bool.or_eq_true, beq_iff_eq] at hHere
  rcases hHere with hDot | hWord
  · exact hStop.dot hDot
  · rw [hStop.word] at hWord
    cases hWord

theorem IsStop.notMem_func
    {c : Char}
    (hStop : IsStop c) :
    c ∉ ".func".toList := by
  have hAll :
      ".func".toList.all (fun d => d == '.' || isWord d) = true := by
    decide
  intro hMem
  have hHere := List.all_eq_true.mp hAll c hMem
  rw [Bool.or_eq_true, beq_iff_eq] at hHere
  rcases hHere with hDot | hWord
  · exact hStop.dot hDot
  · rw [hStop.word] at hWord
    cases hWord

/- A word ends in front of such a character. -/
theorem IsStop.atWordEnd_append
    {c : Char}
    (hStop : IsStop c)
    (s t : Text) :
    atWordEnd (s ++ c :: t) = atWordEnd s := by
  cases s with
  | nil =>
      have hWord : (c.isAlphanum || c == '_') = false := hStop.word
      simp [atWordEnd, hWord]
  | cons d s => rfl

/- The start of a header in front of such a character. -/
theorem funcStart_append_cons
    {c : Char}
    (hStop : IsStop c)
    (s t : Text) :
    funcStart (s ++ c :: t) =
      (funcStart s).map (· ++ c :: t) := by
  have hVisible :
      (literal ".visible" (skipSpaces s ++ c :: t)).bind spaces =
        ((literal ".visible" (skipSpaces s)).bind spaces).map
          (· ++ c :: t) := by
    rw [literal_append_cons _ _ hStop.notMem_visible]
    cases literal ".visible" (skipSpaces s) with
    | none => rfl
    | some rest => exact spaces_append_cons rest t hStop.space
  have hStart :
      ∀ start : Text,
        (literal ".func" (start ++ c :: t)).filter atWordEnd =
          ((literal ".func" start).filter atWordEnd).map
            (· ++ c :: t) := by
    intro start
    rw [literal_append_cons _ _ hStop.notMem_func]
    cases literal ".func" start with
    | none => rfl
    | some rest =>
        simp only [Option.map_some, Option.filter_some,
          hStop.atWordEnd_append]
        split <;> rfl
  unfold funcStart
  dsimp only
  rw [skipSpaces_append_cons s t hStop.space, hVisible]
  cases (literal ".visible" (skipSpaces s)).bind spaces with
  | none => exact hStart (skipSpaces s)
  | some rest => exact hStart rest

/- A line feed behind a text without the start of a header. -/
theorem funcStart_append_newline
    {s : Text}
    (hNone : funcStart s = none) :
    funcStart (s ++ ['\n']) = none := by
  have hFunc :
      ∀ start : Text,
        (literal ".func" start).filter atWordEnd = none →
          (literal ".func" (start ++ ['\n'])).filter atWordEnd =
            none := by
    intro start hStart
    rw [literal_append_cons _ _ (by decide)]
    cases hLiteral : literal ".func" start with
    | none => rfl
    | some rest =>
        rw [hLiteral, Option.filter_some] at hStart
        cases rest with
        | nil => simp [atWordEnd] at hStart
        | cons c rest =>
            have hWord : atWordEnd (c :: rest) = false := by
              simpa using hStart
            have hSame :
                atWordEnd (c :: rest ++ ['\n']) = false := hWord
            rw [Option.map_some, Option.filter_some, hSame]
            rfl
  change
    (literal ".func" (behindWord ".visible" s)).filter
      atWordEnd = none at hNone
  change
    (literal ".func" (behindWord ".visible" (s ++ ['\n']))).filter
      atWordEnd = none
  have hFree : '\n' ∉ ".visible".toList := by decide
  rcases behindWord_append_newline hFree s with
    hBehind | ⟨hNil, -⟩
  · rw [hBehind]
    exact hFunc (behindWord ".visible" s) hNone
  · rw [hNil]
    rfl

------------------------------------------------------------
-- The Name In Front Of A Brace
------------------------------------------------------------

/- `calledAt` in front of a brace, up to the parenthesis. -/
def callOpen
    (name : Text)
    (before : Option Char)
    (s : Text) : Option Text :=
  if atBoundary before (s ++ ['\x7b']) then do
    let s ← s.dropPrefix? name
    literal "(" (skipSpaces s)
  else
    none

/- `lastCall` in front of a brace, up to the parenthesis. -/
def lastOpen
    (name : Text) : Option Char → Text → Option Text
| before, [] => callOpen name before []
| before, c :: rest =>
    if c = '\n' then
      callOpen name before (c :: rest)
    else
      (lastOpen name (some c) rest).or
        (callOpen name before (c :: rest))

/- The rest of the line behind the parenthesis. -/
def behindLine (t rest : Text) : Text :=
  (rest ++ '\x7b' :: t).dropWhile (· != '\n')

section

variable {name : Text}

/- What an opened call leaves lies in the text. -/
theorem callOpen_suffix
    {before : Option Char}
    {s rest : Text}
    (hOpen : callOpen name before s = some rest) :
    rest <:+ s := by
  simp only [callOpen, bind, Option.ite_none_right_eq_some,
    Option.bind_eq_some_iff] at hOpen
  rcases hOpen with ⟨-, behind, hName, hLiteral⟩
  rcases List.dropPrefix?_eq_some_iff.mp hName with
    ⟨front, hText, -⟩
  have hBehind : behind <:+ s := by
    rw [hText]
    exact List.suffix_append _ _
  exact
    (literal_suffix hLiteral).trans
      ((List.dropWhile_suffix _).trans hBehind)

/- No call starts right in front of the brace. -/
theorem callOpen_nil
    (hSome : name ≠ [])
    (before : Option Char) :
    callOpen name before [] = none := by
  cases name with
  | nil => exact absurd rfl hSome
  | cons c name => simp [callOpen, List.dropPrefix?]

/- A call in front of a brace, whatever follows. -/
theorem calledAt_append_brace
    (hFree : '\x7b' ∉ name)
    (before : Option Char)
    (s t : Text) :
    calledAt name before (s ++ '\x7b' :: t) =
      (callOpen name before s).map (behindLine t) := by
  have hBoundary :
      atBoundary before (s ++ '\x7b' :: t) =
        atBoundary before (s ++ ['\x7b']) := by
    cases s with
    | nil => rfl
    | cons c s => rfl
  unfold calledAt callOpen
  rw [hBoundary]
  split
  · rw [dropPrefix?_append_cons s t hFree]
    cases s.dropPrefix? name with
    | none => rfl
    | some behind =>
        simp only [bind, Option.map_some, Option.bind_some]
        rw [skipSpaces_append_cons behind t (by decide),
          literal_append_cons _ _ (by decide)]
        cases literal "(" (skipSpaces behind) with
        | none => rfl
        | some rest => rfl
  · rfl

/- The last call of a line that ends in front of the brace. -/
theorem lastCall_append_brace
    (hFree : '\x7b' ∉ name)
    (before : Option Char)
    {s : Text}
    (hLine : '\n' ∈ s)
    (t : Text) :
    lastCall name before (s ++ '\x7b' :: t) =
      (lastOpen name before s).map (behindLine t) := by
  induction s generalizing before with
  | nil => cases hLine
  | cons c s ih =>
      rw [List.cons_append, lastCall, lastOpen,
        ← List.cons_append, calledAt_append_brace hFree]
      by_cases hEnd : c = '\n'
      · rw [if_pos hEnd, if_pos hEnd]
      · have hRest : '\n' ∈ s := by
          rcases List.mem_cons.mp hLine with hHead | hTail
          · exact absurd hHead.symm hEnd
          · exact hTail
        rw [if_neg hEnd, if_neg hEnd, ih _ hRest]
        cases lastOpen name (some c) s with
        | none => rfl
        | some rest => rfl

/- The last call of a line that ends right behind the brace. -/
theorem lastCall_append_brace_newline
    (hFree : '\x7b' ∉ name)
    (hNewline : '\n' ∉ name)
    (hSome : name ≠ [])
    (before : Option Char)
    (s t : Text) :
    lastCall name before (s ++ '\x7b' :: '\n' :: t) =
      (lastOpen name before s).map
        (behindLine ('\n' :: t)) := by
  induction s generalizing before with
  | nil =>
      have hBrace : ¬ ('\x7b' : Char) = '\n' := by decide
      have hBehind :
          calledAt name (some '\x7b') ('\n' :: t) = none := by
        unfold calledAt
        cases name with
        | nil => exact absurd rfl hSome
        | cons c name =>
            have hHead : ('\n' == c) = false := by
              simp only [List.mem_cons, not_or] at hNewline
              simpa using hNewline.1
            simp [bind, List.dropPrefix?, hHead]
      have hHere :=
        calledAt_append_brace hFree before [] ('\n' :: t)
      rw [List.nil_append] at hHere ⊢
      rw [lastCall, if_neg hBrace, lastCall, if_pos rfl, hBehind,
        hHere, lastOpen]
      rfl
  | cons c s ih =>
      rw [List.cons_append, lastCall, lastOpen,
        ← List.cons_append, calledAt_append_brace hFree, ih]
      split
      · rfl
      · cases lastOpen name (some c) s with
        | none => rfl
        | some rest => rfl

/- A call in front of the brace is a call. -/
theorem lastCall_isSome_of_open
    (hFree : '\x7b' ∉ name)
    (hSome : name ≠ [])
    {before : Option Char}
    {s : Text}
    (t : Text)
    (hOpen : (lastOpen name before s).isSome = true) :
    (lastCall name before (s ++ '\x7b' :: t)).isSome = true := by
  induction s generalizing before with
  | nil =>
      rw [lastOpen, callOpen_nil hSome] at hOpen
      cases hOpen
  | cons c s ih =>
      rw [lastOpen] at hOpen
      rw [List.cons_append, lastCall, ← List.cons_append,
        calledAt_append_brace hFree]
      split at hOpen
      case isTrue hEnd =>
        rw [if_pos hEnd, Option.isSome_map]
        exact hOpen
      case isFalse hEnd =>
        rw [if_neg hEnd, Option.isSome_or, Option.isSome_map]
        rw [Option.isSome_or, Bool.or_eq_true] at hOpen
        rcases hOpen with hLater | hHere
        · rw [ih hLater, Bool.true_or]
        · rw [hHere, Bool.or_true]

/- The rest of a line without an end in front of the brace. -/
theorem behindLine_length_le
    {rest : Text}
    (hLine : '\n' ∉ rest)
    (t : Text) :
    (behindLine t rest).length ≤ t.length := by
  have hAll : ∀ c ∈ rest, (c != '\n') = true := by
    intro c hMem
    rw [bne_iff_ne]
    intro hSame
    rw [hSame] at hMem
    exact hLine hMem
  unfold behindLine
  rw [List.dropWhile_append_of_pos hAll,
    List.dropWhile_cons_of_pos (by decide)]
  exact (List.dropWhile_suffix _).length_le

/- A line that holds the brace takes it. -/
theorem lastCall_length_le
    (hFree : '\x7b' ∉ name)
    {before : Option Char}
    {s t tail : Text}
    (hLine : '\n' ∉ s)
    (hCall :
      lastCall name before (s ++ '\x7b' :: t) = some tail) :
    tail.length ≤ t.length := by
  have hHere :
      ∀ own : Option Char, ∀ u : Text, '\n' ∉ u →
        calledAt name own (u ++ '\x7b' :: t) = some tail →
          tail.length ≤ t.length := by
    intro own u hEnd hCalled
    rw [calledAt_append_brace hFree, Option.map_eq_some_iff]
      at hCalled
    rcases hCalled with ⟨rest, hOpen, hTail⟩
    rw [← hTail]
    apply behindLine_length_le
    intro hMem
    exact hEnd ((callOpen_suffix hOpen).subset hMem)
  induction s generalizing before with
  | nil =>
      have hBrace : ¬ ('\x7b' : Char) = '\n' := by decide
      rw [List.nil_append, lastCall, if_neg hBrace] at hCall
      rcases Option.or_eq_some_iff.mp hCall with
        hLater | ⟨-, hCalled⟩
      · exact (lastCall_suffix hLater).length_le
      · exact hHere before [] hLine hCalled
  | cons c s ih =>
      have hEnd : ¬ c = '\n' := by
        intro hSame
        rw [hSame] at hLine
        exact hLine List.mem_cons_self
      have hRest : '\n' ∉ s :=
        fun hMem => hLine (List.mem_cons_of_mem c hMem)
      rw [List.cons_append, lastCall, if_neg hEnd] at hCall
      rcases Option.or_eq_some_iff.mp hCall with
        hLater | ⟨-, hCalled⟩
      · exact ih hRest hLater
      · exact hHere before (c :: s) hLine hCalled

/- A call whose line ends in front of the brace. -/
theorem lastCall_own
    (hFree : '\x7b' ∉ name)
    {before : Option Char}
    {s t gap : Text}
    (hCall :
      lastCall name before (s ++ '\x7b' :: t) =
        some (gap ++ '\x7b' :: t))
    (other : Text) :
    lastCall name before (s ++ '\x7b' :: other) =
      some (gap ++ '\x7b' :: other) := by
  have hLine : '\n' ∈ s := by
    by_contra hNone
    have hLength := lastCall_length_le hFree hNone hCall
    simp only [List.length_append, List.length_cons] at hLength
    omega
  rw [lastCall_append_brace hFree before hLine,
    Option.map_eq_some_iff] at hCall
  rcases hCall with ⟨rest, hOpen, hTail⟩
  have hRest : '\n' ∈ rest := by
    by_contra hNone
    have hLength := behindLine_length_le hNone t
    rw [hTail] at hLength
    simp only [List.length_append, List.length_cons] at hLength
    omega
  have hBehind :
      ∀ u : Text,
        behindLine u rest =
          rest.dropWhile (· != '\n') ++ '\x7b' :: u := by
    intro u
    have hSome : rest.dropWhile (· != '\n') ≠ [] := by
      intro hNil
      have hAll := List.dropWhile_eq_nil_iff.mp hNil '\n' hRest
      simp at hAll
    unfold behindLine
    rw [List.dropWhile_append, if_neg (by simpa using hSome)]
  rw [hBehind t] at hTail
  rw [lastCall_append_brace hFree before hLine, hOpen,
    Option.map_some, hBehind other,
    List.append_cancel_right hTail]

------------------------------------------------------------
-- The Header In Front Of A Brace
------------------------------------------------------------

/-
  A header accepted in front of a brace that it does not take
  is accepted whatever follows the brace.
-/
theorem funcHeader_own
    (hFree : '\x7b' ∉ name)
    {s t gap : Text}
    (hHeader :
      funcHeader name (s ++ '\x7b' :: t) =
        some (gap ++ '\x7b' :: t))
    (other : Text) :
    funcHeader name (s ++ '\x7b' :: other) =
      some (gap ++ '\x7b' :: other) := by
  unfold funcHeader at hHeader ⊢
  rw [funcStart_append_cons isStop_openBrace] at hHeader ⊢
  cases hStart : funcStart s with
  | none =>
      rw [hStart] at hHeader
      cases hHeader
  | some start =>
      rw [hStart] at hHeader
      exact lastCall_own hFree hHeader other

/-
  Where no header is accepted, none is once the line ends
  behind the brace.
-/
theorem funcHeader_none
    (hFree : '\x7b' ∉ name)
    (hNewline : '\n' ∉ name)
    (hSome : name ≠ [])
    {s t : Text}
    (hNone : funcHeader name (s ++ '\x7b' :: t) = none)
    (other : Text) :
    funcHeader name (s ++ '\x7b' :: '\n' :: other) = none := by
  unfold funcHeader at hNone ⊢
  rw [funcStart_append_cons isStop_openBrace] at hNone ⊢
  cases hStart : funcStart s with
  | none => rfl
  | some start =>
      rw [hStart] at hNone
      rw [Option.map_some, Option.bind_some] at hNone ⊢
      rw [lastCall_append_brace_newline hFree hNewline hSome,
        Option.map_eq_none_iff]
      cases hOpen : lastOpen name (some 'c') start with
      | none => rfl
      | some rest =>
          have hCall :=
            lastCall_isSome_of_open hFree hSome t
              (Option.isSome_of_eq_some hOpen)
          rw [hNone] at hCall
          cases hCall

/- No header without its start. -/
theorem funcHeader_eq_none_of_start
    {s : Text}
    (hStart : funcStart s = none) :
    funcHeader name s = none := by
  rw [funcHeader, hStart]
  rfl

end

------------------------------------------------------------
-- Texts Without Headers
------------------------------------------------------------

/- No line of the text starts a header. -/
def NoFuncLine (s : Text) : Prop :=
  searchLine funcStart s = none

/- No header starts at a line of such a text. -/
theorem NoFuncLine.funcStart_eq_none
    {s : Text}
    (hPlain : NoFuncLine s)
    {front rest : Text}
    (hText : s = front ++ rest)
    (hLine : startsLine front = true) :
    funcStart rest = none :=
  searchLineFrom_eq_none [] s hPlain front rest hText hLine

end Nccl

end FabricPerf
