import Mathlib.Data.List.Basic
import Mathlib.Data.List.TakeWhile

/-
  Text as a list of characters, its lines, and the small
  scanners an anchored regular expression is made of.

  White space and line breaks are those of Python strings.
  A scanner consumes a prefix of its text and returns the
  rest, so a pattern is a sequence of scanners.

  Main declarations:
    * `Text.splitLines`
    * `Text.joinLines`
    * `Text.splitLines_joinLines`
    * `Text.numbered`
    * `Text.operand`
-/

/- A text, or one line of it. -/
abbrev Text := List Char

namespace Text

------------------------------------------------------------
-- Characters
------------------------------------------------------------

/- The white space of Python's `str.isspace` and `\s`. -/
def isSpace (c : Char) : Bool :=
  [9, 10, 11, 12, 13, 28, 29, 30, 31, 32, 133, 160, 5760,
    8192, 8193, 8194, 8195, 8196, 8197, 8198, 8199, 8200,
    8201, 8202, 8232, 8233, 8239, 8287, 12288].contains
    c.toNat

/- The line breaks of Python's `str.splitlines`. -/
def isLineBreak (c : Char) : Bool :=
  [10, 11, 12, 13, 28, 29, 30, 133, 8232, 8233].contains
    c.toNat

/- A text within one line. -/
def OneLine (s : Text) : Prop :=
  ∀ c ∈ s, isLineBreak c = false

theorem OneLine.mono
    {s t : Text}
    (hLine : OneLine t)
    (hSub : s ⊆ t) :
    OneLine s :=
  fun c hMem => hLine c (hSub hMem)

theorem OneLine.append
    {s t : Text}
    (hLeft : OneLine s)
    (hRight : OneLine t) :
    OneLine (s ++ t) := by
  intro c hMem
  rcases List.mem_append.mp hMem with hMem | hMem
  · exact hLeft c hMem
  · exact hRight c hMem

theorem oneLine_of_isDigit
    {s : Text}
    (hDigit : ∀ c ∈ s, c.isDigit = true) :
    OneLine s := by
  intro c hMem
  have hRange := hDigit c hMem
  simp only [Char.isDigit, Bool.and_eq_true, decide_eq_true_eq,
    ge_iff_le, UInt32.le_iff_toNat_le] at hRange
  change 48 ≤ c.toNat ∧ c.toNat ≤ 57 at hRange
  simp only [isLineBreak, List.contains_eq_mem,
    decide_eq_false_iff_not, List.mem_cons, List.not_mem_nil,
    or_false, not_or]
  omega

------------------------------------------------------------
-- Lines
------------------------------------------------------------

/- `splitLines` with the characters read since the break. -/
def splitLinesFrom (line : Text) : Text → List Text
| [] => if line.isEmpty then [] else [line]
| [c] => if isLineBreak c then [line] else [line ++ [c]]
| c :: d :: rest =>
    if isLineBreak c then
      -- A carriage return and its line feed are one break.
      if c = '\r' ∧ d = '\n' then
        line :: splitLinesFrom [] rest
      else
        line :: splitLinesFrom [] (d :: rest)
    else
      splitLinesFrom (line ++ [c]) (d :: rest)

/- Python's `str.splitlines`. -/
def splitLines (s : Text) : List Text :=
  splitLinesFrom [] s

/- Python's `"\n".join`. -/
def joinLines : List Text → Text
| [] => []
| [line] => line
| line :: next :: rest =>
    line ++ '\n' :: joinLines (next :: rest)

/- Python's `str.strip`. -/
def strip (s : Text) : Text :=
  ((s.dropWhile isSpace).reverse.dropWhile isSpace).reverse

theorem strip_subset
    (s : Text) :
    strip s ⊆ s := by
  intro c hMem
  have hInner :=
    (List.dropWhile_suffix isSpace).subset
      (List.mem_reverse.mp hMem)
  exact
    (List.dropWhile_suffix isSpace).subset
      (List.mem_reverse.mp hInner)

theorem oneLine_of_mem_splitLinesFrom
    (s line : Text)
    (hLine : OneLine line) :
    ∀ l ∈ splitLinesFrom line s, OneLine l := by
  have hNil : OneLine [] := fun c hMem => by simp at hMem
  fun_induction splitLinesFrom line s with
  | case1 | case2 | case3 =>
      simp_all
  | case4 line c hBreak =>
      intro l hMem
      rw [List.mem_singleton.mp hMem]
      exact hLine.append (by simpa [OneLine] using hBreak)
  | case5 line c d rest hBreak hPair ih =>
      intro l hMem
      rcases List.mem_cons.mp hMem with hMem | hMem
      · rw [hMem]
        exact hLine
      · exact ih hNil l hMem
  | case6 line c d rest hBreak hPair ih =>
      intro l hMem
      rcases List.mem_cons.mp hMem with hMem | hMem
      · rw [hMem]
        exact hLine
      · exact ih hNil l hMem
  | case7 line c d rest hBreak ih =>
      exact ih (hLine.append (by simpa [OneLine] using hBreak))

/- No line holds a line break. -/
theorem oneLine_of_mem_splitLines
    {s l : Text}
    (hMem : l ∈ splitLines s) :
    OneLine l :=
  oneLine_of_mem_splitLinesFrom s []
    (fun c hNone => by simp at hNone) l hMem

/- A line ends at its line feed. -/
theorem splitLinesFrom_line
    (l line rest : Text)
    (hLine : OneLine l) :
    splitLinesFrom line (l ++ '\n' :: rest) =
      (line ++ l) :: splitLinesFrom [] rest := by
  induction l generalizing line with
  | nil =>
      cases rest with
      | nil =>
          simp [splitLinesFrom, isLineBreak]
      | cons d rest =>
          simp [splitLinesFrom, isLineBreak]
  | cons c l ih =>
      have hHead : isLineBreak c = false :=
        hLine c (by simp)
      have hTail : OneLine l :=
        hLine.mono (List.subset_cons_self c l)
      have hStep :
          splitLinesFrom line (c :: l ++ '\n' :: rest) =
            splitLinesFrom (line ++ [c]) (l ++ '\n' :: rest) := by
        cases l with
        | nil =>
            simp [splitLinesFrom, hHead]
        | cons d l =>
            simp [splitLinesFrom, hHead]
      rw [hStep, ih (line ++ [c]) hTail]
      simp

/- Every line closed by a line feed. -/
theorem joinLines_append_newline
    (ls : List Text)
    (hSome : ls ≠ []) :
    joinLines ls ++ ['\n'] = ls.flatMap (· ++ ['\n']) := by
  fun_induction joinLines ls with
  | case1 =>
      contradiction
  | case2 line =>
      simp
  | case3 line next rest ih =>
      have hRest := ih (by simp)
      rw [List.flatMap_cons, ← hRest]
      simp

/- The lines of joined lines are those lines. -/
theorem splitLines_flatMap
    (ls : List Text)
    (hLines : ∀ l ∈ ls, OneLine l) :
    splitLines (ls.flatMap (· ++ ['\n'])) = ls := by
  induction ls with
  | nil =>
      simp [splitLines, splitLinesFrom]
  | cons l ls ih =>
      have hRest := ih (fun m hMem => hLines m (by simp [hMem]))
      have hHead :=
        splitLinesFrom_line l [] (ls.flatMap (· ++ ['\n']))
          (hLines l (by simp))
      rw [splitLines] at hRest ⊢
      rw [List.flatMap_cons, List.append_assoc,
        List.singleton_append, hHead, hRest]
      simp

/- Lines joined in groups are all closed by a line feed. -/
theorem joinLines_map_joinLines
    (groups : List (List Text))
    (hGroups : groups ≠ [])
    (hSome : ∀ g ∈ groups, g ≠ []) :
    joinLines (groups.map joinLines) ++ ['\n'] =
      groups.flatten.flatMap (· ++ ['\n']) := by
  rw [joinLines_append_newline _ (by simpa using hGroups),
    List.flatMap_map, List.flatten_eq_flatMap,
    List.flatMap_assoc]
  apply List.flatMap_congr
  intro g hMem
  exact joinLines_append_newline g (hSome g hMem)

/-
  Joining groups of lines that were joined themselves gives
  back the lines of all groups.
-/
theorem splitLines_joinLines
    (groups : List (List Text))
    (hGroups : groups ≠ [])
    (hSome : ∀ g ∈ groups, g ≠ [])
    (hLines : ∀ g ∈ groups, ∀ l ∈ g, OneLine l) :
    splitLines (joinLines (groups.map joinLines) ++ ['\n']) =
      groups.flatten := by
  rw [joinLines_map_joinLines groups hGroups hSome]
  apply splitLines_flatMap
  intro l hMem
  rcases List.mem_flatten.mp hMem with ⟨g, hGroup, hLine⟩
  exact hLines g hGroup l hLine

------------------------------------------------------------
-- Scanners
------------------------------------------------------------

/- `\s*`: the rest after the white space. -/
def skipSpaces (s : Text) : Text :=
  s.dropWhile isSpace

/- `\s+`: white space, at least one character of it. -/
def spaces : Text → Option Text
| [] => none
| c :: rest => if isSpace c then some (skipSpaces rest) else none

/- The exact text `lit`. -/
def literal (lit : String) (s : Text) : Option Text :=
  s.dropPrefix? lit.toList

/- `\d+`, as long as it goes. -/
def digits (s : Text) : Option (Text × Text) :=
  match s.takeWhile Char.isDigit with
  | [] => none
  | c :: ds => some (c :: ds, s.dropWhile Char.isDigit)

/- `lit\d+`, such as a register of one kind. -/
def numbered
    (lit : String)
    (s : Text) : Option (Text × Text) :=
  (literal lit s).bind fun rest =>
    (digits rest).map fun (ds, rest) => (lit.toList ++ ds, rest)

/- Python's `int` of decimal digits. -/
def intOf (ds : Text) : Nat :=
  ds.foldl (fun n c => 10 * n + (c.toNat - 48)) 0

/-
  `\s+([^;]+);`: white space, then everything up to the
  semicolon. White space alone is split by backtracking: its
  last character is the operand.
-/
def operand : Text → Option (Text × Text)
| [] => none
| c :: rest =>
    if isSpace c then
      match (skipSpaces rest).dropWhile (· != ';') with
      | [] => none
      | _ :: tail =>
          match (skipSpaces rest).takeWhile (· != ';') with
          | [] =>
              match (rest.takeWhile isSpace).getLast? with
              | none => none
              | some last => some ([last], tail)
          | d :: body => some (d :: body, tail)
    else
      none

theorem skipSpaces_subset
    (s : Text) :
    skipSpaces s ⊆ s :=
  (List.dropWhile_suffix isSpace).subset

/- What is left starts without white space. -/
theorem isSpace_of_skipSpaces
    {s rest : Text}
    {c : Char}
    (hSkip : skipSpaces s = c :: rest) :
    isSpace c = false := by
  have hHead := List.head?_dropWhile_not isSpace s
  unfold skipSpaces at hSkip
  simpa [hSkip] using hHead

/- White space in front of a text that starts without any. -/
theorem skipSpaces_append
    {indent : Text}
    {c : Char}
    (rest : Text)
    (hIndent : ∀ d ∈ indent, isSpace d = true)
    (hStart : isSpace c = false) :
    skipSpaces (indent ++ c :: rest) = c :: rest := by
  rw [skipSpaces, List.dropWhile_append_of_pos hIndent,
    List.dropWhile_cons_of_neg (by simp [hStart])]

theorem spaces_subset
    {s rest : Text}
    (hScan : spaces s = some rest) :
    rest ⊆ s := by
  cases s with
  | nil =>
      simp [spaces] at hScan
  | cons c tail =>
      simp only [spaces, Option.ite_none_right_eq_some,
        Option.some.injEq] at hScan
      rw [← hScan.2]
      exact
        List.Subset.trans (skipSpaces_subset tail)
          (List.subset_cons_self c tail)

/- What `\d+` consumed. -/
theorem digits_eq_some
    {s ds rest : Text}
    (hScan : digits s = some (ds, rest)) :
    s = ds ++ rest ∧ ds ≠ [] ∧
      (∀ c ∈ ds, c.isDigit = true) := by
  have hSplit :
      s.takeWhile Char.isDigit ++ s.dropWhile Char.isDigit = s :=
    List.takeWhile_append_dropWhile
  unfold digits at hScan
  split at hScan
  case h_1 =>
    contradiction
  case h_2 c ds' hTake =>
    simp only [Option.some.injEq, Prod.mk.injEq] at hScan
    rcases hScan with ⟨hDigits, hRest⟩
    rw [← hDigits, ← hRest, ← hTake]
    constructor
    · exact hSplit.symm
    · constructor
      · simp [hTake]
      · exact fun d hMem => List.mem_takeWhile_imp hMem

/- Digits up to a character that is none. -/
theorem digits_append
    {ds rest : Text}
    (hSome : ds ≠ [])
    (hDigit : ∀ c ∈ ds, c.isDigit = true)
    (hEnd : rest.takeWhile Char.isDigit = []) :
    digits (ds ++ rest) = some (ds, rest) := by
  have hDrop : rest.dropWhile Char.isDigit = rest := by
    have hSplit :
        rest.takeWhile Char.isDigit ++
          rest.dropWhile Char.isDigit = rest :=
      List.takeWhile_append_dropWhile
    simpa [hEnd] using hSplit
  unfold digits
  rw [List.takeWhile_append_of_pos hDigit, hEnd,
    List.dropWhile_append_of_pos hDigit, hDrop,
    List.append_nil]
  cases ds with
  | nil =>
      contradiction
  | cons c ds =>
      rfl

/- What `numbered lit` reads. -/
def IsNumbered (lit : String) (r : Text) : Prop :=
  ∃ ds, r = lit.toList ++ ds ∧ ds ≠ [] ∧
    ∀ c ∈ ds, c.isDigit = true

theorem literal_append
    (lit : String)
    (rest : Text) :
    literal lit (lit.toList ++ rest) = some rest :=
  List.dropPrefix?_append_of_beq rest (beq_self_eq_true _)

theorem literal_eq_some
    {lit : String}
    {s rest : Text}
    (hScan : literal lit s = some rest) :
    s = lit.toList ++ rest := by
  rcases List.dropPrefix?_eq_some_iff.mp hScan with
    ⟨front, hText, hFront⟩
  rw [hText, eq_of_beq hFront]

theorem numbered_eq_some
    {lit : String}
    {s r rest : Text}
    (hScan : numbered lit s = some (r, rest)) :
    s = r ++ rest ∧ IsNumbered lit r := by
  rcases Option.bind_eq_some_iff.mp hScan with
    ⟨tail, hLit, hTail⟩
  rcases Option.map_eq_some_iff.mp hTail with
    ⟨⟨ds, more⟩, hDigits, hPair⟩
  rcases digits_eq_some hDigits with ⟨hText, hSome, hDigit⟩
  simp only [Prod.mk.injEq] at hPair
  rw [← hPair.1, ← hPair.2]
  constructor
  · rw [literal_eq_some hLit, hText, List.append_assoc]
  · exact ⟨ds, rfl, hSome, hDigit⟩

/- A numbered name up to a character that is no digit. -/
theorem numbered_append
    {lit : String}
    {r rest : Text}
    (hName : IsNumbered lit r)
    (hEnd : rest.takeWhile Char.isDigit = []) :
    numbered lit (r ++ rest) = some (r, rest) := by
  rcases hName with ⟨ds, hText, hSome, hDigit⟩
  rw [hText, numbered, List.append_assoc, literal_append,
    Option.bind_some, digits_append hSome hDigit hEnd]
  rfl

/- What `operand` reads. -/
def IsOperand (target : Text) : Prop :=
  ∃ s rest, operand s = some (target, rest)

/-
  An operand lies in the text; it is one character of white
  space, or starts without any and holds no semicolon.
-/
theorem operand_eq_some
    {s target rest : Text}
    (hScan : operand s = some (target, rest)) :
    target ⊆ s ∧
      ((∃ c, target = [c] ∧ isSpace c = true) ∨
        ∃ d body, target = d :: body ∧ isSpace d = false ∧
          ∀ e ∈ target, (e != ';') = true) := by
  unfold operand at hScan
  split at hScan
  case h_1 =>
    contradiction
  case h_2 c tail =>
    split at hScan
    case isFalse =>
      contradiction
    split at hScan
    case h_1 =>
      contradiction
    case h_2 =>
    split at hScan
    case h_1 =>
      split at hScan
      case h_1 =>
        contradiction
      case h_2 last hLast =>
        simp only [Option.some.injEq, Prod.mk.injEq] at hScan
        have hMem := List.mem_of_getLast? hLast
        have hTail : last ∈ tail :=
          (List.takeWhile_prefix isSpace).subset hMem
        rw [← hScan.1]
        constructor
        · simpa using Or.inr hTail
        · exact Or.inl ⟨last, rfl, List.mem_takeWhile_imp hMem⟩
    case h_2 d body hBody =>
      simp only [Option.some.injEq, Prod.mk.injEq] at hScan
      rw [← hScan.1]
      have hPrefix :
          d :: body <+: skipSpaces tail := by
        rw [← hBody]
        exact List.takeWhile_prefix _
      constructor
      · exact
          List.Subset.trans hPrefix.subset
            (List.Subset.trans (skipSpaces_subset tail)
              (List.subset_cons_self c tail))
      · rcases hPrefix with ⟨more, hMore⟩
        apply Or.inr
        refine ⟨d, body, rfl, ?_, ?_⟩
        · exact isSpace_of_skipSpaces hMore.symm
        · intro e hMem
          rw [← hBody] at hMem
          exact List.mem_takeWhile_imp (p := (· != ';')) hMem

/-
  An operand that was read is read again behind one space,
  whatever follows its semicolon.
-/
theorem operand_render
    {target : Text}
    (hOperand : IsOperand target)
    (next : Text) :
    operand (' ' :: (target ++ ';' :: next)) =
      some (target, next) := by
  have hSpace : isSpace ' ' = true := by decide
  have hSemi : isSpace ';' = false := by decide
  rcases hOperand with ⟨s, rest, hScan⟩
  rcases (operand_eq_some hScan).2 with
    ⟨c, hTarget, hBlank⟩ | ⟨d, body, hTarget, hStart, hStop⟩
  · rw [hTarget]
    simp [operand, skipSpaces, hSpace, hSemi, hBlank]
  · have hSkip :
        skipSpaces (target ++ ';' :: next) =
          target ++ ';' :: next := by
      rw [hTarget, List.cons_append, skipSpaces,
        List.dropWhile_cons_of_neg (by simp [hStart])]
    rw [operand, if_pos hSpace, hSkip,
      List.dropWhile_append_of_pos hStop,
      List.takeWhile_append_of_pos hStop]
    simp [hTarget]

end Text
