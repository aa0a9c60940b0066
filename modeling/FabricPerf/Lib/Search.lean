import FabricPerf.Lib.Scanner

/-
  Searching a text for the matches of a scanner.

  A match is looked for from left to right, as `re.search`
  and `re.finditer` do.  A scanner here gives the groups of
  its match, with the rest of the text where a search has to
  go on behind it.

  Main declarations:
    * `Text.search`
    * `Text.search_skip`
    * `Text.finditer`
    * `Text.shortest`
    * `Text.searchBehind`, `Text.wordMatch`
    * `Text.searchLine`, `Text.FirstLine`
    * `Text.searchLine_eq_some_iff`
-/

namespace Text

variable {α : Type}

------------------------------------------------------------
-- The Leftmost Match
------------------------------------------------------------

/- `re.search`: the match at the leftmost position. -/
def search (scan : Text → Option α) : Text → Option α
| [] => scan []
| c :: rest =>
    match scan (c :: rest) with
    | some found => some found
    | none => search scan rest

/- Positions at which a scanner cannot start are passed over. -/
theorem search_skip
    {scan : Text → Option α}
    {front : Text}
    (hSkip : ∀ c ∈ front, ∀ rest, scan (c :: rest) = none)
    (s : Text) :
    search scan (front ++ s) = search scan s := by
  induction front with
  | nil => rfl
  | cons c front ih =>
      have hHead := hSkip c (by simp) (front ++ s)
      have hTail :=
        ih (fun d hMem => hSkip d (List.mem_cons_of_mem c hMem))
      simpa [search, hHead] using hTail

/- A match at the first position is the leftmost. -/
theorem search_of_some
    {scan : Text → Option α}
    {s : Text}
    {found : α}
    (hScan : scan s = some found) :
    search scan s = some found := by
  cases s with
  | nil => exact hScan
  | cons c rest => simp [search, hScan]

/- Python's `in` of strings. -/
def contains (lit : String) (s : Text) : Bool :=
  (search (literal lit) s).isSome

/- What `\d+` leaves. -/
theorem digits_rest
    {s ds rest : Text}
    (hScan : digits s = some (ds, rest)) :
    rest = s.dropWhile Char.isDigit := by
  unfold digits at hScan
  split at hScan
  case h_1 =>
    contradiction
  case h_2 =>
    simp only [Option.some.injEq, Prod.mk.injEq] at hScan
    exact hScan.2.symm

/- `$`: the end, or a line feed that ends the text. -/
def atEnd (s : Text) : Bool :=
  s.isEmpty || s == ['\n']

------------------------------------------------------------
-- All Matches
------------------------------------------------------------

/-
  `finditer` inside the text: whether a line starts here, and
  how much of the last match is still to be passed over.
-/
def finditerFrom
    (scan : Text → Option (α × Text)) :
    Bool → Nat → Text → List α
| _, _, [] => []
| _, skip + 1, c :: rest =>
    finditerFrom scan (c == '\n') skip rest
| false, 0, c :: rest => finditerFrom scan (c == '\n') 0 rest
| true, 0, c :: rest =>
    match scan (c :: rest) with
    | some (found, tail) =>
        found ::
          finditerFrom scan (c == '\n')
            (rest.length - tail.length) rest
    | none => finditerFrom scan (c == '\n') 0 rest

/-
  `re.finditer` of an expression that starts with `(?m)^` and
  matches no empty text: the matches at starts of lines,
  without overlap.
-/
def finditer
    (scan : Text → Option (α × Text))
    (s : Text) : List α :=
  finditerFrom scan true 0 s

------------------------------------------------------------
-- The Shortest Match
------------------------------------------------------------

/- `[A-Za-z0-9_]` -/
def isWord (c : Char) : Bool :=
  c.isAlphanum || c == '_'

/- `shortest` behind the characters taken so far. -/
def shortestFrom
    (stop : Text → Bool) :
    Text → Text → Option Text
| _, [] => none
| taken, c :: rest =>
    if isWord c then
      if stop rest then
        some (taken ++ [c])
      else
        shortestFrom stop (taken ++ [c]) rest
    else
      none

/-
  `[A-Za-z0-9_]+?` in front of what `stop` accepts: as few
  characters as that allows.
-/
def shortest (stop : Text → Bool) (s : Text) : Option Text :=
  shortestFrom stop [] s

/- What a shortest match takes, from the words on. -/
theorem shortestFrom_append
    {stop : Text → Bool}
    {c : Char}
    (front : Text)
    {s : Text}
    (hWord : ∀ d ∈ front ++ [c], isWord d = true)
    (hGoOn :
      ∀ before after, front ++ [c] = before ++ after →
        before ≠ [] → after ≠ [] → stop (after ++ s) = false)
    (hStop : stop s = true)
    (taken : Text) :
    shortestFrom stop taken (front ++ c :: s) =
      some (taken ++ front ++ [c]) := by
  induction front generalizing taken with
  | nil =>
      have hLast := hWord c (by simp)
      simp [shortestFrom, hLast, hStop]
  | cons d front ih =>
      have hHead := hWord d (by simp)
      have hNot : stop (front ++ c :: s) = false := by
        simpa using hGoOn [d] (front ++ [c]) rfl (by simp) (by simp)
      have hRest :=
        ih
          (fun e hMem => hWord e (List.mem_cons_of_mem d hMem))
          (fun before after hSplit hSome hMore =>
            hGoOn (d :: before) after (by simp [hSplit])
              (by simp) hMore)
          (taken ++ [d])
      simpa [shortestFrom, hHead, hNot] using hRest

------------------------------------------------------------
-- Words
------------------------------------------------------------

/-
  Whether an expression matches anywhere, where it also looks
  at the character before its match.
-/
def searchBehind
    (hit : Option Char → Text → Bool) :
    Option Char → Text → Bool
| before, [] => hit before []
| before, c :: rest =>
    hit before (c :: rest) ||
      searchBehind hit (some c) rest

/- `\b` between a character and what follows it. -/
def atBoundary (before : Option Char) (s : Text) : Bool :=
  before.any isWord != s.head?.any isWord

/- `\b`, the exact text `name`, `\b`. -/
def wordMatch
    (name : Text)
    (before : Option Char)
    (s : Text) : Bool :=
  atBoundary before s && name.isPrefixOf s &&
    atBoundary (name.getLast?.or before) (s.drop name.length)

------------------------------------------------------------
-- Starts Of Lines
------------------------------------------------------------

/- `(?m)^`: whether a line starts behind a text. -/
def startsLine (before : Text) : Bool :=
  before.getLast?.all (· == '\n')

/- A line starts behind a text that ends with a line feed. -/
theorem startsLine_append_singleton
    (before : Text)
    (c : Char) :
    startsLine (before ++ [c]) = (c == '\n') := by
  simp [startsLine]

/- Only the end of what stands before decides. -/
theorem startsLine_append
    (before : Text)
    {s : Text}
    (hSome : s ≠ []) :
    startsLine (before ++ s) = startsLine s := by
  rcases List.eq_nil_or_concat s with hNone | ⟨front, c, hAll⟩
  · exact absurd hNone hSome
  · rw [hAll, List.concat_eq_append, ← List.append_assoc,
      startsLine_append_singleton, startsLine_append_singleton]

/- `searchLine` from a position on. -/
def searchLineFrom
    (scan : Text → Option α) :
    Bool → Nat → Text → Option (Nat × α)
| atStart, place, [] =>
    (if atStart then scan [] else none).map (place, ·)
| atStart, place, c :: rest =>
    match if atStart then scan (c :: rest) else none with
    | some found => some (place, found)
    | none => searchLineFrom scan (c == '\n') (place + 1) rest

/-
  `re.search` of an expression that starts with `(?m)^`: the
  leftmost start of a line at which it matches.
-/
def searchLine
    (scan : Text → Option α)
    (s : Text) : Option (Nat × α) :=
  searchLineFrom scan true 0 s

/- The leftmost match at the start of a line. -/
structure FirstLine
    (scan : Text → Option α)
    (s before after : Text)
    (found : α) : Prop where
  text : s = before ++ after
  start : startsLine before = true
  hit : scan after = some found
  first :
    ∀ front rest : Text, s = front ++ rest →
      front.length < before.length →
        startsLine front = true → scan rest = none

/- The search behind what it has passed. -/
theorem searchLineFrom_eq_some
    {scan : Text → Option α}
    (lead s : Text)
    {place : Nat}
    {found : α}
    (hSearch :
      searchLineFrom scan (startsLine lead) lead.length s =
        some (place, found)) :
    ∃ before after : Text,
      s = before ++ after ∧
        lead.length + before.length = place ∧
        startsLine (lead ++ before) = true ∧
        scan after = some found ∧
        ∀ front rest : Text, s = front ++ rest →
          front.length < before.length →
            startsLine (lead ++ front) = true →
              scan rest = none := by
  induction s generalizing lead with
  | nil =>
      simp only [searchLineFrom, Option.map_eq_some_iff,
        Option.ite_none_right_eq_some, Prod.mk.injEq] at hSearch
      rcases hSearch with ⟨own, ⟨hStart, hHit⟩, hPlace, hOwn⟩
      rw [hOwn] at hHit
      exact
        ⟨[], [], rfl, hPlace, by simpa using hStart, hHit,
          fun front rest _ hLess => absurd hLess (Nat.not_lt_zero _)⟩
  | cons c s ih =>
      rw [searchLineFrom] at hSearch
      cases hHere :
          (if startsLine lead then scan (c :: s) else none) with
      | some own =>
          rw [hHere] at hSearch
          simp only [Option.some.injEq, Prod.mk.injEq] at hSearch
          rw [Option.ite_none_right_eq_some, hSearch.2] at hHere
          exact
            ⟨[], c :: s, rfl, hSearch.1, by simpa using hHere.1,
              hHere.2, fun front rest _ hLess =>
                absurd hLess (Nat.not_lt_zero _)⟩
      | none =>
          rw [hHere] at hSearch
          have hNext :=
            ih (lead ++ [c]) (by
              rw [startsLine_append_singleton, List.length_append]
              exact hSearch)
          rcases hNext with
            ⟨before, after, hText, hPlace, hStart, hHit, hFirst⟩
          refine ⟨c :: before, after, ?_, ?_, ?_, hHit, ?_⟩
          · rw [hText, List.cons_append]
          · rw [← hPlace]
            simp only [List.length_append, List.length_cons,
              List.length_nil]
            omega
          · simpa using hStart
          · intro front rest hSplit hLess hLine
            cases front with
            | nil =>
                rw [List.append_nil] at hLine
                rw [if_pos hLine] at hHere
                rw [List.nil_append] at hSplit
                rw [← hSplit]
                exact hHere
            | cons d front =>
                rw [List.cons_append, List.cons.injEq] at hSplit
                rw [← hSplit.1] at hLine
                apply hFirst front rest hSplit.2
                · simpa using hLess
                · simpa using hLine

/- The search without a match. -/
theorem searchLineFrom_eq_none
    {scan : Text → Option α}
    (lead s : Text)
    (hSearch :
      searchLineFrom scan (startsLine lead) lead.length s =
        none) :
    ∀ front rest : Text, s = front ++ rest →
      startsLine (lead ++ front) = true → scan rest = none := by
  induction s generalizing lead with
  | nil =>
      intro front rest hSplit hLine
      rcases List.nil_eq_append_iff.mp hSplit with ⟨hFront, hRest⟩
      subst hFront hRest
      rw [List.append_nil] at hLine
      rw [searchLineFrom, if_pos hLine, Option.map_eq_none_iff]
        at hSearch
      exact hSearch
  | cons c s ih =>
      rw [searchLineFrom] at hSearch
      cases hHere :
          (if startsLine lead then scan (c :: s) else none) with
      | some own =>
          rw [hHere] at hSearch
          cases hSearch
      | none =>
          rw [hHere] at hSearch
          intro front rest hSplit hLine
          cases front with
          | nil =>
              rw [List.append_nil] at hLine
              rw [if_pos hLine] at hHere
              rw [List.nil_append] at hSplit
              rw [← hSplit]
              exact hHere
          | cons d front =>
              rw [List.cons_append, List.cons.injEq] at hSplit
              rw [← hSplit.1] at hLine
              apply ih (lead ++ [c]) _ front rest hSplit.2
              · simpa using hLine
              · rw [startsLine_append_singleton,
                  List.length_append]
                exact hSearch

/- A text has one leftmost match. -/
theorem FirstLine.unique
    {scan : Text → Option α}
    {s before before' after after' : Text}
    {found found' : α}
    (hFirst : FirstLine scan s before after found)
    (hOther : FirstLine scan s before' after' found') :
    before = before' ∧ after = after' ∧ found = found' := by
  have hLength : before.length = before'.length := by
    rcases Nat.lt_trichotomy before.length before'.length with
      hLess | hSame | hMore
    · have hNone :=
        hOther.first before after hFirst.text hLess hFirst.start
      rw [hFirst.hit] at hNone
      cases hNone
    · exact hSame
    · have hNone :=
        hFirst.first before' after' hOther.text hMore
          hOther.start
      rw [hOther.hit] at hNone
      cases hNone
  have hSplit : before ++ after = before' ++ after' := by
    rw [← hFirst.text, hOther.text]
  rcases List.append_inj hSplit hLength with ⟨hBefore, hAfter⟩
  have hFound := hFirst.hit
  rw [hAfter, hOther.hit, Option.some.injEq] at hFound
  exact ⟨hBefore, hAfter, hFound.symm⟩

/- What the search finds. -/
theorem searchLine_eq_some_iff
    {scan : Text → Option α}
    {s : Text}
    {place : Nat}
    {found : α} :
    searchLine scan s = some (place, found) ↔
      ∃ before after,
        FirstLine scan s before after found ∧
          before.length = place := by
  have hSound :
      ∀ own own', searchLine scan s = some (own, own') →
        ∃ before after,
          FirstLine scan s before after own' ∧
            before.length = own := by
    intro own own' hSearch
    rcases searchLineFrom_eq_some [] s hSearch with
      ⟨before, after, hText, hPlace, hStart, hHit, hFirst⟩
    exact
      ⟨before, after, ⟨hText, hStart, hHit, hFirst⟩,
        by simpa using hPlace⟩
  constructor
  · exact hSound place found
  · rintro ⟨before, after, hFirst, hPlace⟩
    cases hSearch : searchLine scan s with
    | none =>
        have hNone :=
          searchLineFrom_eq_none [] s hSearch before after
            hFirst.text hFirst.start
        rw [hFirst.hit] at hNone
        cases hNone
    | some own =>
        rcases hSound own.1 own.2 hSearch with
          ⟨before', after', hOther, hPlace'⟩
        rcases hFirst.unique hOther with ⟨hBefore, -, hFound⟩
        rw [← hPlace, hBefore, hPlace', hFound]

/- The match of a search, cut at its place. -/
theorem firstLine_of_searchLine
    {scan : Text → Option α}
    {s : Text}
    {place : Nat}
    {found : α}
    (hSearch : searchLine scan s = some (place, found)) :
    FirstLine scan s (s.take place) (s.drop place) found := by
  rcases searchLine_eq_some_iff.mp hSearch with
    ⟨before, after, hFirst, hPlace⟩
  rw [← hPlace, hFirst.text, List.take_left, List.drop_left,
    ← hFirst.text]
  exact hFirst

------------------------------------------------------------
-- The First Occurrence Of A Character
------------------------------------------------------------

/- Where `find` of one character stops. -/
theorem findIdx?_eq_some_iff_split
    {s : Text}
    {c : Char}
    {index : Nat} :
    s.findIdx? (· == c) = some index ↔
      ∃ gap rest : Text,
        s = gap ++ c :: rest ∧ c ∉ gap ∧ gap.length = index := by
  induction s generalizing index with
  | nil => simp
  | cons d s ih =>
      rw [List.findIdx?_cons]
      by_cases hHere : d = c
      · rw [if_pos (by simpa using hHere)]
        constructor
        · intro hIndex
          rw [Option.some.injEq] at hIndex
          exact ⟨[], s, by simp [hHere], by simp, hIndex⟩
        · rintro ⟨gap, rest, hText, hGap, hIndex⟩
          cases gap with
          | nil => simpa using hIndex
          | cons e gap =>
              rw [List.cons_append, List.cons.injEq] at hText
              rw [← hText.1, hHere] at hGap
              exact absurd List.mem_cons_self hGap
      · rw [if_neg (by simpa using hHere), Option.map_eq_some_iff]
        constructor
        · rintro ⟨inner, hInner, hIndex⟩
          rcases ih.mp hInner with ⟨gap, rest, hText, hGap, hLength⟩
          refine ⟨d :: gap, rest, by simp [hText], ?_, ?_⟩
          · simp only [List.mem_cons, not_or]
            exact ⟨fun hSame => hHere hSame.symm, hGap⟩
          · simp [hLength, hIndex]
        · rintro ⟨gap, rest, hText, hGap, hIndex⟩
          cases gap with
          | nil =>
              rw [List.nil_append, List.cons.injEq] at hText
              exact absurd hText.1 hHere
          | cons e gap =>
              rw [List.cons_append, List.cons.injEq] at hText
              simp only [List.mem_cons, not_or] at hGap
              exact
                ⟨gap.length,
                  ih.mpr ⟨gap, rest, hText.2, hGap.2, rfl⟩,
                  by simpa using hIndex⟩

------------------------------------------------------------
-- Scanners In Front Of A Character
------------------------------------------------------------

/- White space in front of a character that is none. -/
theorem skipSpaces_append_cons
    (s t : Text)
    {c : Char}
    (hSpace : isSpace c = false) :
    skipSpaces (s ++ c :: t) = skipSpaces s ++ c :: t := by
  unfold skipSpaces
  rw [List.dropWhile_append]
  cases hRest : s.dropWhile isSpace with
  | nil => simp [hSpace]
  | cons d rest => simp

/- An exact text in front of a character it does not hold. -/
theorem dropPrefix?_append_cons
    {lit : Text}
    (s t : Text)
    {c : Char}
    (hFree : c ∉ lit) :
    (s ++ c :: t).dropPrefix? lit =
      (s.dropPrefix? lit).map (· ++ c :: t) := by
  induction lit generalizing s with
  | nil => simp
  | cons d lit ih =>
      simp only [List.mem_cons, not_or] at hFree
      cases s with
      | nil =>
          have hNe : (c == d) = false := by simpa using hFree.1
          simp [List.dropPrefix?, hNe]
      | cons e s =>
          rw [List.cons_append, List.dropPrefix?,
            List.dropPrefix?, ih s hFree.2]
          split
          · rfl
          · rfl

theorem literal_append_cons
    {lit : String}
    (s t : Text)
    {c : Char}
    (hFree : c ∉ lit.toList) :
    literal lit (s ++ c :: t) =
      (literal lit s).map (· ++ c :: t) :=
  dropPrefix?_append_cons s t hFree

/- One or more characters of white space. -/
theorem spaces_append_cons
    (s t : Text)
    {c : Char}
    (hSpace : isSpace c = false) :
    spaces (s ++ c :: t) = (spaces s).map (· ++ c :: t) := by
  cases s with
  | nil => simp [spaces, hSpace]
  | cons d s =>
      rw [List.cons_append, spaces, spaces,
        skipSpaces_append_cons s t hSpace]
      split
      · rfl
      · rfl

------------------------------------------------------------
-- Scanners In Front Of A Line Feed
------------------------------------------------------------

/- `\s*(?:<lit>\s+)?`: the rest behind an optional word. -/
def behindWord (lit : String) (s : Text) : Text :=
  ((literal lit (skipSpaces s)).bind spaces).getD (skipSpaces s)

/- White space takes the line feed, or is in front of it. -/
theorem skipSpaces_append_newline (s : Text) :
    skipSpaces (s ++ ['\n']) = skipSpaces s ++ ['\n'] ∨
      skipSpaces (s ++ ['\n']) = [] ∧ skipSpaces s = [] := by
  have hNewline : isSpace '\n' = true := by decide
  unfold skipSpaces
  rw [List.dropWhile_append]
  cases s.dropWhile isSpace with
  | nil =>
      right
      simp [hNewline]
  | cons c rest =>
      left
      simp

/-
  An optional word is read as without the line feed, but for
  a text that holds nothing else.
-/
theorem behindWord_append_newline
    {lit : String}
    (hFree : '\n' ∉ lit.toList)
    (s : Text) :
    behindWord lit (s ++ ['\n']) = behindWord lit s ++ ['\n'] ∨
      behindWord lit (s ++ ['\n']) = [] ∧
        (behindWord lit s = [] ∨
          behindWord lit s = lit.toList) := by
  have hNewline : isSpace '\n' = true := by decide
  unfold behindWord
  rcases skipSpaces_append_newline s with hBehind | ⟨hNil, hOld⟩
  · rw [hBehind, literal_append_cons _ _ hFree]
    cases hLiteral : literal lit (skipSpaces s) with
    | none => exact Or.inl rfl
    | some rest =>
        cases rest with
        | nil =>
            have hWord := literal_eq_some hLiteral
            rw [List.append_nil] at hWord
            right
            constructor
            · simp [spaces, hNewline, skipSpaces]
            · exact Or.inr hWord
        | cons d rest =>
            simp only [Option.map_some, Option.bind_some,
              List.cons_append, spaces]
            by_cases hSpace : isSpace d = true
            · rw [if_pos hSpace, if_pos hSpace]
              rcases skipSpaces_append_newline rest with
                hRest | ⟨hRest, hRestOld⟩
              · exact Or.inl hRest
              · exact Or.inr ⟨hRest, Or.inl hRestOld⟩
            · rw [if_neg hSpace, if_neg hSpace]
              exact Or.inl rfl
  · have hNone : (literal lit []).bind spaces = none := by
      cases hLiteral : literal lit [] with
      | none => rfl
      | some rest =>
          have hBoth := literal_eq_some hLiteral
          rw [eq_comm, List.append_eq_nil_iff] at hBoth
          rw [hBoth.2]
          rfl
    rw [hNil, hOld, hNone]
    exact Or.inr ⟨rfl, Or.inl rfl⟩

end Text
