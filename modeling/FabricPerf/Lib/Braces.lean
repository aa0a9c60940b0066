import FabricPerf.Lib.Scanner

/-
  Braces in a text, written by their codes.

  A body is balanced when its braces match; the brace that
  closes an open one is found by counting.

  Main declarations:
    * `Text.BraceBalanced`
    * `Text.MatchesBraces`, `Text.FindsBraces`
    * `Text.matchingBrace`
    * `Text.findsBraces_matchingBrace`
-/

namespace Text

------------------------------------------------------------
-- Balanced Texts
------------------------------------------------------------

/- A text whose braces match. -/
inductive BraceBalanced : Text → Prop
| nil : BraceBalanced []
| char
    {c : Char} {rest : Text}
    (hOpen : c ≠ '\x7b')
    (hClose : c ≠ '\x7d')
    (hRest : BraceBalanced rest) :
    BraceBalanced (c :: rest)
| block
    {inner rest : Text}
    (hInner : BraceBalanced inner)
    (hRest : BraceBalanced rest) :
    BraceBalanced ('\x7b' :: (inner ++ '\x7d' :: rest))

namespace BraceBalanced

/- A text without braces is balanced. -/
theorem of_plain
    {s : Text}
    (hPlain : ∀ c ∈ s, c ≠ '\x7b' ∧ c ≠ '\x7d') :
    BraceBalanced s := by
  induction s with
  | nil => exact nil
  | cons c s ih =>
      have hHead := hPlain c List.mem_cons_self
      apply char hHead.1 hHead.2
      exact ih (fun d hMem => hPlain d (List.mem_cons_of_mem c hMem))

theorem of_all
    {s : Text}
    (hAll : s.all (fun c => c != '\x7b' && c != '\x7d') = true) :
    BraceBalanced s := by
  apply of_plain
  intro c hMem
  have hHere := List.all_eq_true.mp hAll c hMem
  simpa using hHere

/- Balanced texts, one after the other. -/
theorem append
    {s t : Text}
    (hLeft : BraceBalanced s)
    (hRight : BraceBalanced t) :
    BraceBalanced (s ++ t) := by
  induction hLeft with
  | nil => exact hRight
  | char hOpen hClose hRest ih => exact char hOpen hClose ih
  | block hInner hRest ihInner ih =>
      rw [List.cons_append, List.append_assoc, List.cons_append]
      exact block hInner ih

end BraceBalanced

------------------------------------------------------------
-- Matching Braces
------------------------------------------------------------

/-
  What a search for the brace that matches the one at a
  position returns: the position just past it.
-/
def MatchesBraces
    {ε : Type}
    (find : Text → Nat → Except ε Nat) : Prop :=
  ∀ before body after : Text,
    BraceBalanced body →
      find (before ++ '\x7b' :: (body ++ '\x7d' :: after))
          before.length =
        Except.ok (before.length + body.length + 2)

/- It returns nothing else. -/
structure FindsBraces
    {ε : Type}
    (find : Text → Nat → Except ε Nat) : Prop where
  closed : MatchesBraces find
  only :
    ∀ before rest close,
      find (before ++ '\x7b' :: rest) before.length =
          Except.ok close →
        ∃ body after,
          rest = body ++ '\x7d' :: after ∧ BraceBalanced body

/-
  The number of characters up to the brace that closes the
  innermost but `depth` open ones, itself included.
-/
def closeFrom : Nat → Text → Option Nat
| _, [] => none
| depth, c :: rest =>
    if c = '\x7b' then
      (closeFrom (depth + 1) rest).map (· + 1)
    else if c = '\x7d' then
      if depth = 0 then
        some 1
      else
        (closeFrom (depth - 1) rest).map (· + 1)
    else
      (closeFrom depth rest).map (· + 1)

/- A balanced text is passed over. -/
theorem closeFrom_append
    {body : Text}
    (hBody : BraceBalanced body)
    (depth : Nat)
    (rest : Text) :
    closeFrom depth (body ++ rest) =
      (closeFrom depth rest).map (· + body.length) := by
  induction hBody generalizing depth rest with
  | nil => simp
  | @char c tail hOpen hClose hRest ih =>
      rw [List.cons_append, closeFrom, if_neg hOpen,
        if_neg hClose, ih, Option.map_map]
      rfl
  | @block inner tail hInner hRest ihInner ih =>
      have hClose : ¬ ('\x7d' : Char) = '\x7b' := by decide
      rw [List.cons_append, closeFrom, if_pos rfl,
        List.append_assoc, ihInner, List.cons_append, closeFrom,
        if_neg hClose, if_pos rfl, if_neg (Nat.succ_ne_zero depth),
        Nat.add_sub_cancel, ih, Option.map_map, Option.map_map,
        Option.map_map]
      congr 1
      funext n
      simp only [Function.comp_apply, List.length_cons,
        List.length_append]
      omega

/- The search by counting. -/
def matchingBrace (s : Text) (place : Nat) : Except Text Nat :=
  match closeFrom 0 (s.drop (place + 1)) with
  | some length => Except.ok (place + 1 + length)
  | none => Except.error "unmatched brace".toList

/- Counting finds the matching brace. -/
theorem matchesBraces_matchingBrace :
    MatchesBraces matchingBrace := by
  intro before body after hBody
  have hClose : ¬ ('\x7d' : Char) = '\x7b' := by decide
  have hDrop :
      (before ++ '\x7b' :: (body ++ '\x7d' :: after)).drop
          (before.length + 1) =
        body ++ '\x7d' :: after := by
    rw [← List.drop_drop, List.drop_left]
    rfl
  rw [matchingBrace, hDrop, closeFrom_append hBody, closeFrom,
    if_neg hClose, if_pos rfl, if_pos rfl]
  simp only [Option.map_some]
  congr 1
  omega

------------------------------------------------------------
-- Texts That Close Open Braces
------------------------------------------------------------

/- A text that closes a number of open braces. -/
def Closes : Nat → Text → Prop
| 0, s => BraceBalanced s
| depth + 1, s =>
    ∃ inner rest,
      s = inner ++ '\x7d' :: rest ∧ BraceBalanced inner ∧
        Closes depth rest

/- A balanced text in front closes nothing. -/
theorem Closes.append_left
    {front s : Text}
    {depth : Nat}
    (hFront : BraceBalanced front)
    (hCloses : Closes depth s) :
    Closes depth (front ++ s) := by
  cases depth with
  | zero => exact hFront.append hCloses
  | succ depth =>
      rcases hCloses with ⟨inner, rest, hText, hInner, hRest⟩
      exact
        ⟨front ++ inner, rest, by rw [hText, List.append_assoc],
          hFront.append hInner, hRest⟩

/- What stands in front of a brace that is found. -/
theorem closes_of_closeFrom
    {depth length : Nat}
    {s : Text}
    (hClose : closeFrom depth s = some length) :
    ∃ body after, s = body ++ '\x7d' :: after ∧
      Closes depth body := by
  induction s generalizing depth length with
  | nil => cases hClose
  | cons c s ih =>
      rw [closeFrom] at hClose
      split at hClose
      case isTrue hOpen =>
        rcases Option.map_eq_some_iff.mp hClose with
          ⟨inside, hInside, -⟩
        rcases ih hInside with
          ⟨body, after, hText, inner, rest, hBody, hInner, hRest⟩
        refine ⟨c :: body, after, by rw [hText]; rfl, ?_⟩
        have hBlock :
            BraceBalanced ('\x7b' :: (inner ++ ['\x7d'])) :=
          BraceBalanced.block hInner BraceBalanced.nil
        have hAll := Closes.append_left hBlock hRest
        rw [hOpen, hBody]
        simpa using hAll
      case isFalse hOpen =>
        split at hClose
        case isTrue hHere =>
          cases depth with
          | zero =>
              exact ⟨[], s, by rw [hHere]; rfl, BraceBalanced.nil⟩
          | succ depth =>
              rw [if_neg (Nat.succ_ne_zero depth)] at hClose
              rcases Option.map_eq_some_iff.mp hClose with
                ⟨inside, hInside, -⟩
              rcases ih hInside with ⟨body, after, hText, hRest⟩
              exact
                ⟨c :: body, after, by rw [hText]; rfl, [], body,
                  by rw [hHere]; rfl, BraceBalanced.nil, hRest⟩
        case isFalse hOther =>
          rcases Option.map_eq_some_iff.mp hClose with
            ⟨inside, hInside, -⟩
          rcases ih hInside with ⟨body, after, hText, hRest⟩
          have hHead : BraceBalanced [c] :=
            BraceBalanced.char hOpen hOther BraceBalanced.nil
          exact
            ⟨c :: body, after, by rw [hText]; rfl,
              Closes.append_left hHead hRest⟩

/- Counting finds nothing else. -/
theorem findsBraces_matchingBrace :
    FindsBraces matchingBrace := by
  constructor
  · exact matchesBraces_matchingBrace
  · intro before rest close hFound
    have hDrop :
        (before ++ '\x7b' :: rest).drop (before.length + 1) =
          rest := by
      rw [← List.drop_drop, List.drop_left]
      rfl
    rw [matchingBrace, hDrop] at hFound
    cases hClose : closeFrom 0 rest with
    | none =>
        rw [hClose] at hFound
        cases hFound
    | some length => exact closes_of_closeFrom hClose

end Text
