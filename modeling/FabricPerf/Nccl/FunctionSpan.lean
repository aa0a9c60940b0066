import FabricPerf.Lib.Braces
import FabricPerf.Lib.Raising
import FabricPerf.Nccl.HeaderLines

/-
  `function_span` of `nccl/prober.py`: where a function of a
  PTX module stands.

  The search for the brace that matches an open one is a
  parameter. A module is its items: declarations and
  definitions of functions and entries, and the text between
  them.

  Main declarations:
    * `Nccl.functionSpan`
    * `Nccl.Item`, `Nccl.textOf`
    * `Nccl.FindsDefinition`
    * `Nccl.LeadsToDefinition`
    * `Nccl.findsDefinition_iff`
-/

namespace FabricPerf

namespace Nccl

open Text

------------------------------------------------------------
-- The Span
------------------------------------------------------------

/- The tuple that `function_span` returns. -/
structure Span where
  lineStart : Nat
  openBrace : Nat
  closeBrace : Nat
  lineEnd : Nat
  header : Text
deriving DecidableEq, Repr

/- `line_end`: behind the brace and a line feed after it. -/
def lineEndAt (ptx : Text) (closeBrace : Nat) : Nat :=
  if (ptx.drop closeBrace).head? = some '\n' then
    closeBrace + 1
  else
    closeBrace

/- The tuple for a header and its two braces. -/
def Span.of
    (ptx : Text)
    (lineStart openBrace closeBrace : Nat) : Span where
  lineStart := lineStart
  openBrace := openBrace
  closeBrace := closeBrace
  lineEnd := lineEndAt ptx closeBrace
  header := (ptx.take openBrace).drop lineStart

/- `function_span` -/
def functionSpan
    (findMatchingBrace : Text → Nat → Except Text Nat)
    (ptx functionName : Text) : Except Text Span :=
  match searchLine (funcHeader functionName) ptx with
  | none =>
      throw
        (functionName ++
          " is not in a supported .func header".toList)
  | some (lineStart, tail) =>
      match tail.findIdx? (· == '\x7b') with
      | none =>
          throw (functionName ++ " missing function body".toList)
      | some offset => do
          let openBrace := ptx.length - tail.length + offset
          let closeBrace ← findMatchingBrace ptx openBrace
          pure (Span.of ptx lineStart openBrace closeBrace)

------------------------------------------------------------
-- Modules
------------------------------------------------------------

/- `.func` or `.entry`. -/
inductive Directive where
| func
| entry
deriving DecidableEq, Repr

/- A directive as it is written. -/
def Directive.text : Directive → Text
| func => ".func".toList
| entry => ".entry".toList

/-
  The header of a function: its linkage, its directive, what
  it returns, its name and its parameters. The name is a
  whole identifier.
-/
structure Header where
  linkage : Text
  directive : Directive
  result : Text
  name : Text
  params : Text
  hLinkage : ∀ c ∈ linkage.head?, isSpace c = false
  hName : ∀ c ∈ name, isNameChar c = true
  hSome : name ≠ []
  hBefore : ∀ c ∈ result.getLast?, isNameChar c = false
  hBehind : ∀ c ∈ params.head?, isNameChar c = false

/- A header as it is written. -/
def Header.text (h : Header) : Text :=
  h.linkage ++ h.directive.text ++ h.result ++ h.name ++ h.params

/- The header of a `.func` of the given name. -/
def Header.IsFunc (h : Header) (name : Text) : Prop :=
  h.directive = Directive.func ∧ h.name = name

/- A function with its body. -/
structure Definition where
  header : Header
  body : Text
  hBody : BraceBalanced body

/- What follows the opening brace of a definition. -/
def Definition.inside (d : Definition) : Text :=
  d.body ++ ['\x7d']

/- A definition as it is written. -/
def Definition.text (d : Definition) : Text :=
  d.header.text ++ '\x7b' :: d.inside

/-
  A part of a module: a forward declaration, a definition, or
  the text between them.
-/
inductive Item where
| declaration (header : Header)
| definition (d : Definition)
| other (text : Text)

namespace Item

/- An item as it is written. -/
def text : Item → Text
| declaration header => header.text ++ [';']
| definition d => d.text
| other text => text

/- The header of a function or entry. -/
def header? : Item → Option Header
| declaration header => some header
| definition d => some d.header
| other _ => none

/- A function or entry other than the one of the name. -/
def IsOther (name : Text) (item : Item) : Prop :=
  ∃ h, item.header? = some h ∧ ¬ h.IsFunc name

end Item

/- A module as it is written. -/
def textOf (items : List Item) : Text :=
  items.flatMap Item.text

/-
  The one definition of a name, with the items in front of it
  and behind it; only forward declarations of the name stand
  in front.
-/
structure DefinedAt
    (items : List Item)
    (name : Text)
    (front : List Item)
    (d : Definition)
    (back : List Item) : Prop where
  items : items = front ++ Item.definition d :: back
  own : d.header.IsFunc name
  front :
    ∀ e, Item.definition e ∈ front → ¬ e.header.IsFunc name
  back :
    ∀ item ∈ back, ∀ h, item.header? = some h →
      ¬ h.IsFunc name

/- No item defines the name. -/
def Undefined (items : List Item) (name : Text) : Prop :=
  ∀ d, Item.definition d ∈ items → ¬ d.header.IsFunc name

/-
  The functions other than the one of the name end in front
  of a position.
-/
def EndBefore
    (name : Text)
    (front : List Item)
    (place : Nat) : Prop :=
  ∀ lead item mid, front = lead ++ item :: mid →
    item.IsOther name →
      (textOf (lead ++ [item])).length ≤ place

------------------------------------------------------------
-- The Property
------------------------------------------------------------

/-
  A span encloses a definition, its header and its body, and
  no part of another function.
-/
structure Span.Encloses
    (span : Span)
    (name : Text)
    (front : List Item)
    (d : Definition)
    (back : List Item) : Prop where
  lineStart : span.lineStart ≤ (textOf front).length
  openBrace :
    span.openBrace = (textOf front ++ d.header.text).length
  closeBrace :
    span.closeBrace = (textOf front ++ d.text).length
  lineEnd : span.closeBrace ≤ span.lineEnd
  header :
    span.header =
      (textOf front ++ d.header.text).drop span.lineStart
  before : EndBefore name front span.lineStart
  behind :
    ∀ mid item rest, back = mid ++ item :: rest →
      item.IsOther name →
        span.lineEnd ≤ (textOf front ++ d.text ++
          textOf mid).length

/-
  The definition of a name is found, and where there is none
  an error is raised.
-/
def FindsDefinition
    (findMatchingBrace : Text → Nat → Except Text Nat)
    (items : List Item)
    (name : Text) : Prop :=
  (∀ front d back, DefinedAt items name front d back →
    ∃ span,
      functionSpan findMatchingBrace (textOf items) name =
          Except.ok span ∧
        span.Encloses name front d back) ∧
    (Undefined items name →
      ∃ message,
        functionSpan findMatchingBrace (textOf items) name =
          Except.error message)

/-
  The accepted lines of a module with one definition of the
  name: all of them start behind the other functions in front
  of it, with no brace between their ends and its own, and
  one of them stands at its header or in front.
-/
structure LinesLeadTo
    (items : List Item)
    (name : Text)
    (front : List Item)
    (d : Definition) : Prop where
  found :
    ∃ before taken behind,
      HeaderLine name (textOf items) before taken behind ∧
        before.length ≤ (textOf front).length ∧
        (before ++ taken).length ≤
          (textOf front ++ d.header.text).length
  apart :
    ∀ before taken behind,
      HeaderLine name (textOf items) before taken behind →
        EndBefore name front before.length
  clear :
    ∀ before taken behind,
      HeaderLine name (textOf items) before taken behind →
        '\x7b' ∉
          (textOf front ++ d.header.text).drop
            (before ++ taken).length

/- A braced block follows, with no brace in front of it. -/
def BlockFollows (behind : Text) : Prop :=
  ∃ gap body rest : Text,
    behind = gap ++ '\x7b' :: (body ++ '\x7d' :: rest) ∧
      '\x7b' ∉ gap ∧ BraceBalanced body

/-
  The accepted lines lead to the definition of the name.
  Without one no block follows the first of them.
-/
def LeadsToDefinition
    (items : List Item)
    (name : Text) : Prop :=
  (∀ front d back, DefinedAt items name front d back →
    LinesLeadTo items name front d) ∧
    (Undefined items name →
      ∀ before after behind,
        FirstLine (funcHeader name) (textOf items) before after
            behind →
          ¬ BlockFollows behind)

------------------------------------------------------------
-- What The Function Returns
------------------------------------------------------------

/- The span behind the first header that is accepted. -/
theorem functionSpan_of_firstLine
    (findMatchingBrace : Text → Nat → Except Text Nat)
    {ptx name before after gap rest : Text}
    (hFirst :
      FirstLine (funcHeader name) ptx before after
        (gap ++ '\x7b' :: rest))
    (hGap : '\x7b' ∉ gap) :
    functionSpan findMatchingBrace ptx name =
      findMatchingBrace ptx (ptx.length - (rest.length + 1)) >>=
        fun closeBrace =>
          pure
            (Span.of ptx before.length
              (ptx.length - (rest.length + 1)) closeBrace) := by
  have hSearch :=
    searchLine_eq_some_iff.mpr ⟨before, after, hFirst, rfl⟩
  have hBrace :
      (gap ++ '\x7b' :: rest).findIdx? (· == '\x7b') =
        some gap.length :=
    findIdx?_eq_some_iff_split.mpr ⟨gap, rest, rfl, hGap, rfl⟩
  have hPlace :
      ptx.length - (gap ++ '\x7b' :: rest).length + gap.length =
        ptx.length - (rest.length + 1) := by
    have hTail := (funcHeader_suffix hFirst.hit).length_le
    have hText := congrArg List.length hFirst.text
    simp only [List.length_append, List.length_cons]
      at hTail hText ⊢
    omega
  unfold functionSpan
  rw [hSearch]
  dsimp only
  rw [hBrace]
  dsimp only
  rw [hPlace]

/- The first header of a function that is found. -/
theorem firstLine_of_functionSpan
    {findMatchingBrace : Text → Nat → Except Text Nat}
    {ptx name : Text}
    {span : Span}
    (hSpan :
      functionSpan findMatchingBrace ptx name =
        Except.ok span) :
    ∃ before after gap rest closeBrace,
      FirstLine (funcHeader name) ptx before after
          (gap ++ '\x7b' :: rest) ∧
        '\x7b' ∉ gap ∧
        findMatchingBrace ptx (ptx.length - (rest.length + 1)) =
          Except.ok closeBrace ∧
        span =
          Span.of ptx before.length
            (ptx.length - (rest.length + 1)) closeBrace := by
  cases hSearch : searchLine (funcHeader name) ptx with
  | none =>
      rw [functionSpan, hSearch] at hSpan
      cases hSpan
  | some found =>
      rcases searchLine_eq_some_iff.mp hSearch with
        ⟨before, after, hFirst, -⟩
      cases hBrace : found.2.findIdx? (· == '\x7b') with
      | none =>
          rw [functionSpan, hSearch] at hSpan
          dsimp only at hSpan
          rw [hBrace] at hSpan
          cases hSpan
      | some offset =>
          rcases findIdx?_eq_some_iff_split.mp hBrace with
            ⟨gap, rest, hTail, hGap, -⟩
          rw [hTail] at hFirst
          rw [functionSpan_of_firstLine _ hFirst hGap] at hSpan
          rcases Raising.bind_eq_ok_iff.mp hSpan with
            ⟨closeBrace, hClose, hOk⟩
          rw [Raising.pure_eq_ok, Except.ok.injEq] at hOk
          exact
            ⟨before, after, gap, rest, closeBrace, hFirst, hGap,
              hClose, hOk.symm⟩

------------------------------------------------------------
-- Texts Of Modules
------------------------------------------------------------

theorem textOf_append (front back : List Item) :
    textOf (front ++ back) = textOf front ++ textOf back :=
  List.flatMap_append

theorem textOf_cons (item : Item) (items : List Item) :
    textOf (item :: items) = item.text ++ textOf items :=
  List.flatMap_cons

/- A header starts without white space. -/
theorem Header.exists_text_eq_cons (h : Header) :
    ∃ c rest, h.text = c :: rest ∧ isSpace c = false := by
  have hDot : isSpace '.' = false := by decide
  unfold text
  cases hLinkage : h.linkage with
  | nil =>
      cases h.directive with
      | func => exact ⟨'.', _, rfl, hDot⟩
      | entry => exact ⟨'.', _, rfl, hDot⟩
  | cons c linkage =>
      exact ⟨c, _, rfl, h.hLinkage c (by simp [hLinkage])⟩

/- A declaration or definition starts with its header. -/
theorem Item.exists_text_eq
    {item : Item}
    {h : Header}
    (hItem : item.header? = some h) :
    ∃ rest, item.text = h.text ++ rest := by
  cases item with
  | declaration header =>
      rw [header?, Option.some.injEq] at hItem
      exact ⟨[';'], by rw [← hItem, text]⟩
  | definition d =>
      rw [header?, Option.some.injEq] at hItem
      exact ⟨'\x7b' :: d.inside, by rw [← hItem]; rfl⟩
  | other text => cases hItem

/- A module around one of its definitions. -/
theorem textOf_definition
    (front : List Item)
    (d : Definition)
    (back : List Item) :
    textOf (front ++ Item.definition d :: back) =
      (textOf front ++ d.header.text) ++
        '\x7b' :: (d.body ++ '\x7d' :: textOf back) := by
  rw [textOf_append, textOf_cons]
  simp [Item.text, Definition.text, Definition.inside]

------------------------------------------------------------
-- The Definition Is Found
------------------------------------------------------------

section

variable {findMatchingBrace : Text → Nat → Except Text Nat}
variable {items front back : List Item}
variable {name : Text}
variable {d : Definition}

/- The brace of a definition is matched at its end. -/
theorem find_definition
    (hFind : MatchesBraces findMatchingBrace)
    (front : List Item)
    (d : Definition)
    (back : List Item) :
    findMatchingBrace
        (textOf (front ++ Item.definition d :: back))
        (textOf front ++ d.header.text).length =
      Except.ok (textOf front ++ d.text).length := by
  rw [textOf_definition,
    hFind (textOf front ++ d.header.text) d.body
      (textOf back) d.hBody]
  congr 1
  simp only [Definition.text, Definition.inside,
    List.length_append, List.length_cons, List.length_nil]
  omega

/- The place of the opening brace, counted from the end. -/
theorem openBrace_definition
    (front : List Item)
    (d : Definition)
    (back : List Item) :
    (textOf (front ++ Item.definition d :: back)).length -
        ((d.inside ++ textOf back).length + 1) =
      (textOf front ++ d.header.text).length := by
  rw [textOf_definition]
  simp only [Definition.inside, List.length_append,
    List.length_cons, List.length_nil]
  omega

/-
  A line feed behind the definition belongs to no other
  function.
-/
theorem lineEnd_le
    (hAt : DefinedAt items name front d back)
    {mid rest : List Item}
    {item : Item}
    (hBack : back = mid ++ item :: rest)
    (hOther : item.IsOther name) :
    lineEndAt (textOf items) (textOf front ++ d.text).length ≤
      (textOf front ++ d.text ++ textOf mid).length := by
  have hBehind :
      (textOf items).drop (textOf front ++ d.text).length =
        textOf mid ++ (item.text ++ textOf rest) := by
    rw [hAt.items, hBack, textOf_append, textOf_cons,
      ← List.append_assoc, textOf_append, textOf_cons]
    exact List.drop_left
  unfold lineEndAt
  cases hMid : textOf mid with
  | nil =>
      rcases hOther with ⟨h, hHeader, -⟩
      rcases Item.exists_text_eq hHeader with ⟨more, hText⟩
      rcases h.exists_text_eq_cons with
        ⟨c, inner, hStart, hSpace⟩
      have hNot : ¬ c = '\n' := by
        intro hSame
        rw [hSame] at hSpace
        revert hSpace
        decide
      rw [hBehind, hMid, hText, hStart, if_neg (by simpa using hNot)]
      simp
  | cons c inner =>
      split <;> simp only [List.length_append, List.length_cons]
        <;> omega

/- A search that leads to the definition returns its span. -/
theorem encloses_of_leads
    (hFind : FindsBraces findMatchingBrace)
    (hAt : DefinedAt items name front d back)
    {before after gap : Text}
    (hFirst :
      FirstLine (funcHeader name) (textOf items) before after
        (gap ++ '\x7b' :: (d.inside ++ textOf back)))
    (hGap : '\x7b' ∉ gap)
    (hBefore : before.length ≤ (textOf front).length)
    (hEnd : EndBefore name front before.length) :
    ∃ span,
      functionSpan findMatchingBrace (textOf items) name =
          Except.ok span ∧
        span.Encloses name front d back := by
  have hTake :
      (textOf items).take (textOf front ++ d.header.text).length =
        textOf front ++ d.header.text := by
    rw [hAt.items, textOf_definition]
    exact List.take_left
  have hSpan :=
    functionSpan_of_firstLine findMatchingBrace hFirst hGap
  rw [hAt.items, openBrace_definition,
    find_definition hFind.closed, Raising.ok_bind,
    Raising.pure_eq_ok, ← hAt.items] at hSpan
  refine ⟨_, hSpan, ?_⟩
  constructor
  · exact hBefore
  · rfl
  · rfl
  · simp only [Span.of, lineEndAt]
    split <;> omega
  · simp only [Span.of, hTake]
  · exact hEnd
  · intro mid item rest hBack hOther
    exact lineEnd_le hAt hBack hOther

/- A search that returns its span leads to the definition. -/
theorem leads_of_encloses
    (hAt : DefinedAt items name front d back)
    {span : Span}
    (hSpan :
      functionSpan findMatchingBrace (textOf items) name =
        Except.ok span)
    (hEncloses : span.Encloses name front d back) :
    ∃ before after gap,
      FirstLine (funcHeader name) (textOf items) before after
          (gap ++ '\x7b' :: (d.inside ++ textOf back)) ∧
        '\x7b' ∉ gap ∧
        before.length ≤ (textOf front).length ∧
        EndBefore name front before.length := by
  rcases firstLine_of_functionSpan hSpan with
    ⟨before, after, gap, rest, closeBrace, hFirst, hGap, -, hOf⟩
  have hLine : span.lineStart = before.length := by rw [hOf]; rfl
  have hOpen :
      span.openBrace =
        (textOf items).length - (rest.length + 1) := by
    rw [hOf]
    rfl
  have hTail := funcHeader_suffix hFirst.hit
  have hSuffix : '\x7b' :: rest <:+ textOf items := by
    rw [hFirst.text]
    exact
      (List.suffix_append gap _).trans
        (hTail.trans (List.suffix_append before after))
  have hOwn :
      '\x7b' :: (d.inside ++ textOf back) <:+ textOf items := by
    rw [hAt.items, textOf_definition]
    simp only [Definition.inside, List.append_assoc,
      List.singleton_append]
    exact
      (List.suffix_append d.header.text _).trans
        (List.suffix_append (textOf front) _)
  have hLength :
      ('\x7b' :: rest).length =
        ('\x7b' :: (d.inside ++ textOf back)).length := by
    have hBound := hSuffix.length_le
    have hWhole := hOwn.length_le
    have hPlace := openBrace_definition front d back
    rw [← hAt.items] at hPlace
    rw [hEncloses.openBrace, ← hPlace] at hOpen
    rw [List.length_cons] at hBound hWhole ⊢
    rw [List.length_cons]
    omega
  have hSame :
      '\x7b' :: rest = '\x7b' :: (d.inside ++ textOf back) :=
    (List.suffix_of_suffix_length_le hSuffix hOwn
      hLength.le).eq_of_length hLength
  rw [hSame] at hFirst
  refine ⟨before, after, gap, hFirst, hGap, ?_, ?_⟩
  · rw [← hLine]
    exact hEncloses.lineStart
  · rw [← hLine]
    exact hEncloses.before

/- The first accepted line, cut behind its match. -/
theorem headerLine_of_firstLine
    {ptx before after behind : Text}
    (hFirst : FirstLine (funcHeader name) ptx before after behind) :
    ∃ taken, HeaderLine name ptx before taken behind := by
  rcases funcHeader_suffix hFirst.hit with ⟨taken, hTaken⟩
  refine ⟨taken, ?_, hFirst.start, ?_⟩
  · rw [hTaken]
    exact hFirst.text
  · rw [hTaken]
    exact hFirst.hit

/- No accepted line stands in front of it. -/
theorem length_le_of_firstLine
    {ptx before after behind before' taken' behind' : Text}
    (hFirst : FirstLine (funcHeader name) ptx before after behind)
    (hOther : HeaderLine name ptx before' taken' behind') :
    before.length ≤ before'.length := by
  by_contra hNot
  have hNone :=
    hFirst.first before' (taken' ++ behind') hOther.text
      (Nat.lt_of_not_le hNot) hOther.start
  rw [hOther.hit] at hNone
  cases hNone

/- Where a line is accepted there is a first one. -/
theorem exists_firstLine
    {ptx before taken behind : Text}
    (hLine : HeaderLine name ptx before taken behind) :
    ∃ before' after' behind',
      FirstLine (funcHeader name) ptx before' after' behind' := by
  cases hSearch : searchLine (funcHeader name) ptx with
  | none =>
      have hNone :=
        searchLineFrom_eq_none [] ptx hSearch before
          (taken ++ behind) hLine.text hLine.start
      rw [hLine.hit] at hNone
      cases hNone
  | some found =>
      exact ⟨_, _, _, firstLine_of_searchLine hSearch⟩

/- The name of a definition stays within a line. -/
theorem DefinedAt.newline_notMem
    (hAt : DefinedAt items name front d back) :
    '\n' ∉ name := by
  intro hMem
  rw [← hAt.own.2] at hMem
  have hChar := d.header.hName '\n' hMem
  revert hChar
  decide

/- What a line leaves in front of the definition's brace. -/
theorem DefinedAt.behind_eq
    (hAt : DefinedAt items name front d back)
    {before taken behind : Text}
    (hLine : HeaderLine name (textOf items) before taken behind)
    (hEnd :
      (before ++ taken).length ≤
        (textOf front ++ d.header.text).length) :
    behind =
      (textOf front ++ d.header.text).drop
          (before ++ taken).length ++
        '\x7b' :: (d.inside ++ textOf back) := by
  have hText :
      textOf items =
        (textOf front ++ d.header.text) ++
          '\x7b' :: (d.inside ++ textOf back) := by
    rw [hAt.items, textOf_definition]
    simp [Definition.inside]
  have hDrop :
      (textOf items).drop (before ++ taken).length = behind := by
    rw [hLine.text, ← List.append_assoc, List.drop_left]
  rw [← hDrop, hText, List.drop_append_of_le_length hEnd]

/- Of two accepted lines the later one ends no earlier. -/
theorem DefinedAt.length_le
    (hAt : DefinedAt items name front d back)
    {before taken behind before' taken' behind' : Text}
    (hLine : HeaderLine name (textOf items) before taken behind)
    (hOther :
      HeaderLine name (textOf items) before' taken' behind')
    (hLe : before.length ≤ before'.length) :
    (before ++ taken).length ≤ (before' ++ taken').length := by
  have hBehind :=
    hLine.behind_length_le hAt.newline_notMem hOther hLe
  have hText :=
    congrArg List.length (hLine.text.symm.trans hOther.text)
  simp only [List.length_append] at hText ⊢
  omega

/- Lines that lead to a definition find it. -/
theorem LinesLeadTo.encloses
    (hFind : FindsBraces findMatchingBrace)
    (hAt : DefinedAt items name front d back)
    (hLines : LinesLeadTo items name front d) :
    ∃ span,
      functionSpan findMatchingBrace (textOf items) name =
          Except.ok span ∧
        span.Encloses name front d back := by
  rcases hLines.found with
    ⟨before, taken, behind, hLine, hFront, hEnd⟩
  rcases exists_firstLine hLine with
    ⟨before', after', behind', hFirst⟩
  rcases headerLine_of_firstLine hFirst with ⟨taken', hOwn⟩
  have hLe := length_le_of_firstLine hFirst hLine
  have hEndOwn := (hAt.length_le hOwn hLine hLe).trans hEnd
  rw [hAt.behind_eq hOwn hEndOwn] at hFirst
  exact
    encloses_of_leads hFind hAt hFirst
      (hLines.clear before' taken' behind' hOwn)
      (hLe.trans hFront)
      (hLines.apart before' taken' behind' hOwn)

/- A definition that is found is one the lines lead to. -/
theorem linesLeadTo_of_encloses
    (hAt : DefinedAt items name front d back)
    {span : Span}
    (hSpan :
      functionSpan findMatchingBrace (textOf items) name =
        Except.ok span)
    (hEncloses : span.Encloses name front d back) :
    LinesLeadTo items name front d := by
  rcases leads_of_encloses hAt hSpan hEncloses with
    ⟨before, after, gap, hFirst, hGap, hFront, hApart⟩
  rcases headerLine_of_firstLine hFirst with ⟨taken, hLine⟩
  have hEnd :
      (before ++ taken).length ≤
        (textOf front ++ d.header.text).length := by
    have hText := congrArg List.length hLine.text
    rw [hAt.items, textOf_definition] at hText
    simp only [Definition.inside, List.length_append,
      List.length_cons, List.length_nil] at hText ⊢
    omega
  have hOwnGap := hAt.behind_eq hLine hEnd
  rw [List.append_cancel_right_eq] at hOwnGap
  constructor
  case found =>
    exact ⟨before, taken, _, hLine, hFront, hEnd⟩
  case apart =>
    intro before' taken' behind' hOther lead item mid hSplit
      hItem
    exact
      (hApart lead item mid hSplit hItem).trans
        (length_le_of_firstLine hFirst hOther)
  case clear =>
    intro before' taken' behind' hOther hMem
    have hLe :=
      hAt.length_le hLine hOther
        (length_le_of_firstLine hFirst hOther)
    apply hGap
    rw [hOwnGap]
    exact (List.drop_subset_drop_left _ hLe) hMem

/- Behind a first line with a block there is a span. -/
theorem functionSpan_of_block
    (hFind : FindsBraces findMatchingBrace)
    {ptx before after behind : Text}
    (hFirst : FirstLine (funcHeader name) ptx before after behind)
    (hBlock : BlockFollows behind) :
    ∃ span,
      functionSpan findMatchingBrace ptx name =
        Except.ok span := by
  rcases hBlock with ⟨gap, body, rest, hText, hGap, hBody⟩
  rcases headerLine_of_firstLine hFirst with ⟨taken, hLine⟩
  rw [hText] at hFirst
  have hPtx :
      ptx =
        (before ++ taken ++ gap) ++
          '\x7b' :: (body ++ '\x7d' :: rest) := by
    rw [hLine.text, hText]
    simp
  have hPlace :
      ptx.length - ((body ++ '\x7d' :: rest).length + 1) =
        (before ++ taken ++ gap).length := by
    rw [hPtx]
    simp only [List.length_append, List.length_cons]
    omega
  have hClose :=
    hFind.closed (before ++ taken ++ gap) body rest hBody
  rw [functionSpan_of_firstLine _ hFirst hGap, hPlace]
  rw [← hPtx] at hClose
  rw [hClose]
  exact ⟨_, rfl⟩

/- Behind a first line without one there is none. -/
theorem block_of_functionSpan
    (hFind : FindsBraces findMatchingBrace)
    {ptx : Text}
    {span : Span}
    (hSpan :
      functionSpan findMatchingBrace ptx name =
        Except.ok span) :
    ∃ before after behind,
      FirstLine (funcHeader name) ptx before after behind ∧
        BlockFollows behind := by
  rcases firstLine_of_functionSpan hSpan with
    ⟨before, after, gap, rest, closeBrace, hFirst, hGap, hClose,
      -⟩
  rcases headerLine_of_firstLine hFirst with ⟨taken, hLine⟩
  have hPtx :
      ptx = (before ++ taken ++ gap) ++ '\x7b' :: rest := by
    rw [hLine.text]
    simp
  have hPlace :
      ptx.length - (rest.length + 1) =
        (before ++ taken ++ gap).length := by
    rw [hPtx]
    simp only [List.length_append, List.length_cons]
    omega
  rw [hPlace, hPtx] at hClose
  rcases hFind.only _ _ _ hClose with ⟨body, more, hRest, hBody⟩
  rw [hRest] at hFirst
  exact
    ⟨before, after, _, hFirst, gap, body, more, rfl, hGap, hBody⟩

end

/-
  `function_span` finds the definition of a name, and raises
  without one, exactly when the accepted lines of the module
  lead there.
-/
theorem findsDefinition_iff
    (findMatchingBrace : Text → Nat → Except Text Nat)
    (hFind : FindsBraces findMatchingBrace)
    (items : List Item)
    (name : Text) :
    FindsDefinition findMatchingBrace items name ↔
      LeadsToDefinition items name := by
  constructor
  · rintro ⟨hDefined, hUndefined⟩
    constructor
    · intro front d back hAt
      rcases hDefined front d back hAt with
        ⟨span, hSpan, hEncloses⟩
      exact linesLeadTo_of_encloses hAt hSpan hEncloses
    · intro hNone before after behind hFirst hBlock
      rcases hUndefined hNone with ⟨message, hMessage⟩
      rcases functionSpan_of_block hFind hFirst hBlock with
        ⟨span, hSpan⟩
      rw [hSpan] at hMessage
      cases hMessage
  · rintro ⟨hDefined, hUndefined⟩
    constructor
    · intro front d back hAt
      exact (hDefined front d back hAt).encloses hFind hAt
    · intro hNone
      cases hSpan :
          functionSpan findMatchingBrace (textOf items) name with
      | error message => exact ⟨message, rfl⟩
      | ok span =>
          rcases block_of_functionSpan hFind hSpan with
            ⟨before, after, behind, hFirst, hBlock⟩
          exact
            absurd hBlock
              (hUndefined hNone before after behind hFirst)

------------------------------------------------------------
-- A Declaration In Front Of Another Function
------------------------------------------------------------

/- `.func <name>()`, with the brace on the next line. -/
def plainHeader
    (name : Text)
    (hName : ∀ c ∈ name, isNameChar c = true)
    (hSome : name ≠ []) : Header where
  linkage := []
  directive := Directive.func
  result := [' ']
  name := name
  params := "()\n".toList
  hLinkage := fun _ hMem => nomatch hMem
  hName := hName
  hSome := hSome
  hBefore := by
    intro c hMem
    rw [← Option.mem_some.mp hMem]
    decide
  hBehind := by
    intro c hMem
    rw [← Option.mem_some.mp hMem]
    decide

/- The header of `SendRecv`. -/
def sendRecvHeader : Header :=
  plainHeader "SendRecv".toList
    (List.all_eq_true.mp (by decide)) (by decide)

/- The header of `Broadcast`. -/
def broadcastHeader : Header :=
  plainHeader "Broadcast".toList
    (List.all_eq_true.mp (by decide)) (by decide)

/- A function that returns at once. -/
def returning (header : Header) : Definition where
  header := header
  body := "\nret;\n".toList
  hBody := BraceBalanced.of_all (by decide)

/- A declaration and its definition. -/
def declaredModule : List Item :=
  [Item.declaration sendRecvHeader, Item.other ['\n'],
    Item.definition (returning sendRecvHeader),
    Item.other ['\n']]

/- The definition of `SendRecv` is found. -/
theorem findsDefinition_iff_declared :
    FindsDefinition matchingBrace declaredModule
        "SendRecv".toList ↔
      LeadsToDefinition declaredModule "SendRecv".toList :=
  findsDefinition_iff matchingBrace findsBraces_matchingBrace
    declaredModule "SendRecv".toList

/- Another function between the two. -/
def interleavedModule : List Item :=
  [Item.declaration sendRecvHeader, Item.other ['\n'],
    Item.definition (returning broadcastHeader),
    Item.other ['\n'],
    Item.definition (returning sendRecvHeader),
    Item.other ['\n']]

/- The body of the other function is returned. -/
theorem not_findsDefinition_interleaved :
    FindsBraces matchingBrace ∧
      ¬ FindsDefinition matchingBrace interleavedModule
        "SendRecv".toList := by
  constructor
  · exact findsBraces_matchingBrace
  · rintro ⟨hDefined, -⟩
    have hAt :
        DefinedAt interleavedModule "SendRecv".toList
          (interleavedModule.take 4) (returning sendRecvHeader)
          [Item.other ['\n']] := by
      constructor
      · rfl
      · exact ⟨rfl, rfl⟩
      · intro e hMem
        have hSame : e = returning broadcastHeader := by
          simpa [interleavedModule] using hMem
        rw [hSame]
        rintro ⟨-, hName⟩
        revert hName
        decide
      · intro item hMem h hHeader
        rw [List.mem_singleton.mp hMem] at hHeader
        cases hHeader
    rcases hDefined _ _ _ hAt with ⟨span, hSpan, hEncloses⟩
    have hOpen :
        ((functionSpan matchingBrace (textOf interleavedModule)
            "SendRecv".toList).map Span.openBrace).toOption =
          some 37 := by
      decide +kernel
    rw [hSpan] at hOpen
    have hOwn := hEncloses.openBrace
    have hPlace :
        (textOf (interleavedModule.take 4) ++
          (returning sendRecvHeader).header.text).length = 63 := by
      decide +kernel
    rw [hPlace] at hOwn
    simp [Except.map, Except.toOption, hOwn] at hOpen

end Nccl

end FabricPerf
