import FabricPerf.Nccl.Candidates

/-
  A new body in a module, and one turn of the loop.

  The block found for a name is replaced; where no line is
  accepted none is once another function has a new body, and
  a line that leads to its own definition still does.

  Main declarations:
    * `Nccl.instrumentSelectedDevfunc_of_block`
    * `Nccl.NoLine.steady`, `Nccl.OwnFirst.steady`
-/

------------------------------------------------------------
-- Headers Around A New Body
------------------------------------------------------------

namespace FabricPerf

namespace Nccl

open Text

section

variable {name : Text}

/- No header starts inside a new body. -/
theorem none_in_newBody
    {out : Text}
    (hPlain : NoFuncLine out)
    {w y : Text}
    (hText : newBody out = w ++ y)
    (hSome : w ≠ [])
    (hLine : startsLine w = true)
    (z : Text) :
    funcHeader name (y ++ '\x7d' :: z) = none := by
  apply funcHeader_eq_none_of_start
  rw [funcStart_append_cons isStop_closeBrace,
    Option.map_eq_none_iff]
  cases w with
  | nil => exact absurd rfl hSome
  | cons c w =>
      rw [newBody, List.cons_append, List.cons.injEq] at hText
      have hInner : startsLine w = true := by
        cases w with
        | nil => rfl
        | cons d w =>
            have hBehind :=
              startsLine_append [c] (List.cons_ne_nil d w)
            rw [List.singleton_append] at hBehind
            rw [← hBehind]
            exact hLine
      rcases List.append_eq_append_iff.mp hText.2 with
        ⟨rest, hFront, hEnd⟩ | ⟨rest, hFront, hEnd⟩
      · -- The position lies behind the last line feed, or at it.
        cases rest with
        | nil =>
            rw [List.append_nil] at hFront
            rw [List.nil_append] at hEnd
            have hNone :=
              hPlain.funcStart_eq_none
                (List.append_nil out).symm
                (by rw [← hFront]; exact hInner)
            rw [← hEnd]
            exact funcStart_append_newline hNone
        | cons d rest =>
            have hNil : y = [] := by
              have hLength := congrArg List.length hEnd
              simp only [List.length_cons, List.length_nil,
                List.length_append] at hLength
              exact List.length_eq_zero_iff.mp (by omega)
            rw [hNil]
            decide
      · rw [hEnd]
        exact
          funcStart_append_newline
            (hPlain.funcStart_eq_none hFront hInner)

/- A header in front of a function with a new body. -/
theorem firstLine_in_front
    (hFree : '\x7b' ∉ name)
    (hNewline : '\n' ∉ name)
    (hSome : name ≠ [])
    {before s u gap t : Text}
    (hFirst :
      FirstLine (funcHeader name)
        (before ++ (s ++ '\x7b' :: (u ++ '\x7b' :: t))) before
        (s ++ '\x7b' :: (u ++ '\x7b' :: t))
        (gap ++ '\x7b' :: (u ++ '\x7b' :: t)))
    (other : Text) :
    FirstLine (funcHeader name)
      (before ++
        (s ++ '\x7b' :: (u ++ '\x7b' :: '\n' :: other))) before
      (s ++ '\x7b' :: (u ++ '\x7b' :: '\n' :: other))
      (gap ++ '\x7b' :: (u ++ '\x7b' :: '\n' :: other)) := by
  constructor
  · rfl
  · exact hFirst.start
  · exact funcHeader_own hFree hFirst.hit _
  · intro front rest hText hLess hLine
    rcases List.append_eq_append_iff.mp hText with
      ⟨inner, hFront, -⟩ | ⟨inner, hBefore, hRest⟩
    · rw [hFront, List.length_append] at hLess
      omega
    · have hNone :=
        hFirst.first front
          (inner ++ (s ++ '\x7b' :: (u ++ '\x7b' :: t)))
          (by rw [hBefore, List.append_assoc]) hLess hLine
      have hOld :
          funcHeader name
              ((inner ++ s ++ '\x7b' :: u) ++ '\x7b' :: t) =
            none := by
        simpa using hNone
      rw [hRest]
      simpa using
        funcHeader_none hFree hNewline hSome hOld other

/- Where a line starts behind a brace. -/
theorem startsLine_behind
    (a inner w : Text)
    (c : Char) :
    startsLine (a ++ '\x7b' :: (inner ++ c :: w)) =
      startsLine (c :: w) := by
  have hSplit :
      a ++ '\x7b' :: (inner ++ c :: w) =
        (a ++ '\x7b' :: inner) ++ c :: w := by simp
  rw [hSplit, startsLine_append _ (List.cons_ne_nil c w)]

/- No header starts in front of a position. -/
def NoneBefore (name ptx : Text) (place : Nat) : Prop :=
  ∀ front rest : Text, ptx = front ++ rest →
    front.length < place →
      startsLine front = true → funcHeader name rest = none

/- No header starts behind the brace of a new body. -/
theorem none_behind_brace
    {out : Text}
    (hPlain : NoFuncLine out)
    {a body z after inner rest : Text}
    {more : Nat}
    (hNone :
      NoneBefore name
        (a ++ '\x7b' :: (body ++ '\x7d' :: (z ++ after)))
        ((a ++ '\x7b' :: (body ++ '\x7d' :: z)).length + more))
    (hText : newBody out ++ '\x7d' :: (z ++ after) = inner ++ rest)
    (hLess :
      (a ++ '\x7b' :: inner).length <
        (a ++ '\x7b' :: (newBody out ++ '\x7d' :: z)).length +
          more)
    (hLine : startsLine (a ++ '\x7b' :: inner) = true) :
    funcHeader name rest = none := by
  rcases List.append_eq_append_iff.mp hText with
    ⟨beyond, hInner, hOver⟩ | ⟨beyond, hInner, hOver⟩
  · cases beyond with
    | nil =>
        -- Right in front of the closing brace.
        rw [List.nil_append] at hOver
        rw [← hOver]
        apply funcHeader_eq_none_of_start
        have hStop :=
          funcStart_append_cons isStop_closeBrace [] (z ++ after)
        have hEmpty : funcStart [] = none := by decide
        rw [List.nil_append, hEmpty] at hStop
        exact hStop
    | cons d beyond =>
        -- Behind the new body the text is the old one.
        rw [List.cons_append, List.cons.injEq] at hOver
        rcases hOver with ⟨hClose, hOver⟩
        rw [← hClose] at hInner
        apply hNone (a ++ '\x7b' :: (body ++ '\x7d' :: beyond))
        · rw [hOver]
          simp
        · rw [hInner] at hLess
          simp only [List.length_append, List.length_cons]
            at hLess ⊢
          omega
        · rw [startsLine_behind]
          rw [hInner, startsLine_behind] at hLine
          exact hLine
  · cases inner with
    | nil =>
        rw [startsLine_append_singleton] at hLine
        exact absurd hLine (by decide)
    | cons d inner =>
        rw [hOver]
        apply none_in_newBody hPlain hInner
          (List.cons_ne_nil d inner)
        have hOwn := startsLine_behind a [] inner d
        rw [List.nil_append] at hOwn
        rw [← hOwn]
        exact hLine

/- Where no header starts, none does around a new body. -/
theorem NoneBefore.newBody
    (hFree : '\x7b' ∉ name)
    (hNewline : '\n' ∉ name)
    (hSome : name ≠ [])
    {out : Text}
    (hPlain : NoFuncLine out)
    {a body z after : Text}
    {more : Nat}
    (hNone :
      NoneBefore name
        (a ++ '\x7b' :: (body ++ '\x7d' :: (z ++ after)))
        ((a ++ '\x7b' :: (body ++ '\x7d' :: z)).length + more)) :
    NoneBefore name
      (a ++ '\x7b' :: (newBody out ++ '\x7d' :: (z ++ after)))
      ((a ++ '\x7b' :: (newBody out ++ '\x7d' :: z)).length +
        more) := by
  intro front rest hText hLess hLine
  rcases List.append_eq_append_iff.mp hText with
    ⟨inner, hFront, hRest⟩ | ⟨inner, hFront, hRest⟩
  · cases inner with
    | nil =>
        rw [List.nil_append] at hRest
        rw [List.append_nil] at hFront
        rw [← hRest]
        apply funcHeader_none hFree hNewline hSome (s := [])
          (t := body ++ '\x7d' :: (z ++ after))
        apply hNone front
        · rw [hFront]
          rfl
        · rw [hFront]
          simp only [List.length_append, List.length_cons]
          omega
        · exact hLine
    | cons c inner =>
        rw [List.cons_append, List.cons.injEq] at hRest
        rw [← hRest.1] at hFront
        rw [hFront] at hLess hLine
        exact none_behind_brace hPlain hNone hRest.2 hLess hLine
  · have hOld :=
      hNone front
        (inner ++ '\x7b' :: (body ++ '\x7d' :: (z ++ after)))
        (by rw [hFront, List.append_assoc])
        (by
          rw [hFront]
          simp only [List.length_append, List.length_cons]
          omega)
        hLine
    rw [hRest]
    exact funcHeader_none hFree hNewline hSome hOld _

/- A header behind a function with a new body. -/
theorem firstLine_behind
    (hFree : '\x7b' ∉ name)
    (hNewline : '\n' ∉ name)
    (hSome : name ≠ [])
    {out : Text}
    (hPlain : NoFuncLine out)
    {a body z after tail : Text}
    (hFirst :
      FirstLine (funcHeader name)
        (a ++ '\x7b' :: (body ++ '\x7d' :: (z ++ after)))
        (a ++ '\x7b' :: (body ++ '\x7d' :: z)) after tail) :
    FirstLine (funcHeader name)
      (a ++ '\x7b' :: (newBody out ++ '\x7d' :: (z ++ after)))
      (a ++ '\x7b' :: (newBody out ++ '\x7d' :: z)) after
      tail := by
  constructor
  · simp
  · rw [startsLine_behind]
    have hOld := hFirst.start
    rw [startsLine_behind] at hOld
    exact hOld
  · exact hFirst.hit
  · have hNone :
        NoneBefore name
          (a ++ '\x7b' :: (body ++ '\x7d' :: (z ++ after)))
          ((a ++ '\x7b' :: (body ++ '\x7d' :: z)).length + 0) :=
      hFirst.first
    exact hNone.newBody hFree hNewline hSome hPlain

end

------------------------------------------------------------
-- Modules With A New Body
------------------------------------------------------------

/- A name holds neither a brace nor a line feed. -/
theorem Header.name_free (h : Header) :
    '\x7b' ∉ h.name ∧ '\n' ∉ h.name := by
  constructor
  · intro hMem
    exact absurd (h.hName _ hMem) (by decide)
  · intro hMem
    exact absurd (h.hName _ hMem) (by decide)

section

variable {name lead : Text}
variable {front back f₁ f₂ : List Item}
variable {d e : Definition}

/- A module around a function, from its match on. -/
theorem textOf_front_definition
    {before lead : Text}
    (hFront : textOf front = before ++ lead)
    (d : Definition)
    (back : List Item) :
    textOf (front ++ Item.definition d :: back) =
      before ++
        (lead ++ d.header.text ++
          '\x7b' :: (d.inside ++ textOf back)) := by
  rw [textOf_definition, hFront]
  simp [Definition.inside]

/- A module around a function with a new body. -/
theorem textOf_withBody
    (d : Definition)
    {out : Text}
    (hOut : BraceBalanced out) :
    textOf (f₁ ++ Item.definition (d.withBody out hOut) :: f₂) =
      (textOf f₁ ++ d.header.text) ++
        '\x7b' :: (newBody out ++ '\x7d' :: textOf f₂) :=
  textOf_definition f₁ (d.withBody out hOut) f₂

/-
  The first line that is accepted leads to the definition,
  and starts behind the functions in front of it: `lead` is
  what stands between.
-/
def OwnFirst
    (name lead : Text)
    (front : List Item)
    (d : Definition)
    (back : List Item) : Prop :=
  ∃ before gap,
    textOf front = before ++ lead ∧
      '\x7d' ∉ lead ∧
      FirstLine (funcHeader name)
        (textOf (front ++ Item.definition d :: back)) before
        (lead ++ d.header.text ++
          '\x7b' :: (d.inside ++ textOf back))
        (gap ++ '\x7b' :: (d.inside ++ textOf back)) ∧
      '\x7b' ∉ gap

/- A new body behind a function. -/
theorem OwnFirst.of_back
    (hName : d.header.IsFunc name)
    (hOwn :
      OwnFirst name lead front d (f₁ ++ Item.definition e :: f₂))
    (out : Text)
    (hOut : BraceBalanced out) :
    OwnFirst name lead front d
      (f₁ ++ Item.definition (e.withBody out hOut) :: f₂) := by
  rcases hOwn with
    ⟨before, gap, hFront, hClean, hFirst, hGap⟩
  rcases d.header.name_free with ⟨hFree, hNewline⟩
  have hSome := d.header.hSome
  rw [hName.2] at hFree hNewline hSome
  refine ⟨before, gap, hFront, hClean, ?_, hGap⟩
  have hText :
      ∀ t : Text,
        d.inside ++ (textOf f₁ ++ e.header.text ++ '\x7b' :: t) =
          d.inside ++ (textOf f₁ ++ e.header.text) ++
            '\x7b' :: t := by
    intro t
    rw [List.append_assoc d.inside]
  have hOld := hFirst
  rw [textOf_front_definition hFront, textOf_definition, hText]
    at hOld
  rw [textOf_front_definition hFront, textOf_withBody, hText]
  exact
    firstLine_in_front hFree hNewline hSome hOld
      (out ++ ['\n'] ++ '\x7d' :: textOf f₂)

/- A new body in front of a function. -/
theorem OwnFirst.of_front
    (hName : d.header.IsFunc name)
    (hOwn :
      OwnFirst name lead (f₁ ++ Item.definition e :: f₂) d back)
    {out : Text}
    (hOut : BraceBalanced out)
    (hPlain : NoFuncLine out) :
    OwnFirst name lead
      (f₁ ++ Item.definition (e.withBody out hOut) :: f₂) d
      back := by
  rcases hOwn with
    ⟨before, gap, hFront, hClean, hFirst, hGap⟩
  rcases d.header.name_free with ⟨hFree, hNewline⟩
  have hSome := d.header.hSome
  rw [hName.2] at hFree hNewline hSome
  have hSplit :
      ∃ z, before =
          (textOf f₁ ++ e.header.text) ++
            '\x7b' :: (e.body ++ '\x7d' :: z) ∧
        textOf f₂ = z ++ lead := by
    rw [textOf_definition] at hFront
    have hWhole :
        ((textOf f₁ ++ e.header.text) ++
            '\x7b' :: (e.body ++ ['\x7d'])) ++ textOf f₂ =
          before ++ lead := by
      rw [← hFront]
      simp
    rcases List.append_eq_append_iff.mp hWhole with
      ⟨z, hBefore, hRest⟩ | ⟨z, hBefore, hRest⟩
    · exact ⟨z, by rw [hBefore]; simp, hRest⟩
    · rcases List.eq_nil_or_concat z with hNil | ⟨w, c, hLast⟩
      · rw [hNil, List.append_nil] at hBefore
        rw [hNil, List.nil_append] at hRest
        exact ⟨[], by rw [← hBefore], by rw [hRest]; rfl⟩
      · rw [hLast, List.concat_eq_append] at hBefore hRest
        have hClose : c = '\x7d' := by
          rw [← List.cons_append, ← List.append_assoc,
            ← List.append_assoc before] at hBefore
          have hEnd := List.append_inj_right' hBefore rfl
          exact (List.singleton_inj.mp hEnd).symm
        rw [hClose] at hRest
        exact absurd (by rw [hRest]; simp) hClean
  rcases hSplit with ⟨z, hBefore, hBehind⟩
  have hNew :
      textOf (f₁ ++ Item.definition (e.withBody out hOut) :: f₂) =
        (textOf f₁ ++ e.header.text) ++
            '\x7b' :: (newBody out ++ '\x7d' :: z) ++
          lead := by
    rw [textOf_withBody, hBehind]
    simp
  have hJoin :
      ∀ body after : Text,
        (textOf f₁ ++ e.header.text) ++
            '\x7b' :: (body ++ '\x7d' :: z) ++ after =
          (textOf f₁ ++ e.header.text) ++
            '\x7b' :: (body ++ '\x7d' :: (z ++ after)) := by
    intro body after
    simp
  refine ⟨_, gap, hNew, hClean, ?_, hGap⟩
  rw [textOf_front_definition hFront, hBefore, hJoin] at hFirst
  rw [textOf_front_definition hNew, hJoin]
  exact firstLine_behind hFree hNewline hSome hPlain hFirst

end

/- No line is accepted for the name. -/
def NoLine (name ptx : Text) : Prop :=
  NoneBefore name ptx (ptx.length + 1)

section

variable {instrumenter : BodyInstrumenter}
variable {names listed : List Text}
variable {name lead : Text}
variable {items front back f₁ f₂ : List Item}
variable {d e : Definition}

/- What a search without a result says. -/
theorem NoLine.of_searchLine
    {ptx : Text}
    (hSearch : searchLine (funcHeader name) ptx = none) :
    NoLine name ptx := by
  intro front rest hText _ hLine
  exact searchLineFrom_eq_none [] ptx hSearch front rest hText hLine

/- A new body of a function. -/
theorem NoLine.withBody
    (hName : d.header.IsFunc name)
    {out : Text}
    (hOut : BraceBalanced out)
    (hPlain : NoFuncLine out)
    (hNone : NoLine name (textOf (f₁ ++ Item.definition e :: f₂))) :
    NoLine name
      (textOf
        (f₁ ++ Item.definition (e.withBody out hOut) :: f₂)) := by
  rcases d.header.name_free with ⟨hFree, hNewline⟩
  have hSome := d.header.hSome
  rw [hName.2] at hFree hNewline hSome
  have hOld :
      NoneBefore name
        ((textOf f₁ ++ e.header.text) ++
          '\x7b' :: (e.body ++ '\x7d' :: (textOf f₂ ++ [])))
        (((textOf f₁ ++ e.header.text) ++
          '\x7b' :: (e.body ++ '\x7d' :: textOf f₂)).length +
            1) := by
    rw [NoLine, textOf_definition] at hNone
    rw [List.append_nil]
    exact hNone
  have hNew := hOld.newBody hFree hNewline hSome hPlain
  rw [NoLine, textOf_withBody]
  rw [List.append_nil] at hNew
  exact hNew

/- An outcome is the function itself, or one new body. -/
theorem BodyInstrumenter.outcome_cases
    {own : Definition × Option Text}
    (hOk : instrumenter.outcome d = Except.ok own) :
    own.1 = d ∨
      ∃ out, ∃ hOut : BraceBalanced out,
        NoFuncLine out ∧ own.1 = d.withBody out hOut := by
  by_cases hGuard : hasMapRegisters d.body = true
  · rw [outcome_guard hGuard, Except.ok.injEq] at hOk
    rw [← hOk]
    exact Or.inl rfl
  · cases hRun : instrumenter.run d.body with
    | error reason =>
        rw [outcome_error hGuard hRun] at hOk
        cases hOk
    | ok result =>
        rw [outcome_ok hGuard hRun, Except.ok.injEq] at hOk
        rw [← hOk]
        exact
          Or.inr
            ⟨result.1,
              instrumenter.hBalanced d.body result.1 result.2
                hRun,
              instrumenter.hPlain d.body result.1 result.2 hRun,
              rfl⟩

/- A function has its turn when its name has. -/
theorem Item.instrumented_of_mem
    (hName : d.header.IsFunc name)
    (hMem : name ∈ names) :
    Item.instrumented instrumenter names (definition d) =
      match instrumenter.outcome d with
      | Except.error _ => definition d
      | Except.ok own => definition own.1 := by
  rw [instrumented, if_pos ⟨hName.1, by simpa [hName.2] using hMem⟩]
  cases instrumenter.outcome d with
  | error reason => rfl
  | ok own => rfl

/- Without its name in the list a function stays. -/
theorem Item.instrumented_of_notMem
    (hMem :
      d.header.directive = Directive.func →
        d.header.name ∉ names) :
    Item.instrumented instrumenter names (definition d) =
      definition d := by
  rw [instrumented, if_neg]
  rintro ⟨hFunc, hContains⟩
  exact hMem hFunc (by simpa using hContains)

/- An item stays, or a function gets a new body. -/
theorem Item.instrumented_cases
    (instrumenter : BodyInstrumenter)
    (done : List Text)
    (item : Item) :
    Item.instrumented instrumenter done item = item ∨
      ∃ e out, ∃ hOut : BraceBalanced out,
        NoFuncLine out ∧ item = definition e ∧
          Item.instrumented instrumenter done item =
            definition (e.withBody out hOut) := by
  cases item with
  | declaration header => exact Or.inl rfl
  | other text => exact Or.inl rfl
  | definition d =>
      by_cases hMem :
          d.header.directive = Directive.func ∧
            d.header.name ∈ done
      · rw [instrumented_of_mem ⟨hMem.1, rfl⟩ hMem.2]
        cases hOutcome : instrumenter.outcome d with
        | error reason => exact Or.inl rfl
        | ok own =>
            dsimp only
            rcases BodyInstrumenter.outcome_cases hOutcome with
              hSame | ⟨out, hOut, hPlain, hNew⟩
            · rw [hSame]
              exact Or.inl rfl
            · rw [hNew]
              exact Or.inr ⟨d, out, hOut, hPlain, rfl, rfl⟩
      · left
        exact
          instrumented_of_notMem (fun hFunc hName =>
            hMem ⟨hFunc, hName⟩)

/- A module around a function that still waits. -/
theorem OnlyHeader.map_instrumented
    (hOnly : OnlyHeader items name front d back)
    (hNew : name ∉ listed) :
    items.map (Item.instrumented instrumenter listed) =
      front.map (Item.instrumented instrumenter listed) ++
        Item.definition d ::
          back.map (Item.instrumented instrumenter listed) := by
  have hStay :
      Item.instrumented instrumenter listed
          (Item.definition d) =
        Item.definition d := by
    apply Item.instrumented_of_notMem
    intro _
    rw [hOnly.own.2]
    exact hNew
  rw [hOnly.items, List.map_append, List.map_cons, hStay]

/-
  The items of a list get their new bodies one by one: what
  each new body keeps, all of them keep.
-/
theorem keeps_of_instrumented
    {P : List Item → Prop}
    (hStep :
      ∀ f₁ e f₂ out, ∀ hOut : BraceBalanced out,
        NoFuncLine out → P (f₁ ++ Item.definition e :: f₂) →
          P (f₁ ++ Item.definition (e.withBody out hOut) :: f₂))
    (instrumenter : BodyInstrumenter)
    (done : List Text)
    (lead part : List Item)
    (hStart : P (lead ++ part)) :
    P (lead ++ part.map (Item.instrumented instrumenter done)) := by
  induction part generalizing lead with
  | nil => exact hStart
  | cons item part ih =>
      have hHere :
          P (lead ++
            Item.instrumented instrumenter done item :: part) := by
        rcases Item.instrumented_cases instrumenter done item with
          hSame | ⟨e, out, hOut, hPlain, hItem, hNew⟩
        · rw [hSame]
          exact hStart
        · rw [hNew]
          rw [hItem] at hStart
          exact hStep lead e part out hOut hPlain hStart
      have hMore :=
        ih (lead ++ [Item.instrumented instrumenter done item])
      rw [List.append_assoc, List.singleton_append,
        List.append_assoc, List.singleton_append] at hMore
      exact hMore hHere

/- No line is accepted once other functions have new bodies. -/
theorem NoLine.instrumented
    (hName : d.header.IsFunc name)
    (hNone : NoLine name (textOf front))
    (instrumenter : BodyInstrumenter)
    (done : List Text) :
    NoLine name
      (textOf (front.map (Item.instrumented instrumenter done))) :=
  keeps_of_instrumented
    (P := fun part => NoLine name (textOf part))
    (fun _ _ _ _ hOut hPlain hOld =>
      hOld.withBody hName hOut hPlain)
    instrumenter done [] front hNone

/- The own line is the first once others have new bodies. -/
theorem OwnFirst.instrumented
    (hName : d.header.IsFunc name)
    (hOwn : OwnFirst name lead front d back)
    (instrumenter : BodyInstrumenter)
    (done : List Text) :
    OwnFirst name lead
      (front.map (Item.instrumented instrumenter done)) d
      (back.map (Item.instrumented instrumenter done)) := by
  have hFront :
      OwnFirst name lead
        (front.map (Item.instrumented instrumenter done)) d
        back :=
    keeps_of_instrumented
      (P := fun part => OwnFirst name lead part d back)
      (fun _ _ _ _ hOut hPlain hOld =>
        hOld.of_front hName hOut hPlain)
      instrumenter done [] front hOwn
  exact
    keeps_of_instrumented
      (P := fun part =>
        OwnFirst name lead
          (front.map (Item.instrumented instrumenter done)) d
          part)
      (fun _ _ _ out hOut _ hOld => hOld.of_back hName out hOut)
      instrumenter done [] back hFront

end

------------------------------------------------------------
-- One Turn
------------------------------------------------------------

section

variable {findMatchingBrace : Text → Nat → Except Text Nat}
variable {instrumenter : BodyInstrumenter}
variable {name ptx before header body rest : Text}
variable {front back : List Item}
variable {d : Definition}

/- A text around the block that is found for a name. -/
theorem FirstBlock.text
    (hBlock : FirstBlock name ptx before header body rest) :
    ptx =
      (before ++ header) ++
        '\x7b' :: (body ++ '\x7d' :: rest) := by
  rcases hBlock.line with ⟨gap, hFirst, -⟩
  rw [List.append_assoc]
  exact hFirst.text

/- The header in front of the block is unique. -/
theorem FirstBlock.header_unique
    {before' header' body' rest' : Text}
    (hBlock : FirstBlock name ptx before header body rest)
    (hOther : FirstBlock name ptx before' header' body' rest') :
    header = header' := by
  rcases hBlock.line with ⟨gap, hFirst, hGap⟩
  rcases hOther.line with ⟨gap', hFirst', hGap'⟩
  rcases hFirst.unique hFirst' with ⟨-, hAfter, hFound⟩
  have hIndex :=
    findIdx?_eq_some_iff_split.mpr
      ⟨gap, body ++ '\x7d' :: rest, rfl, hGap, rfl⟩
  have hIndex' :=
    findIdx?_eq_some_iff_split.mpr ⟨gap', _, hFound, hGap', rfl⟩
  rw [hIndex, Option.some.injEq] at hIndex'
  have hRest := (List.append_inj hFound hIndex').2
  rw [hRest] at hAfter
  exact List.append_cancel_right hAfter

/- The span of the block. -/
theorem FirstBlock.functionSpan_eq
    (hFind : MatchesBraces findMatchingBrace)
    (hBlock : FirstBlock name ptx before header body rest) :
    functionSpan findMatchingBrace ptx name =
      Except.ok
        (Span.of ptx before.length (before ++ header).length
          ((before ++ header).length + body.length + 2)) := by
  rcases hBlock.line with ⟨gap, hFirst, hGap⟩
  have hPlace :
      ptx.length - ((body ++ '\x7d' :: rest).length + 1) =
        (before ++ header).length := by
    rw [hBlock.text]
    simp only [List.length_append, List.length_cons]
    omega
  have hClose :=
    hFind (before ++ header) body rest hBlock.balanced
  rw [← hBlock.text] at hClose
  rw [functionSpan_of_firstLine _ hFirst hGap, hPlace, hClose,
    Raising.ok_bind, Raising.pure_eq_ok]

/- A span that is returned is the one of the block. -/
theorem firstBlock_of_functionSpan
    (hFind : FindsBraces findMatchingBrace)
    {span : Span}
    (hSpan :
      functionSpan findMatchingBrace ptx name =
        Except.ok span) :
    ∃ before header body rest,
      FirstBlock name ptx before header body rest := by
  rcases block_of_functionSpan hFind hSpan with
    ⟨before, after, behind, hFirst, gap, body, rest, hText, hGap,
      hBody⟩
  rcases headerLine_of_firstLine hFirst with ⟨taken, hLine⟩
  have hAfter :
      after =
        (taken ++ gap) ++ '\x7b' :: (body ++ '\x7d' :: rest) := by
    have hBoth := hFirst.text.symm.trans hLine.text
    rw [List.append_cancel_left hBoth, hText, List.append_assoc]
  rw [hAfter, hText] at hFirst
  exact
    ⟨before, taken ++ gap, body, rest, ⟨gap, hFirst, hGap⟩, hBody⟩

/- The parts that the span of the block cuts out. -/
theorem FirstBlock.header_eq
    (hBlock : FirstBlock name ptx before header body rest) :
    (ptx.take (before ++ header).length).drop before.length =
      header := by
  rw [hBlock.text, List.take_left, List.drop_left]

theorem FirstBlock.body_eq
    (hBlock : FirstBlock name ptx before header body rest) :
    (ptx.take
          ((before ++ header).length + body.length + 2 - 1)).drop
        ((before ++ header).length + 1) =
      body := by
  have hText :
      ptx =
        ((before ++ header ++ ['\x7b']) ++ body) ++
          '\x7d' :: rest := by
    rw [hBlock.text]
    simp
  have hClose :
      (before ++ header).length + body.length + 2 - 1 =
        ((before ++ header ++ ['\x7b']) ++ body).length := by
    simp only [List.length_append, List.length_cons,
      List.length_nil]
    omega
  have hOpen :
      (before ++ header).length + 1 =
        (before ++ header ++ ['\x7b']).length := by
    simp only [List.length_append, List.length_cons,
      List.length_nil]
  rw [hText, hClose, List.take_left, hOpen, List.drop_left]

/- The text with a new body, put together from its parts. -/
theorem FirstBlock.rewritten_eq
    (hBlock : FirstBlock name ptx before header body rest)
    (out : Text) :
    let openBrace := (before ++ header).length
    let closeBrace := (before ++ header).length + body.length + 2
    let rewritten :=
      (ptx.take (openBrace + 1)).drop before.length ++
        '\n' :: out ++ ['\n', '\x7d']
    ptx.take before.length ++
          (if closeBrace < lineEndAt ptx closeBrace then
            rewritten ++ ['\n']
          else
            rewritten) ++
        ptx.drop (lineEndAt ptx closeBrace) =
      (before ++ header) ++
        '\x7b' :: (newBody out ++ '\x7d' :: rest) := by
  intro openBrace closeBrace rewritten
  have hTake : ptx.take before.length = before := by
    rw [hBlock.text, List.append_assoc, List.take_left]
  have hOpen :
      (ptx.take (openBrace + 1)).drop before.length =
        header ++ ['\x7b'] := by
    have hSplit :
        ptx =
          (before ++ (header ++ ['\x7b'])) ++
            (body ++ '\x7d' :: rest) := by
      rw [hBlock.text]
      simp
    have hLength :
        openBrace + 1 =
          (before ++ (header ++ ['\x7b'])).length := by
      simp only [openBrace, List.length_append,
        List.length_cons, List.length_nil]
      omega
    rw [hSplit, hLength, List.take_left, List.drop_left]
  have hDrop : ptx.drop closeBrace = rest := by
    have hSplit :
        ptx =
          (before ++ header ++ '\x7b' :: (body ++ ['\x7d'])) ++
            rest := by
      rw [hBlock.text]
      simp
    have hLength :
        closeBrace =
          (before ++ header ++
            '\x7b' :: (body ++ ['\x7d'])).length := by
      simp only [closeBrace, List.length_append,
        List.length_cons, List.length_nil]
      omega
    rw [hSplit, hLength, List.drop_left]
  rw [hTake]
  simp only [rewritten]
  rw [hOpen]
  -- A line feed behind the block is taken and put back.
  cases hRest : rest with
  | nil =>
      have hEnd : lineEndAt ptx closeBrace = closeBrace := by
        rw [lineEndAt, hDrop, hRest]
        rfl
      rw [hEnd, if_neg (Nat.lt_irrefl _), hDrop, hRest]
      simp [newBody]
  | cons c more =>
      by_cases hNewline : c = '\n'
      · subst hNewline
        have hEnd : lineEndAt ptx closeBrace = closeBrace + 1 := by
          rw [lineEndAt, hDrop, hRest]
          rfl
        have hNext : ptx.drop (closeBrace + 1) = more := by
          rw [← List.drop_drop, hDrop, hRest]
          rfl
        rw [hEnd, if_pos (Nat.lt_succ_self _), hNext]
        simp [newBody]
      · have hEnd : lineEndAt ptx closeBrace = closeBrace := by
          rw [lineEndAt, hDrop, hRest]
          exact if_neg (by simpa using hNewline)
        rw [hEnd, if_neg (Nat.lt_irrefl _), hDrop, hRest]
        simp [newBody]

/- What becomes of the body of a block. -/
def BodyInstrumenter.bodyOutcome
    (instrumenter : BodyInstrumenter)
    (body : Text) : Except Text (Text × Option Text) :=
  if hasMapRegisters body then
    Except.ok (body, none)
  else
    (instrumenter.run body).map fun own => (newBody own.1, own.2)

/- The block that is found has its body replaced. -/
theorem instrumentSelectedDevfunc_of_block
    (hFind : MatchesBraces findMatchingBrace)
    (instrumenter : BodyInstrumenter)
    (hBlock : FirstBlock name ptx before header body rest) :
    instrumentSelectedDevfunc findMatchingBrace instrumenter.run
        ptx name =
      if contains ".param" header then
        Except.error (parametersError name)
      else
        (instrumenter.bodyOutcome body).map fun own =>
          ((before ++ header) ++
            '\x7b' :: (own.1 ++ '\x7d' :: rest), own.2) := by
  unfold instrumentSelectedDevfunc BodyInstrumenter.bodyOutcome
  rw [hBlock.functionSpan_eq hFind, Raising.ok_bind]
  simp only [Span.of, hBlock.header_eq, hBlock.body_eq]
  by_cases hParam : contains ".param" header = true
  · rw [if_pos hParam, if_pos hParam]
    rfl
  · rw [if_neg hParam, if_neg hParam]
    by_cases hGuard : hasMapRegisters body = true
    · rw [if_pos hGuard, if_pos hGuard]
      exact
        congrArg (fun own => Except.ok (own, none)) hBlock.text
    · rw [if_neg hGuard, if_neg hGuard]
      cases hRun : instrumenter.run body with
      | error reason => rfl
      | ok result =>
          rw [Raising.ok_bind]
          exact
            congrArg (fun own => Except.ok (own, result.2))
              (hBlock.rewritten_eq result.1)

/- The body that the outcome of a function has. -/
theorem BodyInstrumenter.bodyOutcome_body
    (instrumenter : BodyInstrumenter)
    (front back : List Item)
    (d : Definition) :
    ((instrumenter.bodyOutcome d.body).map fun own =>
        ((textOf front ++ d.header.text) ++
          '\x7b' :: (own.1 ++ '\x7d' :: textOf back), own.2)) =
      (instrumenter.outcome d).map fun own =>
        (textOf (front ++ Item.definition own.1 :: back),
          own.2) := by
  unfold bodyOutcome
  by_cases hGuard : hasMapRegisters d.body = true
  · rw [if_pos hGuard, outcome_guard hGuard]
    exact
      congrArg (fun own => Except.ok (own, none))
        (textOf_definition front d back).symm
  · rw [if_neg hGuard]
    cases hRun : instrumenter.run d.body with
    | error reason =>
        rw [outcome_error hGuard hRun]
        rfl
    | ok result =>
        have hOut :=
          instrumenter.hBalanced d.body result.1 result.2 hRun
        rw [outcome_ok hGuard hRun]
        exact
          congrArg (fun own => Except.ok (own, result.2))
            (textOf_withBody d hOut).symm

/- A turn of a name that is found at its own body. -/
theorem instrumentSelectedDevfunc_of_own
    (hFind : MatchesBraces findMatchingBrace)
    (instrumenter : BodyInstrumenter)
    (hOwn : OwnBody name front d back) :
    instrumentSelectedDevfunc findMatchingBrace instrumenter.run
        (textOf (front ++ Item.definition d :: back)) name =
      (instrumenter.outcome d).map fun own =>
        (textOf (front ++ Item.definition own.1 :: back),
          own.2) := by
  rcases hOwn with
    ⟨before, header, body, rest, hBlock, hParam, hBody⟩
  rw [instrumentSelectedDevfunc_of_block hFind instrumenter hBlock,
    if_neg (by rw [hParam]; decide)]
  rcases hBody with ⟨hSame, hRest⟩ | ⟨hGuard, hOwnGuard⟩
  · rw [hSame, hRest] at hBlock ⊢
    have hHeader :
        before ++ header = textOf front ++ d.header.text := by
      have hText := hBlock.text
      rw [textOf_definition] at hText
      exact (List.append_cancel_right hText).symm
    rw [hHeader]
    exact instrumenter.bodyOutcome_body front back d
  · rw [BodyInstrumenter.bodyOutcome, if_pos hGuard,
      BodyInstrumenter.outcome_guard hOwnGuard]
    exact
      congrArg (fun own => Except.ok (own, none)) hBlock.text.symm

/- A turn of a name that is not found raises. -/
theorem instrumentSelectedDevfunc_of_noBody
    (hFind : FindsBraces findMatchingBrace)
    (instrumenter : BodyInstrumenter)
    (hNone : NoBody name ptx) :
    ∃ reason,
      instrumentSelectedDevfunc findMatchingBrace
          instrumenter.run ptx name =
        Except.error reason := by
  cases hSpan : functionSpan findMatchingBrace ptx name with
  | error reason =>
      refine ⟨reason, ?_⟩
      unfold instrumentSelectedDevfunc
      rw [hSpan]
      rfl
  | ok span =>
      rcases firstBlock_of_functionSpan hFind hSpan with
        ⟨before, header, body, rest, hBlock⟩
      refine ⟨parametersError name, ?_⟩
      rw [instrumentSelectedDevfunc_of_block hFind.closed
          instrumenter hBlock,
        if_pos (hNone before header body rest hBlock)]

end

------------------------------------------------------------
-- Candidates That Are Steady
------------------------------------------------------------

section

variable {name lead : Text}
variable {items front back : List Item}
variable {d : Definition}

/- A name without an accepted line is steady. -/
theorem NoLine.steady
    (hName : d.header.IsFunc name)
    (hNone : NoLine name (textOf items))
    (names : List Text) :
    Steady items names name front d back := by
  left
  intro instrumenter done _ before header body rest hBlock
  rcases hBlock.line with ⟨gap, hFirst, -⟩
  have hLess :
      before.length <
        (textOf
          (items.map
            (Item.instrumented instrumenter done))).length +
          1 := by
    rw [hFirst.text, List.length_append]
    omega
  have hHere :=
    hNone.instrumented hName instrumenter done before _
      hFirst.text hLess hFirst.start
  rw [hFirst.hit] at hHere
  cases hHere

/- The condition, read off a search. -/
theorem OwnFirst.of_searchLine
    (place : Nat)
    (gap : Text)
    (hSearch :
      searchLine (funcHeader name)
          (textOf (front ++ Item.definition d :: back)) =
        some
          (place, gap ++ '\x7b' :: (d.inside ++ textOf back)))
    (hPlace : place ≤ (textOf front).length)
    (hClean : '\x7d' ∉ (textOf front).drop place)
    (hGap : '\x7b' ∉ gap) :
    OwnFirst name ((textOf front).drop place) front d back := by
  have hFirst := firstLine_of_searchLine hSearch
  have hSplit :
      textOf (front ++ Item.definition d :: back) =
        textOf front ++
          (d.header.text ++
            '\x7b' :: (d.inside ++ textOf back)) := by
    rw [textOf_definition]
    simp [Definition.inside]
  have hTake :
      (textOf (front ++ Item.definition d :: back)).take place =
        (textOf front).take place := by
    rw [hSplit, List.take_append_of_le_length hPlace]
  have hDrop :
      (textOf (front ++ Item.definition d :: back)).drop place =
        (textOf front).drop place ++ d.header.text ++
          '\x7b' :: (d.inside ++ textOf back) := by
    rw [hSplit, List.drop_append_of_le_length hPlace,
      List.append_assoc]
  rw [hTake, hDrop] at hFirst
  exact
    ⟨(textOf front).take place, gap,
      (List.take_append_drop place _).symm, hClean, hFirst, hGap⟩

/- Such a definition has the first block. -/
theorem OwnFirst.firstBlock
    (hOwn : OwnFirst name lead front d back) :
    ∃ before,
      FirstBlock name
        (textOf (front ++ Item.definition d :: back)) before
        (lead ++ d.header.text) d.body (textOf back) := by
  rcases hOwn with ⟨before, gap, -, -, hFirst, hGap⟩
  refine ⟨before, ⟨gap, ?_, hGap⟩, d.hBody⟩
  simpa [Definition.inside] using hFirst

/- A name whose own line is the first is steady. -/
theorem OwnFirst.steady
    (hOnly : OnlyHeader items name front d back)
    (hOwn : OwnFirst name lead front d back)
    (names : List Text) :
    Steady items names name front d back := by
  have hHere :
      ∀ instrumenter done, ∃ before,
        FirstBlock name
          (textOf
            (front.map (Item.instrumented instrumenter done) ++
              Item.definition d ::
                back.map (Item.instrumented instrumenter done)))
          before (lead ++ d.header.text) d.body
          (textOf
            (back.map (Item.instrumented instrumenter done))) :=
    fun instrumenter done =>
      (hOwn.instrumented hOnly.own instrumenter done).firstBlock
  by_cases hParam : contains ".param" (lead ++ d.header.text) = true
  · left
    intro instrumenter done hOthers before header body rest hBlock
    have hNew : name ∉ done :=
      fun hMem => (hOthers name hMem).2.1 rfl
    rw [hOnly.map_instrumented hNew] at hBlock
    rcases hHere instrumenter done with ⟨own, hOwnBlock⟩
    rw [hBlock.header_unique hOwnBlock]
    exact hParam
  · right
    intro instrumenter done _
    rcases hHere instrumenter done with ⟨own, hOwnBlock⟩
    exact
      ⟨own, _, _, _, hOwnBlock, by simpa using hParam,
        Or.inl ⟨rfl, rfl⟩⟩

end

end Nccl

end FabricPerf
