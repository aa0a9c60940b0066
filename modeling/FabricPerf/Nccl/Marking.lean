import FabricPerf.Nccl.Substitution
import Mathlib.Data.List.Dedup
import Mathlib.Data.List.Induction

/-
  Candidates that every instrumenter substitutes are steady.

  A mark longer than the module shows which body a turn has
  replaced: where it stands in the module of the property, it
  was put by the turn.

  Main declarations:
    * `Nccl.ownBody_of_turn`
    * `Nccl.turn_of_substitutes`
    * `Nccl.steadyAt_of_substitutes`
-/

------------------------------------------------------------
-- Marks
------------------------------------------------------------

namespace FabricPerf

namespace Nccl

open Text

/- A body of one word. -/
def mark (length : Nat) : Text :=
  List.replicate length 'x'

theorem mem_mark
    {length : Nat}
    {c : Char}
    (hMem : c ∈ mark length) :
    c = 'x' :=
  List.eq_of_mem_replicate hMem

theorem braceBalanced_mark (length : Nat) :
    BraceBalanced (mark length) := by
  apply BraceBalanced.of_plain
  intro c hMem
  rw [mem_mark hMem]
  decide

theorem noFuncLine_mark (length : Nat) :
    NoFuncLine (mark length) := by
  cases hSearch : searchLine funcStart (mark length) with
  | none => exact hSearch
  | some found =>
      have hFirst := firstLine_of_searchLine hSearch
      rcases funcStart_eq_some hFirst.hit with ⟨lead, hText, -⟩
      have hDot : '.' ∈ mark length := by
        rw [hFirst.text, hText]
        simp
      exact absurd (mem_mark hDot) (by decide)

/- Some bodies as an instrumenter has them, marks elsewhere. -/
def marking
    (instrumenter : BodyInstrumenter)
    (known : Text → Bool)
    (length : Nat) : BodyInstrumenter where
  run := fun body =>
    if known body then
      instrumenter.run body
    else
      Except.ok (mark length, none)
  hBalanced := by
    intro body out fallbackName hRun
    split at hRun
    · exact instrumenter.hBalanced body out fallbackName hRun
    · rw [Except.ok.injEq, Prod.mk.injEq] at hRun
      rw [← hRun.1]
      exact braceBalanced_mark length
  hPlain := by
    intro body out fallbackName hRun
    split at hRun
    · exact instrumenter.hPlain body out fallbackName hRun
    · rw [Except.ok.injEq, Prod.mk.injEq] at hRun
      rw [← hRun.1]
      exact noFuncLine_mark length

section

variable {front front' u rest rest' : Text}

/- A long text behind a brace stands at one place. -/
theorem length_le_of_place
    (hFree : '\x7b' ∉ u)
    (hLong : front'.length ≤ u.length)
    (hText :
      front ++ '\x7b' :: (u ++ rest) =
        front' ++ '\x7b' :: (u ++ rest')) :
    front'.length ≤ front.length := by
  rcases List.append_eq_append_iff.mp hText with
    ⟨more, hFront, hMore⟩ | ⟨more, hFront, -⟩
  · cases more with
    | nil => rw [hFront, List.append_nil]
    | cons c more =>
        -- The second brace would stand in the long text.
        rw [List.cons_append, List.cons.injEq] at hMore
        rcases List.append_eq_append_iff.mp hMore.2 with
          ⟨beyond, hOver, -⟩ | ⟨beyond, hOver, hEnd⟩
        · have hLength := congrArg List.length hOver
          rw [hFront] at hLong
          simp only [List.length_append, List.length_cons]
            at hLength hLong
          omega
        · cases beyond with
          | nil =>
              rw [List.append_nil] at hOver
              rw [hFront, hOver] at hLong
              simp only [List.length_append, List.length_cons]
                at hLong
              omega
          | cons c beyond =>
              rw [List.cons_append, List.cons.injEq] at hEnd
              apply absurd _ hFree
              rw [hOver, ← hEnd.1]
              simp
  · rw [hFront, List.length_append]
    omega

theorem place_unique
    (hFree : '\x7b' ∉ u)
    (hLong : front.length ≤ u.length)
    (hLong' : front'.length ≤ u.length)
    (hText :
      front ++ '\x7b' :: (u ++ rest) =
        front' ++ '\x7b' :: (u ++ rest')) :
    front = front' ∧ rest = rest' := by
  have hLength : front.length = front'.length :=
    Nat.le_antisymm
      (length_le_of_place hFree hLong hText.symm)
      (length_le_of_place hFree hLong' hText)
  rcases List.append_inj hText hLength with ⟨hFront, hRest⟩
  rw [List.cons.injEq] at hRest
  exact ⟨hFront, List.append_cancel_left hRest.2⟩

end

------------------------------------------------------------
-- The Body A Turn Replaces
------------------------------------------------------------

section

variable {findMatchingBrace : Text → Nat → Except Text Nat}
variable {instrumenter : BodyInstrumenter}
variable {name before header body rest : Text}
variable {front back : List Item}
variable {d : Definition}
variable {length : Nat}

/- The length of a module around a function. -/
theorem length_textOf_definition
    (front : List Item)
    (d : Definition)
    (back : List Item) :
    (textOf (front ++ Item.definition d :: back)).length =
      (textOf front ++ d.header.text).length + d.body.length +
        (textOf back).length + 2 := by
  rw [textOf_definition]
  simp only [List.length_append, List.length_cons]
  omega

/- A turn of a block that needs no more is no error. -/
theorem turn_of_guard
    (hFind : MatchesBraces findMatchingBrace)
    {ptx : Text}
    (hBlock : FirstBlock name ptx before header body rest)
    (hParam : contains ".param" header = false)
    (hGuard : hasMapRegisters body = true) :
    instrumentSelectedDevfunc findMatchingBrace instrumenter.run
        ptx name =
      Except.ok (ptx, none) := by
  rw [instrumentSelectedDevfunc_of_block hFind instrumenter hBlock,
    hParam, if_neg (by decide), BodyInstrumenter.bodyOutcome,
    if_pos hGuard]
  exact congrArg (fun own => Except.ok (own, none)) hBlock.text.symm

/- A turn that replaces the body of a block. -/
theorem turn_of_run
    (hFind : MatchesBraces findMatchingBrace)
    {ptx out : Text}
    {fallbackName : Option Text}
    (hBlock : FirstBlock name ptx before header body rest)
    (hParam : contains ".param" header = false)
    (hGuard : ¬ hasMapRegisters body = true)
    (hRun : instrumenter.run body = Except.ok (out, fallbackName)) :
    instrumentSelectedDevfunc findMatchingBrace instrumenter.run
        ptx name =
      Except.ok
        ((before ++ header) ++
          '\x7b' :: (newBody out ++ '\x7d' :: rest),
          fallbackName) := by
  rw [instrumentSelectedDevfunc_of_block hFind instrumenter hBlock,
    hParam, if_neg (by decide), BodyInstrumenter.bodyOutcome,
    if_neg hGuard, hRun]
  rfl

/-
  Where the turn of a name makes the text in which its own
  function has its turn, and marks are told from all other
  bodies, the block it found is the own body.
-/
theorem ownBody_of_turn
    (hFind : MatchesBraces findMatchingBrace)
    (hBlock :
      FirstBlock name
        (textOf (front ++ Item.definition d :: back)) before
        header body rest)
    (hParam : contains ".param" header = false)
    (hLong :
      (textOf (front ++ Item.definition d :: back)).length <
        length)
    (hMark :
      ∃ fallbackName,
        instrumenter.run d.body =
          Except.ok (mark length, fallbackName))
    (hBody :
      ¬ hasMapRegisters body = true →
        ∃ out fallbackName,
          instrumenter.run body =
              Except.ok (out, fallbackName) ∧
            (out = mark length ∨
              out.length + (textOf
                (front ++ Item.definition d :: back)).length <
                  length ∧
                newBody out ≠ body))
    (hTurn :
      ∀ own, instrumenter.outcome d = Except.ok own →
        ∃ fallbackName,
          instrumentSelectedDevfunc findMatchingBrace
              instrumenter.run
              (textOf (front ++ Item.definition d :: back))
              name =
            Except.ok
              (textOf (front ++ Item.definition own.1 :: back),
                fallbackName)) :
    OwnBody name front d back := by
  rcases hMark with ⟨markFallback, hMark⟩
  have hText := hBlock.text
  rw [textOf_definition] at hText
  have hSize := length_textOf_definition front d back
  have hMarkBody : (newBody (mark length)).length = length + 2 := by
    simp [newBody, mark]
  refine ⟨before, header, body, rest, hBlock, hParam, ?_⟩
  by_cases hGuard : hasMapRegisters body = true
  · by_cases hOwnGuard : hasMapRegisters d.body = true
    · exact Or.inr ⟨hGuard, hOwnGuard⟩
    · rcases hTurn _
          (BodyInstrumenter.outcome_ok hOwnGuard hMark) with
        ⟨fallbackName, hOwn⟩
      rw [turn_of_guard hFind hBlock hParam hGuard,
        Except.ok.injEq, Prod.mk.injEq] at hOwn
      have hLength := congrArg List.length hOwn.1
      rw [length_textOf_definition front (d.withBody _ _)]
        at hLength
      simp only [Definition.withBody] at hLength
      omega
  · rcases hBody hGuard with ⟨out, fallbackName, hRun, hOut⟩
    have hHere := turn_of_run hFind hBlock hParam hGuard hRun
    by_cases hOwnGuard : hasMapRegisters d.body = true
    · rcases hTurn _
          (BodyInstrumenter.outcome_guard hOwnGuard) with
        ⟨ownFallback, hOwn⟩
      rw [hHere, Except.ok.injEq, Prod.mk.injEq, hBlock.text]
        at hOwn
      have hSame : newBody out = body := by
        have hCons := List.append_cancel_left hOwn.1
        rw [List.cons.injEq] at hCons
        exact List.append_cancel_right hCons.2
      rcases hOut with hMarked | ⟨-, hNew⟩
      · have hLength := congrArg List.length hSame
        have hWhole := congrArg List.length hBlock.text
        rw [hMarked, hMarkBody] at hLength
        simp only [List.length_append, List.length_cons]
          at hWhole hLong
        omega
      · exact absurd hSame hNew
    · rcases hTurn _
          (BodyInstrumenter.outcome_ok hOwnGuard hMark) with
        ⟨ownFallback, hOwn⟩
      rw [hHere, Except.ok.injEq, Prod.mk.injEq, textOf_withBody]
        at hOwn
      rcases hOut with hMarked | ⟨hShort, -⟩
      · left
        have hWhole := congrArg List.length hBlock.text
        simp only [List.length_append, List.length_cons]
          at hWhole hSize
        rw [hMarked] at hOwn
        rcases place_unique
            (u := newBody (mark length))
            (by
              simp only [newBody, List.mem_cons,
                List.mem_append, List.not_mem_nil, or_false,
                not_or]
              refine ⟨by decide, ?_, by decide⟩
              intro hMem
              exact absurd (mem_mark hMem) (by decide))
            (by
              rw [hMarkBody, List.length_append]
              omega)
            (by
              rw [hMarkBody, List.length_append]
              omega)
            hOwn.1 with ⟨hFront, hRest⟩
        rw [List.cons.injEq] at hRest
        rw [hFront, hRest.2] at hText
        have hCons := List.append_cancel_left hText
        rw [List.cons.injEq] at hCons
        exact
          ⟨(List.append_cancel_right hCons.2).symm, hRest.2⟩
      · have hLength := congrArg List.length hOwn.1
        have hWhole := congrArg List.length hBlock.text
        simp only [List.length_append, List.length_cons, hMarkBody]
          at hLength hWhole hSize
        simp only [newBody, List.length_append, List.length_cons,
          List.length_nil] at hLength
        omega

end

------------------------------------------------------------
-- Turns Of Substituted Candidates
------------------------------------------------------------

/-
  Every instrumenter substitutes: for every table of some
  names with distinct numbers, and each of them as target.
-/
def SubstitutesAll
    (findMatchingBrace : Text → Nat → Except Text Nat)
    (items : List Item)
    (names : List Text) : Prop :=
  ∀ instrumenter target localMapping,
    target ∈ names →
      (localMapping.map Prod.fst).Nodup →
        (∀ own ∈ localMapping.map Prod.snd, own ∈ names) →
          SubstitutesCandidates findMatchingBrace instrumenter
            items target localMapping

/- A table of some names. -/
def numberedNames (names : List Text) : List (Int × Text) :=
  names.zipIdx.map fun entry => (Int.ofNat entry.2, entry.1)

theorem map_snd_numberedNames (names : List Text) :
    (numberedNames names).map Prod.snd = names := by
  rw [numberedNames, List.map_map]
  exact List.zipIdx_map_fst 0 names

theorem map_fst_numberedNames (names : List Text) :
    (numberedNames names).map Prod.fst =
      (List.range' 0 names.length).map Int.ofNat := by
  rw [numberedNames, List.map_map, ← List.zipIdx_map_snd 0 names,
    List.map_map]
  rfl

/- Its numbers are distinct. -/
theorem nodup_numberedNames (names : List Text) :
    ((numberedNames names).map Prod.fst).Nodup := by
  rw [map_fst_numberedNames]
  exact
    List.Nodup.map (fun _ _ hSame => Int.ofNat.inj hSame)
      List.nodup_range'

/- The loop goes through the names in their order. -/
theorem candidateNames_numberedNames
    {names : List Text}
    {target : Text}
    (hNew : target ∉ names) :
    candidateNames true target (numberedNames names) =
      names ++ [target] := by
  have hOrder :
      (numberedNames names).Pairwise
        (fun a b => decide (a.1 ≤ b.1) = true) := by
    have hNumbers :
        ((numberedNames names).map Prod.fst).Pairwise
          (fun a b => a ≤ b) := by
      rw [map_fst_numberedNames, List.pairwise_map]
      exact
        List.pairwise_le_range'.imp
          (fun hLe => Int.ofNat_le.mpr hLe)
    rw [List.pairwise_map] at hNumbers
    exact hNumbers.imp (fun hLe => decide_eq_true hLe)
  unfold candidateNames
  rw [if_pos rfl, List.mergeSort_of_pairwise hOrder,
    map_snd_numberedNames]
  dsimp only
  rw [if_neg (by simpa using hNew)]

section

variable {findMatchingBrace : Text → Nat → Except Text Nat}
variable {instrumenter : BodyInstrumenter}
variable {items : List Item}
variable {names listed : List Text}
variable {target name : Text}
variable {run : CandidateRun}

/- The text behind names none of which fails. -/
theorem CandidateRun.Substituted.ptx_of_passes
    (hRun :
      run.Substituted findMatchingBrace instrumenter items listed)
    (hPasses :
      ∀ own ∈ listed,
        ¬ Fails findMatchingBrace instrumenter items own) :
    run.ptx =
      textOf
        (items.map (Item.instrumented instrumenter listed)) := by
  have hSame : ∀ own, own ∈ run.instrumented ↔ own ∈ listed := by
    intro own
    rw [hRun.listed]
    exact ⟨And.left, fun hMem => ⟨hMem, hPasses own hMem⟩⟩
  rw [hRun.ptx, Item.instrumented_congr hSame]

/- The last turn of a loop whose target comes last. -/
theorem turn_of_reached
    (hAll : SubstitutesAll findMatchingBrace items names)
    (hListed : ∀ own ∈ listed, own ∈ names)
    (hPasses :
      ∀ own ∈ listed,
        ¬ Fails findMatchingBrace instrumenter items own)
    (hTarget : target ∈ names)
    (hNew : target ∉ listed)
    (hLoop :
      listed.foldlM
          (enterCandidate findMatchingBrace instrumenter.run
            target)
          (CandidateRun.start (textOf items)) =
        Except.ok run)
    (hReached :
      run.Reached findMatchingBrace instrumenter items listed) :
    let turn :=
      instrumentSelectedDevfunc findMatchingBrace
        instrumenter.run
        (textOf
          (items.map (Item.instrumented instrumenter listed)))
        target
    (Fails findMatchingBrace instrumenter items target →
        ∃ reason, turn = Except.error reason) ∧
      (¬ Fails findMatchingBrace instrumenter items target →
        (∀ d, Item.definition d ∈ items →
          d.header.IsFunc target →
            ∃ own, instrumenter.outcome d = Except.ok own) ∧
        ∃ fallbackName,
          turn =
            Except.ok
              (textOf
                (items.map
                  (Item.instrumented instrumenter
                    (listed ++ [target]))), fallbackName)) := by
  intro turn
  have hHere :=
    hAll instrumenter target (numberedNames listed) hTarget
      (nodup_numberedNames listed)
      (by
        rw [map_snd_numberedNames]
        exact hListed)
  have hSeen : List.contains run.seen target = false := by
    rw [Bool.eq_false_iff, Ne, List.contains_iff_mem,
      hReached.seen]
    exact hNew
  have hEnter :
      instrumentDevfuncCandidates findMatchingBrace
          instrumenter.run true (textOf items) target
          (numberedNames listed) =
        enterCandidate findMatchingBrace instrumenter.run target
          run target := by
    rw [instrumentDevfuncCandidates,
      candidateNames_numberedNames hNew, List.foldlM_append, hLoop,
      Raising.ok_bind, List.foldlM_cons]
    cases enterCandidate findMatchingBrace instrumenter.run
      target run target <;> rfl
  have hTurn :
      instrumentSelectedDevfunc findMatchingBrace
          instrumenter.run run.ptx target =
        turn := by
    rw [hReached.substituted.ptx_of_passes hPasses]
  rw [enterCandidate, hSeen, hTurn] at hEnter
  constructor
  · intro hFails
    rcases hHere.raises hFails with ⟨reason, hError⟩
    rw [hEnter] at hError
    cases hResult : turn with
    | error why => exact ⟨why, rfl⟩
    | ok result =>
        rw [hResult] at hError
        cases hError
  · intro hPass
    rcases hHere.returns hPass with ⟨final, hFinal, hSubstituted⟩
    rw [hEnter] at hFinal
    cases hResult : turn with
    | error why =>
        rw [hResult] at hFinal
        simp at hFinal
    | ok result =>
        rw [hResult] at hFinal
        rw [candidateNames_numberedNames hNew] at hSubstituted
        have hIn : target ∈ final.instrumented :=
          (hSubstituted.listed target).mpr ⟨by simp, hPass⟩
        refine
          ⟨hSubstituted.replaced target hIn, result.2, ?_⟩
        have hPtx :=
          hSubstituted.ptx_of_passes (by
            intro own hMem
            rcases List.mem_append.mp hMem with hOld | hLast
            · exact hPasses own hOld
            · rw [List.mem_singleton.mp hLast]
              exact hPass)
        rw [← hPtx, ← Except.ok.inj hFinal]

/- The loop over names none of which fails. -/
theorem reached_of_substitutes
    (hAll : SubstitutesAll findMatchingBrace items names)
    (instrumenter : BodyInstrumenter)
    (hNodup : listed.Nodup)
    (hListed : ∀ own ∈ listed, own ∈ names)
    (hPasses :
      ∀ own ∈ listed,
        ¬ Fails findMatchingBrace instrumenter items own)
    (hNew : target ∉ listed) :
    ∃ run,
      listed.foldlM
          (enterCandidate findMatchingBrace instrumenter.run
            target)
          (CandidateRun.start (textOf items)) =
        Except.ok run ∧
      run.Reached findMatchingBrace instrumenter items listed := by
  induction listed using List.reverseRecOn
    generalizing target with
  | nil =>
      exact
        ⟨_, rfl,
          reached_start findMatchingBrace instrumenter items⟩
  | append_singleton listed name ih =>
      rw [← List.concat_eq_append, List.nodup_concat] at hNodup
      have hBefore : ∀ own ∈ listed, own ∈ listed ++ [name] :=
        fun own hMem => List.mem_append_left _ hMem
      have hLast : name ∈ listed ++ [name] := by simp
      have hLoop :
          ∀ own, own ∉ listed →
            ∃ run,
              listed.foldlM
                  (enterCandidate findMatchingBrace
                    instrumenter.run own)
                  (CandidateRun.start (textOf items)) =
                Except.ok run ∧
              run.Reached findMatchingBrace instrumenter items
                listed :=
        fun own hOwn =>
          ih hNodup.2
            (fun other hMem => hListed other (hBefore other hMem))
            (fun other hMem => hPasses other (hBefore other hMem))
            hOwn
      -- What the last turn does shows where it is the target.
      rcases hLoop name hNodup.1 with ⟨own, hOwnLoop, hOwn⟩
      rcases (turn_of_reached hAll
          (fun other hMem => hListed other (hBefore other hMem))
          (fun other hMem => hPasses other (hBefore other hMem))
          (hListed name hLast) hNodup.1 hOwnLoop hOwn).2
          (hPasses name hLast) with
        ⟨hReplaced, fallbackName, hTurn⟩
      rcases hLoop target
          (fun hMem => hNew (hBefore target hMem)) with
        ⟨run, hRun, hReached⟩
      have hSeen : List.contains run.seen name = false := by
        rw [Bool.eq_false_iff, Ne, List.contains_iff_mem,
          hReached.seen]
        exact hNodup.1
      have hPtx :=
        hReached.substituted.ptx_of_passes
          (fun other hMem => hPasses other (hBefore other hMem))
      have hSame :
          ∀ other, other ∈ listed ++ [name] ↔
            other ∈ run.instrumented ++ [name] := by
        intro other
        rw [List.mem_append, List.mem_append,
          hReached.substituted.listed]
        constructor
        · exact
            Or.imp_left
              (fun hMem =>
                ⟨hMem, hPasses other (hBefore other hMem)⟩)
        · exact Or.imp_left And.left
      refine
        ⟨_, ?_, hReached.list hNodup.1 (hPasses name hLast)
          hReplaced (run.fallbackName.or fallbackName)⟩
      rw [List.foldlM_append, hRun, Raising.ok_bind,
        List.foldlM_cons, enterCandidate, hSeen, hPtx, hTurn,
        Item.instrumented_congr hSame]
      rfl

/- The turn of a name behind names none of which fails. -/
theorem turn_of_substitutes
    (hAll : SubstitutesAll findMatchingBrace items names)
    (instrumenter : BodyInstrumenter)
    (hNodup : listed.Nodup)
    (hListed : ∀ own ∈ listed, own ∈ names)
    (hPasses :
      ∀ own ∈ listed,
        ¬ Fails findMatchingBrace instrumenter items own)
    (hName : name ∈ names)
    (hNew : name ∉ listed) :
    let turn :=
      instrumentSelectedDevfunc findMatchingBrace
        instrumenter.run
        (textOf
          (items.map (Item.instrumented instrumenter listed)))
        name
    (Fails findMatchingBrace instrumenter items name →
        ∃ reason, turn = Except.error reason) ∧
      (¬ Fails findMatchingBrace instrumenter items name →
        (∀ d, Item.definition d ∈ items →
          d.header.IsFunc name →
            ∃ own, instrumenter.outcome d = Except.ok own) ∧
        ∃ fallbackName,
          turn =
            Except.ok
              (textOf
                (items.map
                  (Item.instrumented instrumenter
                    (listed ++ [name]))), fallbackName)) := by
  rcases reached_of_substitutes hAll instrumenter hNodup hListed
      hPasses hNew with ⟨run, hLoop, hReached⟩
  exact
    turn_of_reached hAll hListed hPasses hName hNew hLoop hReached

end

------------------------------------------------------------
-- Marked Modules
------------------------------------------------------------

/- Candidates have different bodies. -/
def DistinctBodies
    (items : List Item)
    (names : List Text) : Prop :=
  ∀ d e, Item.definition d ∈ items →
    Item.definition e ∈ items →
      d.header.directive = Directive.func →
        e.header.directive = Directive.func →
          d.header.name ∈ names → e.header.name ∈ names →
            d.body = e.body → d.header.name = e.header.name

/- A name whose function gets another body. -/
def Changes
    (instrumenter : BodyInstrumenter)
    (items : List Item)
    (name : Text) : Prop :=
  ∃ d own, Item.definition d ∈ items ∧ d.header.IsFunc name ∧
    instrumenter.outcome d = Except.ok own ∧ own.1 ≠ d

/- The body of a function of one of some names. -/
def BodyOf
    (items : List Item)
    (names : List Text)
    (body : Text) : Prop :=
  ∃ d, Item.definition d ∈ items ∧
    d.header.directive = Directive.func ∧
      d.header.name ∈ names ∧ d.body = body

section

variable {instrumenter other : BodyInstrumenter}
variable {items : List Item}
variable {names done live : List Text}
variable {d : Definition}

/- Outcomes depend on what is made of the body. -/
theorem BodyInstrumenter.outcome_congr
    (hRun : instrumenter.run d.body = other.run d.body) :
    instrumenter.outcome d = other.outcome d := by
  by_cases hGuard : hasMapRegisters d.body = true
  · rw [outcome_guard hGuard, outcome_guard hGuard]
  · cases hOwn : instrumenter.run d.body with
    | error reason =>
        rw [outcome_error hGuard hOwn,
          outcome_error hGuard (hRun.symm.trans hOwn)]
    | ok own =>
        rw [outcome_ok hGuard hOwn,
          outcome_ok hGuard (hRun.symm.trans hOwn)]

/- What makes another body of a function. -/
theorem BodyInstrumenter.run_of_changes
    {own : Definition × Option Text}
    (hOk : instrumenter.outcome d = Except.ok own)
    (hChanged : own.1 ≠ d) :
    ∃ out fallbackName,
      instrumenter.run d.body = Except.ok (out, fallbackName) ∧
        own.1.body = newBody out ∧ newBody out ≠ d.body := by
  by_cases hGuard : hasMapRegisters d.body = true
  · rw [outcome_guard hGuard, Except.ok.injEq] at hOk
    rw [← hOk] at hChanged
    exact absurd rfl hChanged
  · cases hRun : instrumenter.run d.body with
    | error reason =>
        rw [outcome_error hGuard hRun] at hOk
        cases hOk
    | ok result =>
        rw [outcome_ok hGuard hRun, Except.ok.injEq] at hOk
        rw [← hOk] at hChanged ⊢
        refine ⟨result.1, result.2, rfl, rfl, ?_⟩
        intro hSame
        apply hChanged
        cases d
        simp only [Definition.withBody, Definition.mk.injEq,
          true_and]
        exact hSame

/-
  An instrumenter with the same outcomes for the names that
  change leaves the same items.
-/
theorem Item.instrumented_eq_of_changes
    (hSame :
      ∀ d, Item.definition d ∈ items →
        d.header.directive = Directive.func →
          d.header.name ∈ live →
            other.outcome d = instrumenter.outcome d)
    (hLive :
      ∀ own, own ∈ live ↔
        own ∈ done ∧ Changes instrumenter items own)
    {item : Item}
    (hItem : item ∈ items) :
    Item.instrumented other live item =
      Item.instrumented instrumenter done item := by
  cases item with
  | declaration header => rfl
  | other text => rfl
  | definition d =>
      by_cases hFunc : d.header.directive = Directive.func
      · by_cases hMem : d.header.name ∈ live
        · have hDone := ((hLive d.header.name).mp hMem).1
          rw [instrumented_of_mem ⟨hFunc, rfl⟩ hMem,
            instrumented_of_mem ⟨hFunc, rfl⟩ hDone,
            hSame d hItem hFunc hMem]
        · rw [instrumented_of_notMem (fun _ => hMem)]
          by_cases hDone : d.header.name ∈ done
          · rw [instrumented_of_mem ⟨hFunc, rfl⟩ hDone]
            cases hOutcome : instrumenter.outcome d with
            | error reason => rfl
            | ok own =>
                by_cases hOwn : own.1 = d
                · exact congrArg definition hOwn.symm
                · apply absurd _ hMem
                  rw [hLive]
                  exact
                    ⟨hDone, d, own, hItem, ⟨hFunc, rfl⟩,
                      hOutcome, hOwn⟩
          · rw [instrumented_of_notMem (fun _ => hDone)]
      · rw [instrumented_of_notMem
            (fun hOwn => absurd hOwn hFunc),
          instrumented_of_notMem
            (fun hOwn => absurd hOwn hFunc)]

/- An item is no longer than its module. -/
theorem length_text_le
    {item : Item}
    (hItem : item ∈ items) :
    item.text.length ≤ (textOf items).length := by
  rcases List.append_of_mem hItem with ⟨front, back, hItems⟩
  rw [hItems, textOf_append, textOf_cons, List.length_append,
    List.length_append]
  omega

end

section

variable {findMatchingBrace : Text → Nat → Except Text Nat}
variable {instrumenter : BodyInstrumenter}
variable {items : List Item}
variable {ptx name : Text}

/- An instrumenter that never raises, where a block is found. -/
theorem turn_of_total
    (hFind : MatchesBraces findMatchingBrace)
    (hTotal :
      ∀ body, ∃ own, instrumenter.run body = Except.ok own)
    (hFound : ¬ NoBody name ptx) :
    ∃ own,
      instrumentSelectedDevfunc findMatchingBrace
          instrumenter.run ptx name =
        Except.ok own := by
  simp only [NoBody, not_forall, exists_prop] at hFound
  rcases hFound with ⟨before, header, body, rest, hBlock, hParam⟩
  have hNone : contains ".param" header = false := by
    simpa using hParam
  by_cases hGuard : hasMapRegisters body = true
  · exact ⟨_, turn_of_guard hFind hBlock hNone hGuard⟩
  · rcases hTotal body with ⟨own, hRun⟩
    exact ⟨_, turn_of_run hFind hBlock hNone hGuard hRun⟩

/- It fails where no block is found. -/
theorem fails_iff_noBody_of_total
    (hFind : FindsBraces findMatchingBrace)
    (hTotal :
      ∀ body, ∃ own, instrumenter.run body = Except.ok own) :
    Fails findMatchingBrace instrumenter items name ↔
      NoBody name (textOf items) := by
  constructor
  · rintro ⟨reason, hError⟩
    by_contra hFound
    rcases turn_of_total hFind.closed hTotal hFound with
      ⟨own, hOk⟩
    rw [hOk] at hError
    cases hError
  · exact instrumentSelectedDevfunc_of_noBody hFind instrumenter

end

------------------------------------------------------------
-- Steady By All Instrumenters
------------------------------------------------------------

/-
  A marked module: the same items, made by an instrumenter
  that never raises and marks the function of the name, by
  turns of other candidates that are found.
-/
structure Marked
    (items : List Item)
    (names : List Text)
    (name : Text)
    (instrumenter : BodyInstrumenter)
    (done : List Text)
    (marker : BodyInstrumenter)
    (live : List Text)
    (length : Nat) : Prop where
  same :
    ∀ item ∈ items,
      Item.instrumented marker live item =
        Item.instrumented instrumenter done item
  nodup : live.Nodup
  others : Others items names name live
  total : ∀ body, ∃ own, marker.run body = Except.ok own
  own :
    ∀ d, Item.definition d ∈ items → d.header.IsFunc name →
      marker.run d.body = Except.ok (mark length, none)
  long :
    (textOf
      (items.map
        (Item.instrumented instrumenter done))).length < length
  short :
    ∀ body out fallbackName,
      marker.run body = Except.ok (out, fallbackName) →
        out = mark length ∨
          out.length +
              (textOf
                (items.map
                  (Item.instrumented instrumenter
                    done))).length < length ∧
            newBody out ≠ body

section

variable {findMatchingBrace : Text → Nat → Except Text Nat}
variable {instrumenter : BodyInstrumenter}
variable {items : List Item}
variable {names done : List Text}
variable {name : Text}

/- Every module of the condition can be marked. -/
theorem exists_marked
    (hOnly :
      ∀ own ∈ names, ∃ front d back,
        OnlyHeader items own front d back)
    (hDistinct : DistinctBodies items names)
    (instrumenter : BodyInstrumenter)
    (hOthers : Others items names name done)
    (hName : name ∈ names) :
    ∃ marker live length,
      Marked items names name instrumenter done marker live
        length := by
  classical
  let live :=
    (done.filter
      (fun own => decide (Changes instrumenter items own))).dedup
  let ptx :=
    textOf (items.map (Item.instrumented instrumenter done))
  let length := 2 * ptx.length + 1
  let marker :=
    marking instrumenter
      (fun body => decide (BodyOf items live body)) length
  have hLive :
      ∀ own, own ∈ live ↔
        own ∈ done ∧ Changes instrumenter items own := by
    intro own
    simp [live]
  have hOther :
      ∀ own ∈ live, own ∈ names ∧ own ≠ name ∧
        ¬ NoBody own (textOf items) :=
    fun own hMem => hOthers own ((hLive own).mp hMem).1
  have hKnown :
      ∀ d, Item.definition d ∈ items →
        d.header.directive = Directive.func →
          d.header.name ∈ live →
            marker.run d.body = instrumenter.run d.body := by
    intro d hItem hFunc hMem
    have hBody : BodyOf items live d.body :=
      ⟨d, hItem, hFunc, hMem, rfl⟩
    simp only [marker, marking]
    rw [if_pos (decide_eq_true hBody)]
  have hSame :
      ∀ item ∈ items,
        Item.instrumented marker live item =
          Item.instrumented instrumenter done item :=
    fun item hItem =>
      Item.instrumented_eq_of_changes
        (fun d hD hFunc hMem =>
          BodyInstrumenter.outcome_congr (hKnown d hD hFunc hMem))
        hLive hItem
  -- What is known makes another body, which the module holds.
  have hMade :
      ∀ body, BodyOf items live body →
        ∃ out fallbackName,
          marker.run body = Except.ok (out, fallbackName) ∧
            out.length + ptx.length < length ∧
              newBody out ≠ body := by
    rintro body ⟨d, hItem, hFunc, hMem, hBody⟩
    rcases (hLive _).mp hMem with
      ⟨hDone, e, own, hE, hName, hOk, hChanged⟩
    rcases hOnly _ (hOther _ hMem).1 with
      ⟨front, f, back, hHere⟩
    have hOne : e = d := by
      rw [hHere.eq_of_mem hE hName,
        hHere.eq_of_mem hItem ⟨hFunc, rfl⟩]
    rw [hOne] at hOk hChanged
    rcases BodyInstrumenter.run_of_changes hOk hChanged with
      ⟨out, fallbackName, hRun, hNew, hNe⟩
    rw [← hBody]
    refine
      ⟨out, fallbackName,
        (hKnown d hItem hFunc hMem).trans hRun, ?_, hNe⟩
    have hIn :
        Item.definition own.1 ∈
          items.map (Item.instrumented instrumenter done) := by
      apply List.mem_map.mpr
      refine ⟨Item.definition d, hItem, ?_⟩
      rw [Item.instrumented_of_mem ⟨hFunc, rfl⟩ hDone, hOk]
    have hLength := length_text_le hIn
    simp only [Item.text, Definition.text, Definition.inside,
      hNew, newBody, List.length_append, List.length_cons,
      List.length_nil] at hLength
    simp only [length, ptx]
    omega
  have hUnknown :
      ∀ body, ¬ BodyOf items live body →
        marker.run body = Except.ok (mark length, none) := by
    intro body hBody
    simp only [marker, marking]
    rw [if_neg (by simpa using hBody)]
  refine
    ⟨marker, live, length, hSame, List.nodup_dedup _, hOther, ?_,
      ?_, ?_, ?_⟩
  · intro body
    by_cases hBody : BodyOf items live body
    · rcases hMade body hBody with ⟨out, fallbackName, hRun, -⟩
      exact ⟨_, hRun⟩
    · exact ⟨_, hUnknown body hBody⟩
  · intro d hItem hFunc
    apply hUnknown
    rintro ⟨e, hE, hEFunc, hMem, hBody⟩
    apply (hOther _ hMem).2.1
    rw [← hFunc.2]
    apply hDistinct e d hE hItem hEFunc hFunc.1
      (hOther _ hMem).1 _ hBody
    rw [hFunc.2]
    exact hName
  · simp only [length, ptx]
    omega
  · intro body out fallbackName hRun
    by_cases hBody : BodyOf items live body
    · rcases hMade body hBody with
        ⟨made, madeFallback, hMadeRun, hShort⟩
      rw [hMadeRun, Except.ok.injEq, Prod.mk.injEq] at hRun
      rw [← hRun.1]
      exact Or.inr hShort
    · rw [hUnknown body hBody, Except.ok.injEq, Prod.mk.injEq]
        at hRun
      exact Or.inl hRun.1.symm

/-
  Where every instrumenter substitutes, a module of the
  condition is found like the module as it is, and always at
  the own body.
-/
theorem found_of_substitutes
    (hFind : FindsBraces findMatchingBrace)
    (hAll : SubstitutesAll findMatchingBrace items names)
    (hDistinct : DistinctBodies items names)
    (hOnly :
      ∀ own ∈ names, ∃ front d back,
        OnlyHeader items own front d back)
    {front back : List Item}
    {d : Definition}
    (hName : name ∈ names)
    (hHere : OnlyHeader items name front d back)
    (instrumenter : BodyInstrumenter)
    (hOthers : Others items names name done) :
    (NoBody name
          (textOf
            (items.map (Item.instrumented instrumenter done))) ↔
        NoBody name (textOf items)) ∧
      (¬ NoBody name (textOf items) →
        OwnBody name
          (front.map (Item.instrumented instrumenter done)) d
          (back.map (Item.instrumented instrumenter done))) := by
  rcases exists_marked hOnly hDistinct instrumenter hOthers hName
    with ⟨marker, live, length, hMarked⟩
  have hNew : name ∉ live :=
    fun hMem => (hMarked.others name hMem).2.1 rfl
  have hNewDone : name ∉ done :=
    fun hMem => (hOthers name hMem).2.1 rfl
  have hFails :
      ∀ own, Fails findMatchingBrace marker items own ↔
        NoBody own (textOf items) :=
    fun own => fails_iff_noBody_of_total hFind hMarked.total
  have hModule :
      items.map (Item.instrumented marker live) =
        items.map (Item.instrumented instrumenter done) :=
    List.map_congr_left hMarked.same
  have hFrontSame :
      front.map (Item.instrumented marker live) =
        front.map (Item.instrumented instrumenter done) :=
    List.map_congr_left (fun item hMem =>
      hMarked.same item (by
        rw [hHere.items]
        exact List.mem_append_left _ hMem))
  have hBackSame :
      back.map (Item.instrumented marker live) =
        back.map (Item.instrumented instrumenter done) :=
    List.map_congr_left (fun item hMem =>
      hMarked.same item (by
        rw [hHere.items]
        simp [hMem]))
  have hTurn :=
    turn_of_substitutes hAll marker hMarked.nodup
      (fun own hMem => (hMarked.others own hMem).1)
      (fun own hMem => by
        rw [hFails]
        exact (hMarked.others own hMem).2.2)
      hName hNew
  rw [hModule] at hTurn
  have hSame :
      NoBody name
          (textOf
            (items.map (Item.instrumented instrumenter done))) ↔
        NoBody name (textOf items) := by
    rw [← hFails]
    constructor
    · intro hNone
      by_contra hPasses
      rcases (hTurn.2 hPasses).2 with ⟨fallbackName, hOk⟩
      rcases instrumentSelectedDevfunc_of_noBody hFind marker
          hNone with ⟨reason, hError⟩
      rw [hOk] at hError
      cases hError
    · intro hFail
      by_contra hFound
      rcases hTurn.1 hFail with ⟨reason, hError⟩
      rcases turn_of_total hFind.closed hMarked.total hFound with
        ⟨own, hOk⟩
      rw [hOk] at hError
      cases hError
  refine ⟨hSame, ?_⟩
  intro hFound
  have hFoundHere := hFound
  rw [← hSame] at hFoundHere
  simp only [NoBody, not_forall, exists_prop] at hFoundHere
  rcases hFoundHere with
    ⟨before, header, body, rest, hBlock, hParam⟩
  have hPasses : ¬ Fails findMatchingBrace marker items name := by
    rw [hFails]
    exact hFound
  rcases (hTurn.2 hPasses).2 with ⟨fallbackName, hOk⟩
  have hItem : Item.definition d ∈ items := by
    rw [hHere.items]
    simp
  have hLong := hMarked.long
  rw [hHere.map_instrumented hNewDone] at hBlock hOk hLong
  apply
    ownBody_of_turn hFind.closed hBlock (by simpa using hParam)
      hLong ⟨none, hMarked.own d hItem hHere.own⟩
  · intro _
    rcases hMarked.total body with ⟨own, hRun⟩
    refine ⟨own.1, own.2, hRun, ?_⟩
    have hShort := hMarked.short body own.1 own.2 hRun
    rw [hHere.map_instrumented hNewDone] at hShort
    exact hShort
  · intro own hOutcome
    refine ⟨fallbackName, ?_⟩
    rw [hOk, hHere.map_instrumented_append live hOutcome,
      hFrontSame, hBackSame]

/- Where every instrumenter substitutes, a name is steady. -/
theorem steady_of_substitutes
    (hFind : FindsBraces findMatchingBrace)
    (hAll : SubstitutesAll findMatchingBrace items names)
    (hDistinct : DistinctBodies items names)
    (hOnly :
      ∀ own ∈ names, ∃ front d back,
        OnlyHeader items own front d back)
    {front back : List Item}
    {d : Definition}
    (hName : name ∈ names)
    (hHere : OnlyHeader items name front d back) :
    Steady items names name front d back := by
  have hFound :=
    fun instrumenter done
        (hOthers : Others items names name done) =>
      found_of_substitutes hFind hAll hDistinct hOnly hName hHere
        instrumenter hOthers
  by_cases hNone : NoBody name (textOf items)
  · left
    intro instrumenter done hOthers
    exact (hFound instrumenter done hOthers).1.mpr hNone
  · right
    intro instrumenter done hOthers
    exact (hFound instrumenter done hOthers).2 hNone

end

end Nccl

end FabricPerf
