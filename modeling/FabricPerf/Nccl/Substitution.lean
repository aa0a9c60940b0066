import FabricPerf.Nccl.NewBody
import Mathlib.Data.List.Nodup
import Mathlib.Data.List.Perm.Basic

/-
  The loop over the candidates: what it has reached behind
  some of the names is the module in which the functions of
  the listed ones have their new bodies.

  Main declarations:
    * `Nccl.turn_cases`
    * `Nccl.CandidateRun.Reached`
    * `Nccl.foldlM_enterCandidate`
    * `Nccl.candidates_substituted`
-/

------------------------------------------------------------
-- Items With Their Turn
------------------------------------------------------------

namespace FabricPerf

namespace Nccl

open Text

section

variable {instrumenter : BodyInstrumenter}
variable {name : Text}
variable {names listed : List Text}
variable {items front back : List Item}
variable {d e : Definition}

/- Only the names of the list matter. -/
theorem Item.instrumented_congr
    {other : List Text}
    (hSame : ∀ own, own ∈ names ↔ own ∈ other) :
    Item.instrumented instrumenter names =
      Item.instrumented instrumenter other := by
  funext item
  cases item with
  | declaration header => rfl
  | other text => rfl
  | definition d =>
      have hContains :
          List.contains names d.header.name =
            List.contains other d.header.name := by
        rw [Bool.eq_iff_iff, List.contains_iff_mem,
          List.contains_iff_mem]
        exact hSame d.header.name
      rw [instrumented, instrumented, hContains]

/- A turn of another name changes nothing. -/
theorem Item.instrumented_append_of_other
    {item : Item}
    (hOther :
      ∀ h, item.header? = some h → ¬ h.IsFunc name) :
    Item.instrumented instrumenter (names ++ [name]) item =
      Item.instrumented instrumenter names item := by
  cases item with
  | declaration header => rfl
  | other text => rfl
  | definition d =>
      by_cases hFunc : d.header.directive = Directive.func
      · have hNe : d.header.name ≠ name :=
          fun hSame => hOther d.header rfl ⟨hFunc, hSame⟩
        have hContains :
            List.contains (names ++ [name]) d.header.name =
              List.contains names d.header.name := by
          rw [Bool.eq_iff_iff, List.contains_iff_mem,
            List.contains_iff_mem, List.mem_append,
            List.mem_singleton, or_iff_left hNe]
        rw [instrumented, instrumented, hContains]
      · rw [instrumented_of_notMem
            (fun hOwn => absurd hOwn hFunc),
          instrumented_of_notMem
            (fun hOwn => absurd hOwn hFunc)]

/- A name has one definition. -/
theorem OnlyHeader.eq_of_mem
    (hOnly : OnlyHeader items name front d back)
    (hMem : Item.definition e ∈ items)
    (hName : e.header.IsFunc name) :
    e = d := by
  rw [hOnly.items, List.mem_append, List.mem_cons] at hMem
  rcases hMem with hFront | hHere | hBack
  · exact absurd hName (hOnly.front _ hFront _ rfl)
  · exact Item.definition.inj hHere
  · exact absurd hName (hOnly.back _ hBack _ rfl)

/- A name has one place. -/
theorem OnlyHeader.unique
    {front' back' : List Item}
    (hOnly : OnlyHeader items name front d back)
    (hOther : OnlyHeader items name front' e back') :
    front = front' ∧ d = e ∧ back = back' := by
  have hSplit :
      front ++ Item.definition d :: back =
        front' ++ Item.definition e :: back' := by
    rw [← hOnly.items, hOther.items]
  rcases List.append_eq_append_iff.mp hSplit with
    ⟨c, hFront, hBack⟩ | ⟨c, hFront, hBack⟩
  · cases c with
    | nil =>
        rw [List.nil_append, List.cons.injEq] at hBack
        rw [List.append_nil] at hFront
        exact
          ⟨hFront.symm, Item.definition.inj hBack.1, hBack.2⟩
    | cons item c =>
        rw [List.cons_append, List.cons.injEq] at hBack
        exact
          absurd hOnly.own
            (hOther.front item (by rw [hFront]; simp) _
              (by rw [← hBack.1]; rfl))
  · cases c with
    | nil =>
        rw [List.nil_append, List.cons.injEq] at hBack
        rw [List.append_nil] at hFront
        exact
          ⟨hFront, (Item.definition.inj hBack.1).symm,
            hBack.2.symm⟩
    | cons item c =>
        rw [List.cons_append, List.cons.injEq] at hBack
        exact
          absurd hOther.own
            (hOnly.front item (by rw [hFront]; simp) _
              (by rw [← hBack.1]; rfl))

/- A module around a function behind its turn. -/
theorem OnlyHeader.map_instrumented_append
    (hOnly : OnlyHeader items name front d back)
    (listed : List Text)
    {own : Definition × Option Text}
    (hOk : instrumenter.outcome d = Except.ok own) :
    items.map
        (Item.instrumented instrumenter (listed ++ [name])) =
      front.map (Item.instrumented instrumenter listed) ++
        Item.definition own.1 ::
          back.map (Item.instrumented instrumenter listed) := by
  have hHere :
      Item.instrumented instrumenter (listed ++ [name])
          (Item.definition d) =
        Item.definition own.1 := by
    rw [Item.instrumented_of_mem hOnly.own (by simp), hOk]
  have hFront :
      front.map
          (Item.instrumented instrumenter (listed ++ [name])) =
        front.map (Item.instrumented instrumenter listed) :=
    List.map_congr_left (fun item hMem =>
      Item.instrumented_append_of_other (hOnly.front item hMem))
  have hBack :
      back.map
          (Item.instrumented instrumenter (listed ++ [name])) =
        back.map (Item.instrumented instrumenter listed) :=
    List.map_congr_left (fun item hMem =>
      Item.instrumented_append_of_other (hOnly.back item hMem))
  rw [hOnly.items, List.map_append, List.map_cons, hHere, hFront,
    hBack]

/- Without names nothing has its turn. -/
theorem map_instrumented_nil
    (instrumenter : BodyInstrumenter)
    (items : List Item) :
    items.map (Item.instrumented instrumenter []) = items := by
  have hId :
      items.map (Item.instrumented instrumenter []) =
        items.map id := by
    apply List.map_congr_left
    intro item _
    cases item with
    | declaration header => rfl
    | other text => rfl
    | definition d =>
        exact Item.instrumented_of_notMem (fun _ hMem => by
          cases hMem)
  rw [hId, List.map_id]

end

------------------------------------------------------------
-- One Turn In The Loop
------------------------------------------------------------

/- A name that is steady at its one header. -/
def SteadyAt
    (items : List Item)
    (names : List Text)
    (name : Text) : Prop :=
  ∃ front d back,
    OnlyHeader items name front d back ∧
      Steady items names name front d back

section

variable {findMatchingBrace : Text → Nat → Except Text Nat}
variable {instrumenter : BodyInstrumenter}
variable {items front back : List Item}
variable {name : Text}
variable {names listed : List Text}
variable {d : Definition}

/- What fails nowhere is found in the module as it is. -/
theorem not_noBody_of_not_fails
    (hFind : FindsBraces findMatchingBrace)
    (hPasses : ¬ Fails findMatchingBrace instrumenter items name) :
    ¬ NoBody name (textOf items) := by
  intro hNone
  exact
    hPasses
      (instrumentSelectedDevfunc_of_noBody hFind instrumenter hNone)

/-
  The turn of a steady name behind some others: it raises
  where it raises in the module as it is, and replaces its
  own body otherwise.
-/
theorem turn_cases
    (hFind : FindsBraces findMatchingBrace)
    (instrumenter : BodyInstrumenter)
    (hSteady : SteadyAt items names name)
    (hOthers : Others items names name listed) :
    let ptx :=
      textOf (items.map (Item.instrumented instrumenter listed))
    let turn :=
      instrumentSelectedDevfunc findMatchingBrace
        instrumenter.run ptx name
    (Fails findMatchingBrace instrumenter items name ∧
        ∃ reason, turn = Except.error reason) ∨
      ¬ Fails findMatchingBrace instrumenter items name ∧
        (∀ d, Item.definition d ∈ items →
          d.header.IsFunc name →
            ∃ own, instrumenter.outcome d = Except.ok own) ∧
        ∃ fallbackName,
          turn =
            Except.ok
              (textOf
                (items.map
                  (Item.instrumented instrumenter
                    (listed ++ [name]))), fallbackName) := by
  intro ptx turn
  rcases hSteady with ⟨front, d, back, hOnly, hHere⟩
  have hNone : Others items names name [] := by
    intro own hMem
    cases hMem
  have hNew : name ∉ listed :=
    fun hMem => (hOthers name hMem).2.1 rfl
  rcases hHere with hNoBody | hOwn
  · left
    constructor
    · have hStart := hNoBody instrumenter [] hNone
      rw [map_instrumented_nil] at hStart
      exact
        instrumentSelectedDevfunc_of_noBody hFind instrumenter
          hStart
    · exact
        instrumentSelectedDevfunc_of_noBody hFind instrumenter
          (hNoBody instrumenter listed hOthers)
  · have hStart :=
      instrumentSelectedDevfunc_of_own hFind.closed instrumenter
        (hOwn instrumenter [] hNone)
    have hTurn :=
      instrumentSelectedDevfunc_of_own hFind.closed instrumenter
        (hOwn instrumenter listed hOthers)
    rw [map_instrumented_nil, map_instrumented_nil,
      ← hOnly.items] at hStart
    rw [← hOnly.map_instrumented hNew] at hTurn
    cases hOutcome : instrumenter.outcome d with
    | error reason =>
        rw [hOutcome] at hStart hTurn
        exact Or.inl ⟨⟨reason, hStart⟩, reason, hTurn⟩
    | ok own =>
        rw [hOutcome] at hStart hTurn
        right
        refine ⟨?_, ?_, own.2, ?_⟩
        · rintro ⟨reason, hError⟩
          rw [hStart] at hError
          cases hError
        · intro e hMem hName
          rw [hOnly.eq_of_mem hMem hName]
          exact ⟨own, hOutcome⟩
        · rw [hOnly.map_instrumented_append listed hOutcome]
          exact hTurn

end

------------------------------------------------------------
-- The Loop
------------------------------------------------------------

/- What the loop has reached behind some of the names. -/
structure CandidateRun.Reached
    (run : CandidateRun)
    (findMatchingBrace : Text → Nat → Except Text Nat)
    (instrumenter : BodyInstrumenter)
    (items : List Item)
    (names : List Text) : Prop where
  substituted :
    run.Substituted findMatchingBrace instrumenter items names
  seen : ∀ name, name ∈ run.seen ↔ name ∈ names

section

variable {findMatchingBrace : Text → Nat → Except Text Nat}
variable {instrumenter : BodyInstrumenter}
variable {items : List Item}
variable {target name : Text}
variable {names all : List Text}
variable {run : CandidateRun}

/- Nothing is reached before the first name. -/
theorem reached_start
    (findMatchingBrace : Text → Nat → Except Text Nat)
    (instrumenter : BodyInstrumenter)
    (items : List Item) :
    (CandidateRun.start (textOf items)).Reached findMatchingBrace
      instrumenter items [] := by
  refine ⟨⟨?_, ?_, ?_, ?_, ?_, ?_⟩, fun name => Iff.rfl⟩
  · rw [CandidateRun.start, map_instrumented_nil]
  · intro name hMem
    cases hMem
  · exact List.nodup_nil
  · intro name
    simp [CandidateRun.start]
  · exact List.nodup_nil
  · intro name
    simp [CandidateRun.start]

/- A name that had its turn. -/
theorem CandidateRun.Reached.again
    (hReached :
      run.Reached findMatchingBrace instrumenter items names)
    (hMem : name ∈ names) :
    run.Reached findMatchingBrace instrumenter items
      (names ++ [name]) := by
  have hSame :
      ∀ own, own ∈ names ↔ own ∈ names ++ [name] := by
    intro own
    rw [List.mem_append, List.mem_singleton]
    constructor
    · exact Or.inl
    · rintro (hOld | hNew)
      · exact hOld
      · rw [hNew]
        exact hMem
  rcases hReached with ⟨hRun, hSeen⟩
  refine
    ⟨⟨hRun.ptx, hRun.replaced, hRun.listedOnce, ?_,
      hRun.skippedOnce, ?_⟩, ?_⟩
  · intro own
    rw [hRun.listed, hSame]
  · intro own
    rw [hRun.skipped, hSame]
  · intro own
    rw [hSeen, hSame]

/- A name that has its turn is seen. -/
theorem CandidateRun.Reached.seen_append
    (hReached :
      run.Reached findMatchingBrace instrumenter items names)
    (own : Text) :
    own ∈ run.seen ++ [name] ↔ own ∈ names ++ [name] := by
  rw [List.mem_append, List.mem_append, hReached.seen]

/- Which names meet a condition behind one more. -/
theorem mem_append_and_iff
    {P : Text → Prop}
    (own : Text) :
    own ∈ names ++ [name] ∧ P own ↔
      (own ∈ names ∧ P own) ∨ (own = name ∧ P name) := by
  rw [List.mem_append, List.mem_singleton, or_and_right]
  constructor
  · rintro (hOld | ⟨hSame, hP⟩)
    · exact Or.inl hOld
    · rw [hSame] at hP
      exact Or.inr ⟨hSame, hP⟩
  · rintro (hOld | ⟨hSame, hP⟩)
    · exact Or.inl hOld
    · rw [hSame]
      exact Or.inr ⟨rfl, hP⟩

/- What is reached behind a turn that fails. -/
theorem CandidateRun.Reached.skip
    (hReached :
      run.Reached findMatchingBrace instrumenter items names)
    (hNew : name ∉ names)
    (hFails : Fails findMatchingBrace instrumenter items name)
    (reason : Text) :
    Reached
      { run with
        seen := run.seen ++ [name]
        skipped := run.skipped ++ [(name, reason)] }
      findMatchingBrace instrumenter items (names ++ [name]) := by
  have hRun := hReached.substituted
  refine
    ⟨⟨hRun.ptx, hRun.replaced, hRun.listedOnce, ?_, ?_, ?_⟩,
      hReached.seen_append⟩
  · intro own
    rw [mem_append_and_iff
        (P := fun own =>
          ¬ Fails findMatchingBrace instrumenter items own),
      ← hRun.listed]
    simp [hFails]
  · rw [List.map_append, List.map_singleton,
      ← List.concat_eq_append]
    apply hRun.skippedOnce.concat
    intro hIn
    exact hNew ((hRun.skipped name).mp hIn).1
  · intro own
    rw [mem_append_and_iff
        (P := Fails findMatchingBrace instrumenter items),
      ← hRun.skipped, List.map_append,
      List.mem_append, List.map_singleton, List.mem_singleton,
      and_iff_left hFails]

/- What is reached behind a turn that succeeds. -/
theorem CandidateRun.Reached.list
    (hReached :
      run.Reached findMatchingBrace instrumenter items names)
    (hNew : name ∉ names)
    (hPasses : ¬ Fails findMatchingBrace instrumenter items name)
    (hOwn :
      ∀ d, Item.definition d ∈ items → d.header.IsFunc name →
        ∃ own, instrumenter.outcome d = Except.ok own)
    (fallbackName : Option Text) :
    Reached
      { run with
        seen := run.seen ++ [name]
        ptx :=
          textOf
            (items.map
              (Item.instrumented instrumenter
                (run.instrumented ++ [name])))
        instrumented := run.instrumented ++ [name]
        fallbackName := fallbackName }
      findMatchingBrace instrumenter items (names ++ [name]) := by
  have hRun := hReached.substituted
  refine
    ⟨⟨rfl, ?_, ?_, ?_, hRun.skippedOnce, ?_⟩,
      hReached.seen_append⟩
  · intro own hMem
    rcases List.mem_append.mp hMem with hOld | hLast
    · exact hRun.replaced own hOld
    · rw [List.mem_singleton.mp hLast]
      exact hOwn
  · rw [← List.concat_eq_append]
    apply hRun.listedOnce.concat
    intro hIn
    exact hNew ((hRun.listed name).mp hIn).1
  · intro own
    rw [mem_append_and_iff
        (P := fun own =>
          ¬ Fails findMatchingBrace instrumenter items own),
      ← hRun.listed, List.mem_append, List.mem_singleton,
      and_iff_left hPasses]
  · intro own
    rw [mem_append_and_iff
        (P := Fails findMatchingBrace instrumenter items),
      ← hRun.skipped]
    simp [hPasses]

/- What is listed are other candidates that are found. -/
theorem CandidateRun.Reached.others
    (hFind : FindsBraces findMatchingBrace)
    (hReached :
      run.Reached findMatchingBrace instrumenter items names)
    (hAll : ∀ own ∈ names, own ∈ all)
    (hNew : name ∉ names) :
    Others items all name run.instrumented := by
  intro own hMem
  have hHere := (hReached.substituted.listed own).mp hMem
  refine
    ⟨hAll own hHere.1, ?_,
      not_noBody_of_not_fails hFind hHere.2⟩
  intro hSame
  rw [← hSame] at hNew
  exact hNew hHere.1

/- A turn of the loop that goes on. -/
theorem enterCandidate_goesOn
    (hFind : FindsBraces findMatchingBrace)
    (hReached :
      run.Reached findMatchingBrace instrumenter items names)
    (hAll : ∀ own ∈ names, own ∈ all)
    (hSteady : SteadyAt items all name)
    (hTarget :
      name = target →
        ¬ Fails findMatchingBrace instrumenter items target) :
    ∃ next,
      enterCandidate findMatchingBrace instrumenter.run target
          run name =
        Except.ok next ∧
      next.Reached findMatchingBrace instrumenter items
        (names ++ [name]) := by
  have hRun := hReached.substituted
  by_cases hMem : name ∈ names
  · have hSeen : List.contains run.seen name = true := by
      rw [List.contains_iff_mem, hReached.seen]
      exact hMem
    refine ⟨run, ?_, hReached.again hMem⟩
    rw [enterCandidate, hSeen]
    rfl
  · have hSeen : List.contains run.seen name = false := by
      rw [Bool.eq_false_iff, Ne, List.contains_iff_mem,
        hReached.seen]
      exact hMem
    rcases turn_cases hFind instrumenter hSteady
        (hReached.others hFind hAll hMem) with
      ⟨hFails, reason, hTurn⟩ |
      ⟨hPasses, hOwn, fallbackName, hTurn⟩
    · have hNe : name ≠ target := by
        intro hSame
        apply hTarget hSame
        rw [← hSame]
        exact hFails
      refine ⟨_, ?_, hReached.skip hMem hFails reason⟩
      rw [enterCandidate, hSeen, hRun.ptx, hTurn]
      simp [hNe]
    · refine
        ⟨_, ?_, hReached.list hMem hPasses hOwn
          (run.fallbackName.or fallbackName)⟩
      rw [enterCandidate, hSeen, hRun.ptx, hTurn]
      rfl

/- The turn of a target that fails. -/
theorem enterCandidate_raises
    (hFind : FindsBraces findMatchingBrace)
    (hReached :
      run.Reached findMatchingBrace instrumenter items names)
    (hAll : ∀ own ∈ names, own ∈ all)
    (hSteady : SteadyAt items all target)
    (hMem : target ∉ names)
    (hFails : Fails findMatchingBrace instrumenter items target) :
    ∃ reason,
      enterCandidate findMatchingBrace instrumenter.run target
          run target =
        Except.error reason := by
  have hRun := hReached.substituted
  have hSeen : List.contains run.seen target = false := by
    rw [Bool.eq_false_iff, Ne, List.contains_iff_mem,
      hReached.seen]
    exact hMem
  rcases turn_cases hFind instrumenter hSteady
      (hReached.others hFind hAll hMem) with
    ⟨-, reason, hTurn⟩ | ⟨hPasses, -⟩
  · refine ⟨reason, ?_⟩
    rw [enterCandidate, hSeen, hRun.ptx, hTurn]
    simp
  · exact absurd hFails hPasses

/- The loop when the target does not fail. -/
theorem foldlM_enterCandidate
    (hFind : FindsBraces findMatchingBrace)
    {rest : List Text}
    (hReached :
      run.Reached findMatchingBrace instrumenter items names)
    (hAll : ∀ own ∈ names ++ rest, own ∈ all)
    (hSteady : ∀ own ∈ all, SteadyAt items all own)
    (hTarget :
      ¬ Fails findMatchingBrace instrumenter items target) :
    ∃ final,
      rest.foldlM
          (enterCandidate findMatchingBrace instrumenter.run
            target) run =
        Except.ok final ∧
      final.Reached findMatchingBrace instrumenter items
        (names ++ rest) := by
  induction rest generalizing run names with
  | nil =>
      refine ⟨run, rfl, ?_⟩
      rw [List.append_nil]
      exact hReached
  | cons name rest ih =>
      have hName := hSteady name (hAll name (by simp))
      have hOld : ∀ own ∈ names, own ∈ all :=
        fun own hMem => hAll own (List.mem_append_left _ hMem)
      rcases enterCandidate_goesOn hFind hReached hOld hName
          (fun _ => hTarget) with ⟨next, hNext, hReachedNext⟩
      rw [List.append_cons names name rest] at hAll ⊢
      rcases ih hReachedNext hAll with ⟨final, hFinal, hEnd⟩
      refine ⟨final, ?_, hEnd⟩
      rw [List.foldlM_cons, hNext, Raising.ok_bind, hFinal]

/- The loop when the target fails. -/
theorem foldlM_enterCandidate_raises
    (hFind : FindsBraces findMatchingBrace)
    {rest : List Text}
    (hReached :
      run.Reached findMatchingBrace instrumenter items names)
    (hAll : ∀ own ∈ names ++ rest, own ∈ all)
    (hSteady : ∀ own ∈ all, SteadyAt items all own)
    (hMem : target ∈ rest)
    (hNew : target ∉ names)
    (hFails : Fails findMatchingBrace instrumenter items target) :
    ∃ reason,
      rest.foldlM
          (enterCandidate findMatchingBrace instrumenter.run
            target) run =
        Except.error reason := by
  induction rest generalizing run names with
  | nil => cases hMem
  | cons name rest ih =>
      have hName := hSteady name (hAll name (by simp))
      have hOld : ∀ own ∈ names, own ∈ all :=
        fun own hIn => hAll own (List.mem_append_left _ hIn)
      by_cases hSame : name = target
      · subst hSame
        rcases enterCandidate_raises hFind hReached hOld hName
            hNew hFails with ⟨reason, hError⟩
        exact
          ⟨reason, by
            rw [List.foldlM_cons, hError, Raising.error_bind]⟩
      · rcases enterCandidate_goesOn hFind hReached hOld hName
            (fun hTarget => absurd hTarget hSame) with
          ⟨next, hNext, hReachedNext⟩
        have hLater : target ∈ rest := by
          rcases List.mem_cons.mp hMem with hHead | hTail
          · exact absurd hHead.symm hSame
          · exact hTail
        have hNewNext : target ∉ names ++ [name] := by
          rw [List.mem_append, List.mem_singleton]
          rintro (hIn | hLast)
          · exact hNew hIn
          · exact hSame hLast.symm
        rw [List.append_cons names name rest] at hAll
        rcases ih hReachedNext hAll hLater hNewNext with
          ⟨reason, hError⟩
        exact
          ⟨reason, by
            rw [List.foldlM_cons, hNext, Raising.ok_bind, hError]⟩

end

------------------------------------------------------------
-- Simultaneous Substitution
------------------------------------------------------------

/- The names of the loop in memory mode. -/
theorem mem_candidateNames_iff
    {target name : Text}
    {localMapping : List (Int × Text)} :
    name ∈ candidateNames true target localMapping ↔
      name ∈ localMapping.map Prod.snd ∨ name = target := by
  have hSorted :
      ∀ own, own ∈
          (localMapping.mergeSort (fun a b => a.1 ≤ b.1)).map
            Prod.snd ↔
        own ∈ localMapping.map Prod.snd :=
    fun own =>
      ((List.mergeSort_perm localMapping _).map
        Prod.snd).mem_iff
  unfold candidateNames
  rw [if_pos rfl]
  dsimp only
  by_cases hTarget : target ∈ localMapping.map Prod.snd
  · rw [if_pos (by
      rw [List.contains_iff_mem, hSorted]
      exact hTarget), hSorted]
    constructor
    · exact Or.inl
    · rintro (hName | hSame)
      · exact hName
      · rw [hSame]
        exact hTarget
  · rw [if_neg (by
      rw [List.contains_iff_mem, hSorted]
      exact hTarget), List.mem_append, hSorted,
      List.mem_singleton]

section

variable {findMatchingBrace : Text → Nat → Except Text Nat}
variable {instrumenter : BodyInstrumenter}
variable {items : List Item}
variable {target : Text}
variable {localMapping : List (Int × Text)}
variable {all : List Text}

/- The loop of a target that fails. -/
theorem instrumentDevfuncCandidates_raises
    (hFind : FindsBraces findMatchingBrace)
    (hAll :
      ∀ name ∈ candidateNames true target localMapping,
        name ∈ all)
    (hSteady : ∀ name ∈ all, SteadyAt items all name)
    (hFails : Fails findMatchingBrace instrumenter items target) :
    ∃ reason,
      instrumentDevfuncCandidates findMatchingBrace
          instrumenter.run true (textOf items) target
          localMapping =
        Except.error reason :=
  foldlM_enterCandidate_raises hFind
    (reached_start findMatchingBrace instrumenter items) hAll
    hSteady (mem_candidateNames_iff.mpr (Or.inr rfl))
    List.not_mem_nil hFails

/- The loop of a target that does not fail. -/
theorem instrumentDevfuncCandidates_returns
    (hFind : FindsBraces findMatchingBrace)
    (hAll :
      ∀ name ∈ candidateNames true target localMapping,
        name ∈ all)
    (hSteady : ∀ name ∈ all, SteadyAt items all name)
    (hPasses :
      ¬ Fails findMatchingBrace instrumenter items target) :
    ∃ run,
      instrumentDevfuncCandidates findMatchingBrace
          instrumenter.run true (textOf items) target
          localMapping =
        Except.ok run ∧
      run.Substituted findMatchingBrace instrumenter items
        (candidateNames true target localMapping) := by
  rcases foldlM_enterCandidate hFind
      (reached_start findMatchingBrace instrumenter items) hAll
      hSteady hPasses with ⟨run, hRun, hReached⟩
  exact ⟨run, hRun, hReached.substituted⟩

/- Listed names are the same where the candidates are. -/
theorem CandidateRun.Substituted.ptx_eq
    {run run' : CandidateRun}
    {names names' : List Text}
    (hRun :
      run.Substituted findMatchingBrace instrumenter items names)
    (hOther :
      run'.Substituted findMatchingBrace instrumenter items
        names')
    (hSame : ∀ name, name ∈ names ↔ name ∈ names') :
    run.ptx = run'.ptx := by
  have hListed :
      ∀ name, name ∈ run.instrumented ↔
        name ∈ run'.instrumented := by
    intro name
    rw [hRun.listed, hOther.listed, hSame]
  rw [hRun.ptx, hOther.ptx, Item.instrumented_congr hListed]

/- Candidates that are steady are substituted. -/
theorem substitutes_of_steady
    (hFind : FindsBraces findMatchingBrace)
    (instrumenter : BodyInstrumenter)
    (hSteady : ∀ name ∈ all, SteadyAt items all name)
    (hAll :
      ∀ name ∈ candidateNames true target localMapping,
        name ∈ all) :
    SubstitutesCandidates findMatchingBrace instrumenter items
      target localMapping := by
  constructor
  · exact
      instrumentDevfuncCandidates_raises hFind hAll hSteady
  · exact
      instrumentDevfuncCandidates_returns hFind hAll hSteady
  · intro other hPerm
    have hSame :
        ∀ name, name ∈ candidateNames true target other ↔
          name ∈ candidateNames true target localMapping := by
      intro name
      rw [mem_candidateNames_iff, mem_candidateNames_iff,
        hPerm.mem_iff]
    have hAllOther :
        ∀ name ∈ candidateNames true target other, name ∈ all :=
      fun name hMem => hAll name ((hSame name).mp hMem)
    by_cases hFails :
        Fails findMatchingBrace instrumenter items target
    · rcases instrumentDevfuncCandidates_raises hFind hAllOther
          hSteady hFails with ⟨reason, hError⟩
      rcases instrumentDevfuncCandidates_raises hFind hAll
          hSteady hFails with ⟨reason', hError'⟩
      rw [hError, hError']
      rfl
    · rcases instrumentDevfuncCandidates_returns hFind hAllOther
          hSteady hFails with ⟨run, hRun, hSubstituted⟩
      rcases instrumentDevfuncCandidates_returns hFind hAll
          hSteady hFails with ⟨run', hRun', hSubstituted'⟩
      rw [hRun, hRun']
      exact
        congrArg some (hSubstituted.ptx_eq hSubstituted' hSame)

end

end Nccl

end FabricPerf
