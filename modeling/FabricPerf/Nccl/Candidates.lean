import FabricPerf.Nccl.HeaderFrame

/-
  `instrument_selected_devfunc` and
  `instrument_devfunc_candidates` of `nccl/prober.py`: the
  bodies of the candidates are replaced one by one, each in
  the text the earlier ones left.

  What instruments one body is a parameter.

  Main declarations:
    * `Nccl.instrumentSelectedDevfunc`
    * `Nccl.instrumentDevfuncCandidates`
    * `Nccl.BodyInstrumenter`
    * `Nccl.OnlyHeader`, `Nccl.FirstBlock`
    * `Nccl.Steady`
    * `Nccl.SubstitutesCandidates`
-/

------------------------------------------------------------
-- One Function
------------------------------------------------------------

namespace FabricPerf

namespace Nccl

open Text

/- `\s*\.reg\s+\.u64\s+%NR<` -/
def mapRegisters (s : Text) : Option Text := do
  let s ← literal ".reg" (skipSpaces s)
  let s ← spaces s
  let s ← literal ".u64" s
  let s ← spaces s
  literal "%NR<" s

/- Whether a body was instrumented before. -/
def hasMapRegisters (body : Text) : Bool :=
  (searchLine mapRegisters body).isSome

/- The error of a function with parameters. -/
def parametersError (name : Text) : Text :=
  name ++
    (" has parameters; FabricPerf wrapper only " ++
      "supports no-arg devFuncs").toList

/- `instrument_selected_devfunc` -/
def instrumentSelectedDevfunc
    (findMatchingBrace : Text → Nat → Except Text Nat)
    (instrumentBody : Text → Except Text (Text × Option Text))
    (ptx functionName : Text) :
    Except Text (Text × Option Text) := do
  let span ← functionSpan findMatchingBrace ptx functionName
  if contains ".param" span.header then
    throw (parametersError functionName)
  else
    let functionBody :=
      (ptx.take (span.closeBrace - 1)).drop (span.openBrace + 1)
    if hasMapRegisters functionBody then
      pure (ptx, none)
    else do
      let (instrumentedBody, fallbackName) ←
        instrumentBody functionBody
      let rewrittenFunction :=
        (ptx.take (span.openBrace + 1)).drop span.lineStart ++
          '\n' :: instrumentedBody ++ ['\n', '\x7d']
      let rewrittenFunction :=
        if span.closeBrace < span.lineEnd then
          rewrittenFunction ++ ['\n']
        else
          rewrittenFunction
      pure
        (ptx.take span.lineStart ++ rewrittenFunction ++
          ptx.drop span.lineEnd, fallbackName)

------------------------------------------------------------
-- The Candidates
------------------------------------------------------------

/- The names the loop goes through. -/
def candidateNames
    (memory : Bool)
    (target : Text)
    (localMapping : List (Int × Text)) : List Text :=
  if memory then
    let names :=
      (localMapping.mergeSort (fun a b => a.1 ≤ b.1)).map
        Prod.snd
    if List.contains names target then
      names
    else
      names ++ [target]
  else
    [target]

/- What the loop carries from name to name. -/
structure CandidateRun where
  ptx : Text
  fallbackName : Option Text
  instrumented : List Text
  skipped : List (Text × Text)
  seen : List Text

/- Where the loop starts. -/
def CandidateRun.start (ptx : Text) : CandidateRun where
  ptx := ptx
  fallbackName := none
  instrumented := []
  skipped := []
  seen := []

/- One turn of the loop. -/
def enterCandidate
    (findMatchingBrace : Text → Nat → Except Text Nat)
    (instrumentBody : Text → Except Text (Text × Option Text))
    (target : Text)
    (run : CandidateRun)
    (functionName : Text) : Except Text CandidateRun :=
  if List.contains run.seen functionName then
    pure run
  else
    let seen := run.seen ++ [functionName]
    match
      instrumentSelectedDevfunc findMatchingBrace
        instrumentBody run.ptx functionName with
    | Except.error reason =>
        if functionName = target then
          throw reason
        else
          pure
            { run with
              seen := seen
              skipped :=
                run.skipped ++ [(functionName, reason)] }
    | Except.ok (ptx, candidateFallback) =>
        pure
          { run with
            seen := seen
            ptx := ptx
            instrumented := run.instrumented ++ [functionName]
            fallbackName :=
              run.fallbackName.or candidateFallback }

/- `instrument_devfunc_candidates` -/
def instrumentDevfuncCandidates
    (findMatchingBrace : Text → Nat → Except Text Nat)
    (instrumentBody : Text → Except Text (Text × Option Text))
    (memory : Bool)
    (ptx target : Text)
    (localMapping : List (Int × Text)) :
    Except Text CandidateRun :=
  (candidateNames memory target localMapping).foldlM
    (enterCandidate findMatchingBrace instrumentBody target)
    (CandidateRun.start ptx)

------------------------------------------------------------
-- Instrumented Modules
------------------------------------------------------------

/-
  What instruments a body: it raises, or returns a balanced
  body in which no line starts a function header.
-/
structure BodyInstrumenter where
  run : Text → Except Text (Text × Option Text)
  hBalanced :
    ∀ body out fallback,
      run body = Except.ok (out, fallback) → BraceBalanced out
  hPlain :
    ∀ body out fallback,
      run body = Except.ok (out, fallback) → NoFuncLine out

/- The body as it is written between the braces. -/
def newBody (out : Text) : Text :=
  '\n' :: (out ++ ['\n'])

/- It is balanced. -/
theorem braceBalanced_newBody
    {out : Text}
    (hOut : BraceBalanced out) :
    BraceBalanced (newBody out) := by
  apply BraceBalanced.char (by decide) (by decide)
  apply hOut.append
  exact BraceBalanced.char (by decide) (by decide)
    BraceBalanced.nil

/- A function with a new body. -/
def Definition.withBody
    (d : Definition)
    (out : Text)
    (hOut : BraceBalanced out) : Definition where
  header := d.header
  body := newBody out
  hBody := braceBalanced_newBody hOut

/-
  What becomes of the function of a definition: itself when
  it was instrumented before, and its new body otherwise.
-/
def BodyInstrumenter.outcome
    (instrumenter : BodyInstrumenter)
    (d : Definition) : Except Text (Definition × Option Text) :=
  if hasMapRegisters d.body then
    Except.ok (d, none)
  else
    match hRun : instrumenter.run d.body with
    | Except.error reason => Except.error reason
    | Except.ok (out, fallbackName) =>
        Except.ok
          (d.withBody out
            (instrumenter.hBalanced d.body out fallbackName hRun),
            fallbackName)

section

variable {instrumenter : BodyInstrumenter}
variable {d : Definition}

/- An instrumented function stays as it is. -/
theorem BodyInstrumenter.outcome_guard
    (hGuard : hasMapRegisters d.body = true) :
    instrumenter.outcome d = Except.ok (d, none) := by
  rw [outcome, if_pos hGuard]

/- A body that cannot be instrumented. -/
theorem BodyInstrumenter.outcome_error
    (hGuard : ¬ hasMapRegisters d.body = true)
    {reason : Text}
    (hError : instrumenter.run d.body = Except.error reason) :
    instrumenter.outcome d = Except.error reason := by
  rw [outcome, if_neg hGuard]
  split
  case h_1 own hRun =>
    rw [hError] at hRun
    cases hRun
    rfl
  case h_2 out fallbackName hRun =>
    rw [hError] at hRun
    cases hRun

/- A body that is instrumented. -/
theorem BodyInstrumenter.outcome_ok
    (hGuard : ¬ hasMapRegisters d.body = true)
    {out : Text}
    {fallbackName : Option Text}
    (hOk :
      instrumenter.run d.body = Except.ok (out, fallbackName)) :
    instrumenter.outcome d =
      Except.ok
        (d.withBody out
          (instrumenter.hBalanced d.body out fallbackName hOk),
          fallbackName) := by
  rw [outcome, if_neg hGuard]
  split
  case h_1 own hRun =>
    rw [hOk] at hRun
    cases hRun
  case h_2 out' fallbackName' hRun =>
    rw [hOk] at hRun
    cases hRun
    rfl

end

/- An item once the functions of some names have their turn. -/
def Item.instrumented
    (instrumenter : BodyInstrumenter)
    (names : List Text) : Item → Item
| definition d =>
    if d.header.directive = Directive.func ∧
        List.contains names d.header.name = true then
      match instrumenter.outcome d with
      | Except.error _ => definition d
      | Except.ok (own, _) => definition own
    else
      definition d
| item => item

/-
  The one header of a name, which is a definition, with the
  items in front of it and behind it.
-/
structure OnlyHeader
    (items : List Item)
    (name : Text)
    (front : List Item)
    (d : Definition)
    (back : List Item) : Prop where
  items : items = front ++ Item.definition d :: back
  own : d.header.IsFunc name
  front :
    ∀ item ∈ front, ∀ h, item.header? = some h →
      ¬ h.IsFunc name
  back :
    ∀ item ∈ back, ∀ h, item.header? = some h →
      ¬ h.IsFunc name

------------------------------------------------------------
-- Steady Candidates
------------------------------------------------------------

/-
  The first line accepted for a name, and the braced block
  that follows it: the text is cut in front of the line, at
  the two braces and behind the block.
-/
structure FirstBlock
    (name ptx before header body rest : Text) : Prop where
  line :
    ∃ gap,
      FirstLine (funcHeader name) ptx before
          (header ++ '\x7b' :: (body ++ '\x7d' :: rest))
          (gap ++ '\x7b' :: (body ++ '\x7d' :: rest)) ∧
        '\x7b' ∉ gap
  balanced : BraceBalanced body

/- No block without parameters is found for the name. -/
def NoBody (name ptx : Text) : Prop :=
  ∀ before header body rest,
    FirstBlock name ptx before header body rest →
      contains ".param" header = true

/-
  The block found for the name is the body of its definition.
  Where both were instrumented before, it may be another one:
  neither is replaced.
-/
def OwnBody
    (name : Text)
    (front : List Item)
    (d : Definition)
    (back : List Item) : Prop :=
  ∃ before header body rest,
    FirstBlock name (textOf (front ++ Item.definition d :: back))
        before header body rest ∧
      contains ".param" header = false ∧
      (body = d.body ∧ rest = textOf back ∨
        hasMapRegisters body = true ∧
          hasMapRegisters d.body = true)

/- Other candidates, all found in the module as it is. -/
def Others
    (items : List Item)
    (names : List Text)
    (name : Text)
    (done : List Text) : Prop :=
  ∀ own ∈ done,
    own ∈ names ∧ own ≠ name ∧ ¬ NoBody own (textOf items)

/-
  Whichever other candidates have got new bodies, and
  whatever these are, the name is found nowhere, or it is
  always found at its own body.
-/
def Steady
    (items : List Item)
    (names : List Text)
    (name : Text)
    (front : List Item)
    (d : Definition)
    (back : List Item) : Prop :=
  (∀ instrumenter done, Others items names name done →
    NoBody name
      (textOf (items.map (Item.instrumented instrumenter done)))) ∨
    ∀ instrumenter done, Others items names name done →
      OwnBody name
        (front.map (Item.instrumented instrumenter done)) d
        (back.map (Item.instrumented instrumenter done))

------------------------------------------------------------
-- The Property
------------------------------------------------------------

/- A candidate whose instrumentation raises. -/
def Fails
    (findMatchingBrace : Text → Nat → Except Text Nat)
    (instrumenter : BodyInstrumenter)
    (items : List Item)
    (name : Text) : Prop :=
  ∃ reason,
    instrumentSelectedDevfunc findMatchingBrace instrumenter.run
        (textOf items) name =
      Except.error reason

/-
  What the loop returns for the functions of a module: the
  module with the bodies of the listed functions replaced.
  The candidates that fail are skipped, all others listed.
-/
structure CandidateRun.Substituted
    (run : CandidateRun)
    (findMatchingBrace : Text → Nat → Except Text Nat)
    (instrumenter : BodyInstrumenter)
    (items : List Item)
    (names : List Text) : Prop where
  ptx :
    run.ptx =
      textOf
        (items.map
          (Item.instrumented instrumenter run.instrumented))
  replaced :
    ∀ name ∈ run.instrumented, ∀ d, Item.definition d ∈ items →
      d.header.IsFunc name →
        ∃ own, instrumenter.outcome d = Except.ok own
  listedOnce : run.instrumented.Nodup
  listed :
    ∀ name, name ∈ run.instrumented ↔
      name ∈ names ∧
        ¬ Fails findMatchingBrace instrumenter items name
  skippedOnce : (run.skipped.map Prod.fst).Nodup
  skipped :
    ∀ name, name ∈ run.skipped.map Prod.fst ↔
      name ∈ names ∧
        Fails findMatchingBrace instrumenter items name

/-
  Candidate instrumentation in memory mode as a simultaneous
  substitution: a failing target raises, otherwise the module
  with the bodies of the listed functions replaced is
  returned, and its text does not depend on the numbers of
  the table.
-/
structure SubstitutesCandidates
    (findMatchingBrace : Text → Nat → Except Text Nat)
    (instrumenter : BodyInstrumenter)
    (items : List Item)
    (target : Text)
    (localMapping : List (Int × Text)) : Prop where
  raises :
    Fails findMatchingBrace instrumenter items target →
      ∃ reason,
        instrumentDevfuncCandidates findMatchingBrace
            instrumenter.run true (textOf items) target
            localMapping =
          Except.error reason
  returns :
    ¬ Fails findMatchingBrace instrumenter items target →
      ∃ run,
        instrumentDevfuncCandidates findMatchingBrace
            instrumenter.run true (textOf items) target
            localMapping =
          Except.ok run ∧
        run.Substituted findMatchingBrace instrumenter items
          (candidateNames true target localMapping)
  renumbered :
    ∀ other : List (Int × Text),
      (other.map Prod.snd).Perm (localMapping.map Prod.snd) →
        (instrumentDevfuncCandidates findMatchingBrace
            instrumenter.run true (textOf items) target
            other).toOption.map CandidateRun.ptx =
          (instrumentDevfuncCandidates findMatchingBrace
            instrumenter.run true (textOf items) target
            localMapping).toOption.map CandidateRun.ptx

end Nccl

end FabricPerf
