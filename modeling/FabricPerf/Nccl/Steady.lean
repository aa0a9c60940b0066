import FabricPerf.Nccl.Marking

/-
  Candidate instrumentation is a simultaneous substitution
  for every instrumenter and every table of some names where
  all the names are steady. Where their bodies differ, it is
  one nowhere else.

  Main declarations:
    * `Nccl.AllSteady`
    * `Nccl.candidates_substituted`
-/

namespace FabricPerf

namespace Nccl

open Text

/- All of some names are steady at their headers. -/
def AllSteady (items : List Item) (names : List Text) : Prop :=
  ∀ name ∈ names, ∀ front d back,
    OnlyHeader items name front d back →
      Steady items names name front d back

/-
  Candidates with one header each, a definition: every
  instrumenter substitutes where all of them are steady.
  Where their bodies differ that is the only case.
-/
theorem candidates_substituted
    (findMatchingBrace : Text → Nat → Except Text Nat)
    (hFind : FindsBraces findMatchingBrace)
    (items : List Item)
    (names : List Text)
    (hOnly :
      ∀ name ∈ names, ∃ front d back,
        OnlyHeader items name front d back) :
    (AllSteady items names →
        SubstitutesAll findMatchingBrace items names) ∧
      (DistinctBodies items names →
        SubstitutesAll findMatchingBrace items names →
          AllSteady items names) := by
  constructor
  · intro hSteady instrumenter target localMapping hTarget _ hNames
    have hAt : ∀ name ∈ names, SteadyAt items names name := by
      intro name hMem
      rcases hOnly name hMem with ⟨front, d, back, hHere⟩
      exact
        ⟨front, d, back, hHere,
          hSteady name hMem front d back hHere⟩
    apply substitutes_of_steady hFind instrumenter hAt
    intro name hMem
    rcases mem_candidateNames_iff.mp hMem with hTable | hSame
    · exact hNames name hTable
    · rw [hSame]
      exact hTarget
  · intro hDistinct hAll name hMem front d back hHere
    exact
      steady_of_substitutes hFind hAll hDistinct hOnly hMem hHere

------------------------------------------------------------
-- Three Candidates
------------------------------------------------------------

/- Every body becomes one instruction. -/
def addingInstrumenter : BodyInstrumenter where
  run := fun _ => Except.ok ("add;".toList, none)
  hBalanced := by
    intro body out fallback hRun
    rw [Except.ok.injEq, Prod.mk.injEq] at hRun
    rw [← hRun.1]
    exact BraceBalanced.of_all (by decide)
  hPlain := by
    intro body out fallback hRun
    rw [Except.ok.injEq, Prod.mk.injEq] at hRun
    rw [← hRun.1]
    rfl

/- `.weak .func AllGather()`, which is not a header line. -/
def allGatherHeader : Header :=
  { plainHeader "AllGather".toList
      (List.all_eq_true.mp (by decide)) (by decide) with
    linkage := ".weak ".toList
    hLinkage := by
      intro c hMem
      rw [← Option.mem_some.mp hMem]
      decide }

/- Three functions, each with its brace on the next line. -/
def trioModule : List Item :=
  [Item.definition (returning broadcastHeader),
    Item.other ['\n'],
    Item.definition (returning sendRecvHeader),
    Item.other ['\n'],
    Item.definition (returning allGatherHeader),
    Item.other ['\n']]

/- The names of the functions. -/
def trioNames : List Text :=
  ["Broadcast".toList, "SendRecv".toList, "AllGather".toList]

/- `Broadcast` has two numbers. -/
def trioMapping : List (Int × Text) :=
  [(7, "Broadcast".toList), (3, "SendRecv".toList),
    (1, "Broadcast".toList), (4, "AllGather".toList)]

/- The place of a function whose name no other item has. -/
theorem onlyHeader_of_names
    {items front back : List Item}
    {name : Text}
    {d : Definition}
    (hItems : items = front ++ Item.definition d :: back)
    (hOwn : d.header.IsFunc name)
    (hNames :
      ∀ item ∈ front ++ back,
        item.header?.map Header.name ≠ some name) :
    OnlyHeader items name front d back := by
  have hOther :
      ∀ item ∈ front ++ back, ∀ h, item.header? = some h →
        ¬ h.IsFunc name := by
    intro item hMem h hHeader hFunc
    apply hNames item hMem
    rw [hHeader, Option.map_some, hFunc.2]
  constructor
  · exact hItems
  · exact hOwn
  · intro item hMem
    exact hOther item (List.mem_append_left _ hMem)
  · intro item hMem
    exact hOther item (List.mem_append_right _ hMem)

/- The places of the three functions. -/
theorem onlyHeader_broadcast :
    OnlyHeader trioModule "Broadcast".toList []
      (returning broadcastHeader) (trioModule.drop 1) :=
  onlyHeader_of_names rfl ⟨rfl, rfl⟩ (by decide +kernel)

theorem onlyHeader_sendRecv :
    OnlyHeader trioModule "SendRecv".toList (trioModule.take 2)
      (returning sendRecvHeader) (trioModule.drop 3) :=
  onlyHeader_of_names rfl ⟨rfl, rfl⟩ (by decide +kernel)

theorem onlyHeader_allGather :
    OnlyHeader trioModule "AllGather".toList (trioModule.take 4)
      (returning allGatherHeader) (trioModule.drop 5) :=
  onlyHeader_of_names rfl ⟨rfl, rfl⟩ (by decide +kernel)

/- The first two are found, the third one is not. -/
theorem allSteady_trio : AllSteady trioModule trioNames := by
  intro name hMem front d back hHere
  simp only [trioNames, List.mem_cons, List.not_mem_nil, or_false]
    at hMem
  rcases hMem with hName | hName | hName
  · rw [hName] at hHere ⊢
    rcases hHere.unique onlyHeader_broadcast with
      ⟨hFront, hD, hBack⟩
    rw [hFront, hD, hBack]
    apply OwnFirst.steady onlyHeader_broadcast
    exact
      OwnFirst.of_searchLine 0 ['\n'] (by decide +kernel)
        (by decide +kernel) (by decide +kernel)
        (by decide +kernel)
  · rw [hName] at hHere ⊢
    rcases hHere.unique onlyHeader_sendRecv with
      ⟨hFront, hD, hBack⟩
    rw [hFront, hD, hBack]
    apply OwnFirst.steady onlyHeader_sendRecv
    exact
      OwnFirst.of_searchLine 27 ['\n'] (by decide +kernel)
        (by decide +kernel) (by decide +kernel)
        (by decide +kernel)
  · rw [hName] at hHere ⊢
    exact
      (NoLine.of_searchLine (by decide +kernel)).steady
        hHere.own trioNames

/- Two are instrumented, each once, and one is skipped. -/
theorem candidates_substituted_trio :
    SubstitutesCandidates matchingBrace addingInstrumenter
      trioModule "SendRecv".toList trioMapping := by
  have hOnly :
      ∀ name ∈ trioNames, ∃ front d back,
        OnlyHeader trioModule name front d back := by
    intro name hMem
    simp only [trioNames, List.mem_cons, List.not_mem_nil,
      or_false] at hMem
    rcases hMem with hName | hName | hName
    · rw [hName]
      exact ⟨_, _, _, onlyHeader_broadcast⟩
    · rw [hName]
      exact ⟨_, _, _, onlyHeader_sendRecv⟩
    · rw [hName]
      exact ⟨_, _, _, onlyHeader_allGather⟩
  exact
    (candidates_substituted matchingBrace
      findsBraces_matchingBrace trioModule trioNames hOnly).1
      allSteady_trio addingInstrumenter "SendRecv".toList
      trioMapping (by decide) (by decide) (by decide)

------------------------------------------------------------
-- A Brace On The Line Of The Header
------------------------------------------------------------

/- A header with its brace on the same line. -/
def inlineHeader : Header :=
  { sendRecvHeader with
    params := "() ".toList
    hBehind := by
      intro c hMem
      rw [← Option.mem_some.mp hMem]
      decide }

/- A function in front of another one. -/
def inlineModule : List Item :=
  [Item.definition (returning inlineHeader),
    Item.other ['\n'],
    Item.definition (returning broadcastHeader),
    Item.other ['\n']]

/- The other function gets the new body. -/
theorem not_substitutesCandidates_inline :
    (∃ front d back,
        OnlyHeader inlineModule "SendRecv".toList front d back) ∧
      ¬ SubstitutesCandidates matchingBrace addingInstrumenter
        inlineModule "SendRecv".toList [] := by
  constructor
  · exact
      ⟨[], returning inlineHeader, inlineModule.drop 1,
        onlyHeader_of_names rfl ⟨rfl, rfl⟩ (by decide +kernel)⟩
  · intro hAll
    have hEval :
        ((instrumentDevfuncCandidates matchingBrace
            addingInstrumenter.run true (textOf inlineModule)
            "SendRecv".toList []).map (fun own =>
              (own.ptx, own.instrumented))).toOption =
          some
            (".func SendRecv() \x7b\nret;\n\x7d\n".toList ++
              (".func Broadcast()\n\x7b\nadd;\n" ++
                "\x7d\n").toList,
              ["SendRecv".toList]) := by
      decide +kernel
    by_cases hFails :
        Fails matchingBrace addingInstrumenter inlineModule
          "SendRecv".toList
    · rcases hAll.raises hFails with ⟨reason, hError⟩
      rw [hError] at hEval
      cases hEval
    · rcases hAll.returns hFails with ⟨run, hRun, hSubstituted⟩
      rw [hRun] at hEval
      simp only [Except.map, Except.toOption, Option.some.injEq,
        Prod.mk.injEq] at hEval
      have hText := hSubstituted.ptx
      rw [hEval.1, hEval.2] at hText
      revert hText
      decide +kernel

end Nccl

end FabricPerf
