import FabricPerf.Nccl.Repeatable

/-
  The last two rewrites of a PTX module, run on a module they
  have already rewritten.

  Main declarations:
    * `Nccl.postprocess`, `Nccl.Idempotent`
    * `Nccl.idempotent_iff_settled`
    * `Nccl.idempotent_iff_repeatable`
-/

------------------------------------------------------------
-- Running The Rewrites Twice
------------------------------------------------------------

namespace FabricPerf

namespace Nccl

open Text

/-
  `redirect_direct_dispatch_to_fallback` and
  `hoist_generated_decls`, with the number of redirects.
-/
def postprocess
    (symbols : List Text)
    (functionId : Nat)
    (ptx : Text) : Text × Nat :=
  let (redirected, redirects) :=
    redirectDirectDispatchToFallback ptx (some functionId)
  (hoistGeneratedDecls redirected symbols, redirects)

/-
  A second run redirects nothing, and changes nothing but
  blank lines.
-/
def Idempotent
    (symbols : List Text)
    (functionId : Nat)
    (ptx : Text) : Prop :=
  let once := (postprocess symbols functionId ptx).1
  let twice := postprocess symbols functionId once
  twice.2 = 0 ∧
    nonBlank (splitLines twice.1) = nonBlank (splitLines once)

------------------------------------------------------------
-- The Second Run
------------------------------------------------------------

/- The lines the redirects write. -/
def redirectLines
    (functionId : Nat)
    (lines : List Line) : List Line :=
  ((siteList lines functionId).map Site.lines).flatten

/- The redirects write every line with a line feed. -/
theorem redirect_eq_closeLines
    (functionId : Nat)
    {ptx : Text}
    (hSome : splitLines ptx ≠ []) :
    (redirectDirectDispatchToFallback ptx
        (some functionId)).1 =
      closeLines (redirectLines functionId (splitLines ptx)) := by
  rw [redirect_text, joinLines_map_joinLines]
  · rfl
  · simpa [siteList] using hSome
  · intro g hGroup
    rcases List.mem_map.mp hGroup with ⟨s, -, hEq⟩
    rw [← hEq]
    exact s.lines_ne_nil

/- An empty module becomes a blank line. -/
theorem redirect_nil
    (functionId : Nat)
    {ptx : Text}
    (hNil : splitLines ptx = []) :
    (redirectDirectDispatchToFallback ptx
        (some functionId)).1 =
      closeLines [[]] := by
  rw [redirect_text, hNil]
  rfl

/- The lines the redirects leave of a module. -/
def redirectedLines
    (functionId : Nat)
    (ptx : Text) : List Line :=
  splitLines
    (redirectDirectDispatchToFallback ptx (some functionId)).1

/- The redirected text is the one of its lines. -/
theorem closeLines_redirectedLines
    (functionId : Nat)
    (ptx : Text) :
    closeLines (redirectedLines functionId ptx) =
      (redirectDirectDispatchToFallback ptx
        (some functionId)).1 := by
  by_cases hNil : splitLines ptx = []
  · rw [redirectedLines, redirect_nil functionId hNil]
    decide
  · rw [redirectedLines, splitLines_redirect functionId hNil,
      redirect_eq_closeLines functionId hNil]
    rfl

section

variable {symbols : List Text}
variable {functionId : Nat}
variable {ptx : Text}

/- The text of the first run. -/
theorem postprocess_text :
    (postprocess symbols functionId ptx).1 =
      closeLines
        (hoistLines symbols (redirectedLines functionId ptx)) := by
  have hOneLine :
      ∀ line ∈ redirectedLines functionId ptx, OneLine line :=
    fun line hMem => oneLine_of_mem_splitLines hMem
  rw [postprocess]
  dsimp only
  rw [← closeLines_redirectedLines,
    hoistGeneratedDecls_closeLines symbols hOneLine]

/- Its lines. -/
theorem splitLines_postprocess :
    splitLines (postprocess symbols functionId ptx).1 =
      hoistLines symbols (redirectedLines functionId ptx) := by
  rw [postprocess_text]
  apply splitLines_flatMap
  intro line hMem
  rcases mem_hoistLines hMem with hOld | hBlank
  · exact oneLine_of_mem_splitLines hOld
  · rw [hBlank]
    exact fun c hNone => absurd hNone List.not_mem_nil

/- Without redirects a module is left as it is. -/
theorem redirectLines_eq_self
    {lines : List Line}
    (hNone : redirectsOf lines functionId = []) :
    redirectLines functionId lines = lines := by
  have hChange :
      ∀ s ∈ siteList lines functionId, s.lines = [s.line] := by
    intro s hMem
    rcases List.mem_mapIdx.mp hMem with ⟨b, hBound, hEq⟩
    apply Site.lines_of_change_eq_none
    rw [← hEq]
    simp [changeOf, hNone]
  rw [redirectLines, List.map_congr_left hChange]
  conv_rhs => rw [← map_line_siteList lines functionId]
  rw [← List.flatMap_def, List.map_eq_flatMap]

/- The redirects write at least one line. -/
theorem redirectedLines_ne_nil :
    redirectedLines functionId ptx ≠ [] := by
  unfold redirectedLines
  by_cases hNil : splitLines ptx = []
  · rw [redirect_nil functionId hNil]
    decide
  · rw [splitLines_redirect functionId hNil]
    have hSites : siteList (splitLines ptx) functionId ≠ [] := by
      simpa [siteList] using hNil
    rcases List.exists_mem_of_ne_nil _ hSites with ⟨s, hMem⟩
    rcases List.exists_mem_of_ne_nil _ s.lines_ne_nil with
      ⟨line, hLine⟩
    exact
      List.ne_nil_of_mem
        (List.mem_flatten.mpr
          ⟨s.lines, List.mem_map_of_mem hMem, hLine⟩)

/- A run is idempotent if it leaves nothing to redirect. -/
theorem idempotent_iff_settled :
    Idempotent symbols functionId ptx ↔
      Settled functionId
        (hoistLines symbols
          (redirectedLines functionId ptx)) := by
  have hOnce :
      splitLines (postprocess symbols functionId ptx).1 =
        hoistLines symbols (redirectedLines functionId ptx) :=
    splitLines_postprocess
  have hSome :
      splitLines (postprocess symbols functionId ptx).1 ≠ [] := by
    rw [hOnce]
    exact hoistLines_ne_nil redirectedLines_ne_nil
  have hCount :
      (postprocess symbols functionId
          (postprocess symbols functionId ptx).1).2 =
        (redirectsOf
          (splitLines (postprocess symbols functionId ptx).1)
          functionId).length :=
    redirect_count _ functionId
  unfold Idempotent
  dsimp only
  rw [hCount, List.length_eq_zero_iff, redirectsOf_eq_nil_iff,
    ← hOnce]
  constructor
  · exact fun hBoth => hBoth.1
  · intro hSettled
    refine ⟨hSettled, ?_⟩
    have hLines :
        redirectedLines functionId
            (postprocess symbols functionId ptx).1 =
          splitLines (postprocess symbols functionId ptx).1 := by
      rw [redirectedLines, splitLines_redirect functionId hSome]
      exact
        redirectLines_eq_self (redirectsOf_eq_nil_iff.mpr hSettled)
    rw [splitLines_postprocess, hLines, hOnce]
    exact nonBlank_hoistLines_twice _

end

/- A module without lines has nothing to redirect. -/
theorem settled_hoistLines_blank
    (symbols : List Text)
    (functionId : Nat) :
    Settled functionId (hoistLines symbols [[]]) := by
  have hBlank : hoistLines symbols [[]] = [[]] := by
    simp [hoistLines, Hoist.ofLines, Hoist.enter,
      generatedDeclLine_nil, Hoist.start]
  rw [hBlank]
  intro front line gap branch back dispatch m hLines
  have hLength := congrArg List.length hLines
  simp only [List.length_append, List.length_cons,
    List.length_nil] at hLength
  omega

/-
  The rewrites are idempotent on exactly the modules whose
  compares find no further branch among the lines that are
  written behind them.
-/
theorem idempotent_iff_repeatable
    (symbols : List Text)
    (functionId : Nat)
    (ptx : Text) :
    Idempotent symbols functionId ptx ↔
      Repeatable symbols functionId (splitLines ptx) := by
  rw [idempotent_iff_settled]
  by_cases hNil : splitLines ptx = []
  · have hBlank : redirectedLines functionId ptx = [[]] := by
      rw [redirectedLines, redirect_nil functionId hNil]
      decide
    rw [hBlank, hNil]
    constructor
    · intro _ before compare between branch after dispatch m
        hMarks
      simp [marks] at hMarks
    · intro _
      exact settled_hoistLines_blank symbols functionId
  · have hValid :
        ∀ s ∈ siteList (splitLines ptx) functionId,
          s.Valid (splitLines ptx) :=
      fun s hMem => siteList_valid hMem
    rcases hoistLines_sites hValid with
      ⟨lead, block, hWritten, hLead, hBlock, hLength⟩
    rw [map_line_siteList] at hLength
    rw [redirectedLines, splitLines_redirect functionId hNil,
      hWritten]
    constructor
    · exact repeatable_of_settled hLength
    · exact settled_of_repeatable hLead hBlock hLength

/- A kernel whose loop reuses the predicate of the dispatch. -/
def reusedPredicate : Text :=
  (".visible .entry ncclDevKernel_SendRecv()\n\x7b\n" ++
    "setp.ne.s16 %p1, %rs1, 669;\n" ++
    "@%p1 bra $L_fallback;\n" ++
    "$L_loop:\n" ++
    "add.s32 %r1, %r1, 1;\n" ++
    "setp.lt.s32 %p1, %r1, 32;\n" ++
    "@%p1 bra $L_loop;\n" ++
    "$L_fallback:\nret;\n\x7d\n").toList

/- The second run makes the loop endless. -/
theorem not_idempotent_reusedPredicate :
    ¬ Idempotent [] 669 reusedPredicate := by
  intro hIdempotent
  have hCount := hIdempotent.1
  revert hCount
  decide +kernel

end Nccl

end FabricPerf
