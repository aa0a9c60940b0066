import FabricPerf.Nccl.Hoist

/-
  Hoisting in a text whose lines all end with a line feed,
  as a function of its lines.

  A second run moves the blank line, and nothing else.

  Main declarations:
    * `Nccl.closeLines`, `Nccl.hoistLines`
    * `Nccl.hoistGeneratedDecls_closeLines`
    * `Nccl.nonBlank_hoistLines_twice`
-/

------------------------------------------------------------
-- Lines Without Their Breaks
------------------------------------------------------------

namespace FabricPerf

namespace Nccl

open Text

/- A text of lines that all end with a line feed. -/
def closeLines (lines : List Line) : Text :=
  lines.flatMap (· ++ ['\n'])

/- The lines that hold more than white space. -/
def nonBlank (lines : List Line) : List Line :=
  lines.filter (fun line => !(strip line).isEmpty)

/- Hoisting, on the lines of a text. -/
def hoistLines
    (symbols : List Text)
    (lines : List Line) : List Line :=
  let h := Hoist.ofLines symbols lines
  if h.hoisted.isEmpty then
    lines
  else
    match h.kept.findIdx? isFunctionOrEntry with
    | none => h.hoisted ++ h.kept
    | some insertAt =>
        h.kept.take insertAt ++ (h.hoisted ++ [[]]) ++
          h.kept.drop insertAt

/- The lines of such a text. -/
theorem keepLines_closeLines
    {lines : List Line}
    (hLines : ∀ line ∈ lines, OneLine line) :
    keepLines (closeLines lines) = lines.map (· ++ ['\n']) := by
  have hFeed : isLineBreak '\n' = true := by decide
  have hCut : Cut (lines.map (· ++ ['\n']) ++ []) := by
    apply Cut.append _ _ Cut.nil
    · intro line hMem
      rcases List.mem_map.mp hMem with ⟨own, hOwn, hLine⟩
      rw [← hLine]
      exact Closed.single (hLines own hOwn) hFeed
    · intro line hMem
      rcases List.mem_map.mp hMem with ⟨own, hOwn, hLine⟩
      rw [← hLine]
      simp
  rw [List.append_nil] at hCut
  exact keepLines_flatten hCut

/- A line feed behind a line does not change what it is. -/
theorem generatedDeclLine_append_newline
    (symbols : List Text)
    (line : Line) :
    generatedDeclLine symbols (line ++ ['\n']) =
      generatedDeclLine symbols line := by
  unfold generatedDeclLine
  rw [strip_append_newline]

/- A directive in front of a line feed. -/
theorem any_atWordEnd_append_newline
    (lit : String)
    (hFree : '\n' ∉ lit.toList)
    (start : Text) :
    (literal lit (start ++ ['\n'])).any atWordEnd =
      (literal lit start).any atWordEnd := by
  rw [literal_append_cons start [] hFree]
  cases literal lit start with
  | none => rfl
  | some rest =>
      cases rest with
      | nil => rfl
      | cons c rest => rfl

theorem isFunctionOrEntry_append_newline (line : Line) :
    isFunctionOrEntry (line ++ ['\n']) =
      isFunctionOrEntry line := by
  change
    ((literal ".func"
          (behindWord ".visible" (line ++ ['\n']))).any
            atWordEnd ||
        (literal ".entry"
          (behindWord ".visible" (line ++ ['\n']))).any
            atWordEnd) =
      ((literal ".func" (behindWord ".visible" line)).any
          atWordEnd ||
        (literal ".entry" (behindWord ".visible" line)).any
          atWordEnd)
  have hFree : '\n' ∉ ".visible".toList := by decide
  rcases behindWord_append_newline hFree line with
    hBehind | ⟨hNil, hOld⟩
  · rw [hBehind, any_atWordEnd_append_newline _ (by decide),
      any_atWordEnd_append_newline _ (by decide)]
  · rw [hNil]
    rcases hOld with hNone | hWord
    · rw [hNone]
    · rw [hWord]
      decide

------------------------------------------------------------
-- The Text Of The Lines
------------------------------------------------------------

/- The lists of the loop, with a line feed behind each line. -/
def Hoist.closed (h : Hoist) : Hoist where
  hoisted := h.hoisted.map (· ++ ['\n'])
  kept := h.kept.map (· ++ ['\n'])
  seen := h.seen

/- One turn of the loop over a line with its line feed. -/
theorem Hoist.enter_closed
    (symbols : List Text)
    (h : Hoist)
    (line : Line) :
    h.closed.enter symbols (line ++ ['\n']) =
      (h.enter symbols line).closed := by
  unfold enter
  rw [generatedDeclLine_append_newline, strip_append_newline]
  by_cases hGenerated : generatedDeclLine symbols line = true
  · rw [if_pos hGenerated, if_pos hGenerated]
    by_cases hSeen : h.seen.contains (strip line) = true
    · rw [if_pos hSeen, closed, if_pos hSeen]
    · rw [if_neg hSeen, closed, if_neg hSeen]
      simp [closed]
  · rw [if_neg hGenerated, if_neg hGenerated]
    simp [closed]

theorem Hoist.ofLines_map
    (symbols : List Text)
    (lines : List Line) :
    ofLines symbols (lines.map (· ++ ['\n'])) =
      (ofLines symbols lines).closed := by
  induction lines using List.reverseRecOn with
  | nil => rfl
  | append_singleton lines line ih =>
      unfold ofLines at ih ⊢
      rw [List.map_append, List.foldl_append, List.foldl_append,
        ih]
      exact enter_closed symbols _ line

/- Hoisting works line by line. -/
theorem hoistGeneratedDecls_closeLines
    (symbols : List Text)
    {lines : List Line}
    (hLines : ∀ line ∈ lines, OneLine line) :
    hoistGeneratedDecls (closeLines lines) symbols =
      closeLines (hoistLines symbols lines) := by
  have hHeader :
      isFunctionOrEntry ∘ (· ++ ['\n']) = isFunctionOrEntry :=
    funext isFunctionOrEntry_append_newline
  unfold hoistGeneratedDecls hoistLines
  rw [keepLines_closeLines hLines, Hoist.ofLines_map]
  generalize Hoist.ofLines symbols lines = h
  dsimp only [Hoist.closed]
  rw [List.isEmpty_map, List.findIdx?_map, hHeader]
  by_cases hNone : h.hoisted.isEmpty = true
  · rw [if_pos hNone, if_pos hNone]
  · rw [if_neg hNone, if_neg hNone]
    cases h.kept.findIdx? isFunctionOrEntry with
    | none => simp [closeLines, List.flatMap_def]
    | some insertAt => simp [closeLines, List.flatMap_def]

------------------------------------------------------------
-- Hoisting Twice
------------------------------------------------------------

section

variable {symbols : List Text}

/- Other lines are kept. -/
theorem Hoist.foldl_enter_kept
    (h : Hoist)
    {lines : List Line}
    (hOther :
      ∀ line ∈ lines, generatedDeclLine symbols line = false) :
    lines.foldl (enter symbols) h =
      { h with kept := h.kept ++ lines } := by
  induction lines generalizing h with
  | nil => simp
  | cons line lines ih =>
      have hLine : generatedDeclLine symbols line = false :=
        hOther line List.mem_cons_self
      have hEnter :
          h.enter symbols line =
            { h with kept := h.kept ++ [line] } := by
        unfold enter
        rw [if_neg (by simp [hLine])]
      rw [List.foldl_cons, hEnter,
        ih _ (fun own hMem => hOther own (by simp [hMem]))]
      simp

/- New declarations are hoisted. -/
theorem Hoist.foldl_enter_hoisted
    (h : Hoist)
    {lines : List Line}
    (hGenerated :
      ∀ line ∈ lines, generatedDeclLine symbols line = true)
    (hNodup : (h.seen ++ lines.map strip).Nodup) :
    lines.foldl (enter symbols) h =
      { h with
        hoisted := h.hoisted ++ lines
        seen := h.seen ++ lines.map strip } := by
  induction lines generalizing h with
  | nil => simp
  | cons line lines ih =>
      have hLine : generatedDeclLine symbols line = true :=
        hGenerated line List.mem_cons_self
      have hNew : strip line ∉ h.seen := by
        intro hSeen
        have hApart := (List.nodup_append.mp hNodup).2.2
        exact
          hApart (strip line) hSeen (strip line) (by simp) rfl
      have hEnter :
          h.enter symbols line =
            { h with
              hoisted := h.hoisted ++ [line]
              seen := h.seen ++ [strip line] } := by
        unfold enter
        rw [if_pos hLine, if_neg (by simpa using hNew)]
      rw [List.foldl_cons, hEnter,
        ih _ (fun own hMem => hGenerated own (by simp [hMem]))
          (by simpa using hNodup)]
      simp

/- The declarations of a text, each once and in one place. -/
theorem Hoist.ofLines_append
    {front declarations back : List Line}
    (hFront :
      ∀ line ∈ front, generatedDeclLine symbols line = false)
    (hGenerated :
      ∀ line ∈ declarations,
        generatedDeclLine symbols line = true)
    (hNodup : (declarations.map strip).Nodup)
    (hBack :
      ∀ line ∈ back, generatedDeclLine symbols line = false) :
    ofLines symbols (front ++ (declarations ++ back)) =
      { hoisted := declarations
        kept := front ++ back
        seen := declarations.map strip } := by
  unfold ofLines
  rw [List.foldl_append, List.foldl_append,
    foldl_enter_kept _ hFront,
    foldl_enter_hoisted _ hGenerated
      (by simpa [start] using hNodup),
    foldl_enter_kept _ hBack]
  simp [start]

/- The blank line is no declaration. -/
theorem generatedDeclLine_nil :
    generatedDeclLine symbols [] = false := by
  simp [generatedDeclLine, strip]

/- Without a header the declarations come first. -/
theorem hoistLines_none
    {lines : List Line}
    {h : Hoist}
    (hFirst : Hoist.ofLines symbols lines = h)
    (hSome : h.hoisted ≠ [])
    (hOther :
      ∀ line ∈ h.kept, isFunctionOrEntry line = false) :
    hoistLines symbols lines = h.hoisted ++ h.kept := by
  unfold hoistLines
  rw [hFirst]
  dsimp only
  rw [if_neg (by simpa using hSome),
    List.findIdx?_eq_none_iff.mpr hOther]

/- With a header they come in front of it. -/
theorem hoistLines_some
    {lines before after : List Line}
    {header : Line}
    {h : Hoist}
    (hFirst : Hoist.ofLines symbols lines = h)
    (hSome : h.hoisted ≠ [])
    (hKept : h.kept = before ++ header :: after)
    (hBefore :
      ∀ line ∈ before, isFunctionOrEntry line = false)
    (hHeader : isFunctionOrEntry header = true) :
    hoistLines symbols lines =
      before ++ (h.hoisted ++ [[]] ++ header :: after) := by
  have hInsert :
      h.kept.findIdx? isFunctionOrEntry = some before.length := by
    rw [hKept, List.findIdx?_append,
      List.findIdx?_eq_none_iff.mpr hBefore, List.findIdx?_cons,
      if_pos hHeader]
    simp
  unfold hoistLines
  rw [hFirst]
  dsimp only
  rw [if_neg (by simpa using hSome), hInsert, hKept]
  simp

/- Hoisting writes lines of the text, and blank ones. -/
theorem mem_hoistLines
    {lines : List Line}
    {line : Line}
    (hMem : line ∈ hoistLines symbols lines) :
    line ∈ lines ∨ line = [] := by
  have hOf := Hoist.of_ofLines symbols lines
  have hKept :
      ∀ own ∈ (Hoist.ofLines symbols lines).kept, own ∈ lines := by
    intro own hOwn
    rw [hOf.kept, List.mem_filter] at hOwn
    exact hOwn.1
  unfold hoistLines at hMem
  dsimp only at hMem
  split at hMem
  · exact Or.inl hMem
  · split at hMem
    · rcases List.mem_append.mp hMem with hHoisted | hOther
      · exact Or.inl (hOf.sublist.subset hHoisted)
      · exact Or.inl (hKept line hOther)
    · rcases List.mem_append.mp hMem with hFront | hBack
      · rcases List.mem_append.mp hFront with hBefore | hBlock
        · exact Or.inl (hKept line (List.mem_of_mem_take hBefore))
        · rcases List.mem_append.mp hBlock with hHoisted | hBlank
          · exact Or.inl (hOf.sublist.subset hHoisted)
          · exact Or.inr (List.mem_singleton.mp hBlank)
      · exact Or.inl (hKept line (List.mem_of_mem_drop hBack))

/- Hoisting leaves a text that has lines with some. -/
theorem hoistLines_ne_nil
    {lines : List Line}
    (hSome : lines ≠ []) :
    hoistLines symbols lines ≠ [] := by
  unfold hoistLines
  dsimp only
  split
  case isTrue hNone => exact hSome
  case isFalse hHoisted =>
    have hNe : (Hoist.ofLines symbols lines).hoisted ≠ [] := by
      simpa using hHoisted
    split
    · exact List.append_ne_nil_of_left_ne_nil hNe _
    · simp

/-
  A second run finds the declarations in their place, and
  writes a blank line more behind them.
-/
theorem nonBlank_hoistLines_twice (lines : List Line) :
    nonBlank (hoistLines symbols (hoistLines symbols lines)) =
      nonBlank (hoistLines symbols lines) := by
  have hOf := Hoist.of_ofLines symbols lines
  generalize hFirst : Hoist.ofLines symbols lines = h at hOf
  have hKept :
      ∀ line ∈ h.kept, generatedDeclLine symbols line = false := by
    intro line hMem
    rw [hOf.kept, List.mem_filter] at hMem
    simpa using hMem.2
  have hNodup : (h.hoisted.map strip).Nodup := by
    rw [← hOf.seen]
    exact hOf.nodup
  by_cases hNone : h.hoisted = []
  · have hSame : hoistLines symbols lines = lines := by
      unfold hoistLines
      rw [hFirst]
      exact if_pos (by simpa using hNone)
    rw [hSame, hSame]
  · cases hFind : h.kept.find? isFunctionOrEntry with
    | none =>
        have hOther :
            ∀ line ∈ h.kept, isFunctionOrEntry line = false := by
          simpa using hFind
        have hSecond :
            Hoist.ofLines symbols (h.hoisted ++ h.kept) =
              { h with seen := h.hoisted.map strip } :=
          Hoist.ofLines_append
            (fun line hMem => absurd hMem List.not_mem_nil)
            hOf.generated hNodup hKept
        rw [hoistLines_none hFirst hNone hOther,
          hoistLines_none hSecond hNone hOther]
    | some header =>
        rcases List.find?_eq_some_iff_append.mp hFind with
          ⟨hHeader, before, after, hSplit, hOther⟩
        have hBefore :
            ∀ line ∈ before, isFunctionOrEntry line = false :=
          fun line hMem => by simpa using hOther line hMem
        have hSecond :
            Hoist.ofLines symbols
                (before ++
                  (h.hoisted ++ ([[]] ++ header :: after))) =
              { hoisted := h.hoisted
                kept := before ++ ([[]] ++ header :: after)
                seen := h.hoisted.map strip } := by
          rw [hSplit] at hKept
          apply Hoist.ofLines_append _ hOf.generated hNodup
          · intro line hMem
            rcases List.mem_append.mp hMem with hBlank | hOld
            · rw [List.mem_singleton.mp hBlank]
              exact generatedDeclLine_nil
            · exact hKept line (List.mem_append_right before hOld)
          · intro line hMem
            exact hKept line (List.mem_append_left _ hMem)
        have hBlank :
            ∀ line ∈ before ++ [[]],
              isFunctionOrEntry line = false := by
          intro line hMem
          rcases List.mem_append.mp hMem with hOld | hNew
          · exact hBefore line hOld
          · rw [List.mem_singleton.mp hNew]
            decide
        rw [hoistLines_some hFirst hNone hSplit hBefore hHeader,
          List.append_assoc h.hoisted,
          hoistLines_some hSecond hNone
            (List.append_assoc before [[]] (header :: after)).symm
            hBlank hHeader]
        simp [nonBlank, strip]

end

end Nccl

end FabricPerf
