import FabricPerf.Nccl.HoistLines
import FabricPerf.Nccl.Redirect
import Mathlib.Data.List.Dedup

/-
  The lines both rewrites write for each line of a module.

  A line is told apart by its first character: a compare, a
  branch, a comment, a declaration and a header never are the
  same line.

  Main declarations:
    * `Nccl.firstChar`, `Nccl.Matched`
    * `Nccl.writtenFrom`
    * `Nccl.hoistLines_sites`
    * `Nccl.exists_site_of_split`
-/

------------------------------------------------------------
-- How Lines Start
------------------------------------------------------------

namespace FabricPerf

namespace Nccl

open Text

/- The first character of a line behind its white space. -/
def firstChar (line : Line) : Option Char :=
  (skipSpaces line).head?

/- A line the prober looks for. -/
def Matched (line : Line) : Prop :=
  (ncclDirectDispatchSet line).isSome = true ∨
    (ncclPredicatedBra line).isSome = true ∨
      (ncclUnconditionalBra line).isSome = true

/- The first character of an exact text. -/
theorem head?_of_literal
    {lit : String}
    {s rest : Text}
    {c : Char}
    (hLiteral : literal lit s = some rest)
    (hHead : lit.toList.head? = some c) :
    s.head? = some c := by
  rw [literal_eq_some hLiteral, List.head?_append, hHead]
  rfl

theorem firstChar_ncclDirectDispatchSet
    {line : Line}
    {dispatch : DispatchSet}
    (hDispatch : ncclDirectDispatchSet line = some dispatch) :
    firstChar line = some 's' := by
  simp only [ncclDirectDispatchSet, bind,
    Option.bind_eq_some_iff] at hDispatch
  rcases hDispatch with ⟨rest, hLiteral, -⟩
  exact head?_of_literal hLiteral rfl

theorem firstChar_ncclPredicatedBra
    {line : Line}
    {m : PredicatedBra}
    (hBranch : ncclPredicatedBra line = some m) :
    firstChar line = some '@' := by
  rcases (ncclPredicatedBra_eq_some hBranch).1 with ⟨s, hStart⟩
  rw [firstChar, hStart]
  rfl

theorem firstChar_ncclUnconditionalBra
    {line : Line}
    {f : UnconditionalBra}
    (hBranch : ncclUnconditionalBra line = some f) :
    firstChar line = some 'b' := by
  simp only [ncclUnconditionalBra, bind,
    Option.bind_eq_some_iff] at hBranch
  rcases hBranch with ⟨rest, hLiteral, -⟩
  exact head?_of_literal hLiteral rfl

/- What the prober looks for starts with one of these. -/
theorem Matched.firstChar
    {line : Line}
    (hMatched : Matched line) :
    firstChar line = some 's' ∨ firstChar line = some '@' ∨
      firstChar line = some 'b' := by
  rcases hMatched with hDispatch | hBranch | hFallback
  · rcases Option.isSome_iff_exists.mp hDispatch with ⟨d, hD⟩
    exact Or.inl (firstChar_ncclDirectDispatchSet hD)
  · rcases Option.isSome_iff_exists.mp hBranch with ⟨m, hM⟩
    exact Or.inr (Or.inl (firstChar_ncclPredicatedBra hM))
  · rcases Option.isSome_iff_exists.mp hFallback with ⟨f, hF⟩
    exact Or.inr (Or.inr (firstChar_ncclUnconditionalBra hF))

theorem not_matched_of_firstChar
    {line : Line}
    {first : Option Char}
    (hFirst : firstChar line = first)
    (hOther : first ∉ [some 's', some '@', some 'b']) :
    ¬ Matched line := by
  intro hMatched
  apply hOther
  rw [← hFirst]
  rcases hMatched.firstChar with hS | hAt | hB
  · simp [hS]
  · simp [hAt]
  · simp [hB]

/- A header starts with its directive. -/
theorem firstChar_of_isFunctionOrEntry
    {line : Line}
    (hHeader : isFunctionOrEntry line = true) :
    firstChar line = some '.' := by
  have hDirective :
      ∀ lit : String, lit.toList.head? = some '.' →
        ∀ s : Text, (literal lit s).any atWordEnd = true →
          s.head? = some '.' := by
    intro lit hHead s hAny
    cases hLiteral : literal lit s with
    | none =>
        rw [hLiteral] at hAny
        cases hAny
    | some rest => exact head?_of_literal hLiteral hHead
  unfold isFunctionOrEntry at hHeader
  dsimp only at hHeader
  cases hVisible : literal ".visible" (skipSpaces line) with
  | some rest => exact head?_of_literal hVisible rfl
  | none =>
      rw [hVisible, Option.bind_none, Option.getD_none,
        Bool.or_eq_true] at hHeader
      rcases hHeader with hFunc | hEntry
      · exact hDirective ".func" rfl _ hFunc
      · exact hDirective ".entry" rfl _ hEntry

/- A generated declaration starts with its directive. -/
theorem firstChar_of_generatedDeclLine
    {symbols : List Text}
    {line : Line}
    (hGenerated : generatedDeclLine symbols line = true) :
    firstChar line = some '.' := by
  have hPrefix : strip line <+: skipSpaces line := by
    unfold strip skipSpaces
    rw [← List.reverse_suffix, List.reverse_reverse]
    exact List.dropWhile_suffix isSpace
  unfold generatedDeclLine at hGenerated
  simp only [Bool.and_eq_true, beq_iff_eq] at hGenerated
  rcases hPrefix with ⟨rest, hRest⟩
  rw [firstChar, ← hRest, List.head?_append, hGenerated.1.2]
  rfl

/- The comment of a redirect starts with its slashes. -/
theorem firstChar_oldLine
    {indent : Text}
    (line : Line)
    (hIndent : ∀ c ∈ indent, isSpace c = true) :
    firstChar (oldLine indent line) = some '/' := by
  have hSkip :
      skipSpaces (oldLine indent line) =
        "// OLD: ".toList ++ strip line := by
    rw [oldLine, List.append_assoc]
    exact skipSpaces_append _ hIndent (by decide)
  rw [firstChar, hSkip]
  rfl

------------------------------------------------------------
-- The Lines Of A Site
------------------------------------------------------------

/- The new line of a redirect is a branch. -/
theorem Redirect.Valid.firstChar_newLine
    {lines : List Line}
    {r : Redirect}
    (hValid : r.Valid lines) :
    firstChar r.newLine = some '@' ∨
      firstChar r.newLine = some 'b' := by
  have hIndent := hValid.indent_space
  cases hOp : r.op with
  | eq =>
      left
      rw [newLine, hOp, firstChar,
        skipSpaces_predicatedLine r.pred r.target hIndent]
      rfl
  | ne =>
      right
      rw [newLine, hOp, firstChar,
        skipSpaces_uniLine r.target hIndent]
      rfl

section

variable {lines : List Line}
variable {s : Site}

/- Only branches on a predicate are redirected. -/
theorem Site.Valid.firstChar_of_change
    (hValid : s.Valid lines)
    {r : Redirect}
    (hChange : s.change = some r) :
    firstChar s.line = some '@' := by
  rcases hValid.change r hChange with ⟨hRedirect, hOld⟩
  rcases hRedirect.branch with ⟨m, hMatch, -⟩
  rw [← hOld]
  exact firstChar_ncclPredicatedBra hMatch

/- A line that is not redirected is written as it is. -/
theorem Site.lines_of_change_eq_none
    (hNone : s.change = none) :
    s.lines = [s.line] := by
  rw [Site.lines, hNone]
  rfl

theorem Site.Valid.lines_of_firstChar
    (hValid : s.Valid lines)
    {first : Option Char}
    (hFirst : firstChar s.line = first)
    (hOther : first ≠ some '@') :
    s.lines = [s.line] := by
  apply Site.lines_of_change_eq_none
  cases hChange : s.change with
  | none => rfl
  | some r =>
      rw [hValid.firstChar_of_change hChange] at hFirst
      exact absurd hFirst.symm hOther

/- A redirected line starts none of the module's directives. -/
theorem Site.Valid.firstChar_lines
    (hValid : s.Valid lines)
    (hFirst : firstChar s.line ≠ some '.') :
    ∀ line ∈ s.lines, firstChar line ≠ some '.' := by
  intro line hMem
  cases hChange : s.change with
  | none =>
      rw [Site.lines_of_change_eq_none hChange,
        List.mem_singleton] at hMem
      rw [hMem]
      exact hFirst
  | some r =>
      have hRedirect := (hValid.change r hChange).1
      rw [Site.lines, hChange, Option.map_some, Option.getD_some,
        Redirect.lines, List.mem_cons, List.mem_singleton] at hMem
      rcases hMem with hComment | hNew
      · rw [hComment, firstChar_oldLine _ hRedirect.indent_space]
        decide
      · rw [hNew]
        rcases hRedirect.firstChar_newLine with hAt | hUni
        · rw [hAt]
          decide
        · rw [hUni]
          decide

/- The written lines of a site, its comment first. -/
theorem Site.Valid.lines_eq
    (hValid : s.Valid lines) :
    ∃ comment,
      s.lines = comment ++ [s.newLine] ∧
        (∀ line ∈ comment, ¬ Matched line) ∧
        comment.length = if s.change.isSome then 1 else 0 := by
  cases hChange : s.change with
  | none =>
      refine ⟨[], ?_, ?_, rfl⟩
      · simp [Site.lines, Site.newLine, hChange]
      · exact fun line hMem => absurd hMem List.not_mem_nil
  | some r =>
      have hRedirect := (hValid.change r hChange).1
      refine ⟨[oldLine r.indent r.old], ?_, ?_, rfl⟩
      · simp [Site.lines, Site.newLine, Redirect.lines, hChange]
      · intro line hMem
        rw [List.mem_singleton.mp hMem]
        exact
          not_matched_of_firstChar
            (firstChar_oldLine r.old hRedirect.indent_space)
            (by decide)

end

/-
  What starts with a directive is told apart from all lines
  that are written for a line without one.
-/
theorem Site.Valid.lines_eq_false
    {lines : List Line}
    {s : Site}
    (hValid : s.Valid lines)
    {p : Line → Bool}
    (hDirective :
      ∀ line, p line = true → firstChar line = some '.')
    (hOther : p s.line = false) :
    ∀ line ∈ s.lines, p line = false := by
  intro line hMem
  cases hChange : s.change with
  | none =>
      rw [Site.lines_of_change_eq_none hChange,
        List.mem_singleton] at hMem
      rw [hMem]
      exact hOther
  | some r =>
      have hFirst : firstChar s.line ≠ some '.' := by
        rw [hValid.firstChar_of_change hChange]
        decide
      cases hP : p line with
      | false => rfl
      | true =>
          exact
            absurd (hDirective line hP)
              (hValid.firstChar_lines hFirst line hMem)

theorem Site.Valid.lines_of_directive
    {lines : List Line}
    {s : Site}
    (hValid : s.Valid lines)
    (hFirst : firstChar s.line = some '.') :
    s.lines = [s.line] :=
  hValid.lines_of_firstChar hFirst (by decide)

------------------------------------------------------------
-- The Written Lines
------------------------------------------------------------

/- A header that is no declaration itself. -/
def isHeader
    (symbols : List Text)
    (line : Line) : Bool :=
  isFunctionOrEntry line && !generatedDeclLine symbols line

/-
  The lines that are written for some lines of the module,
  with a block of lines in front of the first header.
-/
def writtenFrom
    (symbols : List Text)
    (block : List Line) : List Site → List Line
| [] => []
| s :: rest =>
    if generatedDeclLine symbols s.line then
      writtenFrom symbols block rest
    else if isFunctionOrEntry s.line then
      block ++ s.lines ++ writtenFrom symbols [] rest
    else
      s.lines ++ writtenFrom symbols block rest

/- What is left of the block behind some lines. -/
def leftOver
    (symbols : List Text)
    (block : List Line)
    (ss : List Site) : List Line :=
  if ss.any (fun s => isHeader symbols s.line) then
    []
  else
    block

section

variable {symbols : List Text}

theorem writtenFrom_append
    (block : List Line)
    (front back : List Site) :
    writtenFrom symbols block (front ++ back) =
      writtenFrom symbols block front ++
        writtenFrom symbols (leftOver symbols block front)
          back := by
  induction front generalizing block with
  | nil => rfl
  | cons s front ih =>
      rw [List.cons_append, writtenFrom, writtenFrom]
      cases hGenerated : generatedDeclLine symbols s.line with
      | true =>
          simp only [if_true, ih]
          simp [leftOver, isHeader, hGenerated]
      | false =>
          cases hHeader : isFunctionOrEntry s.line with
          | true =>
              simp only [Bool.false_eq_true, if_false, if_true, ih]
              simp [leftOver, isHeader, hGenerated, hHeader]
          | false =>
              simp only [Bool.false_eq_true, if_false, ih]
              simp [leftOver, isHeader, hHeader]

/- Without a header the block is not written. -/
theorem writtenFrom_of_no_header
    (block : List Line)
    {ss : List Site}
    (hOther : ∀ s ∈ ss, isHeader symbols s.line = false) :
    writtenFrom symbols block ss =
      writtenFrom symbols [] ss := by
  induction ss with
  | nil => rfl
  | cons s ss ih =>
      have hHere := hOther s List.mem_cons_self
      have hRest :=
        ih (fun t hMem => hOther t (List.mem_cons_of_mem s hMem))
      rw [writtenFrom, writtenFrom, hRest]
      cases hGenerated : generatedDeclLine symbols s.line with
      | true => rfl
      | false =>
          have hPlain : isFunctionOrEntry s.line = false := by
            simpa [isHeader, hGenerated] using hHere
          rw [hPlain]
          rfl

theorem leftOver_subset
    {block : List Line}
    {ss : List Site} :
    leftOver symbols block ss ⊆ block := by
  unfold leftOver
  split
  · exact List.nil_subset block
  · exact List.Subset.refl block

theorem leftOver_cons
    (block : List Line)
    (s : Site)
    (ss : List Site) :
    leftOver symbols block (s :: ss) =
      leftOver symbols
        (if isHeader symbols s.line then [] else block) ss := by
  unfold leftOver
  rw [List.any_cons]
  cases isHeader symbols s.line with
  | true => simp
  | false => rfl

theorem leftOver_of_no_header
    (block : List Line)
    {ss : List Site}
    (hOther : ∀ s ∈ ss, isHeader symbols s.line = false) :
    leftOver symbols block ss = block := by
  unfold leftOver
  rw [if_neg]
  rw [Bool.not_eq_true, List.any_eq_false]
  intro s hMem
  simp [hOther s hMem]

/- In front of a header it is. -/
theorem writtenFrom_header
    (block : List Line)
    {lines : List Line}
    {s : Site}
    (hValid : s.Valid lines)
    (hHeader : isHeader symbols s.line = true)
    {rest : List Site} :
    writtenFrom symbols block (s :: rest) =
      block ++ s.line :: writtenFrom symbols [] rest := by
  simp only [isHeader, Bool.and_eq_true, Bool.not_eq_true']
    at hHeader
  have hLines :=
    hValid.lines_of_directive
      (firstChar_of_isFunctionOrEntry hHeader.1)
  rw [writtenFrom, hHeader.2, hHeader.1, hLines]
  simp

/- The block in front of the first header of a module. -/
theorem writtenFrom_at_header
    (block : List Line)
    {lines : List Line}
    {before after : List Site}
    {s : Site}
    (hBefore :
      ∀ t ∈ before, isHeader symbols t.line = false)
    (hValid : s.Valid lines)
    (hHeader : isHeader symbols s.line = true) :
    writtenFrom symbols block (before ++ s :: after) =
      writtenFrom symbols [] before ++
        (block ++ s.line :: writtenFrom symbols [] after) := by
  rw [writtenFrom_append, writtenFrom_of_no_header block hBefore,
    leftOver_of_no_header block hBefore,
    writtenFrom_header block hValid hHeader]

/- Only a header writes one. -/
theorem no_header_writtenFrom
    {lines : List Line}
    {ss : List Site}
    (hValid : ∀ s ∈ ss, s.Valid lines)
    (hOther : ∀ s ∈ ss, isHeader symbols s.line = false) :
    ∀ line ∈ writtenFrom symbols [] ss,
      isFunctionOrEntry line = false := by
  induction ss with
  | nil => exact fun line hMem => absurd hMem List.not_mem_nil
  | cons s ss ih =>
      have hHere := hOther s List.mem_cons_self
      have hRest :=
        ih (fun t hMem => hValid t (List.mem_cons_of_mem s hMem))
          (fun t hMem => hOther t (List.mem_cons_of_mem s hMem))
      rw [writtenFrom]
      cases hGenerated : generatedDeclLine symbols s.line with
      | true => exact hRest
      | false =>
          have hPlain : isFunctionOrEntry s.line = false := by
            simpa [isHeader, hGenerated] using hHere
          have hLines :=
            (hValid s List.mem_cons_self).lines_eq_false
              (fun line => firstChar_of_isFunctionOrEntry) hPlain
          rw [hPlain]
          intro line hMem
          rcases List.mem_append.mp hMem with hOwn | hLater
          · exact hLines line hOwn
          · exact hRest line hLater

/- Without a block the other lines are written. -/
theorem writtenFrom_nil
    {lines : List Line}
    {ss : List Site}
    (hValid : ∀ s ∈ ss, s.Valid lines) :
    writtenFrom symbols [] ss =
      ((ss.map Site.lines).flatten).filter
        (fun line => !generatedDeclLine symbols line) := by
  induction ss with
  | nil => rfl
  | cons s ss ih =>
      have hHere := hValid s List.mem_cons_self
      have hRest :=
        ih (fun t hMem => hValid t (List.mem_cons_of_mem s hMem))
      rw [writtenFrom, hRest, List.map_cons, List.flatten_cons,
        List.filter_append]
      cases hGenerated : generatedDeclLine symbols s.line with
      | true =>
          have hLines :=
            hHere.lines_of_directive
              (firstChar_of_generatedDeclLine hGenerated)
          rw [hLines, if_pos rfl]
          simp [hGenerated]
      | false =>
          have hOther :=
            hHere.lines_eq_false
              (fun line => firstChar_of_generatedDeclLine)
              hGenerated
          have hAll :
              s.lines.filter
                  (fun line => !generatedDeclLine symbols line) =
                s.lines := by
            rw [List.filter_eq_self]
            intro line hMem
            simp [hOther line hMem]
          rw [hAll]
          simp

/- The generated lines are written as they are. -/
theorem filter_generatedDeclLine
    {lines : List Line}
    {ss : List Site}
    (hValid : ∀ s ∈ ss, s.Valid lines) :
    ((ss.map Site.lines).flatten).filter
        (generatedDeclLine symbols) =
      (ss.map Site.line).filter (generatedDeclLine symbols) := by
  induction ss with
  | nil => rfl
  | cons s ss ih =>
      have hHere := hValid s List.mem_cons_self
      have hRest :=
        ih (fun t hMem => hValid t (List.mem_cons_of_mem s hMem))
      rw [List.map_cons, List.flatten_cons, List.filter_append,
        hRest, List.map_cons, List.filter_cons]
      cases hGenerated : generatedDeclLine symbols s.line with
      | true =>
          have hLines :=
            hHere.lines_of_directive
              (firstChar_of_generatedDeclLine hGenerated)
          rw [hLines, if_pos rfl]
          simp [hGenerated]
      | false =>
          have hOther :=
            hHere.lines_eq_false
              (fun line => firstChar_of_generatedDeclLine)
              hGenerated
          have hNone :
              s.lines.filter (generatedDeclLine symbols) = [] := by
            rw [List.filter_eq_nil_iff]
            intro line hMem
            simp [hOther line hMem]
          rw [hNone]
          simp

end

------------------------------------------------------------
-- Both Rewrites
------------------------------------------------------------

/- The declarations among some lines, each once. -/
def declarations
    (symbols : List Text)
    (lines : List Line) : List Text :=
  ((lines.filter (generatedDeclLine symbols)).map strip).dedup

/- The lines of the block in front of the first header. -/
def blockLength
    (symbols : List Text)
    (lines : List Line) : Nat :=
  if (declarations symbols lines).isEmpty then
    0
  else
    (declarations symbols lines).length + 1

section

variable {symbols : List Text}

/- Each declaration is hoisted once. -/
theorem length_hoisted
    {lines : List Line}
    {h : Hoist}
    (hOf : h.Of symbols lines) :
    h.hoisted.length = (declarations symbols lines).length := by
  have hPerm : h.seen.Perm (declarations symbols lines) := by
    rw [declarations,
      List.perm_ext_iff_of_nodup hOf.nodup (List.nodup_dedup _)]
    intro key
    rw [hOf.mem key, List.mem_dedup, List.mem_map]
    constructor
    · rintro ⟨line, hMem, hGenerated, hKey⟩
      exact ⟨line, List.mem_filter.mpr ⟨hMem, hGenerated⟩, hKey⟩
    · rintro ⟨line, hMem, hKey⟩
      rw [List.mem_filter] at hMem
      exact ⟨line, hMem.1, hMem.2, hKey⟩
  rw [← hPerm.length_eq, hOf.seen, List.length_map]

/- Neither directives nor blank lines are looked for. -/
theorem not_matched_of_dot
    {line : Line}
    (hDot : firstChar line = some '.') :
    ¬ Matched line :=
  not_matched_of_firstChar hDot (by decide)

theorem not_matched_nil : ¬ Matched [] :=
  not_matched_of_firstChar rfl (by decide)

/-
  What both rewrites write: the lines of each site, with the
  declarations in front of the first header, or in front of
  the module.
-/
theorem hoistLines_sites
    {lines : List Line}
    {ss : List Site}
    (hValid : ∀ s ∈ ss, s.Valid lines) :
    ∃ lead block,
      hoistLines symbols (ss.map Site.lines).flatten =
          lead ++ writtenFrom symbols block ss ∧
        (∀ line ∈ lead, ¬ Matched line) ∧
        (∀ line ∈ block, ¬ Matched line) ∧
        block.length =
          blockLength symbols (ss.map Site.line) := by
  have hOf :=
    Hoist.of_ofLines symbols (ss.map Site.lines).flatten
  generalize hFirst :
    Hoist.ofLines symbols (ss.map Site.lines).flatten = h at hOf
  have hKept : h.kept = writtenFrom symbols [] ss := by
    rw [hOf.kept, writtenFrom_nil hValid]
  have hLength :
      h.hoisted.length =
        (declarations symbols (ss.map Site.line)).length := by
    rw [length_hoisted hOf, declarations,
      filter_generatedDeclLine hValid]
    rfl
  have hInert : ∀ line ∈ h.hoisted, ¬ Matched line :=
    fun line hMem =>
      not_matched_of_dot
        (firstChar_of_generatedDeclLine
          (hOf.generated line hMem))
  by_cases hNone : h.hoisted = []
  · refine ⟨[], [], ?_, ?_, ?_, ?_⟩
    · unfold hoistLines
      rw [hFirst]
      dsimp only
      rw [if_pos (by simpa using hNone), List.nil_append, ← hKept,
        hOf.kept, eq_comm, List.filter_eq_self]
      intro line hMem
      simp [(Hoist.hoisted_eq_nil_iff hOf).mp hNone line hMem]
    · exact fun line hMem => absurd hMem List.not_mem_nil
    · exact fun line hMem => absurd hMem List.not_mem_nil
    · rw [hNone, List.length_nil, eq_comm,
        List.length_eq_zero_iff] at hLength
      rw [blockLength, hLength]
      rfl
  · have hBlock :
        (h.hoisted ++ [[]]).length =
          blockLength symbols (ss.map Site.line) := by
      have hSome :
          (declarations symbols (ss.map Site.line)).isEmpty =
            false := by
        rw [List.isEmpty_eq_false_iff, ← List.length_pos_iff,
          ← hLength, List.length_pos_iff]
        exact hNone
      rw [blockLength, hSome, List.length_append, hLength]
      rfl
    have hBlank : ∀ line ∈ h.hoisted ++ [[]], ¬ Matched line := by
      intro line hMem
      rcases List.mem_append.mp hMem with hOld | hNew
      · exact hInert line hOld
      · rw [List.mem_singleton.mp hNew]
        exact not_matched_nil
    cases hFind :
        ss.find? (fun s => isHeader symbols s.line) with
    | none =>
        have hOther :
            ∀ s ∈ ss, isHeader symbols s.line = false := by
          simpa using hFind
        refine ⟨h.hoisted, h.hoisted ++ [[]], ?_, hInert, hBlank,
          hBlock⟩
        rw [writtenFrom_of_no_header _ hOther, ← hKept]
        apply hoistLines_none hFirst hNone
        rw [hKept]
        exact no_header_writtenFrom hValid hOther
    | some s =>
        rcases List.find?_eq_some_iff_append.mp hFind with
          ⟨hHeader, before, after, hSplit, hBefore⟩
        have hOther :
            ∀ t ∈ before, isHeader symbols t.line = false :=
          fun t hMem => by simpa using hBefore t hMem
        subst hSplit
        have hAll :
            ∀ own : List Line,
              writtenFrom symbols own (before ++ s :: after) =
                writtenFrom symbols [] before ++
                  (own ++ s.line :: writtenFrom symbols [] after) :=
          fun own =>
            writtenFrom_at_header own hOther (hValid s (by simp))
              hHeader
        refine ⟨[], h.hoisted ++ [[]], ?_, ?_, hBlank, hBlock⟩
        · rw [List.nil_append, hAll]
          apply hoistLines_some hFirst hNone
          · rw [hKept, hAll, List.nil_append]
          · exact
              no_header_writtenFrom
                (fun t hMem => hValid t (by simp [hMem])) hOther
          · simp only [isHeader, Bool.and_eq_true] at hHeader
            exact hHeader.1
        · exact fun line hMem => absurd hMem List.not_mem_nil

------------------------------------------------------------
-- Written Lines And Their Sites
------------------------------------------------------------

/- A split behind lines the prober does not look for. -/
theorem split_of_not_matched
    {inert rest front back : List Line}
    {x : Line}
    (hInert : ∀ line ∈ inert, ¬ Matched line)
    (hX : Matched x)
    (hSplit : inert ++ rest = front ++ x :: back) :
    ∃ inner, front = inert ++ inner ∧ rest = inner ++ x :: back := by
  rcases List.append_eq_append_iff.mp hSplit with
    ⟨inner, hFront, hRest⟩ | ⟨inner, hFront, hRest⟩
  · exact ⟨inner, hFront, hRest⟩
  · cases inner with
    | nil =>
        rw [List.append_nil] at hFront
        exact ⟨[], by rw [hFront, List.append_nil], hRest.symm⟩
    | cons y inner =>
        rw [List.cons_append, List.cons.injEq] at hRest
        apply absurd hX
        rw [hRest.1]
        exact hInert y (by rw [hFront]; simp)

/- A site whose line is written where it stands. -/
structure Site.Plain
    (symbols : List Text)
    (s : Site) : Prop where
  other : generatedDeclLine symbols s.line = false
  no_header : isFunctionOrEntry s.line = false

theorem writtenFrom_plain
    (block : List Line)
    {s : Site}
    (hPlain : s.Plain symbols)
    (rest : List Site) :
    writtenFrom symbols block (s :: rest) =
      s.lines ++ writtenFrom symbols block rest := by
  rw [writtenFrom, hPlain.other, hPlain.no_header]
  rfl

/-
  A written line the prober looks for closes the lines of a
  site.
-/
theorem exists_site_of_split
    {lines : List Line}
    {block : List Line}
    {ss : List Site}
    {front back : List Line}
    {x : Line}
    (hValid : ∀ s ∈ ss, s.Valid lines)
    (hBlock : ∀ line ∈ block, ¬ Matched line)
    (hX : Matched x)
    (hSplit :
      writtenFrom symbols block ss = front ++ x :: back) :
    ∃ before s comment after,
      ss = before ++ s :: after ∧
        s.Plain symbols ∧
        s.lines = comment ++ [x] ∧
        s.newLine = x ∧
        front = writtenFrom symbols block before ++ comment ∧
        back =
          writtenFrom symbols (leftOver symbols block before)
            after := by
  induction ss generalizing block front with
  | nil => simp [writtenFrom] at hSplit
  | cons s ss ih =>
      have hHere := hValid s List.mem_cons_self
      have hLater : ∀ t ∈ ss, t.Valid lines :=
        fun t hMem => hValid t (List.mem_cons_of_mem s hMem)
      cases hGenerated : generatedDeclLine symbols s.line with
      | true =>
          rw [writtenFrom, if_pos hGenerated] at hSplit
          rcases ih hLater hBlock hSplit with
            ⟨before, own, comment, after, hSites, hPlain, hLines,
              hNew, hFront, hBack⟩
          refine ⟨s :: before, own, comment, after, ?_, hPlain,
            hLines, hNew, ?_, ?_⟩
          · rw [hSites, List.cons_append]
          · rw [hFront, writtenFrom, if_pos hGenerated]
          · rw [hBack, leftOver_cons]
            simp [isHeader, hGenerated]
      | false =>
          cases hHeader : isFunctionOrEntry s.line with
          | true =>
              have hOwn : isHeader symbols s.line = true := by
                simp [isHeader, hGenerated, hHeader]
              have hInert :
                  ∀ line ∈ block ++ [s.line], ¬ Matched line := by
                intro line hMem
                rcases List.mem_append.mp hMem with hOld | hNew
                · exact hBlock line hOld
                · rw [List.mem_singleton.mp hNew]
                  exact
                    not_matched_of_dot
                      (firstChar_of_isFunctionOrEntry hHeader)
              rw [writtenFrom_header block hHere hOwn,
                List.append_cons] at hSplit
              rcases split_of_not_matched hInert hX hSplit with
                ⟨inner, hFront, hRest⟩
              rcases ih hLater
                  (fun line hMem => absurd hMem List.not_mem_nil)
                  hRest with
                ⟨before, own, comment, after, hSites, hPlain,
                  hLines, hNew, hInner, hBack⟩
              refine ⟨s :: before, own, comment, after, ?_, hPlain,
                hLines, hNew, ?_, ?_⟩
              · rw [hSites, List.cons_append]
              · rw [hFront, hInner,
                  writtenFrom_header block hHere hOwn]
                simp
              · rw [hBack, leftOver_cons, if_pos hOwn]
          | false =>
              have hPlain : s.Plain symbols :=
                ⟨hGenerated, hHeader⟩
              rcases hHere.lines_eq with
                ⟨comment, hLines, hComment, -⟩
              rw [writtenFrom_plain block hPlain, hLines,
                List.append_assoc, List.singleton_append]
                at hSplit
              rcases split_of_not_matched hComment hX hSplit with
                ⟨inner, hFront, hRest⟩
              cases inner with
              | nil =>
                  rw [List.nil_append, List.cons.injEq] at hRest
                  refine ⟨[], s, comment, ss, rfl, hPlain, ?_,
                    hRest.1, ?_, ?_⟩
                  · rw [hLines, hRest.1]
                  · rw [hFront, List.append_nil]
                    rfl
                  · rw [← hRest.2]
                    rfl
              | cons y inner =>
                  rw [List.cons_append, List.cons.injEq] at hRest
                  rcases ih hLater hBlock hRest.2 with
                    ⟨before, own, note, after, hSites, hOwn, hNote,
                      hNew, hInner, hBack⟩
                  refine ⟨s :: before, own, note, after, ?_, hOwn,
                    hNote, hNew, ?_, ?_⟩
                  · rw [hSites, List.cons_append]
                  · rw [hFront, hInner, ← hRest.1,
                      writtenFrom_plain block hPlain, hLines]
                    simp
                  · rw [hBack, leftOver_cons]
                    simp [isHeader, hHeader]

end

end Nccl

end FabricPerf
