import FabricPerf.Lib.KeptLines
import FabricPerf.Lib.Search
import FabricPerf.Nccl.PtxLines
import Mathlib.Data.List.Induction
import Mathlib.Data.List.Nodup

/-
  `hoist_generated_decls` of `nccl/prober.py`: the generated
  declarations of a module move in front of its first
  function.

  A probe is given by the names under its `symbol` table.

  Main declarations:
    * `Nccl.generatedDeclLine`
    * `Nccl.hoistGeneratedDecls`
    * `Nccl.Hoist.Of`
    * `Nccl.hoist_lossless`
-/

------------------------------------------------------------
-- Generated Declarations
------------------------------------------------------------

namespace FabricPerf

namespace Nccl

open Text

/- `PTX_GENERATED_SYMBOL_RE`, from a position on. -/
def ptxGeneratedSymbol
    (before : Option Char)
    (s : Text) : Bool :=
  let name := do
    let s ← literal "__neutrino_map_" s
    let s ← (literal "ptr" s).or (literal "count" s)
    let s ← literal "_" s
    let (_, s) ← digits s
    some s
  !before.any isWord && name.any atWordEnd

/- `generated_decl_line` -/
def generatedDeclLine
    (symbols : List Text)
    (line : Line) : Bool :=
  let stripped := strip line
  stripped.getLast? == some ';' &&
    stripped.head? == some '.' &&
    (searchBehind ptxGeneratedSymbol none stripped ||
      symbols.any (fun name =>
        searchBehind (wordMatch name) none stripped))

/- The lists of the loop over the lines. -/
structure Hoist where
  hoisted : List Line
  kept : List Line
  seen : List Text

namespace Hoist

/- The lists before the first line. -/
def start : Hoist where
  hoisted := []
  kept := []
  seen := []

/- One turn of the loop. -/
def enter
    (symbols : List Text)
    (h : Hoist)
    (line : Line) : Hoist :=
  if generatedDeclLine symbols line then
    if h.seen.contains (strip line) then
      h
    else
      { h with
        hoisted := h.hoisted ++ [line]
        seen := h.seen ++ [strip line] }
  else
    { h with kept := h.kept ++ [line] }

/- The loop over the lines of a module. -/
def ofLines
    (symbols : List Text)
    (lines : List Line) : Hoist :=
  lines.foldl (enter symbols) start

end Hoist

/- `hoist_generated_decls` -/
def hoistGeneratedDecls
    (ptx : Text)
    (symbols : List Text) : Text :=
  let h := Hoist.ofLines symbols (keepLines ptx)
  if h.hoisted.isEmpty then
    ptx
  else
    match h.kept.findIdx? isFunctionOrEntry with
    | none => (h.hoisted ++ h.kept).flatten
    | some insertAt =>
        (h.kept.take insertAt ++ h.hoisted ++ [['\n']] ++
          h.kept.drop insertAt).flatten

------------------------------------------------------------
-- The Loop
------------------------------------------------------------

/- What the loop leaves of some lines. -/
structure Hoist.Of
    (symbols : List Text)
    (lines : List Line)
    (h : Hoist) : Prop where
  kept :
    h.kept =
      lines.filter (fun line => !generatedDeclLine symbols line)
  seen : h.seen = h.hoisted.map strip
  nodup : h.seen.Nodup
  sublist : h.hoisted.Sublist lines
  generated :
    ∀ line ∈ h.hoisted, generatedDeclLine symbols line = true
  mem :
    ∀ key, key ∈ h.seen ↔
      ∃ line ∈ lines,
        generatedDeclLine symbols line = true ∧
          strip line = key

namespace Hoist

variable {symbols : List Text}

/- Nothing is left of no lines. -/
theorem of_start : Of symbols [] start where
  kept := rfl
  seen := rfl
  nodup := List.nodup_nil
  sublist := List.Sublist.slnil
  generated := fun line hMem => absurd hMem List.not_mem_nil
  mem := by
    intro key
    simp [start]

/- One more line. -/
theorem of_enter
    {lines : List Line}
    {h : Hoist}
    (hOf : Of symbols lines h)
    (line : Line) :
    Of symbols (lines ++ [line]) (h.enter symbols line) := by
  have hLonger : h.hoisted.Sublist (lines ++ [line]) :=
    hOf.sublist.trans (List.sublist_append_left lines [line])
  unfold enter
  by_cases hGenerated : generatedDeclLine symbols line = true
  · rw [if_pos hGenerated]
    by_cases hSeen : strip line ∈ h.seen
    · rw [if_pos (by simpa using hSeen)]
      constructor
      · simp [hOf.kept, hGenerated]
      · exact hOf.seen
      · exact hOf.nodup
      · exact hLonger
      · exact hOf.generated
      · intro key
        rw [hOf.mem key]
        constructor
        · rintro ⟨own, hMem, hOwn⟩
          exact ⟨own, List.mem_append_left _ hMem, hOwn⟩
        · rintro ⟨own, hMem, hOwn, hKey⟩
          rcases List.mem_append.mp hMem with hOld | hNew
          · exact ⟨own, hOld, hOwn, hKey⟩
          · rw [List.mem_singleton.mp hNew] at hKey
            rw [← hKey]
            exact (hOf.mem (strip line)).mp hSeen
    · rw [if_neg (by simpa using hSeen)]
      constructor
      · simp [hOf.kept, hGenerated]
      · simp [hOf.seen]
      · dsimp only
        rw [← List.concat_eq_append]
        exact hOf.nodup.concat hSeen
      · exact hOf.sublist.append (List.Sublist.refl [line])
      · intro own hMem
        rcases List.mem_append.mp hMem with hOld | hNew
        · exact hOf.generated own hOld
        · rw [List.mem_singleton.mp hNew]
          exact hGenerated
      · intro key
        rw [List.mem_append, hOf.mem key, List.mem_singleton]
        constructor
        · rintro (⟨own, hMem, hOwn⟩ | hKey)
          · exact ⟨own, List.mem_append_left _ hMem, hOwn⟩
          · exact ⟨line, by simp, hGenerated, hKey.symm⟩
        · rintro ⟨own, hMem, hOwn, hKey⟩
          rcases List.mem_append.mp hMem with hOld | hNew
          · exact Or.inl ⟨own, hOld, hOwn, hKey⟩
          · rw [List.mem_singleton.mp hNew] at hKey
            exact Or.inr hKey.symm
  · rw [if_neg hGenerated]
    constructor
    · simp [hOf.kept, hGenerated]
    · exact hOf.seen
    · exact hOf.nodup
    · exact hLonger
    · exact hOf.generated
    · intro key
      rw [hOf.mem key]
      constructor
      · rintro ⟨own, hMem, hOwn⟩
        exact ⟨own, List.mem_append_left _ hMem, hOwn⟩
      · rintro ⟨own, hMem, hOwn, hKey⟩
        rcases List.mem_append.mp hMem with hOld | hNew
        · exact ⟨own, hOld, hOwn, hKey⟩
        · rw [List.mem_singleton.mp hNew] at hOwn
          exact absurd hOwn hGenerated

/- All lines. -/
theorem of_ofLines
    (symbols : List Text)
    (lines : List Line) :
    Of symbols lines (ofLines symbols lines) := by
  induction lines using List.reverseRecOn with
  | nil => exact of_start
  | append_singleton lines line ih =>
      unfold ofLines at ih ⊢
      rw [List.foldl_append]
      exact of_enter ih line

/- Without generated lines nothing is hoisted. -/
theorem hoisted_eq_nil_iff
    {lines : List Line}
    {h : Hoist}
    (hOf : Of symbols lines h) :
    h.hoisted = [] ↔
      ∀ line ∈ lines, generatedDeclLine symbols line = false := by
  constructor
  · intro hNone line hMem
    by_contra hGenerated
    have hSeen : strip line ∈ h.seen :=
      (hOf.mem (strip line)).mpr
        ⟨line, hMem, by simpa using hGenerated, rfl⟩
    rw [hOf.seen, hNone] at hSeen
    cases hSeen
  · intro hNone
    rw [List.eq_nil_iff_forall_not_mem]
    intro line hMem
    have hGenerated := hOf.generated line hMem
    rw [hNone line (hOf.sublist.subset hMem)] at hGenerated
    cases hGenerated

end Hoist

------------------------------------------------------------
-- The Lines Of The Output
------------------------------------------------------------

/- A line feed more does not change what `strip` leaves. -/
theorem strip_append_newline (line : Text) :
    strip (line ++ ['\n']) = strip line := by
  have hSpace : isSpace '\n' = true := by decide
  unfold strip
  rw [List.dropWhile_append]
  cases hRest : line.dropWhile isSpace with
  | nil => simp [hSpace]
  | cons c rest => simp [hSpace]

/-
  The hoisted lines as they stand in the output: an open
  last one is closed by the blank line behind it.
-/
theorem cut_hoisted
    {hoisted rest : List Line}
    (hCut : Cut hoisted)
    (hSome : hoisted ≠ [])
    (hReturn :
      ∀ line ∈ hoisted, line.getLast? ≠ some '\r')
    (hRest : Cut rest) :
    ∃ declarations blank,
      Cut (declarations ++ (blank ++ rest)) ∧
        (declarations ++ (blank ++ rest)).flatten =
          (hoisted ++ (['\n'] :: rest)).flatten ∧
        declarations.map strip = hoisted.map strip ∧
        (blank = [] ∨ blank = [['\n']]) := by
  have hFeed : isLineBreak '\n' = true := by decide
  rcases List.eq_nil_or_concat hoisted with
    hNone | ⟨front, last, hAll⟩
  · exact absurd hNone hSome
  rw [List.concat_eq_append] at hAll
  subst hAll
  have hFront : ∀ line ∈ front, Closed line :=
    hCut.closed_of_append (by simp)
  have hFrontReturn :
      ∀ line ∈ front, line.getLast? ≠ some '\r' :=
    fun line hMem => hReturn line (List.mem_append_left _ hMem)
  rcases hCut.closed_or_open last (by simp) with
    hClosed | ⟨hLine, hNe⟩
  · refine ⟨front ++ [last], [['\n']], ?_, rfl, rfl,
      Or.inr rfl⟩
    have hBlank : Cut ([['\n']] ++ rest) := by
      apply Cut.append _ _ hRest
      · intro line hMem
        rw [List.mem_singleton.mp hMem]
        exact
          Closed.single
            (fun c hNone => absurd hNone List.not_mem_nil) hFeed
      · intro line hMem
        rw [List.mem_singleton.mp hMem]
        decide
    apply Cut.append _ hReturn hBlank
    intro line hMem
    rcases List.mem_append.mp hMem with hOld | hNew
    · exact hFront line hOld
    · rw [List.mem_singleton.mp hNew]
      exact hClosed
  · refine ⟨front ++ [last ++ ['\n']], [], ?_, by simp, ?_,
      Or.inl rfl⟩
    · apply Cut.append _ _ hRest
      · intro line hMem
        rcases List.mem_append.mp hMem with hOld | hNew
        · exact hFront line hOld
        · rw [List.mem_singleton.mp hNew]
          exact Closed.single hLine hFeed
      · intro line hMem
        rcases List.mem_append.mp hMem with hOld | hNew
        · exact hFrontReturn line hOld
        · rw [List.mem_singleton.mp hNew]
          simp
    · simp [strip_append_newline]

/- The lines of the output, in terms of the loop. -/
theorem keepLines_hoist
    {symbols : List Text}
    {ptx : Text}
    {h : Hoist}
    (hOf : h.Of symbols (keepLines ptx))
    (hSome : h.hoisted ≠ [])
    {insertAt : Nat}
    (hInsert :
      h.kept.findIdx? isFunctionOrEntry = some insertAt)
    (hReturn :
      ∀ line ∈ keepLines ptx, line.getLast? ≠ some '\r') :
    ∃ declarations blank,
      keepLines
          (h.kept.take insertAt ++ h.hoisted ++ [['\n']] ++
            h.kept.drop insertAt).flatten =
        h.kept.take insertAt ++
          (declarations ++ (blank ++ h.kept.drop insertAt)) ∧
        declarations.map strip = h.hoisted.map strip ∧
        (blank = [] ∨ blank = [['\n']]) := by
  have hCut := cut_keepLines ptx
  have hKeptSub : h.kept.Sublist (keepLines ptx) := by
    rw [hOf.kept]
    exact List.filter_sublist
  have hKept : Cut h.kept := hCut.sublist hReturn hKeptSub
  have hHoisted : Cut h.hoisted :=
    hCut.sublist hReturn hOf.sublist
  have hAfter : h.kept.drop insertAt ≠ [] := by
    have hBound := (List.findIdx?_eq_some_iff_getElem.mp
      hInsert).1
    intro hNone
    rw [List.drop_eq_nil_iff] at hNone
    omega
  have hRest : Cut (h.kept.drop insertAt) :=
    hCut.sublist hReturn
      ((List.drop_sublist _ _).trans hKeptSub)
  have hFront :
      ∀ line ∈ h.kept.take insertAt, Closed line := by
    apply Cut.closed_of_append _ hAfter
    rw [List.take_append_drop]
    exact hKept
  rcases cut_hoisted hHoisted hSome
      (fun line hMem =>
        hReturn line (hOf.sublist.subset hMem)) hRest with
    ⟨declarations, blank, hMiddle, hFlat, hStrip, hBlank⟩
  refine ⟨declarations, blank, ?_, hStrip, hBlank⟩
  have hAll :
      Cut (h.kept.take insertAt ++
        (declarations ++ (blank ++ h.kept.drop insertAt))) := by
    apply Cut.append hFront _ hMiddle
    intro line hMem
    exact
      hReturn line
        (hKeptSub.subset (List.mem_of_mem_take hMem))
  have hSame :
      (h.kept.take insertAt ++ h.hoisted ++ [['\n']] ++
          h.kept.drop insertAt).flatten =
        (h.kept.take insertAt ++
          (declarations ++
            (blank ++ h.kept.drop insertAt))).flatten := by
    have hOuter :
        (h.kept.take insertAt ++
            (declarations ++
              (blank ++ h.kept.drop insertAt))).flatten =
          (h.kept.take insertAt).flatten ++
            (declarations ++
              (blank ++ h.kept.drop insertAt)).flatten :=
      List.flatten_append
    rw [hOuter, hFlat]
    simp
  rw [hSame]
  exact keepLines_flatten hAll

------------------------------------------------------------
-- Nothing Is Lost
------------------------------------------------------------

/-
  The output consists of the other lines in their order and
  of each generated declaration once, in front of the first
  function or entry line, with at most one blank line more.
-/
def Lossless
    (symbols : List Text)
    (ptx output : Text) : Prop :=
  ∃ before declarations blank after : List Line,
    keepLines output =
        before ++ (declarations ++ (blank ++ after)) ∧
      before ++ after =
        (keepLines ptx).filter
          (fun line => !generatedDeclLine symbols line) ∧
      (∀ line ∈ before, isFunctionOrEntry line = false) ∧
      (∃ header rest,
        after = header :: rest ∧
          isFunctionOrEntry header = true) ∧
      (declarations.map strip).Nodup ∧
      (∀ key, key ∈ declarations.map strip ↔
        ∃ line ∈ keepLines ptx,
          generatedDeclLine symbols line = true ∧
            strip line = key) ∧
      (blank = [] ∨ blank = [['\n']])

section

variable {symbols : List Text} {ptx : Text} {h : Hoist}

/- The header is among the kept lines. -/
theorem exists_insertAt
    (hOf : h.Of symbols (keepLines ptx))
    (hHeader :
      ∃ line ∈ keepLines ptx,
        isFunctionOrEntry line = true ∧
          generatedDeclLine symbols line = false) :
    ∃ insertAt,
      h.kept.findIdx? isFunctionOrEntry = some insertAt := by
  rcases hHeader with ⟨line, hMem, hFunction, hOwn⟩
  apply Option.isSome_iff_exists.mp
  rw [List.findIdx?_isSome, List.any_eq_true]
  refine ⟨line, ?_, hFunction⟩
  rw [hOf.kept, List.mem_filter]
  simp [hMem, hOwn]

/- The kept lines on either side of the first header. -/
theorem kept_split
    {insertAt : Nat}
    (hInsert :
      h.kept.findIdx? isFunctionOrEntry = some insertAt) :
    (∀ line ∈ h.kept.take insertAt,
        isFunctionOrEntry line = false) ∧
      ∃ header rest,
        h.kept.drop insertAt = header :: rest ∧
          isFunctionOrEntry header = true := by
  rcases List.findIdx?_eq_some_iff_getElem.mp hInsert with
    ⟨hBound, hHere, hBefore⟩
  constructor
  · intro line hMem
    rcases List.mem_take_iff_getElem.mp hMem with
      ⟨index, hIndex, hLine⟩
    rw [← hLine]
    simpa using hBefore index (by omega)
  · exact
      ⟨h.kept[insertAt], h.kept.drop (insertAt + 1),
        List.drop_eq_getElem_cons hBound, hHere⟩

/- A text without generated lines. -/
theorem lossless_self
    (hOf : h.Of symbols (keepLines ptx))
    (hNone : h.hoisted = [])
    (hHeader :
      ∃ line ∈ keepLines ptx,
        isFunctionOrEntry line = true ∧
          generatedDeclLine symbols line = false) :
    Lossless symbols ptx ptx := by
  have hPlain := (Hoist.hoisted_eq_nil_iff hOf).mp hNone
  have hKept : h.kept = keepLines ptx := by
    rw [hOf.kept, List.filter_eq_self]
    intro line hMem
    simp [hPlain line hMem]
  rcases exists_insertAt hOf hHeader with ⟨insertAt, hInsert⟩
  rcases kept_split hInsert with ⟨hBefore, hAfter⟩
  refine ⟨h.kept.take insertAt, [], [], h.kept.drop insertAt,
    ?_, ?_, hBefore, hAfter, List.nodup_nil, ?_, Or.inl rfl⟩
  · simp [hKept]
  · rw [List.take_append_drop]
    exact hOf.kept
  · intro key
    constructor
    · intro hMem
      cases hMem
    · rintro ⟨line, hMem, hGenerated, -⟩
      rw [hPlain line hMem] at hGenerated
      cases hGenerated

/- A text with generated lines. -/
theorem lossless_hoisted
    (hOf : h.Of symbols (keepLines ptx))
    (hSome : h.hoisted ≠ [])
    {insertAt : Nat}
    (hInsert :
      h.kept.findIdx? isFunctionOrEntry = some insertAt)
    (hReturn :
      ∀ line ∈ keepLines ptx, line.getLast? ≠ some '\r') :
    Lossless symbols ptx
      (h.kept.take insertAt ++ h.hoisted ++ [['\n']] ++
        h.kept.drop insertAt).flatten := by
  rcases keepLines_hoist hOf hSome hInsert hReturn with
    ⟨declarations, blank, hLines, hStrip, hBlank⟩
  rcases kept_split hInsert with ⟨hBefore, hAfter⟩
  refine ⟨h.kept.take insertAt, declarations, blank,
    h.kept.drop insertAt, hLines, ?_, hBefore, hAfter, ?_, ?_,
    hBlank⟩
  · rw [List.take_append_drop]
    exact hOf.kept
  · rw [hStrip, ← hOf.seen]
    exact hOf.nodup
  · intro key
    rw [hStrip, ← hOf.seen]
    exact hOf.mem key

end

/-
  Hoisting loses nothing in texts with a function or entry
  line of their own, if no line ends with a lone carriage
  return, and leaves texts without generated declarations as
  they are.
-/
theorem hoist_lossless
    (ptx : Text)
    (symbols : List Text)
    (hHeader :
      ∃ line ∈ keepLines ptx,
        isFunctionOrEntry line = true ∧
          generatedDeclLine symbols line = false)
    (hReturn :
      ∀ line ∈ keepLines ptx, line.getLast? ≠ some '\r') :
    Lossless symbols ptx (hoistGeneratedDecls ptx symbols) ∧
      ((∀ line ∈ keepLines ptx,
          generatedDeclLine symbols line = false) →
        hoistGeneratedDecls ptx symbols = ptx) := by
  have hOf := Hoist.of_ofLines symbols (keepLines ptx)
  unfold hoistGeneratedDecls
  dsimp only
  generalize Hoist.ofLines symbols (keepLines ptx) = h at hOf ⊢
  by_cases hNone : h.hoisted = []
  · rw [if_pos (by simpa using hNone)]
    exact ⟨lossless_self hOf hNone hHeader, fun _ => rfl⟩
  · rw [if_neg (by simpa using hNone)]
    rcases exists_insertAt hOf hHeader with ⟨insertAt, hInsert⟩
    rw [hInsert]
    constructor
    · exact lossless_hoisted hOf hNone hInsert hReturn
    · intro hPlain
      exact
        absurd ((Hoist.hoisted_eq_nil_iff hOf).mpr hPlain) hNone

/- The declarations behind the function that reads them. -/
def sendRecvModule : Text :=
  (".version 8.7\n.visible .func SendRecv()\n\x7b\n" ++
    "ld.const.u32 %r1, [launchIndex];\nret;\n\x7d\n" ++
    ".global .u64 __neutrino_map_ptr_0;\n" ++
    ".const .u32 launchIndex;\n" ++
    ".global .u64 __neutrino_map_ptr_0;").toList

/- They are written in front of it, each once. -/
theorem hoist_lossless_sendRecv :
    Lossless ["launchIndex".toList] sendRecvModule
      (hoistGeneratedDecls sendRecvModule
        ["launchIndex".toList]) :=
  (hoist_lossless sendRecvModule ["launchIndex".toList]
    ⟨".visible .func SendRecv()\n".toList,
      by decide +kernel, by decide +kernel, by decide +kernel⟩
    (by decide +kernel)).1

/- A declaration between a lone return and a line feed. -/
def loneReturnModule : Text :=
  ("// a\r.global .u64 __neutrino_map_ptr_0;\n" ++
    "\n.func f()\n").toList

/- Without the declaration the two breaks become one. -/
theorem hoist_merges_lone_return :
    (∃ line ∈ keepLines loneReturnModule,
        isFunctionOrEntry line = true ∧
          generatedDeclLine [] line = false) ∧
      ¬ Lossless [] loneReturnModule
        (hoistGeneratedDecls loneReturnModule []) := by
  constructor
  · exact
      ⟨".func f()\n".toList, by decide +kernel,
        by decide +kernel, by decide +kernel⟩
  · rintro ⟨before, declarations, blank, after, hLines, hKept, -⟩
    have hComment : "// a\r".toList ∈ before ++ after := by
      rw [hKept]
      decide +kernel
    have hOutput :
        "// a\r".toList ∈
          keepLines (hoistGeneratedDecls loneReturnModule []) := by
      rw [hLines]
      rcases List.mem_append.mp hComment with hBefore | hAfter
      · exact List.mem_append_left _ hBefore
      · exact
          List.mem_append_right _
            (List.mem_append_right _
              (List.mem_append_right _ hAfter))
    revert hOutput
    decide +kernel

end Nccl

end FabricPerf
