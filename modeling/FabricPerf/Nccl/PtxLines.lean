import FabricPerf.Lib.Scanner

/-
  The lines of a PTX module as the devFunc prober and a
  thread see them.

  The matchers are the regular expressions of the prober,
  one scanner a group; each keeps the text behind its match,
  which the expression itself ignores. PTX source is ASCII,
  so `\d` is a decimal digit.

  Main declarations:
    * `ncclDirectDispatchSet`
    * `ncclPredicatedBra`
    * `ncclUnconditionalBra`
    * `Statement`
    * `decode`
    * `decode_predicatedLine`
    * `decode_uniLine`
-/

namespace FabricPerf

namespace Nccl

open Text

/- A line of the module. -/
abbrev Line := Text

/- A register, by its name in the text. -/
abbrev Register := Text

------------------------------------------------------------
-- Compares And Branches
------------------------------------------------------------

/- The two compares NCCL dispatches on. -/
inductive CompareOp where
| eq
| ne
deriving DecidableEq, Repr

/- `eq|ne`. -/
def CompareOp.scan (s : Text) : Option (CompareOp × Text) :=
  ((literal "eq" s).map (CompareOp.eq, ·)).or
    ((literal "ne" s).map (CompareOp.ne, ·))

/- The groups of `NCCL_DIRECT_DISPATCH_SET_RE`. -/
structure DispatchSet where
  op : CompareOp
  pred : Register
  src : Register
  funcId : Nat
  rest : Text
deriving DecidableEq, Repr

/- `setp.(eq|ne).s16 %p, %rs, <funcId>;` -/
def ncclDirectDispatchSet
    (line : Line) : Option DispatchSet := do
  let s ← literal "setp." (skipSpaces line)
  let (op, s) ← CompareOp.scan s
  let s ← literal ".s16" s
  let s ← spaces s
  let (pred, s) ← numbered "%p" s
  let s ← literal "," s
  let s ← spaces s
  let (src, s) ← numbered "%rs" s
  let s ← literal "," s
  let (funcId, s) ← digits (skipSpaces s)
  let s ← literal ";" s
  some ⟨op, pred, src, intOf funcId, s⟩

/- The groups of `NCCL_PREDICATED_BRA_RE`. -/
structure PredicatedBra where
  indent : Text
  pred : Register
  target : Text
  rest : Text
deriving DecidableEq, Repr

/- `@%p bra <target>;` -/
def ncclPredicatedBra
    (line : Line) : Option PredicatedBra := do
  let s ← literal "@" (skipSpaces line)
  let (pred, s) ← numbered "%p" s
  let s ← spaces s
  let s ← literal "bra" s
  let (target, s) ← operand s
  some ⟨line.takeWhile isSpace, pred, target, s⟩

/- The groups of `NCCL_UNCONDITIONAL_BRA_RE`. -/
structure UnconditionalBra where
  target : Text
  rest : Text
deriving DecidableEq, Repr

/- `bra.uni <target>;` -/
def ncclUnconditionalBra
    (line : Line) : Option UnconditionalBra := do
  let s ← literal "bra.uni" (skipSpaces line)
  let (target, s) ← operand s
  some ⟨target, s⟩

------------------------------------------------------------
-- The Function Table
------------------------------------------------------------

/- `NCCL_TABLE_CVT_RE`: destination and source. -/
def ncclTableCvt
    (line : Line) : Option (Register × Register) := do
  let s ← literal "cvt.u32.u16" (skipSpaces line)
  let s ← spaces s
  let (dst, s) ← numbered "%r" s
  let s ← literal "," s
  let (src, s) ← numbered "%rs" (skipSpaces s)
  let _ ← literal ";" s
  some (dst, src)

/- `NCCL_TABLE_MUL_RE`: destination and source. -/
def ncclTableMul
    (line : Line) : Option (Register × Register) := do
  let s ← literal "mul.wide.u32" (skipSpaces line)
  let s ← spaces s
  let (dst, s) ← numbered "%rd" s
  let s ← literal "," s
  let (src, s) ← numbered "%r" (skipSpaces s)
  let s ← literal "," s
  let _ ← literal "8;" (skipSpaces s)
  some (dst, src)

/- `NCCL_TABLE_MOV_RE`: destination. -/
def ncclTableMov (line : Line) : Option Register := do
  let s ← literal "mov.u64" (skipSpaces line)
  let s ← spaces s
  let (dst, s) ← numbered "%rd" s
  let s ← literal "," s
  let _ ← literal "ncclDevFuncTable;" (skipSpaces s)
  some dst

/- `NCCL_TABLE_ADD_RE`: destination, table and offset. -/
def ncclTableAdd
    (line : Line) :
    Option (Register × Register × Register) := do
  let s ← literal "add.s64" (skipSpaces line)
  let s ← spaces s
  let (dst, s) ← numbered "%rd" s
  let s ← literal "," s
  let (table, s) ← numbered "%rd" (skipSpaces s)
  let s ← literal "," s
  let (offset, s) ← numbered "%rd" (skipSpaces s)
  let _ ← literal ";" s
  some (dst, table, offset)

/- `NCCL_TABLE_LD_RE`: destination and address. -/
def ncclTableLd
    (line : Line) : Option (Register × Register) := do
  let s ← literal "ld.global.u64" (skipSpaces line)
  let s ← spaces s
  let (dst, s) ← numbered "%rd" s
  let s ← literal "," s
  let s ← literal "[" (skipSpaces s)
  let (addr, s) ← numbered "%rd" s
  let _ ← literal "];" s
  some (dst, addr)

/-
  The 16-bit register that indexes `ncclDevFuncTable` in the
  five lines of a table load, as the prober chains them.
-/
def tableIndexRegister : List Line → Option Register
| cvtLine :: mulLine :: movLine :: addLine :: ldLine :: _ => do
    let (cvtDst, cvtSrc) ← ncclTableCvt cvtLine
    let (mulDst, mulSrc) ← ncclTableMul mulLine
    let movDst ← ncclTableMov movLine
    let (addDst, addTable, addOffset) ← ncclTableAdd addLine
    let (_, ldAddr) ← ncclTableLd ldLine
    if mulSrc = cvtDst ∧ addTable = movDst ∧
        addOffset = mulDst ∧ ldAddr = addDst then
      some cvtSrc
    else
      none
| _ => none

------------------------------------------------------------
-- Statements
------------------------------------------------------------

/- A text without a statement: blank or a comment. -/
def isSkipped (s : Text) : Bool :=
  (skipSpaces s).isEmpty || (literal "//" (skipSpaces s)).isSome

/- The characters of a PTX identifier. -/
def isNameChar (c : Char) : Bool :=
  c.isAlphanum || c == '_' || c == '$' || c == '%'

/- The label a line starts with. -/
def labelOf (line : Line) : Option Text :=
  let name := (skipSpaces line).takeWhile isNameChar
  let rest := (skipSpaces line).dropWhile isNameChar
  if name.isEmpty then
    none
  else
    (literal ":" (skipSpaces rest)).map fun _ => name

/- `\b` behind a word: no word character follows. -/
def atWordEnd (s : Text) : Bool :=
  match s with
  | [] => true
  | c :: _ => !(c.isAlphanum || c == '_')

/- `PTX_FUNCTION_OR_ENTRY_RE` -/
def isFunctionOrEntry (line : Line) : Bool :=
  let start := skipSpaces line
  let start := ((literal ".visible" start).bind spaces).getD start
  ((literal ".func" start).any atWordEnd) ||
    ((literal ".entry" start).any atWordEnd)

/- What a thread does at a line. -/
inductive Statement where
| setp (op : CompareOp) (pred src : Register) (imm : Nat)
| braPred (pred : Register) (target : Text)
| braUni (target : Text)
| other
deriving DecidableEq, Repr

/-
  A compare or a branch is read off a line that holds nothing
  behind its semicolon; every other line is left to the rest
  of the machine.
-/
def decode (line : Line) : Statement :=
  match ncclDirectDispatchSet line with
  | some m =>
      if isSkipped m.rest then
        Statement.setp m.op m.pred m.src m.funcId
      else
        Statement.other
  | none =>
      match ncclPredicatedBra line with
      | some m =>
          if isSkipped m.rest then
            Statement.braPred m.pred m.target
          else
            Statement.other
      | none =>
          match ncclUnconditionalBra line with
          | some m =>
              if isSkipped m.rest then
                Statement.braUni m.target
              else
                Statement.other
          | none => Statement.other

------------------------------------------------------------
-- Matched Lines
------------------------------------------------------------

/- What a matched predicated branch is made of. -/
theorem ncclPredicatedBra_eq_some
    {line : Line}
    {m : PredicatedBra}
    (hMatch : ncclPredicatedBra line = some m) :
    (∃ s, skipSpaces line = '@' :: s) ∧
      m.indent = line.takeWhile isSpace ∧
      IsNumbered "%p" m.pred ∧
      IsOperand m.target ∧
      m.target ⊆ line := by
  simp only [ncclPredicatedBra, bind, Option.bind_eq_some_iff,
    Prod.exists, Option.some.injEq] at hMatch
  rcases hMatch with
    ⟨s, hAt, pred, s₁, hPred, s₂, hSpaces, s₃, hBra, target,
      s₄, hTarget, hEq⟩
  subst hEq
  have hStart := literal_eq_some hAt
  have hPredText := numbered_eq_some hPred
  have hSub : s₃ ⊆ line := by
    have hBraText := literal_eq_some hBra
    have hInner : s₃ ⊆ s₂ := by
      rw [hBraText]
      exact List.subset_append_right _ _
    have hTail : s₁ ⊆ s := by
      rw [hPredText.1]
      exact List.subset_append_right _ _
    have hFront : s ⊆ skipSpaces line := by
      rw [hStart]
      exact List.subset_append_right _ _
    have hBehind : s₃ ⊆ s :=
      List.Subset.trans hInner
        (List.Subset.trans (spaces_subset hSpaces) hTail)
    exact
      List.Subset.trans hBehind
        (List.Subset.trans hFront (skipSpaces_subset line))
  constructor
  · exact ⟨s, hStart⟩
  · constructor
    · rfl
    · constructor
      · exact hPredText.2
      · constructor
        · exact ⟨s₃, s₄, hTarget⟩
        · exact List.Subset.trans (operand_eq_some hTarget).1 hSub

/- What a matched unconditional branch is made of. -/
theorem ncclUnconditionalBra_eq_some
    {line : Line}
    {m : UnconditionalBra}
    (hMatch : ncclUnconditionalBra line = some m) :
    IsOperand m.target ∧ m.target ⊆ line := by
  simp only [ncclUnconditionalBra, bind,
    Option.bind_eq_some_iff, Prod.exists,
    Option.some.injEq] at hMatch
  rcases hMatch with ⟨s, hBra, target, s₁, hTarget, hEq⟩
  subst hEq
  have hSub : s ⊆ line := by
    have hFront : s ⊆ skipSpaces line := by
      rw [literal_eq_some hBra]
      exact List.subset_append_right _ _
    exact List.Subset.trans hFront (skipSpaces_subset line)
  constructor
  · exact ⟨s, s₁, hTarget⟩
  · exact List.Subset.trans (operand_eq_some hTarget).1 hSub

------------------------------------------------------------
-- Written Lines
------------------------------------------------------------

/- `// OLD: ` and the old line without its white space. -/
def oldLine (indent : Text) (line : Line) : Line :=
  indent ++ "// OLD: ".toList ++ strip line

/- A predicated branch as the prober writes it. -/
def predicatedLine
    (indent : Text)
    (pred : Register)
    (target : Text) : Line :=
  indent ++ '@' :: (pred ++ " bra ".toList ++ target ++ [';'])

/- An unconditional branch as the prober writes it. -/
def uniLine
    (indent : Text)
    (target : Text) : Line :=
  indent ++ "bra.uni ".toList ++ target ++ [';']

/-
  A line that starts with the guard of a predicate is a
  statement, no label and no function header, and no compare.
-/
theorem guarded_line
    {line : Line}
    {s : Text}
    (hStart : skipSpaces line = '@' :: s) :
    isSkipped line = false ∧ labelOf line = none ∧
      isFunctionOrEntry line = false ∧
      ncclDirectDispatchSet line = none := by
  constructor
  · simp [isSkipped, hStart, literal, List.dropPrefix?]
  · constructor
    · have hAt : isNameChar '@' = false := by decide
      simp [labelOf, hStart, hAt]
    · constructor
      · simp [isFunctionOrEntry, hStart, literal, List.dropPrefix?]
      · simp [ncclDirectDispatchSet, hStart, literal,
          List.dropPrefix?]

theorem skipSpaces_predicatedLine
    {indent : Text}
    (pred : Register)
    (target : Text)
    (hIndent : ∀ c ∈ indent, isSpace c = true) :
    skipSpaces (predicatedLine indent pred target) =
      '@' :: (pred ++ " bra ".toList ++ target ++ [';']) :=
  skipSpaces_append _ hIndent (by decide)

theorem skipSpaces_uniLine
    {indent : Text}
    (target : Text)
    (hIndent : ∀ c ∈ indent, isSpace c = true) :
    skipSpaces (uniLine indent target) =
      "bra.uni ".toList ++ (target ++ [';']) := by
  rw [uniLine, List.append_assoc, List.append_assoc]
  exact skipSpaces_append _ hIndent (by decide)

/- The written predicated branch is decoded as one. -/
theorem decode_predicatedLine
    {indent : Text}
    {pred : Register}
    {target : Text}
    (hIndent : ∀ c ∈ indent, isSpace c = true)
    (hPred : IsNumbered "%p" pred)
    (hTarget : IsOperand target) :
    decode (predicatedLine indent pred target) =
      Statement.braPred pred target := by
  have hSkip := skipSpaces_predicatedLine pred target hIndent
  have hAt :
      literal "@" (skipSpaces (predicatedLine indent pred target)) =
        some (pred ++ " bra ".toList ++ target ++ [';']) := by
    rw [hSkip]
    exact literal_append "@" _
  have hNumber :
      numbered "%p" (pred ++ " bra ".toList ++ target ++ [';']) =
        some (pred, " bra ".toList ++ (target ++ [';'])) := by
    rw [List.append_assoc, List.append_assoc]
    exact numbered_append hPred (by simp [Char.isDigit])
  have hSpaces :
      spaces (" bra ".toList ++ (target ++ [';'])) =
        some ("bra".toList ++ ' ' :: (target ++ [';'])) := by
    simp [spaces, skipSpaces, isSpace]
  simp only [decode, (guarded_line hSkip).2.2.2,
    ncclPredicatedBra, hAt, hNumber, hSpaces, literal_append,
    operand_render hTarget, bind, Option.bind_some]
  simp [isSkipped, skipSpaces]

end Nccl

end FabricPerf
