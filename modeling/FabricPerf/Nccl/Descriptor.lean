import FabricPerf.Nccl.Table
import Mathlib.Data.List.DropRight
import Mathlib.Data.List.Infix

/-
  What the table reads back from the mangled names of
  kernels and device functions.

  The descriptor of a kernel is followed by a decimal length
  and no separator.  The shortest match ends in front of the
  first digits that reach the argument type, so digits at the
  end of the descriptor are taken for the length.

  Main declarations:
    * `Nccl.kernelDescriptor_mangled`
    * `Nccl.devFuncDescriptor_mangled`
    * `Nccl.descriptor_exact_iff`
-/

namespace FabricPerf

namespace Nccl

open Text

------------------------------------------------------------
-- Mangled Names
------------------------------------------------------------

/- The name of the argument type, which ends a descriptor. -/
def argsStorage : Text :=
  "ncclDevKernelArgsStorage".toList

/- Letters, digits and underscores, at least one of them. -/
structure WordText where
  text : Text
  ne_nil : text ≠ []
  word : ∀ c ∈ text, isWord c = true

/-
  The descriptor of a kernel, without the argument type's
  name in it.
-/
structure Descriptor extends WordText where
  no_storage : ¬ argsStorage <:+: text

/- A decimal number in a mangled name. -/
structure Decimal where
  text : Text
  ne_nil : text ≠ []
  digit : ∀ c ∈ text, c.isDigit = true

/- `_Z<n>` -/
def mangledPrefix (n : Decimal) : Text :=
  "_Z".toList ++ n.text

/- The mangled name of a kernel. -/
structure MangledKernel where
  nameLength : Decimal
  descriptor : Descriptor
  argsLength : Decimal
  suffix : Text

/-
  `_Z<n>ncclDevKernel_<D><l>ncclDevKernelArgsStorage...`
-/
def MangledKernel.name (k : MangledKernel) : Text :=
  mangledPrefix k.nameLength ++ "ncclDevKernel_".toList ++
    k.descriptor.text ++ k.argsLength.text ++ argsStorage ++
      k.suffix

/- The mangled name of a device function. -/
structure MangledDevFunc where
  nameLength : Decimal
  descriptor : WordText

/- `_Z<m>ncclDevFunc_<E>v` -/
def MangledDevFunc.name (f : MangledDevFunc) : Text :=
  mangledPrefix f.nameLength ++ "ncclDevFunc_".toList ++
    f.descriptor.text ++ ['v']

------------------------------------------------------------
-- The Two Prefixes
------------------------------------------------------------

/- A character no literal of the table starts with. -/
theorem literal_cons_of_ne
    {lit : String}
    {c d : Char}
    {tail rest : Text}
    (hLit : lit.toList = d :: tail)
    (hNe : c ≠ d) :
    literal lit (c :: rest) = none := by
  cases hScan : literal lit (c :: rest) with
  | none => rfl
  | some found =>
      have hText := literal_eq_some hScan
      rw [hLit] at hText
      simp only [List.cons_append, List.cons.injEq] at hText
      exact absurd hText.1 hNe

/- A digit is none of the letters of the type's name. -/
theorem not_digit_of_mem_argsStorage :
    ∀ c ∈ argsStorage, c.isDigit = false := by
  intro c hMem
  have hAll : argsStorage.all (fun c => !c.isDigit) = true := by
    decide
  have hLetter := List.all_eq_true.mp hAll c hMem
  simpa using hLetter

/- The search starts behind `_Z` and the length. -/
theorem mem_mangledPrefix
    {n : Decimal}
    {c : Char}
    (hMem : c ∈ mangledPrefix n) :
    c ≠ 'n' := by
  intro hEq
  subst hEq
  rcases List.mem_append.mp hMem with hLetters | hDigits
  · simp at hLetters
  · have hDigit := n.digit 'n' hDigits
    exact absurd hDigit (by decide)

/- Both searches skip the prefix of a mangled name. -/
theorem search_mangled
    {lit : String}
    (tail : Text)
    (hLit : lit.toList = 'n' :: tail)
    (scan : Text → Option Text)
    (n : Decimal)
    (s : Text) :
    search (fun s => (literal lit s).bind scan)
        (mangledPrefix n ++ (lit.toList ++ s)) =
      search (fun s => (literal lit s).bind scan)
        (lit.toList ++ s) := by
  apply search_skip
  intro c hMem rest
  rw [literal_cons_of_ne hLit (mem_mangledPrefix hMem),
    Option.bind_none]

------------------------------------------------------------
-- Kernels
------------------------------------------------------------

namespace Descriptor

/-
  What the kernel name gives back of a descriptor: its first
  character, and the rest up to its trailing digits.
-/
def readBack (d : Descriptor) : Text :=
  d.text.take 1 ++ (d.text.drop 1).rdropWhile Char.isDigit

/- What the length takes of a descriptor. -/
def trailingDigits (d : Descriptor) : Text :=
  (d.text.drop 1).rtakeWhile Char.isDigit

/- The two make up the descriptor. -/
theorem readBack_append (d : Descriptor) :
    d.readBack ++ d.trailingDigits = d.text := by
  rw [readBack, trailingDigits, List.append_assoc,
    List.rdropWhile_append_rtakeWhile, List.take_append_drop]

/-
  The descriptor comes back whole unless it is longer than
  one character and ends in a digit.
-/
theorem readBack_eq_iff (d : Descriptor) :
    d.readBack = d.text ↔
      (d.text.getLast d.ne_nil).isDigit = false ∨
        d.text.length = 1 := by
  rcases d with ⟨⟨text, hSome, hWord⟩, hNone⟩
  cases text with
  | nil => contradiction
  | cons c rest =>
      cases rest with
      | nil => simp [readBack]
      | cons e rest =>
          simp [readBack]

/- It is never empty. -/
theorem readBack_ne_nil (d : Descriptor) :
    d.readBack ≠ [] := by
  rcases d with ⟨⟨text, hSome, hWord⟩, hNone⟩
  cases text with
  | nil => contradiction
  | cons c rest => simp [readBack]

/-
  Cut off anywhere behind the first character, what comes
  back ends in no digit.
-/
theorem getLast_not_digit
    (d : Descriptor)
    {before after : Text}
    (hSplit : d.readBack = before ++ after)
    (hBefore : before ≠ [])
    (hAfter : after ≠ []) :
    (after.getLast hAfter).isDigit = false := by
  rcases List.exists_cons_of_ne_nil d.ne_nil with
    ⟨c, rest, hText⟩
  rcases List.exists_cons_of_ne_nil hBefore with
    ⟨e, more, hMore⟩
  have hKept :
      rest.rdropWhile Char.isDigit = more ++ after := by
    simp only [readBack, hText, hMore, List.take_succ_cons,
      List.take_zero, List.drop_succ_cons, List.drop_zero,
      List.cons_append, List.nil_append,
      List.cons.injEq] at hSplit
    exact hSplit.2
  have hKeptSome : rest.rdropWhile Char.isDigit ≠ [] := by
    simp [hKept, hAfter]
  have hLast :=
    List.rdropWhile_last_not Char.isDigit rest hKeptSome
  simpa [hKept, List.getLast_append_of_ne_nil, hAfter] using
    hLast

/-
  The argument type's name does not start inside the
  descriptor, also not to go on into the length.
-/
theorem literal_storage_eq_none
    (d : Descriptor)
    (n : Decimal)
    {w : Text}
    (hSuffix : w <:+ d.text)
    (rest : Text) :
    literal "ncclDevKernelArgsStorage" (w ++ (n.text ++ rest)) =
      none := by
  cases hScan :
      literal "ncclDevKernelArgsStorage"
        (w ++ (n.text ++ rest)) with
  | none => rfl
  | some tail =>
      have hText : w ++ (n.text ++ rest) = argsStorage ++ tail :=
        literal_eq_some hScan
      rcases List.exists_cons_of_ne_nil n.ne_nil with
        ⟨digit, more, hDigits⟩
      have hDigit : digit.isDigit = true :=
        n.digit digit (by simp [hDigits])
      rcases List.append_eq_append_iff.mp hText with
        ⟨inside, hStorage, hRest⟩ | ⟨inside, hWord, hRest⟩
      · cases inside with
        | nil =>
            rw [List.append_nil] at hStorage
            have hInfix : argsStorage <:+: d.text := by
              rw [hStorage]
              exact hSuffix.isInfix
            exact absurd hInfix d.no_storage
        | cons c inside =>
            have hFirst : c = digit := by
              simp only [hDigits, List.cons_append,
                List.cons.injEq] at hRest
              exact hRest.1.symm
            have hLetter :=
              not_digit_of_mem_argsStorage c
                (by simp [hStorage])
            rw [hFirst, hDigit] at hLetter
            contradiction
      · have hInfix : argsStorage <:+: d.text := by
          have hPrefix : argsStorage <:+: w :=
            ⟨[], inside, by simp [hWord]⟩
          exact hPrefix.trans hSuffix.isInfix
        exact absurd hInfix d.no_storage

end Descriptor

namespace MangledKernel

/- What stands behind the part that comes back. -/
def behind (k : MangledKernel) : Text :=
  k.descriptor.trailingDigits ++
    (k.argsLength.text ++ (argsStorage ++ k.suffix))

/- There the descriptor can end. -/
theorem ends_behind (k : MangledKernel) :
    endsKernelDescriptor k.behind = true := by
  have hDigits :
      digits k.behind =
        some
          (k.descriptor.trailingDigits ++ k.argsLength.text,
            argsStorage ++ k.suffix) := by
    rw [behind, ← List.append_assoc]
    apply digits_append
    · simp [k.argsLength.ne_nil]
    · intro c hMem
      rcases List.mem_append.mp hMem with hTrailing | hLength
      · exact List.mem_rtakeWhile_imp hTrailing
      · exact k.argsLength.digit c hLength
    · rfl
  have hStorage :
      literal "ncclDevKernelArgsStorage"
          (argsStorage ++ k.suffix) =
        some k.suffix :=
    literal_append "ncclDevKernelArgsStorage" k.suffix
  simp [endsKernelDescriptor, hDigits, hStorage]

/- At no earlier place it can. -/
theorem not_ends_before
    (k : MangledKernel)
    {before after : Text}
    (hSplit : k.descriptor.readBack = before ++ after)
    (hBefore : before ≠ [])
    (hAfter : after ≠ []) :
    endsKernelDescriptor (after ++ k.behind) = false := by
  have hLast :=
    k.descriptor.getLast_not_digit hSplit hBefore hAfter
  have hStays : after.dropWhile Char.isDigit ≠ [] := by
    intro hNil
    have hAll := List.dropWhile_eq_nil_iff.mp hNil
    have hDigit := hAll _ (List.getLast_mem hAfter)
    rw [hLast] at hDigit
    contradiction
  have hSuffix :
      after.dropWhile Char.isDigit ++
          k.descriptor.trailingDigits <:+
        k.descriptor.text := by
    rw [← k.descriptor.readBack_append, hSplit]
    rcases List.dropWhile_suffix Char.isDigit (l := after) with
      ⟨digits, hDigits⟩
    refine ⟨before ++ digits, ?_⟩
    conv_rhs => rw [← hDigits]
    simp only [List.append_assoc]
  have hNone :
      literal "ncclDevKernelArgsStorage"
          ((after ++ k.behind).dropWhile Char.isDigit) =
        none := by
    rw [List.dropWhile_append, if_neg (by simpa using hStays),
      behind, ← List.append_assoc]
    exact
      k.descriptor.literal_storage_eq_none k.argsLength
        hSuffix (argsStorage ++ k.suffix)
  have hNotEnd : atEnd (after ++ k.behind) = false := by
    have hLong : 1 < (after ++ k.behind).length := by
      have hStorage : argsStorage.length = 24 := by decide
      simp only [behind, List.length_append, hStorage]
      omega
    cases hText : after ++ k.behind with
    | nil => simp [hText] at hLong
    | cons c rest =>
        cases rest with
        | nil => simp [hText] at hLong
        | cons e rest => simp [atEnd]
  cases hDigits : digits (after ++ k.behind) with
  | none => simp [endsKernelDescriptor, hDigits, hNotEnd]
  | some found =>
      rcases found with ⟨ds, rest⟩
      have hRest := digits_rest hDigits
      rw [← hRest] at hNone
      simp [endsKernelDescriptor, hDigits, hNotEnd, hNone]

end MangledKernel

/- What `kernel_descriptor` returns for a mangled kernel. -/
theorem kernelDescriptor_mangled (k : MangledKernel) :
    kernelDescriptor k.name = some k.descriptor.readBack := by
  have hText :
      k.name =
        mangledPrefix k.nameLength ++
          ("ncclDevKernel_".toList ++
            (k.descriptor.readBack ++ k.behind)) := by
    have hWhole := k.descriptor.readBack_append
    simp only [MangledKernel.name, MangledKernel.behind,
      List.append_assoc]
    rw [← List.append_assoc k.descriptor.readBack, hWhole]
  have hSplit :=
    List.dropLast_concat_getLast k.descriptor.readBack_ne_nil
  have hShortest :
      shortest endsKernelDescriptor
          (k.descriptor.readBack ++ k.behind) =
        some k.descriptor.readBack := by
    generalize k.descriptor.readBack.dropLast = front at hSplit
    generalize
      k.descriptor.readBack.getLast
        k.descriptor.readBack_ne_nil = c at hSplit
    have hWord : ∀ d ∈ front ++ [c], isWord d = true := by
      intro d hMem
      apply k.descriptor.word d
      rw [← k.descriptor.readBack_append, ← hSplit]
      exact List.mem_append_left _ hMem
    have hFound :=
      shortestFrom_append front hWord
        (fun before after hEq hBefore hAfter =>
          k.not_ends_before (hSplit.symm.trans hEq) hBefore
            hAfter)
        k.ends_behind []
    rw [← hSplit]
    simpa [shortest] using hFound
  rw [hText, kernelDescriptor,
    search_mangled "cclDevKernel_".toList rfl]
  apply search_of_some
  rw [literal_append, Option.bind_some, hShortest]

------------------------------------------------------------
-- Device Functions
------------------------------------------------------------

/- What `devfunc_descriptor` returns for a mangled function. -/
theorem devFuncDescriptor_mangled (f : MangledDevFunc) :
    devFuncDescriptor f.name = some f.descriptor.text := by
  have hText :
      f.name =
        mangledPrefix f.nameLength ++
          ("ncclDevFunc_".toList ++
            (f.descriptor.text ++ ['v'])) := by
    simp only [MangledDevFunc.name, List.append_assoc]
  have hWord :
      ∀ c ∈ f.descriptor.text ++ ['v'], isWord c = true := by
    intro c hMem
    rcases List.mem_append.mp hMem with hIn | hLast
    · exact f.descriptor.word c hIn
    · rw [List.mem_singleton.mp hLast]
      decide
  have hTake :
      (f.descriptor.text ++ ['v']).takeWhile isWord =
        f.descriptor.text ++ ['v'] :=
    List.takeWhile_eq_self_iff.mpr hWord
  have hDrop :
      (f.descriptor.text ++ ['v']).dropWhile isWord = [] :=
    List.dropWhile_eq_nil_iff.mpr hWord
  have hFound :
      beforeFinalV (f.descriptor.text ++ ['v']) =
        some f.descriptor.text := by
    simp [beforeFinalV, hTake, hDrop, atEnd, f.descriptor.ne_nil]
  rw [hText, devFuncDescriptor,
    search_mangled "cclDevFunc_".toList rfl]
  apply search_of_some
  rw [literal_append, Option.bind_some, hFound]

/- The functions whose descriptor a kernel name reads as. -/
theorem descriptorMatches_mangled
    (k : MangledKernel)
    (functions : List MangledDevFunc) :
    descriptorMatches k.name (functions.map (·.name)) =
      (functions.filter fun f =>
        f.descriptor.text = k.descriptor.readBack).map
          (·.name) := by
  simp only [descriptorMatches, kernelDescriptor_mangled,
    List.filter_map, Function.comp_def,
    devFuncDescriptor_mangled, Option.some.injEq]

------------------------------------------------------------
-- Exactness
------------------------------------------------------------

/-
  The table is exact for a kernel: its descriptor comes back,
  those of the functions do, and the functions that match are
  the ones with the same descriptor.
-/
def ExactFor (k : MangledKernel) : Prop :=
  kernelDescriptor k.name = some k.descriptor.text ∧
    ∀ functions : List MangledDevFunc,
      (∀ f ∈ functions,
        devFuncDescriptor f.name = some f.descriptor.text) ∧
      descriptorMatches k.name (functions.map (·.name)) =
        (functions.filter fun f =>
          f.descriptor.text = k.descriptor.text).map (·.name)

/-
  The table is exact for a kernel if and only if its
  descriptor ends in no digit or has one character only.
-/
theorem descriptor_exact_iff (k : MangledKernel) :
    ExactFor k ↔
      (k.descriptor.text.getLast k.descriptor.ne_nil).isDigit =
          false ∨
        k.descriptor.text.length = 1 := by
  rw [← k.descriptor.readBack_eq_iff]
  constructor
  · intro hExact
    have hFound := hExact.1
    rw [kernelDescriptor_mangled] at hFound
    exact Option.some.inj hFound
  · intro hWhole
    constructor
    · rw [kernelDescriptor_mangled, hWhole]
    · intro functions
      constructor
      · exact fun f _ => devFuncDescriptor_mangled f
      · rw [descriptorMatches_mangled, hWhole]

/- A decimal length, by its digits. -/
def decimalOf
    (digits : String)
    (hSome : digits.toList ≠ [])
    (hDigit : digits.toList.all Char.isDigit = true) :
    Decimal :=
  ⟨digits.toList, hSome, List.all_eq_true.mp hDigit⟩

/- `Broadcast_RING_LL` -/
def broadcastRingLl : Descriptor where
  text := "Broadcast_RING_LL".toList
  ne_nil := by decide
  word := List.all_eq_true.mp (by decide)
  no_storage := by decide

/- `Broadcast_RING_LL128` -/
def broadcastRingLl128 : Descriptor where
  text := "Broadcast_RING_LL128".toList
  ne_nil := by decide
  word := List.all_eq_true.mp (by decide)
  no_storage := by decide

/- The kernel of the second protocol. -/
def broadcastLl128Kernel : MangledKernel where
  nameLength := decimalOf "34" (by decide) (by decide)
  descriptor := broadcastRingLl128
  argsLength := decimalOf "24" (by decide) (by decide)
  suffix := "ILm4096EE".toList

/- The device functions of both protocols. -/
def broadcastDevFuncs : List MangledDevFunc :=
  [⟨decimalOf "29" (by decide) (by decide),
      broadcastRingLl.toWordText⟩,
    ⟨decimalOf "32" (by decide) (by decide),
      broadcastRingLl128.toWordText⟩]

/-
  The kernel of `RING_LL128` reads as `RING_LL`, and matches
  the function of that protocol alone.
-/
theorem not_descriptor_exact :
    ¬ (∀ k, ExactFor k) ∧
      kernelDescriptor broadcastLl128Kernel.name =
        some "Broadcast_RING_LL".toList ∧
      descriptorMatches broadcastLl128Kernel.name
          (broadcastDevFuncs.map (·.name)) =
        ["_Z29ncclDevFunc_Broadcast_RING_LLv".toList] := by
  have hFound :
      kernelDescriptor broadcastLl128Kernel.name =
        some "Broadcast_RING_LL".toList := by
    decide +kernel
  refine ⟨?_, hFound, by decide +kernel⟩
  intro hAll
  have hExact := (hAll broadcastLl128Kernel).1
  rw [hFound] at hExact
  exact absurd hExact (by decide)

end Nccl

end FabricPerf
