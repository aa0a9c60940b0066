import FabricPerf.Ptp.Alignment

/-
  `derive_root_relative_offsets` of `ptp_alignment.py`.

  Every pair is derived by subtracting two series that are
  relative to one root rank.  A derived offset is thus a
  difference of positions, and differences close.

  Main declarations:
    * `Ptp.deriveRootRelativeOffsets`
    * `Ptp.derived_offset`
    * `Ptp.derived_offsets_close`
-/

------------------------------------------------------------
-- Root Series
------------------------------------------------------------

namespace FabricPerf

namespace Ptp

/- The series of a rank: measured, or measured backwards. -/
def measuredSeries
    (pairOffsets : Dict RankPair (List Int))
    (root rank : Nat) : Option (List Int) :=
  let direct := pairOffsets.get [] (root, rank)
  let inverse := pairOffsets.get [] (rank, root)
  if direct ≠ [] then
    some direct
  else if inverse ≠ [] then
    some (inverse.map (fun value => -value))
  else
    none

/- The series of the ranks other than the root. -/
def otherSeries
    (pairOffsets : Dict RankPair (List Int))
    (devices root : Nat) : Dict Nat (List Int) :=
  Dict.collect (List.range devices)
    (fun rank =>
      if rank = root then none
        else measuredSeries pairOffsets root rank)

/- `max_samples`. -/
def maxSamples (series : Dict Nat (List Int)) : Nat :=
  (series.entries.map (fun e => e.2.length)).max?.getD 0

/- `root_series`. -/
def rootSeries
    (pairOffsets : Dict RankPair (List Int))
    (devices root : Nat) : Dict Nat (List Int) :=
  let others := otherSeries pairOffsets devices root
  others.set root (List.replicate (maxSamples others) 0)

/- One turn of the loop over the pairs. -/
def derivedOffsets
    (series : Dict Nat (List Int))
    (pair : RankPair) : Option (List Int) :=
  if pair.1 = pair.2 then
    none
  else
    match series.find? pair.1, series.find? pair.2 with
    | some src, some dst =>
        let count := min src.length dst.length
        if count = 0 then
          none
        else
          -- Every index is below both lengths.
          some
            ((List.range count).map
              (fun index =>
                dst.getD index 0 - src.getD index 0))
    | _, _ => none

/- The pairs in the order of the two loops. -/
def rankPairs (devices : Nat) : List RankPair :=
  (List.range devices).flatMap
    (fun src =>
      (List.range devices).map (fun dst => (src, dst)))

/- `derive_root_relative_offsets`. -/
def deriveRootRelativeOffsets
    (pairOffsets : Dict RankPair (List Int))
    (devices root : Nat) : Dict RankPair (List Int) :=
  Dict.collect (rankPairs devices)
    (derivedOffsets (rootSeries pairOffsets devices root))

------------------------------------------------------------
-- Looking Up
------------------------------------------------------------

variable {pairOffsets : Dict RankPair (List Int)}
variable {devices root rank src dst : Nat}

/- The pairs of the loops are those of ranks. -/
theorem mem_rankPairs :
    (src, dst) ∈ rankPairs devices ↔
      src < devices ∧ dst < devices := by
  simp [rankPairs]

/- A measured series is not empty. -/
theorem measuredSeries_ne_nil
    {values : List Int}
    (hSeries :
      measuredSeries pairOffsets root rank = some values) :
    values ≠ [] := by
  simp only [measuredSeries] at hSeries
  split_ifs at hSeries with hDirect hInverse
  · cases hSeries
    exact hDirect
  · cases hSeries
    simpa using hInverse

/- A rank has a series if either direction was measured. -/
theorem isSome_measuredSeries :
    (measuredSeries pairOffsets root rank).isSome = true ↔
      pairOffsets.get [] (root, rank) ≠ [] ∨
        pairOffsets.get [] (rank, root) ≠ [] := by
  simp only [measuredSeries]
  split_ifs with hDirect hInverse
  · simp [hDirect]
  · simp [hInverse]
  · simp only [ne_eq, not_not] at hDirect hInverse
    simp [hDirect, hInverse]

/- The series of a rank other than the root. -/
theorem find?_otherSeries :
    (otherSeries pairOffsets devices root).find? rank =
      if rank < devices ∧ rank ≠ root then
        measuredSeries pairOffsets root rank
      else
        none := by
  unfold otherSeries
  rw [Dict.find?_collect]
  by_cases hRank : rank < devices
  · by_cases hRoot : rank = root
    · simp [hRoot]
    · simp [hRank, hRoot]
  · simp [hRank]

/- The root series of a rank other than the root. -/
theorem find?_rootSeries_of_ne
    (hRank : rank < devices)
    (hRoot : rank ≠ root) :
    (rootSeries pairOffsets devices root).find? rank =
      measuredSeries pairOffsets root rank := by
  unfold rootSeries
  rw [Dict.find?_set_of_ne hRoot, find?_otherSeries,
    if_pos ⟨hRank, hRoot⟩]

/- The root series of the root is all zeros. -/
theorem find?_rootSeries_self :
    (rootSeries pairOffsets devices root).find? root =
      some
        (List.replicate
          (maxSamples (otherSeries pairOffsets devices root))
          0) :=
  Dict.find?_set_self

/- No series is longer than the longest. -/
theorem length_le_maxSamples
    {series : Dict Nat (List Int)}
    {values : List Int}
    (hFind : series.find? rank = some values) :
    values.length ≤ maxSamples series := by
  have hMem :
      values.length ∈
        series.entries.map (fun e => e.2.length) :=
    List.mem_map.mpr
      ⟨(rank, values), Dict.find?_eq_some_iff.mp hFind, rfl⟩
  unfold maxSamples
  cases hMax :
      (series.entries.map (fun e => e.2.length)).max? with
  | none =>
      rw [List.max?_eq_none_iff] at hMax
      rw [hMax] at hMem
      cases hMem
  | some m =>
      exact (List.max?_eq_some_iff.mp hMax).2 _ hMem

/- The longest series is one of the series. -/
theorem exists_of_maxSamples_pos
    {series : Dict Nat (List Int)}
    (hPos : maxSamples series ≠ 0) :
    ∃ rank values, series.find? rank = some values := by
  unfold maxSamples at hPos
  cases hEntries : series.entries with
  | nil =>
      rw [hEntries] at hPos
      exact absurd rfl hPos
  | cons e rest =>
      refine ⟨e.1, e.2, Dict.find?_eq_some_iff.mpr ?_⟩
      rw [hEntries]
      exact List.mem_cons_self

------------------------------------------------------------
-- Present Pairs
------------------------------------------------------------

/-
  Which ranks have a root series with samples: the root as
  soon as any other rank was measured against it.
-/
def HasRootSeries
    (pairOffsets : Dict RankPair (List Int))
    (devices root rank : Nat) : Prop :=
  if rank = root then
    ∃ other, other < devices ∧ other ≠ root ∧
      (pairOffsets.get [] (root, other) ≠ [] ∨
        pairOffsets.get [] (other, root) ≠ [])
  else
    pairOffsets.get [] (root, rank) ≠ [] ∨
      pairOffsets.get [] (rank, root) ≠ []

/- Exactly these ranks have samples in the root series. -/
theorem exists_rootSeries_iff (hRank : rank < devices) :
    (∃ values,
      (rootSeries pairOffsets devices root).find? rank =
          some values ∧
        values ≠ []) ↔
      HasRootSeries pairOffsets devices root rank := by
  unfold HasRootSeries
  split_ifs with hRoot
  · subst hRoot
    rw [find?_rootSeries_self]
    constructor
    · rintro ⟨values, hValues, hNil⟩
      cases hValues
      have hPos :
          maxSamples
              (otherSeries pairOffsets devices rank) ≠ 0 := by
        intro hZero
        rw [hZero] at hNil
        exact hNil rfl
      rcases exists_of_maxSamples_pos hPos with
        ⟨other, values, hOther⟩
      rw [find?_otherSeries] at hOther
      split_ifs at hOther with hIn
      have hSome :
          (measuredSeries pairOffsets rank other).isSome =
            true := by
        rw [hOther]
        rfl
      exact ⟨other, hIn.1, hIn.2,
        isSome_measuredSeries.mp hSome⟩
    · rintro ⟨other, hOther, hNe, hMeasured⟩
      refine ⟨_, rfl, ?_⟩
      rcases Option.isSome_iff_exists.mp
          (isSome_measuredSeries.mpr hMeasured) with
        ⟨values, hValues⟩
      have hFind :
          (otherSeries pairOffsets devices rank).find? other =
            some values := by
        rw [find?_otherSeries, if_pos ⟨hOther, hNe⟩]
        exact hValues
      have hLength := length_le_maxSamples hFind
      have hPos := List.length_pos_of_ne_nil
        (measuredSeries_ne_nil hValues)
      intro hNil
      have hZero := congrArg List.length hNil
      simp only [List.length_replicate, List.length_nil]
        at hZero
      omega
  · rw [find?_rootSeries_of_ne hRank hRoot,
      ← isSome_measuredSeries, Option.isSome_iff_exists]
    constructor
    · rintro ⟨values, hValues, _⟩
      exact ⟨values, hValues⟩
    · rintro ⟨values, hValues⟩
      exact ⟨values, hValues, measuredSeries_ne_nil hValues⟩

/- A pair is derived from two series with samples. -/
theorem exists_derivedOffsets_iff
    {series : Dict Nat (List Int)} :
    (∃ values, derivedOffsets series (src, dst) = some values) ↔
      src ≠ dst ∧
        (∃ a, series.find? src = some a ∧ a ≠ []) ∧
          ∃ b, series.find? dst = some b ∧ b ≠ [] := by
  unfold derivedOffsets
  by_cases hSame : src = dst
  · simp [hSame]
  · cases hSrc : series.find? src with
    | none => simp
    | some a =>
        cases hDst : series.find? dst with
        | none => simp
        | some b => simp [hSame]

/- The derived pairs. -/
theorem mem_keys_derived_iff :
    (src, dst) ∈
        (deriveRootRelativeOffsets pairOffsets devices
          root).keys ↔
      (src < devices ∧ dst < devices ∧ src ≠ dst) ∧
        HasRootSeries pairOffsets devices root src ∧
          HasRootSeries pairOffsets devices root dst := by
  unfold deriveRootRelativeOffsets
  rw [Dict.mem_keys_iff]
  simp only [Dict.find?_collect, mem_rankPairs]
  by_cases hIn : src < devices ∧ dst < devices
  · simp only [hIn, and_self, if_true]
    rw [exists_derivedOffsets_iff,
      exists_rootSeries_iff hIn.1, exists_rootSeries_iff hIn.2]
    simp
  · simp only [hIn, if_false]
    constructor
    · rintro ⟨_, hNone⟩
      cases hNone
    · rintro ⟨⟨hSrc, hDst, _⟩, _⟩
      exact absurd ⟨hSrc, hDst⟩ hIn

------------------------------------------------------------
-- Closure
------------------------------------------------------------

/- The position of a rank relative to the root, by sample. -/
def rootOffset
    (series : Dict Nat (List Int))
    (rank index : Nat) : Int :=
  (series.get [] rank).getD index 0

/- A derived offset is a difference of root offsets. -/
theorem derived_offset
    {index : Nat}
    (hIndex :
      index <
        ((deriveRootRelativeOffsets pairOffsets devices
          root).get [] (src, dst)).length) :
    ((deriveRootRelativeOffsets pairOffsets devices root).get
        [] (src, dst)).getD index 0 =
      rootOffset (rootSeries pairOffsets devices root) dst
          index -
        rootOffset (rootSeries pairOffsets devices root) src
          index := by
  generalize hSeries :
    rootSeries pairOffsets devices root = series
  unfold deriveRootRelativeOffsets Dict.get at hIndex ⊢
  rw [Dict.find?_collect, hSeries] at hIndex ⊢
  unfold rootOffset Dict.get
  split_ifs at hIndex ⊢
  · unfold derivedOffsets at hIndex ⊢
    split_ifs at hIndex ⊢
    · simp at hIndex
    · cases hSrc : series.find? src with
      | none => simp [hSrc] at hIndex
      | some a =>
          cases hDst : series.find? dst with
          | none => simp [hSrc, hDst] at hIndex
          | some b =>
              simp only [hSrc, hDst] at hIndex ⊢
              split_ifs at hIndex ⊢
              · simp at hIndex
              · simp only [Option.getD_some, List.length_map,
                  List.length_range] at hIndex
                simp [hIndex]
  · simp at hIndex

/- Derived residuals around a triple are zero. -/
theorem closureResiduals_derived
    (src mid dst : Nat) :
    ∀ r ∈
        closureResiduals
          (deriveRootRelativeOffsets pairOffsets devices root)
          src mid dst,
      r = 0 := by
  intro r hMem
  unfold closureResiduals at hMem
  simp only [List.mem_map, List.mem_range, lt_min_iff] at hMem
  rcases hMem with ⟨index, ⟨hDirect, hFirst, hSecond⟩, hR⟩
  rw [derived_offset hDirect, derived_offset hFirst,
    derived_offset hSecond] at hR
  omega

/- Derived residuals of a pair are zero. -/
theorem reciprocalResiduals_derived
    (first second : Nat) :
    ∀ r ∈
        reciprocalResiduals
          (deriveRootRelativeOffsets pairOffsets devices root)
          first second,
      r = 0 := by
  intro r hMem
  unfold reciprocalResiduals at hMem
  simp only [List.mem_map, List.mem_range, lt_min_iff] at hMem
  rcases hMem with ⟨index, ⟨hForward, hBackward⟩, hR⟩
  rw [derived_offset hForward, derived_offset hBackward] at hR
  omega

------------------------------------------------------------
-- Measured Pairs
------------------------------------------------------------

/- What is derived for the root and a rank was measured. -/
theorem find?_derived_root
    (hRoot : root < devices)
    (hRank : rank < devices)
    (hNe : rank ≠ root) :
    (deriveRootRelativeOffsets pairOffsets devices root).find?
        (root, rank) =
      measuredSeries pairOffsets root rank := by
  unfold deriveRootRelativeOffsets
  rw [Dict.find?_collect,
    if_pos (mem_rankPairs.mpr ⟨hRoot, hRank⟩)]
  unfold derivedOffsets
  simp only [if_neg hNe.symm, find?_rootSeries_self,
    find?_rootSeries_of_ne hRank hNe]
  cases hSeries : measuredSeries pairOffsets root rank with
  | none => rfl
  | some values =>
      have hFind :
          (otherSeries pairOffsets devices root).find? rank =
            some values := by
        rw [find?_otherSeries, if_pos ⟨hRank, hNe⟩]
        exact hSeries
      have hLength := length_le_maxSamples hFind
      have hNil := measuredSeries_ne_nil hSeries
      have hCount :
          min
              (maxSamples
                (otherSeries pairOffsets devices root))
              values.length =
            values.length :=
        Nat.min_eq_right hLength
      simp only [List.length_replicate, hCount]
      rw [if_neg (by simpa using hNil)]
      congr 1
      apply List.ext_getElem
      · simp
      · intro i _ hJ
        simp [hJ]

/-
  The derived offsets close exactly, cover exactly the pairs
  with root series, and keep what was measured.
-/
theorem derived_offsets_close
    (pairOffsets : Dict RankPair (List Int))
    (devices root : Nat)
    (hRoot : root < devices) :
    let derived :=
      deriveRootRelativeOffsets pairOffsets devices root
    (∀ first second,
      ∀ r ∈ reciprocalResiduals derived first second, r = 0) ∧
    (∀ src mid dst,
      ∀ r ∈ closureResiduals derived src mid dst, r = 0) ∧
    (∀ src dst,
      (src, dst) ∈ derived.keys ↔
        (src < devices ∧ dst < devices ∧ src ≠ dst) ∧
          HasRootSeries pairOffsets devices root src ∧
            HasRootSeries pairOffsets devices root dst) ∧
    ∀ rank, rank < devices → rank ≠ root →
      derived.find? (root, rank) =
        let direct := pairOffsets.get [] (root, rank)
        let inverse := pairOffsets.get [] (rank, root)
        if direct ≠ [] then
          some direct
        else if inverse ≠ [] then
          some (inverse.map (fun value => -value))
        else
          none := by
  intro derived
  refine ⟨reciprocalResiduals_derived, closureResiduals_derived,
    fun _ _ => mem_keys_derived_iff, ?_⟩
  intro rank hRank hNe
  exact find?_derived_root hRoot hRank hNe

/- Rank 1 was measured against the root, rank 2 backwards. -/
def measuredOffsets : Dict RankPair (List Int) :=
  Dict.collect [(0, 1), (2, 0)]
    (fun pair =>
      if pair = (0, 1) then some [10, 11] else some [-30])

/- Three ranks with two series of different lengths. -/
theorem derived_offsets_close_three :
    let derived :=
      deriveRootRelativeOffsets measuredOffsets 3 0
    (∀ r ∈ reciprocalResiduals derived 1 2, r = 0) ∧
      (∀ r ∈ closureResiduals derived 0 1 2, r = 0) ∧
      derived.find? (0, 2) = some [30] := by
  have hClose := derived_offsets_close measuredOffsets 3 0
    (by decide)
  exact ⟨hClose.1 1 2, hClose.2.1 0 1 2,
    hClose.2.2.2 2 (by decide) (by decide)⟩

end Ptp

end FabricPerf
