import Mathlib.Algebra.BigOperators.Fin
import Mathlib.Algebra.Order.BigOperators.Group.Finset
import Mathlib.Tactic

/-
  Counters that are written into shared cells.

  Every counter belongs to one cell, and a cell that several
  counters were written into keeps one of them.  The cells
  add up to all counters exactly if no cell is shared by two
  counters that are not zero.

  Main declarations:
    * `LastWriter.Keeps`
    * `LastWriter.sum_kept_eq_iff`
-/

namespace LastWriter

variable {ι κ : Type}

/- Each cell keeps a counter that is not zero, if any is. -/
def Keeps
    (cell : ι → κ)
    (count : ι → Nat)
    (kept : κ → Nat) : Prop :=
  ∀ k,
    (kept k = 0 ∧ ∀ i, cell i = k → count i = 0) ∨
      ∃ i, cell i = k ∧ 0 < count i ∧ kept k = count i

/- At most one counter of a cell is not zero. -/
def Alone (cell : ι → κ) (count : ι → Nat) (k : κ) : Prop :=
  ∀ i j, i ≠ j → cell i = k → cell j = k →
    count i = 0 ∨ count j = 0

variable [Fintype ι] [DecidableEq ι] [DecidableEq κ]
variable {cell : ι → κ} {count : ι → Nat} {kept : κ → Nat}

/- The counters of a cell beside one of them. -/
theorem sum_eq_add
    {i : ι}
    {k : κ}
    (hCell : cell i = k) :
    ∑ j with cell j = k, count j =
      count i +
        ∑ j ∈ (Finset.univ.filter (fun j => cell j = k)).erase i,
          count j := by
  rw [Finset.add_sum_erase]
  simp [hCell]

/- A cell keeps no more than its counters. -/
theorem kept_le (hKeeps : Keeps cell count kept) (k : κ) :
    kept k ≤ ∑ i with cell i = k, count i := by
  rcases hKeeps k with ⟨hZero, _⟩ | ⟨i, hCell, _, hKept⟩
  · rw [hZero]
    exact Nat.zero_le _
  · rw [hKept, sum_eq_add hCell]
    exact Nat.le_add_right _ _

/- A cell keeps all of its counters if it is not shared. -/
theorem kept_eq_iff (hKeeps : Keeps cell count kept) (k : κ) :
    kept k = ∑ i with cell i = k, count i ↔
      Alone cell count k := by
  rcases hKeeps k with ⟨hZero, hNone⟩ | ⟨i, hCell, hPos, hKept⟩
  · have hSum : ∑ i with cell i = k, count i = 0 := by
      apply Finset.sum_eq_zero
      intro i hMem
      exact hNone i (Finset.mem_filter.mp hMem).2
    rw [hZero, hSum]
    constructor
    · intro _ i _ _ hI _
      exact Or.inl (hNone i hI)
    · intro _
      rfl
  · have hRest :
        kept k = ∑ j with cell j = k, count j ↔
          ∑ j ∈ (Finset.univ.filter
              (fun j => cell j = k)).erase i, count j = 0 := by
      rw [hKept, sum_eq_add hCell]
      omega
    rw [hRest, Finset.sum_eq_zero_iff]
    constructor
    · intro hOthers a b hNe hA hB
      by_cases hI : a = i
      · have hOther : b ≠ i := fun hSame => hNe (hI.trans hSame.symm)
        exact Or.inr (hOthers b (by simp [hOther, hB]))
      · exact Or.inl (hOthers a (by simp [hI, hA]))
    · intro hAlone j hMem
      rcases Finset.mem_erase.mp hMem with ⟨hNe, hIn⟩
      have hJ := (Finset.mem_filter.mp hIn).2
      rcases hAlone i j hNe.symm hCell hJ with hZero | hZero
      · omega
      · exact hZero

/-
  The cells add up to all counters exactly if none of them
  is shared.
-/
theorem sum_kept_eq_iff
    [Fintype κ]
    (hKeeps : Keeps cell count kept) :
    ∑ k, kept k = ∑ i, count i ↔
      ∀ k, Alone cell count k := by
  rw [← Finset.sum_fiberwise Finset.univ cell count,
    Finset.sum_eq_sum_iff_of_le (fun k _ => kept_le hKeeps k)]
  constructor
  · intro hAll k
    exact (kept_eq_iff hKeeps k).mp (hAll k (Finset.mem_univ k))
  · intro hAlone k _
    exact (kept_eq_iff hKeeps k).mpr (hAlone k)

end LastWriter
