import Mathlib.Order.Lattice
import Mathlib.Tactic

/-
  Sorted lists and the numbers of elements up to a bound.

  Position `i` of a sorted list is at most `k` exactly when
  more than `i` elements are; so sorted lists agree on their
  first `n` positions exactly when, counted up to `n`, they
  have equally many elements up to every bound.

  Main declarations:
    * `SortedCount.getElem_le_iff`
    * `SortedCount.agree_iff`
-/

------------------------------------------------------------
-- Positions And Counts
------------------------------------------------------------

namespace SortedCount

variable {α : Type} [LinearOrder α]

/- The number of elements up to a bound. -/
def countLe (l : List α) (k : α) : Nat :=
  l.countP (fun a => decide (a ≤ k))

/- A position is at most `k` when it is counted below `k`. -/
theorem getElem_le_iff
    {l : List α}
    (hSorted : l.Pairwise (· ≤ ·))
    {i : Nat}
    (hI : i < l.length)
    (k : α) :
    l[i] ≤ k ↔ i < countLe l k := by
  unfold countLe
  induction l generalizing i with
  | nil =>
      exact absurd hI (Nat.not_lt_zero i)
  | cons a rest ih =>
      rcases List.pairwise_cons.mp hSorted with
        ⟨hFirst, hRest⟩
      by_cases hLe : a ≤ k
      · have hCount :
            (a :: rest).countP (fun b => decide (b ≤ k)) =
              rest.countP (fun b => decide (b ≤ k)) + 1 := by
          apply List.countP_cons_of_pos
          exact decide_eq_true hLe
        rw [hCount]
        cases i with
        | zero =>
            simp [hLe]
        | succ j =>
            have hJ : j < rest.length :=
              Nat.lt_of_succ_lt_succ hI
            rw [List.getElem_cons_succ, ih hRest hJ]
            omega
      · have hNone :
            rest.countP (fun b => decide (b ≤ k)) = 0 := by
          rw [List.countP_eq_zero]
          intro b hMem hB
          exact hLe
            (le_trans (hFirst b hMem) (of_decide_eq_true hB))
        have hCount :
            (a :: rest).countP (fun b => decide (b ≤ k)) =
              rest.countP (fun b => decide (b ≤ k)) := by
          apply List.countP_cons_of_neg
          simpa using hLe
        rw [hCount, hNone]
        constructor
        · intro hGet
          cases i with
          | zero =>
              exact absurd hGet hLe
          | succ j =>
              have hJ : j < rest.length :=
                Nat.lt_of_succ_lt_succ hI
              have hMem : rest[j] ∈ rest :=
                List.getElem_mem hJ
              rw [List.getElem_cons_succ] at hGet
              exact absurd
                (le_trans (hFirst _ hMem) hGet) hLe
        · intro hZero
          exact absurd hZero (Nat.not_lt_zero i)

/- Agreement on a prefix, in terms of counts. -/
theorem agree_iff
    {l m : List α}
    (hL : l.Pairwise (· ≤ ·))
    (hM : m.Pairwise (· ≤ ·))
    {n : Nat}
    (hLn : n ≤ l.length)
    (hMn : n ≤ m.length) :
    (∀ i, i < n → l[i]? = m[i]?) ↔
      ∀ k, min n (countLe l k) = min n (countLe m k) := by
  constructor
  · intro hAgree k
    have hIff :
        ∀ i, i < n → (i < countLe l k ↔ i < countLe m k) := by
      intro i hI
      have hSame := hAgree i hI
      rw [List.getElem?_eq_getElem (by omega),
        List.getElem?_eq_getElem (by omega)] at hSame
      rw [← getElem_le_iff hL (by omega),
        ← getElem_le_iff hM (by omega),
        Option.some.inj hSame]
    -- The smaller count is a position where they differ.
    rcases Nat.lt_trichotomy (min n (countLe l k))
      (min n (countLe m k)) with hLt | hEq | hGt
    · have hDiffer := hIff (min n (countLe l k)) (by omega)
      omega
    · exact hEq
    · have hDiffer := hIff (min n (countLe m k)) (by omega)
      omega
  · intro hCount i hI
    rw [List.getElem?_eq_getElem (by omega),
      List.getElem?_eq_getElem (by omega)]
    congr 1
    apply le_antisymm
    · rw [getElem_le_iff hL (by omega)]
      have hOwn :=
        (getElem_le_iff hM (by omega) m[i]).mp le_rfl
      have hSame := hCount m[i]
      omega
    · rw [getElem_le_iff hM (by omega)]
      have hOwn :=
        (getElem_le_iff hL (by omega) l[i]).mp le_rfl
      have hSame := hCount l[i]
      omega

end SortedCount
