import Mathlib.Data.Set.Function
import Mathlib.Tactic

/-
  Positions in a row-major table, and columns numbered
  around a hole.

  A table of rows of `n` columns numbers its cells row by
  row.  `skip` numbers the columns other than one of them.

  Main declarations:
    * `RowMajor.index`, `RowMajor.bijOn_index`
    * `RowMajor.skip`, `RowMajor.unskip`
-/

------------------------------------------------------------
-- Rows And Columns
------------------------------------------------------------

namespace RowMajor

/- The position of a cell of a table with `n` columns. -/
def index (n i j : Nat) : Nat :=
  i * n + j

variable {m n i j k : Nat}

/- The row of a position. -/
theorem index_div (hJ : j < n) : index n i j / n = i := by
  have hPos : 0 < n := Nat.zero_lt_of_lt hJ
  unfold index
  rw [Nat.mul_comm, Nat.mul_add_div hPos,
    Nat.div_eq_of_lt hJ, Nat.add_zero]

/- The column of a position. -/
theorem index_mod (hJ : j < n) : index n i j % n = j := by
  unfold index
  rw [Nat.mul_comm, Nat.mul_add_mod, Nat.mod_eq_of_lt hJ]

/- A position is that of its row and column. -/
theorem index_div_mod (n k : Nat) :
    index n (k / n) (k % n) = k :=
  Nat.div_add_mod' k n

/- Positions of a table are below its size. -/
theorem index_lt (hI : i < m) (hJ : j < n) :
    index n i j < m * n := by
  have hRows : (i + 1) * n ≤ m * n :=
    Nat.mul_le_mul_right n hI
  unfold index
  rw [Nat.add_mul, Nat.one_mul] at hRows
  omega

/- Positions below the size have a row of the table. -/
theorem div_lt (hK : k < m * n) : k / n < m := by
  apply Nat.div_lt_of_lt_mul
  rw [Nat.mul_comm]
  exact hK

/- Positions below the size have a column of the table. -/
theorem mod_lt (hK : k < m * n) : k % n < n := by
  apply Nat.mod_lt
  apply Nat.pos_of_ne_zero
  rintro rfl
  simp at hK

/- Equal positions have equal rows and columns. -/
theorem index_inj
    {i' j' : Nat}
    (hJ : j < n)
    (hJ' : j' < n)
    (hEq : index n i j = index n i' j') :
    i = i' ∧ j = j' := by
  constructor
  · rw [← index_div (i := i) hJ, hEq, index_div hJ']
  · rw [← index_mod (i := i) hJ, hEq, index_mod hJ']

/- The cells of a table and the numbers below its size. -/
theorem bijOn_index (m n : Nat) :
    Set.BijOn (fun c : Nat × Nat => index n c.1 c.2)
      {c | c.1 < m ∧ c.2 < n} (Set.Iio (m * n)) := by
  refine ⟨?_, ?_, ?_⟩
  · rintro ⟨i, j⟩ ⟨hI, hJ⟩
    exact index_lt hI hJ
  · rintro ⟨i, j⟩ ⟨_, hJ⟩ ⟨i', j'⟩ ⟨_, hJ'⟩ hEq
    rcases index_inj hJ hJ' hEq with ⟨hRow, hColumn⟩
    exact Prod.ext hRow hColumn
  · intro k hK
    exact ⟨(k / n, k % n), ⟨div_lt hK, mod_lt hK⟩,
      index_div_mod n k⟩

------------------------------------------------------------
-- Columns Around A Hole
------------------------------------------------------------

/- The `k`-th number other than `hole`. -/
def skip (hole k : Nat) : Nat :=
  if k < hole then k else k + 1

/- The place of a number among those other than `hole`. -/
def unskip (hole d : Nat) : Nat :=
  if d < hole then d else d - 1

variable {hole d : Nat}

/- The hole is skipped. -/
theorem skip_ne (hole k : Nat) : hole ≠ skip hole k := by
  unfold skip
  split <;> omega

/- Skipping one number raises the bound by one. -/
theorem skip_le (hK : k < n) : skip hole k ≤ n := by
  unfold skip
  split <;> omega

/- Numbers other than the hole have a place below the bound. -/
theorem unskip_lt
    (hHole : hole ≤ n)
    (hD : d ≤ n)
    (hNe : hole ≠ d) :
    unskip hole d < n := by
  unfold unskip
  split <;> omega

/- The place of the `k`-th number is `k`. -/
theorem unskip_skip (hole k : Nat) :
    unskip hole (skip hole k) = k := by
  unfold unskip skip
  split_ifs <;> omega

/- The number at the place of a number is that number. -/
theorem skip_unskip (hNe : hole ≠ d) :
    skip hole (unskip hole d) = d := by
  unfold unskip skip
  split_ifs <;> omega

------------------------------------------------------------
-- Lists Of Cells
------------------------------------------------------------

variable {α : Type}

/- Going through the rows is going through the positions. -/
theorem flatMap_filterMap_range
    (m n : Nat)
    (f : Nat → Option α) :
    (List.range m).flatMap
        (fun i =>
          (List.range n).filterMap (fun j => f (index n i j))) =
      (List.range (m * n)).filterMap f := by
  induction m with
  | zero => simp
  | succ m ih =>
      have hRow :
          ((List.range n).map (m * n + ·)).filterMap f =
            (List.range n).filterMap
              (fun j => f (index n m j)) := by
        rw [List.filterMap_map]
        rfl
      rw [List.range_succ, List.flatMap_append, ih,
        Nat.succ_mul, List.range_add, List.filterMap_append,
        hRow, List.flatMap_singleton]

/-
  Where only the positions of one window count, the others
  can be left out.
-/
theorem filterMap_window
    {f : Nat → Option α}
    {start count size : Nat}
    (hFits : start + count ≤ size)
    (hOutside :
      ∀ k, k < start ∨ start + count ≤ k → f k = none) :
    (List.range size).filterMap f =
      (List.range count).filterMap
        (fun j => f (start + j)) := by
  have hSize : size = start + (count + (size - start - count)) := by
    omega
  have hBefore : (List.range start).filterMap f = [] := by
    apply List.filterMap_eq_nil_iff.mpr
    intro k hK
    exact hOutside k (Or.inl (List.mem_range.mp hK))
  have hBehind :
      ((List.range (size - start - count)).map
          (fun j => start + (count + j))).filterMap f = [] := by
    apply List.filterMap_eq_nil_iff.mpr
    intro k hK
    rcases List.mem_map.mp hK with ⟨j, _, rfl⟩
    exact hOutside _ (Or.inr (by omega))
  have hWindow :
      ((List.range count).map (start + ·)).filterMap f =
        (List.range count).filterMap
          (fun j => f (start + j)) := by
    rw [List.filterMap_map]
    rfl
  rw [hSize, List.range_add, List.range_add, List.map_append,
    List.map_map, List.filterMap_append,
    List.filterMap_append, hBefore, hWindow]
  change
    [] ++
        ((List.range count).filterMap (fun j => f (start + j)) ++
          ((List.range (size - start - count)).map
            (fun j => start + (count + j))).filterMap f) = _
  rw [hBehind, List.nil_append, List.append_nil]

end RowMajor
