import Mathlib.Algebra.BigOperators.Group.List.Basic
import Mathlib.Data.List.Nodup
import Mathlib.Tactic

/-
  Lists whose entries have distinct keys.

  Main declarations:
    * `Keyed.eq_of_key`
    * `Keyed.exists_filter_eq_singleton`
    * `Keyed.length_filter_mem_le_one`
    * `Keyed.flatMap_eq_of_key`
    * `Keyed.sum_filter_key`, `Keyed.sum_countP_key`
-/

------------------------------------------------------------
-- Distinct Keys
------------------------------------------------------------

namespace Keyed

variable {α β : Type} {key : α → β}

/- Entries with the same key are the same entry. -/
theorem eq_of_key
    {l : List α}
    (hNodup : (l.map key).Nodup)
    {a b : α}
    (hA : a ∈ l)
    (hB : b ∈ l)
    (hKey : key a = key b) :
    a = b :=
  List.inj_on_of_nodup_map hNodup hA hB hKey

/- A key that occurs picks out exactly one entry. -/
theorem exists_filter_eq_singleton
    [DecidableEq β]
    {l : List α}
    (hNodup : (l.map key).Nodup)
    {x : β}
    (hMem : x ∈ l.map key) :
    ∃ a ∈ l, key a = x ∧ l.filter (fun b => key b = x) = [a] := by
  have hCount : (l.filter (fun b => key b = x)).length = 1 := by
    rw [← List.countP_eq_length_filter]
    have hOne := List.count_eq_one_of_mem hNodup hMem
    rw [List.count, List.countP_map] at hOne
    rw [← hOne]
    apply List.countP_congr
    intro b _
    simp
  rcases List.length_eq_one_iff.mp hCount with ⟨a, hOnly⟩
  have hIn : a ∈ l.filter (fun b => key b = x) := by
    rw [hOnly]
    exact List.mem_singleton_self a
  rcases List.mem_filter.mp hIn with ⟨hA, hKey⟩
  exact ⟨a, hA, of_decide_eq_true hKey, hOnly⟩

/-
  When the parts of a list have no common element, an element
  is in at most one of them.
-/
theorem length_filter_mem_le_one
    [DecidableEq β]
    {parts : α → List β}
    {l : List α}
    (hNodup : (l.flatMap parts).Nodup)
    (x : β) :
    (l.filter (fun a => decide (x ∈ parts a))).length ≤ 1 := by
  induction l with
  | nil => simp
  | cons a rest ih =>
      rw [List.flatMap_cons] at hNodup
      rcases List.nodup_append.mp hNodup with
        ⟨_, hRest, hDisjoint⟩
      by_cases hX : x ∈ parts a
      · have hNone :
            rest.filter (fun b => decide (x ∈ parts b)) =
              [] := by
          rw [List.filter_eq_nil_iff]
          intro b hB hMem
          exact hDisjoint x hX x
            (List.mem_flatMap.mpr
              ⟨b, hB, of_decide_eq_true hMem⟩) rfl
        simp [hX, hNone]
      · simp only [List.filter_cons, hX, decide_false]
        exact ih hRest

/-
  Where only the entry of one key contributes, a list over
  all entries is that entry's part.
-/
theorem flatMap_eq_of_key
    {γ : Type}
    {l : List α}
    (hNodup : (l.map key).Nodup)
    {a : α}
    (hMem : a ∈ l)
    {f : α → List γ}
    (hOther : ∀ b ∈ l, key b ≠ key a → f b = []) :
    l.flatMap f = f a := by
  have hNone :
      ∀ {rest : List α},
        (∀ b ∈ rest, f b = []) → rest.flatMap f = [] := by
    intro rest hAll
    exact List.flatMap_eq_nil_iff.mpr hAll
  induction l with
  | nil => exact absurd hMem List.not_mem_nil
  | cons b rest ih =>
      rw [List.map_cons, List.nodup_cons] at hNodup
      rw [List.flatMap_cons]
      rcases List.mem_cons.mp hMem with hHead | hTail
      · have hRest : rest.flatMap f = [] := by
          apply hNone
          intro c hC
          apply hOther c (List.mem_cons_of_mem _ hC)
          intro hSame
          apply hNodup.1
          rw [← hHead, ← hSame]
          exact List.mem_map_of_mem hC
        rw [hRest, List.append_nil, hHead]
      · have hFirst : f b = [] := by
          apply hOther b List.mem_cons_self
          intro hSame
          apply hNodup.1
          rw [hSame]
          exact List.mem_map_of_mem hTail
        rw [hFirst, List.nil_append]
        exact ih hNodup.2 hTail
          (fun c hC => hOther c (List.mem_cons_of_mem _ hC))

/- Likewise for the entries themselves. -/
theorem flatMap_eq_of_mem
    {γ : Type}
    {l : List α}
    (hNodup : l.Nodup)
    {a : α}
    (hMem : a ∈ l)
    {f : α → List γ}
    (hOther : ∀ b ∈ l, b ≠ a → f b = []) :
    l.flatMap f = f a := by
  have hKeys : (l.map id).Nodup := by
    rw [List.map_id]
    exact hNodup
  exact flatMap_eq_of_key hKeys hMem hOther

/-
  Adding up key by key adds up every entry once, if the keys
  are distinct and all keys of the list are among them.
-/
theorem sum_filter_key
    {M : Type}
    [AddCommMonoid M]
    [DecidableEq β]
    {keys : List β}
    (hNodup : keys.Nodup)
    {l : List α}
    (hCover : ∀ a ∈ l, key a ∈ keys)
    (weight : α → M) :
    (keys.map
        (fun k =>
          ((l.filter (fun a => key a = k)).map
            weight).sum)).sum =
      (l.map weight).sum := by
  induction keys generalizing l with
  | nil =>
      have hNil : l = [] := by
        apply List.eq_nil_iff_forall_not_mem.mpr
        intro a hMem
        exact List.not_mem_nil (hCover a hMem)
      subst hNil
      rfl
  | cons k rest ih =>
      rw [List.nodup_cons] at hNodup
      have hOthers :
          ∀ a ∈ l.filter (fun a => !decide (key a = k)),
            key a ∈ rest := by
        intro a hMem
        rcases List.mem_filter.mp hMem with ⟨hIn, hNe⟩
        rcases List.mem_cons.mp (hCover a hIn) with hSame | hRest
        · simp [hSame] at hNe
        · exact hRest
      have hSame :
          ∀ k' ∈ rest,
            (l.filter (fun a => !decide (key a = k))).filter
                (fun a => key a = k') =
              l.filter (fun a => key a = k') := by
        intro k' hMem
        rw [List.filter_filter]
        apply List.filter_congr
        intro a _
        by_cases hKey : key a = k'
        · have hNe : key a ≠ k := by
            intro hK
            apply hNodup.1
            rw [← hK, hKey]
            exact hMem
          simp [hKey, hKey ▸ hNe]
        · simp [hKey]
      have hRest := ih hNodup.2 hOthers
      rw [List.map_congr_left
        (fun k' hMem =>
          congrArg (fun own => (own.map weight).sum)
            (hSame k' hMem))] at hRest
      have hSplit :=
        (List.filter_append_perm
          (fun a => decide (key a = k)) l).map weight
      rw [List.map_cons, List.sum_cons, hRest, ← hSplit.sum_eq,
        List.map_append, List.sum_append]

/- Counting key by key counts every entry once. -/
theorem sum_countP_key
    [DecidableEq β]
    {keys : List β}
    (hNodup : keys.Nodup)
    {l : List α}
    (hCover : ∀ a ∈ l, key a ∈ keys)
    (p : α → Bool) :
    (keys.map
        (fun k => (l.filter (fun a => key a = k)).countP p)).sum =
      l.countP p := by
  have hSum :=
    sum_filter_key hNodup
      (fun a hMem => hCover a (List.mem_of_mem_filter hMem))
      (fun _ => 1) (l := l.filter p)
  simp only [List.map_const', List.sum_replicate, smul_eq_mul,
    mul_one] at hSum
  rw [List.countP_eq_length_filter, ← hSum]
  apply congrArg List.sum
  apply List.map_congr_left
  intro k _
  rw [List.countP_eq_length_filter, List.filter_comm]

end Keyed
