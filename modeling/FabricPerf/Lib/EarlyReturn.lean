import Mathlib.Data.List.Basic

/-
  Straight-line programs that return at the first failing
  step.

  `executed` is what is executed of a program: its longest
  prefix without a fallible step that fails.

  Main declarations:
    * `EarlyReturn.executed`
    * `EarlyReturn.executed_prefix`
    * `EarlyReturn.prefix_append_cases`
    * `EarlyReturn.mem_of_later`
-/

------------------------------------------------------------
-- Executed Prefixes
------------------------------------------------------------

namespace EarlyReturn

variable {α : Type}

/- The steps before the first one that can fail and does. -/
def executed
    (fallible : α → Bool) :
    List α → (Nat → Bool) → List α
| [], _ => []
| a :: rest, fails =>
    if fallible a && fails 0 then
      []
    else
      a :: executed fallible rest (fun i => fails (i + 1))

/- They are a prefix of the program. -/
theorem executed_prefix
    (fallible : α → Bool)
    (program : List α)
    (fails : Nat → Bool) :
    executed fallible program fails <+: program := by
  induction program generalizing fails with
  | nil =>
      exact List.nil_prefix
  | cons a rest ih =>
      rw [executed]
      split
      · exact List.nil_prefix
      · exact (List.prefix_cons_inj a).mpr (ih _)

/-
  A prefix of a concatenation ends in its first part or has
  the whole of it.
-/
theorem prefix_append_cases
    {first second t : List α}
    (hPrefix : t <+: first ++ second) :
    t <+: first ∨
      ∃ rest, rest <+: second ∧ t = first ++ rest := by
  rcases List.prefix_or_prefix_of_prefix hPrefix
      (List.prefix_append first second) with
    hFirst | ⟨rest, hRest⟩
  · exact Or.inl hFirst
  · subst hRest
    exact Or.inr
      ⟨rest, (List.prefix_append_right_inj first).mp hPrefix,
        rfl⟩

/- A prefix that gets past the first part has all of it. -/
theorem mem_of_later
    {first second t : List α}
    (hPrefix : t <+: first ++ second)
    {a b : α}
    (hA : a ∈ t)
    (hLater : a ∉ first)
    (hB : b ∈ first) :
    b ∈ t := by
  rcases prefix_append_cases hPrefix with
    hFirst | ⟨rest, _, hT⟩
  · exact absurd (hFirst.subset hA) hLater
  · rw [hT]
    exact List.mem_append_left rest hB

end EarlyReturn
