import Mathlib.Data.List.Forall2

/-
  Programs that raise exceptions, as values of `Except`.

  A sequence of actions, whether its results are collected or
  threaded through a state, succeeds when every action does
  and otherwise raises what the first failing action raises.

  Main declarations:
    * `Raising.bind_eq_ok_iff`
    * `Raising.mapM_ok`
    * `Raising.mapM_error_of_find?_eq_some`
    * `Raising.forall_of_mapM_ok`
    * `Raising.foldlM_ok`, `Raising.foldlM_error`
    * `Raising.eq_foldl_flatMap_of_foldlM`
-/

------------------------------------------------------------
-- Sequencing
------------------------------------------------------------

namespace Raising

variable {ε α β σ : Type}

/- A success is passed on. -/
@[simp] theorem ok_bind (a : α) (f : α → Except ε β) :
    (Except.ok a >>= f) = f a := by
  simp only [bind, Except.bind]

/- An exception skips the rest. -/
@[simp] theorem error_bind (e : ε) (f : α → Except ε β) :
    (Except.error e >>= f) = Except.error e := by
  simp only [bind, Except.bind]

/- Returning a value is a success. -/
@[simp] theorem pure_eq_ok (a : α) :
    (pure a : Except ε α) = Except.ok a := rfl

/- Raising is an exception. -/
@[simp] theorem throw_eq_error (e : ε) :
    (throw e : Except ε α) = Except.error e := rfl

/- A sequence succeeds when both of its parts do. -/
theorem bind_eq_ok_iff
    {x : Except ε α}
    {f : α → Except ε β}
    {b : β} :
    (x >>= f) = Except.ok b ↔
      ∃ a, x = Except.ok a ∧ f a = Except.ok b := by
  cases x with
  | error e =>
      simp
  | ok a =>
      simp

------------------------------------------------------------
-- Loops
------------------------------------------------------------

/- A loop whose actions all succeed collects the results. -/
theorem mapM_ok
    {f : α → Except ε β}
    {g : α → β}
    {l : List α}
    (hOk : ∀ a ∈ l, f a = Except.ok (g a)) :
    l.mapM f = Except.ok (l.map g) := by
  induction l with
  | nil =>
      rfl
  | cons a rest ih =>
      have hRest :=
        ih (fun b hMem => hOk b (List.mem_cons_of_mem _ hMem))
      rw [List.mapM_cons, hOk a List.mem_cons_self, hRest]
      rfl

/- A loop over one list does what a pure one does on another. -/
theorem mapM_ok_of_forall₂
    {γ : Type}
    {f : α → Except ε β}
    {g : γ → β}
    {l : List α}
    {l' : List γ}
    (hOk :
      List.Forall₂ (fun a c => f a = Except.ok (g c)) l l') :
    l.mapM f = Except.ok (l'.map g) := by
  induction hOk with
  | nil => rfl
  | cons hHead _ ih =>
      rw [List.mapM_cons, hHead, ih]
      rfl

/-
  A loop whose results are known up to their order, from a
  second list, collects them all.
-/
theorem mapM_flatten_perm
    {γ : Type}
    {f : α → Except ε (List β)}
    {g : α → γ → List β}
    {l : List α}
    {l' : List γ}
    (hOk :
      List.Forall₂
        (fun a c => ∃ b, f a = Except.ok b ∧ b.Perm (g a c))
        l l') :
    ∃ parts, l.mapM f = Except.ok parts ∧
      parts.flatten.Perm
        ((l.zip l').flatMap (fun p => g p.1 p.2)) := by
  induction hOk with
  | nil => exact ⟨[], rfl, List.Perm.nil⟩
  | cons hHead _ ih =>
      rcases hHead with ⟨b, hB, hPerm⟩
      rcases ih with ⟨parts, hParts, hRest⟩
      refine ⟨b :: parts, ?_, ?_⟩
      · rw [List.mapM_cons, hB, ok_bind, hParts]
        rfl
      · rw [List.zip_cons_cons, List.flatMap_cons,
          List.flatten_cons]
        exact hPerm.append hRest

/- Related lists are related position by position. -/
theorem forall₂_zipIdx
    {γ : Type}
    {R : α → γ → Prop}
    {l : List α}
    {l' : List γ}
    (hAll : List.Forall₂ R l l')
    (start : Nat) :
    List.Forall₂
      (fun a c => R a.1 c.1 ∧ a.2 = c.2)
      (l.zipIdx start) (l'.zipIdx start) := by
  induction hAll generalizing start with
  | nil => exact List.Forall₂.nil
  | cons hHead _ ih =>
      rw [List.zipIdx_cons, List.zipIdx_cons]
      exact List.Forall₂.cons ⟨hHead, rfl⟩ (ih (start + 1))

/- A loop whose actions cannot fail succeeds. -/
theorem mapM_ok_of_find?_eq_none
    {f : α → Except ε β}
    {fails : α → Bool}
    (hOk : ∀ a, fails a = false → ∃ b, f a = Except.ok b)
    {l : List α}
    (hFind : l.find? fails = none) :
    ∃ results, l.mapM f = Except.ok results := by
  induction l with
  | nil =>
      exact ⟨[], rfl⟩
  | cons a rest ih =>
      rw [List.find?_cons] at hFind
      cases hFails : fails a with
      | true =>
          rw [hFails] at hFind
          cases hFind
      | false =>
          rw [hFails] at hFind
          rcases hOk a hFails with ⟨b, hB⟩
          rcases ih hFind with ⟨results, hResults⟩
          rw [List.mapM_cons, hB, ok_bind, hResults]
          exact ⟨b :: results, rfl⟩

/- A loop raises what its first failing action raises. -/
theorem mapM_error_of_find?_eq_some
    {f : α → Except ε β}
    {fails : α → Bool}
    (hOk : ∀ a, fails a = false → ∃ b, f a = Except.ok b)
    {l : List α}
    {a : α}
    {e : ε}
    (hFind : l.find? fails = some a)
    (hError : f a = Except.error e) :
    l.mapM f = Except.error e := by
  induction l with
  | nil =>
      cases hFind
  | cons c rest ih =>
      rw [List.find?_cons] at hFind
      cases hFails : fails c with
      | true =>
          rw [hFails] at hFind
          rw [Option.some.inj hFind, List.mapM_cons, hError]
          rfl
      | false =>
          rw [hFails] at hFind
          rcases hOk c hFails with ⟨b, hB⟩
          rw [List.mapM_cons, hB, ok_bind, ih hFind]
          rfl

/- A loop raises what one of its actions raises. -/
theorem exists_error_of_mapM
    {f : α → Except ε β}
    {l : List α}
    {e : ε}
    (hError : l.mapM f = Except.error e) :
    ∃ a ∈ l, f a = Except.error e := by
  induction l with
  | nil =>
      cases hError
  | cons a rest ih =>
      rw [List.mapM_cons] at hError
      cases hHead : f a with
      | error err =>
          rw [hHead, error_bind] at hError
          rw [← Except.error.inj hError]
          exact ⟨a, List.mem_cons_self, hHead⟩
      | ok b =>
          rw [hHead, ok_bind] at hError
          cases hTail : rest.mapM f with
          | ok bs =>
              rw [hTail] at hError
              cases hError
          | error err =>
              rw [hTail, error_bind] at hError
              rw [Except.error.inj hError] at hTail
              rcases ih hTail with ⟨c, hMem, hC⟩
              exact ⟨c, List.mem_cons_of_mem _ hMem, hC⟩

/- In a loop that succeeds every action has succeeded. -/
theorem forall_of_mapM_ok
    {f : α → Except ε β}
    {l : List α}
    {results : List β}
    (hOk : l.mapM f = Except.ok results) :
    ∀ a ∈ l, ∃ b, f a = Except.ok b := by
  induction l generalizing results with
  | nil =>
      intro a hMem
      exact absurd hMem List.not_mem_nil
  | cons a rest ih =>
      rw [List.mapM_cons] at hOk
      rcases bind_eq_ok_iff.mp hOk with ⟨b, hB, hTail⟩
      rcases bind_eq_ok_iff.mp hTail with ⟨bs, hBs, -⟩
      intro c hMem
      rcases List.mem_cons.mp hMem with hSame | hRest
      · rw [hSame]
        exact ⟨b, hB⟩
      · exact ih hBs c hRest

/- A loop over a state whose actions all succeed. -/
theorem foldlM_ok
    {f : σ → α → Except ε σ}
    {g : σ → α → σ}
    {l : List α}
    (hOk : ∀ s, ∀ a ∈ l, f s a = Except.ok (g s a))
    (s : σ) :
    l.foldlM f s = Except.ok (l.foldl g s) := by
  induction l generalizing s with
  | nil =>
      rfl
  | cons a rest ih =>
      rw [List.foldlM_cons, hOk s a List.mem_cons_self,
        ok_bind, List.foldl_cons]
      exact ih
        (fun t b hMem => hOk t b (List.mem_cons_of_mem _ hMem))
        (g s a)

/- A loop whose actions succeed in every state succeeds. -/
theorem exists_foldlM_ok
    {f : σ → α → Except ε σ}
    {l : List α}
    (hOk : ∀ s, ∀ a ∈ l, ∃ t, f s a = Except.ok t)
    (s : σ) :
    ∃ t, l.foldlM f s = Except.ok t := by
  induction l generalizing s with
  | nil => exact ⟨s, rfl⟩
  | cons a rest ih =>
      rcases hOk s a List.mem_cons_self with ⟨t, hT⟩
      rw [List.foldlM_cons, hT, ok_bind]
      exact
        ih (fun u b hMem => hOk u b (List.mem_cons_of_mem _ hMem))
          t

/-
  A loop over a state with an action that fails in every
  state, the others succeeding, fails like that action.
-/
theorem foldlM_error
    {f : σ → α → Except ε σ}
    {good : α → Prop}
    {e : ε}
    (hOk : ∀ s a, good a → ∃ t, f s a = Except.ok t)
    (hError : ∀ s a, ¬good a → f s a = Except.error e)
    {l : List α}
    (hBad : ∃ a ∈ l, ¬good a)
    (s : σ) :
    l.foldlM f s = Except.error e := by
  induction l generalizing s with
  | nil =>
      rcases hBad with ⟨a, hMem, -⟩
      exact absurd hMem List.not_mem_nil
  | cons a rest ih =>
      rw [List.foldlM_cons]
      by_cases hGood : good a
      · rcases hOk s a hGood with ⟨t, hT⟩
        rw [hT, ok_bind]
        apply ih
        rcases hBad with ⟨b, hMem, hB⟩
        rcases List.mem_cons.mp hMem with hSame | hRest
        · rw [hSame] at hB
          exact absurd hGood hB
        · exact ⟨b, hRest, hB⟩
      · rw [hError s a hGood, error_bind]

/- In a loop over a state that succeeds all actions have. -/
theorem forall_of_foldlM_ok
    {f : σ → α → Except ε σ}
    {l : List α}
    {s t : σ}
    (hOk : l.foldlM f s = Except.ok t) :
    ∀ a ∈ l, ∃ before after, f before a = Except.ok after := by
  induction l generalizing s with
  | nil =>
      intro a hMem
      exact absurd hMem List.not_mem_nil
  | cons a rest ih =>
      rw [List.foldlM_cons] at hOk
      rcases bind_eq_ok_iff.mp hOk with ⟨next, hFirst, hRest⟩
      intro b hMem
      rcases List.mem_cons.mp hMem with hSame | hLater
      · rw [hSame]
        exact ⟨s, next, hFirst⟩
      · exact ih hRest b hLater

/-
  A loop over a state whose actions, where they succeed,
  apply a list of pure steps each.
-/
theorem eq_foldl_flatMap_of_foldlM
    {f : σ → α → Except ε σ}
    {steps : α → List β}
    {g : σ → β → σ}
    (hStep :
      ∀ a s t, f s a = Except.ok t → t = (steps a).foldl g s)
    {l : List α}
    {s t : σ}
    (hOk : l.foldlM f s = Except.ok t) :
    t = (l.flatMap steps).foldl g s := by
  induction l generalizing s with
  | nil =>
      exact (Except.ok.inj hOk).symm
  | cons a rest ih =>
      rw [List.foldlM_cons] at hOk
      rcases bind_eq_ok_iff.mp hOk with ⟨next, hFirst, hRest⟩
      rw [List.flatMap_cons, List.foldl_append,
        ← hStep a s next hFirst]
      exact ih hRest

end Raising
