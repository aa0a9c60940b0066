import Mathlib.Logic.Function.Basic

/-
  Labelled transition machines and their reachable states.

  A machine takes a step on an action or refuses it. A run
  is judged step by step: `Reach ok` holds of the states
  reached by runs whose every step meets the guard `ok`, and
  `Reachable` drops the guard.

  Main declarations:
    * `Machine.Reach`
    * `Machine.Reach.invariant`
    * `Machine.Reach.project`
    * `Machine.Reach.of_same_steps`
    * `Machine.reachable_iff_of_view`
    * `Machine.reach_of_runWhile`
    * `Machine.stays_iff_meets`
    * `Machine.product`, `Machine.Reach.component`
-/

------------------------------------------------------------
-- Machines And Guarded Runs
------------------------------------------------------------

/- A machine with initial states and partial labelled steps. -/
structure Machine (σ α : Type) where
  init : σ → Prop
  step : σ → α → Option σ

namespace Machine

variable {σ τ α β : Type}
variable {M : Machine σ α} {N : Machine τ β}
variable {ok ok' : σ → α → Prop} {okN : τ → β → Prop}

/- States reached by runs whose steps all meet the guard. -/
inductive Reach
    (M : Machine σ α)
    (ok : σ → α → Prop) : σ → Prop where
| init {s : σ} (hInit : M.init s) : Reach M ok s
| step {s s' : σ} {a : α}
    (hReach : Reach M ok s)
    (hOk : ok s a)
    (hStep : M.step s a = some s') : Reach M ok s'

/- States reached by any run. -/
abbrev Reachable
    (M : Machine σ α)
    (s : σ) : Prop :=
  M.Reach (fun _ _ => True) s

/- Weakening the guard keeps every reached state. -/
theorem Reach.mono
    (hOk : ∀ s a, ok s a → ok' s a)
    {s : σ}
    (hReach : M.Reach ok s) :
    M.Reach ok' s := by
  induction hReach with
  | init hInit =>
      exact Reach.init hInit
  | step _ hGuard hStep ih =>
      exact Reach.step ih (hOk _ _ hGuard) hStep

/-
  A guard may be replaced by one it implies in every reached
  state.
-/
theorem Reach.strengthen
    (hOk : ∀ s a, M.Reach ok s → ok s a → ok' s a)
    {s : σ}
    (hReach : M.Reach ok s) :
    M.Reach ok' s := by
  induction hReach with
  | init hInit =>
      exact Reach.init hInit
  | step hBefore hGuard hStep ih =>
      exact Reach.step ih (hOk _ _ hBefore hGuard) hStep

/- Every guarded run is a run. -/
theorem Reach.reachable
    {s : σ}
    (hReach : M.Reach ok s) :
    M.Reachable s :=
  hReach.mono (fun _ _ _ => trivial)

/-
  The invariant rule: what holds initially and is kept by
  every guarded step holds in every reached state.
-/
theorem Reach.invariant
    (Inv : σ → Prop)
    (hInit : ∀ s, M.init s → Inv s)
    (hStep :
      ∀ s a s', Inv s → ok s a →
        M.step s a = some s' → Inv s')
    {s : σ}
    (hReach : M.Reach ok s) :
    Inv s := by
  induction hReach with
  | init hStart =>
      exact hInit _ hStart
  | step _ hGuard hTaken ih =>
      exact hStep _ _ _ ih hGuard hTaken

/-
  The invariant rule with a known invariant at hand in the
  step case.
-/
theorem Reach.invariant_of
    (Known Inv : σ → Prop)
    (hKnown : ∀ s, M.Reach ok s → Known s)
    (hInit : ∀ s, M.init s → Inv s)
    (hStep :
      ∀ s a s', Known s → Inv s → ok s a →
        M.step s a = some s' → Inv s')
    {s : σ}
    (hReach : M.Reach ok s) :
    Inv s := by
  induction hReach with
  | init hStart =>
      exact hInit _ hStart
  | step hBefore hGuard hTaken ih =>
      exact hStep _ _ _ (hKnown _ hBefore) ih hGuard hTaken

/-
  Projection: if every guarded step of `M` is, seen through
  `view`, one guarded step of `N` or no step at all, then
  views of reached states are reached.
-/
theorem Reach.project
    (view : σ → τ)
    (hInit : ∀ s, M.init s → N.init (view s))
    (hStep :
      ∀ s a s', ok s a → M.step s a = some s' →
        view s' = view s ∨
          ∃ b, okN (view s) b ∧
            N.step (view s) b = some (view s'))
    {s : σ}
    (hReach : M.Reach ok s) :
    N.Reach okN (view s) := by
  induction hReach with
  | init hStart =>
      exact Reach.init (hInit _ hStart)
  | step _ hGuard hTaken ih =>
      rcases hStep _ _ _ hGuard hTaken with
        hSame | ⟨b, hGuardN, hTakenN⟩
      · rw [hSame]
        exact ih
      · exact Reach.step ih hGuardN hTakenN

/-
  Machines that agree on the guarded steps of one reach the
  same states by them.
-/
theorem Reach.of_same_steps
    {N : Machine σ α}
    (hInit : ∀ s, M.init s → N.init s)
    (hStep :
      ∀ s a, M.Reach ok s → ok s a → M.step s a = N.step s a)
    {s : σ}
    (hReach : M.Reach ok s) :
    N.Reach ok s := by
  induction hReach with
  | init hStart =>
      exact Reach.init (hInit _ hStart)
  | step hBefore hOk hTaken ih =>
      rw [hStep _ _ hBefore hOk] at hTaken
      exact Reach.step ih hOk hTaken

/-
  A machine that is, through `view`, the guarded part of
  another reaches exactly the views of what the other
  reaches by guarded steps.
-/
theorem reachable_iff_of_view
    {N : Machine τ α}
    (view : σ → τ)
    (hInit : ∀ t, N.init t ↔ ∃ s, M.init s ∧ view s = t)
    (hOnly :
      ∀ s a t, N.step (view s) a = some t → ok s a)
    (hStep :
      ∀ s a, ok s a →
        N.step (view s) a = (M.step s a).map view)
    (t : τ) :
    N.Reachable t ↔ ∃ s, M.Reach ok s ∧ view s = t := by
  constructor
  · intro hReach
    induction hReach with
    | init hStart =>
        rcases (hInit _).mp hStart with ⟨s, hFirst, hView⟩
        exact ⟨s, Reach.init hFirst, hView⟩
    | @step t t' a _ _ hTaken ih =>
        rcases ih with ⟨s, hBefore, rfl⟩
        have hOk := hOnly s a t' hTaken
        rw [hStep s a hOk] at hTaken
        rcases Option.map_eq_some_iff.mp hTaken with
          ⟨s', hNext, hView⟩
        exact ⟨s', Reach.step hBefore hOk hNext, hView⟩
  · rintro ⟨s, hReach, rfl⟩
    apply hReach.project view
    · exact fun s hFirst => (hInit _).mpr ⟨s, hFirst, rfl⟩
    · intro s a s' hOk hTaken
      refine Or.inr ⟨a, trivial, ?_⟩
      rw [hStep s a hOk, hTaken, Option.map_some]

------------------------------------------------------------
-- Executable Runs
------------------------------------------------------------

/- Take the listed actions, each passing a check first. -/
def runWhile
    (M : Machine σ α)
    (check : σ → α → Bool) :
    σ → List α → Option σ
| s, [] => some s
| s, a :: rest =>
    if check s a then
      (M.step s a).bind (fun s' => runWhile M check s' rest)
    else
      none

/- Take the listed actions. -/
def run
    (M : Machine σ α) :
    σ → List α → Option σ :=
  runWhile M (fun _ _ => true)

/- A completed checked run reaches its last state. -/
theorem reach_of_runWhile
    {check : σ → α → Bool}
    (hCheck : ∀ s a, check s a = true → ok s a)
    {s s' : σ}
    (hReach : M.Reach ok s) :
    ∀ {actions : List α},
      M.runWhile check s actions = some s' →
        M.Reach ok s' := by
  intro actions hRun
  induction actions generalizing s with
  | nil =>
      simp only [runWhile, Option.some.injEq] at hRun
      rw [← hRun]
      exact hReach
  | cons a rest ih =>
      by_cases hOk : check s a = true
      · rw [runWhile, if_pos hOk] at hRun
        rcases Option.bind_eq_some_iff.mp hRun with
          ⟨next, hNext, hRest⟩
        exact ih (Reach.step hReach (hCheck s a hOk) hNext)
          hRest
      · simp [runWhile, hOk] at hRun

/- A completed run reaches its last state. -/
theorem reachable_of_run
    {s s' : σ}
    (hReach : M.Reachable s)
    {actions : List α}
    (hRun : M.run s actions = some s') :
    M.Reachable s' :=
  reach_of_runWhile (fun _ _ _ => trivial) hReach hRun

------------------------------------------------------------
-- Conditions On Runs
------------------------------------------------------------

/- Every step of the run meets the guard. -/
def Meets
    (M : Machine σ α)
    (ok : σ → α → Prop) :
    σ → List α → Prop
| _, [] => True
| s, a :: rest =>
    ∀ s', M.step s a = some s' →
      ok s a ∧ Meets M ok s' rest

/- Every state of the run has the property. -/
def Stays
    (M : Machine σ α)
    (P : σ → Prop) :
    σ → List α → Prop
| s, [] => P s
| s, a :: rest =>
    P s ∧ ∀ s', M.step s a = some s' → Stays M P s' rest

/- A run that stays in a property has it at its start. -/
theorem Stays.head
    {P : σ → Prop}
    {s : σ}
    {actions : List α}
    (hStays : M.Stays P s actions) :
    P s := by
  cases actions with
  | nil => exact hStays
  | cons a rest => exact hStays.1

/-
  A guard that keeps an invariant, and whose violation leads
  out of the property at once, is the exact condition on the
  runs that stay in the property.
-/
theorem stays_iff_meets
    {Inv P : σ → Prop}
    (hHolds : ∀ s, Inv s → P s)
    (hKeeps :
      ∀ s a s', Inv s → M.step s a = some s' → ok s a → Inv s')
    (hNeeds :
      ∀ s a s', Inv s → M.step s a = some s' → P s' → ok s a)
    {s : σ}
    (hInv : Inv s)
    (actions : List α) :
    M.Stays P s actions ↔ M.Meets ok s actions := by
  induction actions generalizing s with
  | nil =>
      exact ⟨fun _ => trivial, fun _ => hHolds s hInv⟩
  | cons a rest ih =>
      constructor
      · rintro ⟨_, hRest⟩ s' hStep
        have hOk := hNeeds s a s' hInv hStep (hRest s' hStep).head
        exact ⟨hOk,
          (ih (hKeeps s a s' hInv hStep hOk)).mp
            (hRest s' hStep)⟩
      · intro hMeets
        refine ⟨hHolds s hInv, ?_⟩
        intro s' hStep
        rcases hMeets s' hStep with ⟨hOk, hRest⟩
        exact (ih (hKeeps s a s' hInv hStep hOk)).mpr hRest

------------------------------------------------------------
-- Machines Side By Side
------------------------------------------------------------

section Product

variable {ι : Type} [DecidableEq ι] {S A : ι → Type}

/- Machines side by side; an action is one of one of them. -/
def product
    (machines : ∀ i, Machine (S i) (A i)) :
    Machine (∀ i, S i) (Σ i, A i) where
  init := fun s => ∀ i, (machines i).init (s i)
  step := fun s a =>
    ((machines a.1).step (s a.1) a.2).map
      (Function.update s a.1)

variable {machines : ∀ i, Machine (S i) (A i)}
variable (okEach : ∀ i, S i → A i → Prop)

/- Each machine of a reached state has reached its own. -/
theorem Reach.component
    {s : ∀ i, S i}
    (hReach :
      (product machines).Reach
        (fun s a => okEach a.1 (s a.1) a.2) s)
    (i : ι) :
    (machines i).Reach (okEach i) (s i) := by
  induction hReach with
  | init hInit =>
      exact Reach.init (hInit i)
  | @step s s' a _ hOk hStep ih =>
      rcases Option.map_eq_some_iff.mp hStep with
        ⟨next, hNext, hSame⟩
      rcases a with ⟨j, a⟩
      by_cases hActs : i = j
      · subst hActs
        rw [← hSame, Function.update_self]
        exact Reach.step ih hOk hNext
      · rw [← hSame, Function.update_of_ne hActs]
        exact ih

/-
  What one machine reaches, they all reach with the others
  at their starts.
-/
theorem Reach.lift
    {start : ∀ i, S i}
    (hStart : ∀ i, (machines i).init (start i))
    {i : ι}
    {t : S i}
    (hReach : (machines i).Reach (okEach i) t) :
    (product machines).Reach
      (fun s a => okEach a.1 (s a.1) a.2)
      (Function.update start i t) := by
  induction hReach with
  | @init t hInit =>
      apply Reach.init
      intro j
      by_cases hActs : j = i
      · subst hActs
        rw [Function.update_self]
        exact hInit
      · rw [Function.update_of_ne hActs]
        exact hStart j
  | @step t t' a _ hOk hStep ih =>
      refine Reach.step ih (a := ⟨i, a⟩) ?_ ?_
      · rw [Function.update_self]
        exact hOk
      · refine Option.map_eq_some_iff.mpr ⟨t', ?_, ?_⟩
        · rw [Function.update_self]
          exact hStep
        · exact Function.update_idem _ _ _

end Product

end Machine
