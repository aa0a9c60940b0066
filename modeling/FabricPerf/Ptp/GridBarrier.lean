import FabricPerf.Ptp.EntryBlock

/-
  The grid barrier at the end of the PTP samples.

  Thread 0 of every CTA of a one-dimensional grid runs the
  entry block; their loads and atomics on the two barrier
  words interleave in any order, and a CTA may poll until
  its bound is exhausted.  `bar.sync` is not waited for,
  which only allows more interleavings.

  Main declarations:
    * `Ptp.gridMachine`
    * `Ptp.GridOk`
    * `Ptp.grid_barrier_safe`
-/

------------------------------------------------------------
-- The Grid
------------------------------------------------------------

namespace FabricPerf

namespace Ptp

/- A launch of at least one CTA. -/
structure Grid where
  numDevices : BitVec 32
  deviceId : BitVec 32
  nctaid : BitVec 32
  nctaid_pos : 0 < nctaid.toNat

namespace Grid

/- The number of CTAs. -/
def size (g : Grid) : Nat :=
  g.nctaid.toNat

/- Thread 0 of a CTA. -/
def thread (g : Grid) (i : Fin g.size) : Thread where
  numDevices := g.numDevices
  deviceId := g.deviceId
  nctaid := g.nctaid
  ctaid := BitVec.ofNat 32 i
  tid := 0
  laneid := 0

end Grid

/-
  The barrier words `ptpGlobalBarrier` and
  `ptpGlobalBarrierSense` and the CTAs.  The CTAs that have
  added to the count, in that order, are history.
-/
structure GridState (n : Nat) where
  count : BitVec 32
  sense : BitVec 32
  control : Fin n → Control
  arrivals : List (Fin n)

/- A CTA goes on; a message poll loads the given tag. -/
structure GridAction (n : Nat) where
  cta : Fin n
  tag : BitVec 64
deriving DecidableEq, Repr

namespace GridState

variable {n : Nat}

/-
  What the next step of a CTA reads: the old count if it
  adds to the count, and the sense if it loads that.
-/
def answer (s : GridState n) (a : GridAction n) : Answer where
  tag := a.tag
  word :=
    if (s.control a.cta).label = .arrive then
      s.count
    else
      s.sense

/- What the step of a CTA does to the barrier words. -/
def perform (s : GridState n) (i : Fin n) : GridState n :=
  match (s.control i).label with
  | .arrive =>
      { s with
        count := s.count + 1
        arrivals := s.arrivals ++ [i] }
  | .barrierRelease => { s with count := 0 }
  | .raiseSense => { s with sense := s.sense + 1 }
  | _ => s

/- A CTA gets to another label. -/
def setControl
    (s : GridState n)
    (i : Fin n)
    (c : Control) : GridState n :=
  { s with
    control := fun j => if j = i then c else s.control j }

end GridState

/- One step of one CTA. -/
def Grid.step
    (g : Grid)
    (s : GridState g.size)
    (a : GridAction g.size) : Option (GridState g.size) :=
  ((g.thread a.cta).next (s.control a.cta) (s.answer a)).map
    fun c => (s.perform a.cta).setControl a.cta c

/- The grid, from count zero and a given sense. -/
def gridMachine (g : Grid) (sense : BitVec 32) :
    Machine (GridState g.size) (GridAction g.size) where
  init := fun s =>
    s.count = 0 ∧ s.sense = sense ∧
      (∀ i, (s.control i).Enters) ∧ s.arrivals = []
  step := g.step

------------------------------------------------------------
-- Places Around The Barrier
------------------------------------------------------------

namespace Control

/- Between its arrival and its leaving. -/
def Inside (c : Control) : Prop :=
  c.label = .barrierRelease ∨ c.label = .raiseSense ∨
    c.label = .barrierWait

/- Has added to the count. -/
def Arrived (c : Control) : Prop :=
  c.Inside ∨ c.left ≠ none

/- Is on the release path or has left by it. -/
def Releases (c : Control) : Prop :=
  c.label = .barrierRelease ∨ c.label = .raiseSense ∨
    c.left = some .release

/- Holds in its register the sense it has read. -/
def HoldsSense (c : Control) : Prop :=
  c.label = .arrive ∨ c.label = .barrierWait

end Control

/- Labels at which a step does not touch the barrier. -/
def Label.Quiet (label : Label) : Prop :=
  label ≠ .readSense ∧ label ≠ .arrive ∧
    label ≠ .barrierRelease ∧ label ≠ .raiseSense ∧
    label ≠ .barrierWait

/- A quiet step comes to no place inside the barrier. -/
theorem Thread.next_quiet
    {t : Thread}
    {c c' : Control}
    {a : Answer}
    (hQuiet : c.label.Quiet)
    (hNext : t.next c a = some c') :
    c'.left = c.left ∧
      (c'.label = .readSense ∨ c'.label.Quiet) := by
  rcases c with
    ⟨label, polls, sense, row, leader, sample, bars, left⟩
  cases label with
  | haveMessage m =>
      cases hWait : m.nextWait <;>
        simp only [Thread.next, hWait, Control.goto,
          Control.startWait, Option.some.injEq] at hNext <;>
        cases hNext <;> simp [Label.Quiet]
  | leaderLoop | afterGridbar =>
      cases hNext
      simp [Label.Quiet]
  | readSense | arrive | barrierRelease | raiseSense
  | barrierWait =>
      simp [Label.Quiet] at hQuiet
  | doneExit =>
      cases hNext
  | _ =>
      simp only [Thread.next, Control.goto,
        Control.startWait] at hNext
      split_ifs at hNext <;> cases hNext <;>
        simp [Label.Quiet]

------------------------------------------------------------
-- One Thread
------------------------------------------------------------

/-
  A thread 0 has left the barrier from
  `$L__ptp_after_gridbar` on, and not before.
-/
def LeaveOk (c : Control) : Prop :=
  match c.label with
  | .afterGridbar | .done | .saveLoop => c.left ≠ none
  | .doneExit => c.left ≠ none → 20 ≤ c.bars
  | _ => c.left = none

/- Every step of a thread 0 keeps it so. -/
theorem leaveOk_next
    {t : Thread}
    {c c' : Control}
    {a : Answer}
    (hTid : t.tid = 0)
    (hBlock : BlockOk t c)
    (hOk : LeaveOk c)
    (hNext : t.next c a = some c') :
    LeaveOk c' := by
  rcases c with
    ⟨label, polls, sense, row, leader, sample, bars, left⟩
  cases label with
  | haveMessage m =>
      cases hWait : m.nextWait <;>
        simp only [Thread.next, hWait, Control.goto,
          Control.startWait, Option.some.injEq] at hNext <;>
        cases hNext <;> exact hOk
  | entry =>
      have hNone : left = none := hOk
      simp only [Thread.next, Control.goto] at hNext
      split_ifs at hNext <;> cases hNext <;>
        simp [LeaveOk, hNone]
  | syncLocal =>
      simp only [Thread.next, Control.goto, hTid, ne_eq,
        not_true_eq_false, if_false] at hNext
      split_ifs at hNext <;> cases hNext <;> exact hOk
  | raiseSense =>
      cases hNext
      simp [LeaveOk, Control.leave]
  | barrierWait =>
      simp only [Thread.next, Control.leave] at hNext
      split_ifs at hNext <;> cases hNext <;>
        first | exact hOk | simp [LeaveOk]
  | done | saveLoop =>
      have hBars : 20 ≤ bars := by
        have hCount : bars = 21 := hBlock.2
        omega
      simp only [Thread.next, Control.goto] at hNext
      split_ifs at hNext <;> cases hNext <;>
        first | exact hOk | exact fun _ => hBars
  | leaderLoop | readSense | barrierRelease | afterGridbar =>
      cases hNext
      exact hOk
  | doneExit =>
      cases hNext
  | _ =>
      simp only [Thread.next, Control.goto,
        Control.startWait] at hNext
      split_ifs at hNext <;> cases hNext <;> exact hOk

/- It is so in every reachable state of a thread 0. -/
theorem leaveOk_of_reachable
    {t : Thread}
    {c : Control}
    (hTid : t.tid = 0)
    (hReach : (entryBlock t).Reachable c) :
    LeaveOk c := by
  refine
    Machine.Reach.invariant_of (BlockOk t) LeaveOk
      (fun _ hAt => blockOk_of_reachable hAt) ?_ ?_ hReach
  · intro c hEnters
    have hNone := hEnters.left
    simpa [LeaveOk, hEnters.label] using hNone
  · intro c a c' hBlock hOk _ hNext
    exact leaveOk_next hTid hBlock hOk hNext

namespace LeaveOk

variable {c : Control}

/- At these places a thread 0 has not left. -/
theorem left_none
    (hOk : LeaveOk c)
    (hPlace :
      c.label = .readSense ∨ c.label = .arrive ∨ c.Inside) :
    c.left = none := by
  rcases hPlace with hAt | hAt | hAt | hAt | hAt <;>
    simpa [LeaveOk, hAt] using hOk

/- Who is gone from the release path has left by it. -/
theorem release_of_gone
    (hOk : LeaveOk c)
    (hGone : c.left ≠ none)
    (hReleases : c.Releases) :
    c.left = some .release := by
  rcases hReleases with hAt | hAt | hLeft
  · exact absurd (hOk.left_none (Or.inr (Or.inr (Or.inl hAt)))) hGone
  · exact
      absurd
        (hOk.left_none (Or.inr (Or.inr (Or.inr (Or.inl hAt)))))
        hGone
  · exact hLeft

/- An arrived CTA has finished its samples. -/
theorem bars_of_arrived
    {t : Thread}
    (hOk : LeaveOk c)
    (hBlock : BlockOk t c)
    (hArrived : c.Arrived) :
    20 ≤ c.bars := by
  rcases hArrived with (hAt | hAt | hAt) | hLeft
  · simp only [BlockOk, hAt] at hBlock
    omega
  · simp only [BlockOk, hAt] at hBlock
    omega
  · simp only [BlockOk, hAt] at hBlock
    omega
  · rcases c with
      ⟨label, polls, sense, row, leader, sample, bars, left⟩
    cases label with
    | afterGridbar | done | saveLoop =>
        simp only [BlockOk] at hBlock
        simp only
        omega
    | doneExit => exact hOk hLeft
    | _ => exact absurd hOk hLeft

end LeaveOk

/- What a CTA does in the grid, its thread 0 does alone. -/
theorem reach_control
    {g : Grid}
    {sense : BitVec 32}
    {s : GridState g.size}
    (hReach : (gridMachine g sense).Reachable s)
    (i : Fin g.size) :
    (entryBlock (g.thread i)).Reachable (s.control i) := by
  refine
    Machine.Reach.project (fun s => s.control i) ?_ ?_ hReach
  · intro s hInit
    exact hInit.2.2.1 i
  · intro s a s' _ hStep
    rcases Option.map_eq_some_iff.mp hStep with
      ⟨c, hNext, rfl⟩
    by_cases hSelf : i = a.cta
    · right
      refine ⟨s.answer a, trivial, ?_⟩
      subst hSelf
      simpa [entryBlock, GridState.setControl] using hNext
    · left
      have hControl :
          (s.perform a.cta).control = s.control := by
        unfold GridState.perform
        split <;> rfl
      simp [GridState.setControl, hSelf, hControl]

------------------------------------------------------------
-- The Invariant
------------------------------------------------------------

/-
  The barrier words after the last arrival, by how far the
  CTA on the release path is.
-/
structure Releasing
    (sense count now : BitVec 32)
    (c : Control) : Prop where
  reset : c.label = .barrierRelease → now = sense
  raise : c.label = .raiseSense → count = 0 ∧ now = sense
  left :
    c.left = some .release → count = 0 ∧ now = sense + 1

/-
  Up to the last arrival the count is the number of
  arrivals, and nobody is on the release path; after it
  exactly one CTA is or has been.
-/
structure GridOk
    {n : Nat}
    (sense : BitVec 32)
    (s : GridState n) : Prop where
  nodup : s.arrivals.Nodup
  mem_iff : ∀ i, i ∈ s.arrivals ↔ (s.control i).Arrived
  before :
    s.arrivals.length < n →
      s.count.toNat = s.arrivals.length ∧
        s.sense = sense ∧ ∀ i, ¬ (s.control i).Releases
  after :
    s.arrivals.length = n →
      ∃ r, (∀ i, (s.control i).Releases ↔ i = r) ∧
        Releasing sense s.count s.sense (s.control r)
  holds :
    ∀ i, (s.control i).HoldsSense →
      (s.control i).sense = sense
  seen :
    ∀ i, (s.control i).left = some .seen →
      s.arrivals.length = n

namespace GridOk

variable {n : Nat}
variable {sense : BitVec 32}
variable {s : GridState n}
variable {i : Fin n}
variable {c : Control}

/- Nobody arrives twice. -/
theorem length_le (hOk : GridOk sense s) :
    s.arrivals.length ≤ n := by
  simpa using hOk.nodup.length_le_card

/- Somebody who has not arrived is missing. -/
theorem length_lt
    (hOk : GridOk sense s)
    (hNot : ¬ (s.control i).Arrived) :
    s.arrivals.length < n := by
  have hMissing : i ∉ s.arrivals := by
    rwa [hOk.mem_iff i]
  have hMore : (i :: s.arrivals).Nodup :=
    List.nodup_cons.mpr ⟨hMissing, hOk.nodup⟩
  simpa [Nat.succ_le_iff] using hMore.length_le_card

/- Nobody is missing after the last arrival. -/
theorem all_arrived
    (hOk : GridOk sense s)
    (hFull : s.arrivals.length = n)
    (j : Fin n) :
    j ∈ s.arrivals := by
  by_contra hMissing
  have hLess : s.arrivals.length < n := by
    apply hOk.length_lt (i := j)
    rwa [← hOk.mem_iff j]
  omega

/- All have arrived: the last arrival is past. -/
theorem full_of_arrived
    (hOk : GridOk sense s)
    (hArrived : ∀ j, (s.control j).Arrived) :
    s.arrivals.length = n := by
  have hAll : List.finRange n ⊆ s.arrivals := by
    intro j hMem
    exact (hOk.mem_iff j).mpr (hArrived j)
  have hEnough :=
    ((List.nodup_finRange n).subperm hAll).length_le
  rw [List.length_finRange] at hEnough
  exact Nat.le_antisymm hOk.length_le hEnough

/- The release path is taken after the last arrival. -/
theorem full_of_releases
    (hOk : GridOk sense s)
    (hReleases : (s.control i).Releases) :
    s.arrivals.length = n := by
  by_contra hNot
  have hBefore := hOk.length_le
  exact (hOk.before (by omega)).2.2 i hReleases

/-
  A step of a CTA that does not arrive by it.  It changes
  the barrier words only on the release path.
-/
theorem keep
    (hOk : GridOk sense s)
    {count now : BitVec 32}
    (hSame :
      (count = s.count ∧ now = s.sense) ∨
        (s.control i).Releases)
    (hArrived : c.Arrived ↔ (s.control i).Arrived)
    (hReleases : c.Releases ↔ (s.control i).Releases)
    (hWords :
      Releasing sense s.count s.sense (s.control i) →
        Releasing sense count now c)
    (hHolds : c.HoldsSense → c.sense = sense)
    (hSeen : c.left = some .seen → s.arrivals.length = n) :
    GridOk sense
      (GridState.setControl
        { s with count := count, sense := now } i c) := by
  constructor
  · exact hOk.nodup
  · intro j
    by_cases hSelf : j = i
    · subst hSelf
      simpa [GridState.setControl, hArrived] using hOk.mem_iff j
    · simpa [GridState.setControl, hSelf] using hOk.mem_iff j
  · intro hShort
    rcases hOk.before hShort with ⟨hCount, hSense, hNone⟩
    rcases hSame with ⟨rfl, rfl⟩ | hRelease
    · refine ⟨hCount, hSense, ?_⟩
      intro j
      by_cases hSelf : j = i
      · subst hSelf
        simpa [GridState.setControl, hReleases] using hNone j
      · simpa [GridState.setControl, hSelf] using hNone j
    · exact absurd hRelease (hNone i)
  · intro hFull
    rcases hOk.after hFull with ⟨r, hOnly, hRelease⟩
    refine ⟨r, ?_, ?_⟩
    · intro j
      by_cases hSelf : j = i
      · subst hSelf
        simpa [GridState.setControl, hReleases] using hOnly j
      · simpa [GridState.setControl, hSelf] using hOnly j
    · by_cases hSelf : r = i
      · subst hSelf
        simpa [GridState.setControl] using hWords hRelease
      · have hOff : ¬ (s.control i).Releases := by
          intro hOn
          exact hSelf ((hOnly i).mp hOn).symm
        rcases hSame with ⟨rfl, rfl⟩ | hOn
        · simpa [GridState.setControl, hSelf] using hRelease
        · exact absurd hOn hOff
  · intro j
    by_cases hSelf : j = i
    · subst hSelf
      simpa [GridState.setControl] using hHolds
    · simpa [GridState.setControl, hSelf] using hOk.holds j
  · intro j
    by_cases hSelf : j = i
    · subst hSelf
      simpa [GridState.setControl] using hSeen
    · simpa [GridState.setControl, hSelf] using hOk.seen j

/- A quiet step of a CTA. -/
theorem keep_quiet
    (hOk : GridOk sense s)
    (hQuiet : (s.control i).label.Quiet)
    (hLeft : c.left = (s.control i).left)
    (hTo : c.label = .readSense ∨ c.label.Quiet) :
    GridOk sense (s.setControl i c) := by
  have hPlace :
      c.label ≠ .arrive ∧ c.label ≠ .barrierRelease ∧
        c.label ≠ .raiseSense ∧ c.label ≠ .barrierWait := by
    rcases hTo with hRead | hOther
    · simp [hRead]
    · exact hOther.2
  rcases hQuiet with ⟨hNotRead, hFrom⟩
  refine hOk.keep (Or.inl ⟨rfl, rfl⟩) ?_ ?_ ?_ ?_ ?_
  · simp [Control.Arrived, Control.Inside, hLeft, hPlace, hFrom]
  · simp [Control.Releases, hLeft, hPlace, hFrom]
  · intro hWords
    constructor
    · simp [hPlace]
    · simp [hPlace]
    · simpa [hLeft] using hWords.left
  · simp [Control.HoldsSense, hPlace]
  · intro hSeen
    exact hOk.seen i (hLeft ▸ hSeen)

/- The step of a CTA that adds to the count. -/
theorem arrive
    (hOk : GridOk sense s)
    (hBound : n < 2 ^ 32)
    (hNot : ¬ (s.control i).Arrived)
    (hInside : c.Inside)
    (hLeft : c.left = none)
    (hHolds : c.sense = sense)
    (hRelease :
      c.label = .barrierRelease ↔ s.arrivals.length + 1 = n)
    (hWait : c.label ≠ .raiseSense) :
    GridOk sense
      (GridState.setControl
        { s with
          count := s.count + 1
          arrivals := s.arrivals ++ [i] } i c) := by
  have hShort := hOk.length_lt hNot
  rcases hOk.before hShort with ⟨hCount, hSense, hNone⟩
  have hMissing : i ∉ s.arrivals := by
    rwa [hOk.mem_iff i]
  have hReleases :
      c.Releases ↔ s.arrivals.length + 1 = n := by
    simp [Control.Releases, hLeft, hWait, hRelease]
  have hArrived : c.Arrived := Or.inl hInside
  constructor
  · simp only [GridState.setControl, List.nodup_append]
    refine ⟨hOk.nodup, by simp, ?_⟩
    intro j hMem k hSelf hEq
    simp only [List.mem_singleton] at hSelf
    rw [hEq, hSelf] at hMem
    exact hMissing hMem
  · intro j
    by_cases hSelf : j = i
    · subst hSelf
      simpa [GridState.setControl] using hArrived
    · simpa [GridState.setControl, hSelf] using hOk.mem_iff j
  · intro hLess
    simp only [GridState.setControl, List.length_append,
      List.length_singleton] at hLess ⊢
    refine ⟨?_, hSense, ?_⟩
    · rw [BitVec.toNat_add, hCount]
      simp
      omega
    · intro j
      by_cases hSelf : j = i
      · have hOff : ¬ c.Releases := by
          rw [hReleases]
          omega
        simpa [hSelf] using hOff
      · simpa [hSelf] using hNone j
  · intro hFull
    simp only [GridState.setControl, List.length_append,
      List.length_singleton] at hFull ⊢
    refine ⟨i, ?_, ?_⟩
    · intro j
      by_cases hSelf : j = i
      · simpa [hSelf, hReleases] using hFull
      · simpa [hSelf] using hNone j
    · simp only [if_true]
      refine ⟨fun _ => hSense, ?_, ?_⟩
      · intro hRaise
        exact absurd hRaise hWait
      · intro hGone
        simp [hLeft] at hGone
  · intro j
    by_cases hSelf : j = i
    · subst hSelf
      simpa [GridState.setControl] using fun _ => hHolds
    · simpa [GridState.setControl, hSelf] using hOk.holds j
  · intro j hSeen
    by_cases hSelf : j = i
    · subst hSelf
      simp [GridState.setControl, hLeft] at hSeen
    · simp only [GridState.setControl, hSelf, if_false] at hSeen
      have hFull := hOk.seen j hSeen
      omega

end GridOk

/- Nobody has arrived at the start. -/
theorem gridOk_init
    {g : Grid}
    {sense : BitVec 32}
    {s : GridState g.size}
    (hInit : (gridMachine g sense).init s) :
    GridOk sense s := by
  rcases hInit with ⟨hCount, hSense, hEnters, hEmpty⟩
  have hSize : 0 < g.size := g.nctaid_pos
  have hOut (i : Fin g.size) :
      ¬ (s.control i).Arrived ∧ ¬ (s.control i).Releases ∧
        ¬ (s.control i).HoldsSense := by
    simp [Control.Arrived, Control.Inside, Control.Releases,
      Control.HoldsSense, (hEnters i).label, (hEnters i).left]
  constructor
  · simp [hEmpty]
  · intro i
    simpa [hEmpty] using (hOut i).1
  · intro hShort
    exact ⟨by simp [hCount, hEmpty], hSense, fun i => (hOut i).2.1⟩
  · intro hFull
    simp only [hEmpty, List.length_nil] at hFull
    omega
  · intro i hHolds
    exact absurd hHolds (hOut i).2.2
  · intro i hSeen
    simp [(hEnters i).left] at hSeen

section Steps

variable {g : Grid}
variable {sense : BitVec 32}
variable {s : GridState g.size}
variable {i : Fin g.size}
variable {tag : BitVec 64}
variable {c : Control}

/- The old count is one less than the grid's size. -/
theorem GridOk.count_eq_pred_iff
    (hOk : GridOk sense s)
    (hShort : s.arrivals.length < g.size) :
    s.count = g.nctaid - 1 ↔
      s.arrivals.length + 1 = g.size := by
  have hBound : g.size < 2 ^ 32 := g.nctaid.isLt
  have hPos := g.nctaid_pos
  have hCount := (hOk.before hShort).1
  rw [← BitVec.toNat_inj, BitVec.toNat_sub, hCount]
  simp only [Grid.size] at hShort hBound ⊢
  simp
  omega

/- A changed sense is seen after the last arrival only. -/
theorem GridOk.full_of_changed
    (hOk : GridOk sense s)
    (hSeen : s.sense ≠ sense) :
    s.arrivals.length = g.size := by
  by_contra hOpen
  have hShort := hOk.length_le
  exact hSeen (hOk.before (by omega)).2.1

/- The CTA reads the sense. -/
theorem gridOk_readSense
    (hOwn : LeaveOk (s.control i))
    (hOk : GridOk sense s)
    (hLabel : (s.control i).label = .readSense)
    (hNext :
      (g.thread i).next (s.control i) (s.answer ⟨i, tag⟩) =
        some c) :
    GridOk sense ((s.perform i).setControl i c) := by
  have hLeft := hOwn.left_none (Or.inl hLabel)
  have hNot : ¬ (s.control i).Arrived := by
    simp [Control.Arrived, Control.Inside, hLabel, hLeft]
  have hSense := (hOk.before (hOk.length_lt hNot)).2.1
  simp only [Thread.next, hLabel, GridState.answer,
    Option.some.injEq] at hNext
  subst hNext
  simp only [GridState.perform, hLabel]
  refine hOk.keep (Or.inl ⟨rfl, rfl⟩) ?_ ?_ ?_ ?_ ?_
  · simp [Control.Arrived, Control.Inside, hLabel]
  · simp [Control.Releases, hLabel]
  · intro hWords
    constructor <;> simp [hLeft]
  · simp [hSense]
  · simp [hLeft]

/- The CTA adds to the count. -/
theorem gridOk_arrive
    (hOwn : LeaveOk (s.control i))
    (hOk : GridOk sense s)
    (hLabel : (s.control i).label = .arrive)
    (hNext :
      (g.thread i).next (s.control i) (s.answer ⟨i, tag⟩) =
        some c) :
    GridOk sense ((s.perform i).setControl i c) := by
  have hLeft := hOwn.left_none (Or.inr (Or.inl hLabel))
  have hNot : ¬ (s.control i).Arrived := by
    simp [Control.Arrived, Control.Inside, hLabel, hLeft]
  have hHeld := hOk.holds i (Or.inl hLabel)
  have hBound : g.size < 2 ^ 32 := g.nctaid.isLt
  have hLast := hOk.count_eq_pred_iff (hOk.length_lt hNot)
  simp only [Thread.next, hLabel, GridState.answer, if_true,
    Control.goto] at hNext
  simp only [GridState.perform, hLabel]
  split_ifs at hNext with hTest
  · cases hNext
    have hAll := hLast.mp hTest
    refine hOk.arrive hBound hNot ?_ hLeft hHeld ?_ ?_
    · simp [Control.Inside]
    · simp [hAll]
    · simp
  · cases hNext
    have hSome := fun hAll => hTest (hLast.mpr hAll)
    refine hOk.arrive hBound hNot ?_ hLeft hHeld ?_ ?_
    · simp [Control.Inside]
    · simpa using hSome
    · simp

/- The last CTA resets the count. -/
theorem gridOk_barrierRelease
    (hOwn : LeaveOk (s.control i))
    (hOk : GridOk sense s)
    (hLabel : (s.control i).label = .barrierRelease)
    (hNext :
      (g.thread i).next (s.control i) (s.answer ⟨i, tag⟩) =
        some c) :
    GridOk sense ((s.perform i).setControl i c) := by
  have hLeft :=
    hOwn.left_none (Or.inr (Or.inr (Or.inl hLabel)))
  simp only [Thread.next, hLabel, Control.goto,
    Option.some.injEq] at hNext
  subst hNext
  simp only [GridState.perform, hLabel]
  refine hOk.keep (Or.inr (Or.inl hLabel)) ?_ ?_ ?_ ?_ ?_
  · simp [Control.Arrived, Control.Inside, hLabel]
  · simp [Control.Releases, hLabel]
  · intro hWords
    have hSense := hWords.reset hLabel
    constructor <;> simp [hLeft, hSense]
  · simp [Control.HoldsSense]
  · simp [hLeft]

/- The last CTA raises the sense and leaves. -/
theorem gridOk_raiseSense
    (hOk : GridOk sense s)
    (hLabel : (s.control i).label = .raiseSense)
    (hNext :
      (g.thread i).next (s.control i) (s.answer ⟨i, tag⟩) =
        some c) :
    GridOk sense ((s.perform i).setControl i c) := by
  have hOn : (s.control i).Releases :=
    Or.inr (Or.inl hLabel)
  simp only [Thread.next, hLabel, Control.leave,
    Option.some.injEq] at hNext
  subst hNext
  simp only [GridState.perform, hLabel]
  refine hOk.keep (Or.inr hOn) ?_ ?_ ?_ ?_ ?_
  · simp [Control.Arrived, Control.Inside, hLabel]
  · simp [Control.Releases, hLabel]
  · intro hWords
    rcases hWords.raise hLabel with ⟨hCount, hSense⟩
    constructor <;> simp [hCount, hSense]
  · simp [Control.HoldsSense]
  · simp

/- The CTA polls the sense: it leaves, waits or gives up. -/
theorem gridOk_barrierWait
    (hOwn : LeaveOk (s.control i))
    (hOk : GridOk sense s)
    (hLabel : (s.control i).label = .barrierWait)
    (hNext :
      (g.thread i).next (s.control i) (s.answer ⟨i, tag⟩) =
        some c) :
    GridOk sense ((s.perform i).setControl i c) := by
  have hLeft :=
    hOwn.left_none
      (Or.inr (Or.inr (Or.inr (Or.inr hLabel))))
  have hHeld := hOk.holds i (Or.inr hLabel)
  simp only [Thread.next, hLabel, GridState.answer,
    reduceCtorEq, if_false, Control.leave] at hNext
  simp only [GridState.perform, hLabel]
  split_ifs at hNext with hSeen hBelow
  · cases hNext
    have hFull := hOk.full_of_changed (hHeld ▸ hSeen)
    refine hOk.keep (Or.inl ⟨rfl, rfl⟩) ?_ ?_ ?_ ?_ ?_
    · simp [Control.Arrived, Control.Inside, hLabel]
    · simp [Control.Releases, hLabel, hLeft]
    · intro hWords
      constructor <;> simp
    · simp [Control.HoldsSense]
    · simp [hFull]
  · cases hNext
    refine hOk.keep (Or.inl ⟨rfl, rfl⟩) ?_ ?_ ?_ ?_ ?_
    · simp [Control.Arrived, Control.Inside, hLabel]
    · simp [Control.Releases, hLabel]
    · intro hWords
      constructor <;> simp [hLeft]
    · simp [hHeld]
    · simp [hLeft]
  · cases hNext
    refine hOk.keep (Or.inl ⟨rfl, rfl⟩) ?_ ?_ ?_ ?_ ?_
    · simp [Control.Arrived, Control.Inside, hLabel]
    · simp [Control.Releases, hLabel, hLeft]
    · intro hWords
      constructor <;> simp
    · simp [Control.HoldsSense]
    · simp

end Steps

/- What one step of one CTA preserves. -/
theorem gridOk_step
    {g : Grid}
    {sense : BitVec 32}
    {s s' : GridState g.size}
    {a : GridAction g.size}
    (hLeave : ∀ i, LeaveOk (s.control i))
    (hOk : GridOk sense s)
    (hStep : g.step s a = some s') :
    GridOk sense s' := by
  rcases a with ⟨i, tag⟩
  rcases Option.map_eq_some_iff.mp hStep with ⟨c, hNext, rfl⟩
  have hOwn := hLeave i
  cases hLabel : (s.control i).label with
  | readSense => exact gridOk_readSense hOwn hOk hLabel hNext
  | arrive => exact gridOk_arrive hOwn hOk hLabel hNext
  | barrierRelease =>
      exact gridOk_barrierRelease hOwn hOk hLabel hNext
  | raiseSense => exact gridOk_raiseSense hOk hLabel hNext
  | barrierWait => exact gridOk_barrierWait hOwn hOk hLabel hNext
  | _ =>
      have hQuiet : (s.control i).label.Quiet := by
        simp [Label.Quiet, hLabel]
      rcases Thread.next_quiet hQuiet hNext with ⟨hSame, hTo⟩
      simp only [GridState.perform, hLabel]
      exact hOk.keep_quiet hQuiet hSame hTo

/- The invariant holds in every reachable state. -/
theorem gridOk_of_reachable
    {g : Grid}
    {sense : BitVec 32}
    {s : GridState g.size}
    (hReach : (gridMachine g sense).Reachable s) :
    GridOk sense s := by
  refine
    Machine.Reach.invariant_of
      (fun s => ∀ i, LeaveOk (s.control i)) (GridOk sense)
      ?_ (fun _ hInit => gridOk_init hInit) ?_ hReach
  · intro s hAt i
    exact leaveOk_of_reachable rfl (reach_control hAt i)
  · intro s a s' hLeave hOk _ hStep
    exact gridOk_step hLeave hOk hStep

------------------------------------------------------------
-- Safety
------------------------------------------------------------

/-
  In every reachable state of a grid: a CTA that has left by
  the release path or by a changed sense has left after all
  arrivals; at most one has left by the release path, and
  once all have left exactly one has, the count is zero and
  the sense has grown by one; and while CTA 0 saves, not
  having given up, every CTA has finished its twenty samples.
-/
theorem grid_barrier_safe
    (g : Grid)
    (sense : BitVec 32)
    (s : GridState g.size)
    (hReach : (gridMachine g sense).Reachable s) :
    (∀ i way, (s.control i).left = some way →
      way ≠ .gaveUp → ∀ j, j ∈ s.arrivals) ∧
    (∀ i j, (s.control i).left = some .release →
      (s.control j).left = some .release → i = j) ∧
    ((∀ i, (s.control i).left ≠ none) →
      (∃! i, (s.control i).left = some .release) ∧
        s.count = 0 ∧ s.sense = sense + 1) ∧
    (∀ i, (s.control i).label = .saveLoop →
      (s.control i).left ≠ some .gaveUp →
        ∀ j, 20 ≤ (s.control j).bars) := by
  have hOk := gridOk_of_reachable hReach
  have hLeave (i : Fin g.size) : LeaveOk (s.control i) :=
    leaveOk_of_reachable rfl (reach_control hReach i)
  have hBlock (i : Fin g.size) :
      BlockOk (g.thread i) (s.control i) :=
    blockOk_of_reachable (reach_control hReach i)
  have hFull (i : Fin g.size) (way : Leave)
      (hLeft : (s.control i).left = some way)
      (hWay : way ≠ .gaveUp) :
      s.arrivals.length = g.size := by
    cases way with
    | release => exact hOk.full_of_releases (Or.inr (Or.inr hLeft))
    | seen => exact hOk.seen i hLeft
    | gaveUp => exact absurd rfl hWay
  refine ⟨?_, ?_, ?_, ?_⟩
  · intro i way hLeft hWay
    exact hOk.all_arrived (hFull i way hLeft hWay)
  · intro i j hI hJ
    have hAll := hFull i .release hI (by simp)
    rcases hOk.after hAll with ⟨r, hOnly, hWords⟩
    have hFirst := (hOnly i).mp (Or.inr (Or.inr hI))
    have hSecond := (hOnly j).mp (Or.inr (Or.inr hJ))
    rw [hFirst, hSecond]
  · intro hGone
    have hAll : s.arrivals.length = g.size :=
      hOk.full_of_arrived fun i => Or.inr (hGone i)
    rcases hOk.after hAll with ⟨r, hOnly, hWords⟩
    have hRelease : (s.control r).left = some .release :=
      (hLeave r).release_of_gone (hGone r) ((hOnly r).mpr rfl)
    refine ⟨⟨r, hRelease, ?_⟩, hWords.left hRelease⟩
    intro i hLeft
    exact (hOnly i).mp (Or.inr (Or.inr hLeft))
  · intro i hSave hWay j
    have hLeft : (s.control i).left ≠ none := by
      simpa [LeaveOk, hSave] using hLeave i
    rcases Option.ne_none_iff_exists'.mp hLeft with ⟨way, hIs⟩
    have hNotGaveUp : way ≠ .gaveUp := by
      intro hGaveUp
      exact hWay (by rw [hIs, hGaveUp])
    have hArrived :=
      (hOk.mem_iff j).mp
        (hOk.all_arrived (hFull i way hIs hNotGaveUp) j)
    exact (hLeave j).bars_of_arrived (hBlock j) hArrived

/- Rank 0 of two ranks launches two CTAs. -/
def twoCtas : Grid where
  numDevices := 2
  deviceId := 0
  nctaid := 2
  nctaid_pos := by decide

/- The CTA with index 0, and the one with index 1. -/
def twoCtasFirst : Fin twoCtas.size :=
  ⟨0, by decide⟩

def twoCtasSecond : Fin twoCtas.size :=
  ⟨1, by decide⟩

/- Two CTAs about to enter, with a sense of seven. -/
def twoCtasStart : GridState twoCtas.size where
  count := 0
  sense := 7
  control := fun _ =>
    { label := .entry
      polls := 0
      sense := 0
      row := 0
      leader := 0
      sample := 0
      bars := 0
      left := none }
  arrivals := []

/- A CTA goes on for a number of steps; each poll hits. -/
def goOn (i : Fin twoCtas.size) (tags : List (BitVec 64)) :
    List (GridAction twoCtas.size) :=
  tags.map (fun tag => ⟨i, tag⟩)

/-
  CTA 1 exchanges the messages of its twenty samples,
  arrives and polls once; CTA 0 arrives last, releases and
  comes to its save loop; CTA 1 sees the new sense.
-/
def twoCtasRun : List (GridAction twoCtas.size) :=
  goOn twoCtasSecond [0, 0] ++
    (List.range 20).flatMap (fun _ =>
      goOn twoCtasSecond [0, 0, 96, 0, 32, 0, 48, 0, 0]) ++
    goOn twoCtasSecond [0, 0, 0] ++
    goOn twoCtasFirst (List.replicate (2 + 20 * 3 + 6) 0) ++
    goOn twoCtasSecond [0]

/- The run is one of the machine's, and leads that far. -/
theorem run_twoCtas :
    ∃ s, (gridMachine twoCtas 7).Reachable s ∧
      (s.control twoCtasFirst).label = .saveLoop ∧
      (s.control twoCtasFirst).left = some .release ∧
      (s.control twoCtasSecond).left = some .seen := by
  have hCheck :
      (((gridMachine twoCtas 7).run
        twoCtasStart twoCtasRun).any fun s =>
          (s.control twoCtasFirst).label = .saveLoop ∧
            (s.control twoCtasFirst).left = some .release ∧
            (s.control twoCtasSecond).left = some .seen) =
        true := by
    decide +kernel
  rcases (Option.any_eq_true _ _).mp hCheck with
    ⟨s, hRun, hEnd⟩
  have hInit : (gridMachine twoCtas 7).init twoCtasStart :=
    ⟨rfl, rfl, fun _ => ⟨rfl, rfl, rfl⟩, rfl⟩
  have hReach :=
    Machine.reachable_of_run (Machine.Reach.init hInit) hRun
  exact ⟨s, hReach, of_decide_eq_true hEnd⟩

/- There the barrier words are as they should be. -/
theorem grid_barrier_safe_twoCtas :
    ∃ s, (gridMachine twoCtas 7).Reachable s ∧
      (∀ j, j ∈ s.arrivals) ∧
      s.count = 0 ∧ s.sense = 8 ∧
      ∀ j, 20 ≤ (s.control j).bars := by
  rcases run_twoCtas with
    ⟨s, hReach, hSave, hFirst, hSecond⟩
  rcases grid_barrier_safe twoCtas 7 s hReach with
    ⟨hArrived, -, hLast, hSamples⟩
  have hGone (i : Fin twoCtas.size) :
      (s.control i).left ≠ none := by
    have hEither : i = twoCtasFirst ∨ i = twoCtasSecond := by
      revert i
      decide
    rcases hEither with rfl | rfl
    · simp [hFirst]
    · simp [hSecond]
  refine
    ⟨s, hReach, hArrived twoCtasFirst .release hFirst (by simp),
      (hLast hGone).2.1, (hLast hGone).2.2, ?_⟩
  exact hSamples twoCtasFirst hSave (by simp [hFirst])

end Ptp

end FabricPerf
