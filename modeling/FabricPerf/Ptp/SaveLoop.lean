import FabricPerf.Lib.ByteMemory
import FabricPerf.Ptp.EntryBlock

/-
  The end of the PTP block: `$L__ptp_done` and
  `$L__ptp_save_loop`.

  One thread of the launch copies the diagnostic scratch into
  the map of the probe, 16 bytes a turn, while the others
  leave the barrier or the block and the rest of the GPU
  writes elsewhere.

  Main declarations:
    * `Ptp.saveMachine`
    * `Ptp.SaveOk`, `Ptp.saveOk_of_reachable`
    * `Ptp.save_loop_copies`
-/

------------------------------------------------------------
-- Threads That Save
------------------------------------------------------------

namespace FabricPerf

namespace Ptp

open ByteMemory

/- The rows of the diagnostic scratch. -/
def diagnosticRows : Nat := 1120

/- The branches at `$L__ptp_done` let the thread save. -/
def Thread.Saves (t : Thread) : Prop :=
  t.laneid = 0 ∧ t.ctaid = 0 ∧ t.tid >>> 5 = 0

instance (t : Thread) : Decidable t.Saves :=
  inferInstanceAs (Decidable (_ ∧ _))

/-
  The threads of a launch in one dimension: a thread is known
  by its CTA and its index there, which gives its lane.
-/
structure Launch (ι : Type) where
  thread : ι → Thread
  lane : ∀ i, (thread i).laneid = (thread i).tid &&& 31
  distinct :
    ∀ i j,
      (thread i).ctaid = (thread j).ctaid →
      (thread i).tid = (thread j).tid → i = j

/- The low and the high bits make the number. -/
theorem tid_eq_zero
    {tid : BitVec 32}
    (hLow : tid &&& 31 = 0)
    (hHigh : tid >>> 5 = 0) :
    tid = 0 := by
  have hMod : tid.toNat % 2 ^ 5 = 0 := by
    have hNat := congrArg BitVec.toNat hLow
    rw [BitVec.toNat_and] at hNat
    exact (Nat.and_two_pow_sub_one_eq_mod _ 5).symm.trans hNat
  have hDiv : tid.toNat / 2 ^ 5 = 0 := by
    have hNat := congrArg BitVec.toNat hHigh
    rw [BitVec.toNat_ushiftRight,
      Nat.shiftRight_eq_div_pow] at hNat
    exact hNat
  apply BitVec.eq_of_toNat_eq
  change tid.toNat = 0
  omega

/- At most one thread of a launch saves. -/
theorem Launch.saver_unique
    {ι : Type}
    (launch : Launch ι)
    {i j : ι}
    (hI : (launch.thread i).Saves)
    (hJ : (launch.thread j).Saves) :
    i = j := by
  rcases hI with ⟨hLaneI, hCtaI, hWarpI⟩
  rcases hJ with ⟨hLaneJ, hCtaJ, hWarpJ⟩
  rw [launch.lane] at hLaneI hLaneJ
  apply launch.distinct
  · rw [hCtaI, hCtaJ]
  · rw [tid_eq_zero hLaneI hWarpI, tid_eq_zero hLaneJ hWarpJ]

------------------------------------------------------------
-- Steps
------------------------------------------------------------

/-
  What the block reads its pointers from: `globalResultBuff`,
  `__neutrino_map_ptr_0` and `%ntid.x`.  The two buffers are
  different allocations.
-/
structure SaveBuffers where
  scratch : BitVec 64
  map : BitVec 64
  ntid : BitVec 32
  apart : Apart scratch map diagnosticRows

/- `%ptp_rd77` in front of the save loop. -/
def SaveBuffers.streamStart
    (buffers : SaveBuffers)
    (t : Thread) : BitVec 64 :=
  let warp := t.tid >>> 5
  let stream := t.ctaid * (buffers.ntid >>> 5) + warp
  buffers.map + stream.signExtend 64 * 17920

/-
  The threads of a launch, their registers `%ptp_rd78` and
  `%ptp_rd77`, and the memory.
-/
structure SaveState (ι : Type) where
  control : ι → Control
  source : ι → BitVec 64
  stream : ι → BitVec 64
  memory : Memory

/- A thread goes on, or other code writes a byte. -/
inductive SaveAction (ι : Type) where
| thread (i : ι) (answer : Answer)
| other (x : BitVec 64) (byte : UInt8)

namespace SaveBuffers

/- The byte is in the scratch or in its copy. -/
def Holds (buffers : SaveBuffers) (x : BitVec 64) : Prop :=
  (x - buffers.scratch).toNat < 16 * diagnosticRows ∨
    (x - buffers.map).toNat < 16 * diagnosticRows

instance (buffers : SaveBuffers) (x : BitVec 64) :
    Decidable (buffers.Holds x) :=
  inferInstanceAs (Decidable (_ ∨ _))

end SaveBuffers

namespace SaveState

variable {ι : Type} [DecidableEq ι]

/- What a thread does on its way to the next label. -/
def perform
    (buffers : SaveBuffers)
    (s : SaveState ι)
    (i : ι)
    (t : Thread)
    (c : Control) : SaveState ι :=
  let control := Function.update s.control i c
  match (s.control i).label, c.label with
  | .done, .saveLoop =>
      { s with
        control := control
        source := Function.update s.source i buffers.scratch
        stream :=
          Function.update s.stream i (buffers.streamStart t) }
  | .saveLoop, _ =>
      { control := control
        source := Function.update s.source i (s.source i + 16)
        stream := Function.update s.stream i (s.stream i + 16)
        memory :=
          storePair s.memory (s.stream i)
            (loadPair s.memory (s.source i)) }
  | _, _ => { s with control := control }

end SaveState

/- One action of the launch or of other code. -/
def saveStep
    {ι : Type}
    [DecidableEq ι]
    (launch : Launch ι)
    (buffers : SaveBuffers)
    (s : SaveState ι) :
    SaveAction ι → Option (SaveState ι)
| .thread i answer =>
    ((launch.thread i).next (s.control i) answer).map
      (s.perform buffers i (launch.thread i))
| .other x byte =>
    if buffers.Holds x then
      none
    else
      some { s with memory := Function.update s.memory x byte }

/- Places behind the samples and in front of the save loop. -/
def Label.BeforeSave : Label → Prop
| .readSense | .arrive | .barrierRelease | .raiseSense
| .barrierWait | .afterGridbar | .done => True
| _ => False

/-
  The launch from a moment at which every thread is through
  its samples and none has begun to save; threads that do
  not save may have left.
-/
def saveMachine
    {ι : Type}
    [DecidableEq ι]
    (launch : Launch ι)
    (buffers : SaveBuffers)
    (before : Memory) :
    Machine (SaveState ι) (SaveAction ι) where
  init := fun s =>
    s.memory = before ∧
      ∀ i,
        (s.control i).label.BeforeSave ∨
          (¬ (launch.thread i).Saves ∧
            (s.control i).label = .doneExit)
  step := saveStep launch buffers

------------------------------------------------------------
-- What A Step Can Do
------------------------------------------------------------

variable {ι : Type} [DecidableEq ι]
variable {launch : Launch ι} {buffers : SaveBuffers}

/-
  A thread in front of the save loop stays there, or is at
  `$L__ptp_done` and branches by whether it saves.
-/
theorem beforeSave_next
    {t : Thread}
    {c c' : Control}
    {a : Answer}
    (hBefore : c.label.BeforeSave)
    (hNext : t.next c a = some c') :
    c'.label.BeforeSave ∨
      (c.label = .done ∧
        if t.Saves then
          c' = { c with label := .saveLoop, row := 0 }
        else
          c'.label = .doneExit) := by
  rcases c with
    ⟨label, polls, sense, row, leader, sample, bars, left⟩
  cases label with
  | done =>
      right
      refine ⟨rfl, ?_⟩
      simp only [Thread.next, Control.goto] at hNext
      split_ifs at hNext with hLane hCta hWarp <;>
        cases hNext
      · rw [if_neg (fun hSaves => hLane hSaves.1)]
      · rw [if_neg (fun hSaves => hCta hSaves.2.1)]
      · rw [if_neg (fun hSaves => hWarp hSaves.2.2)]
      · rw [if_pos ⟨not_not.mp hLane, not_not.mp hCta,
          not_not.mp hWarp⟩]
  | arrive | barrierWait =>
      left
      simp only [Thread.next, Control.goto,
        Control.leave] at hNext
      split_ifs at hNext <;> cases hNext <;> trivial
  | readSense | barrierRelease | raiseSense | afterGridbar =>
      left
      cases hNext
      trivial
  | _ => exact absurd hBefore id

/- A turn of the save loop, and the next row or the end. -/
theorem saveLoop_next
    {t : Thread}
    {c c' : Control}
    {a : Answer}
    (hLabel : c.label = .saveLoop)
    (hRow : c.row.toNat < diagnosticRows)
    (hNext : t.next c a = some c') :
    (c.row.toNat + 1 < diagnosticRows ∧
        c'.label = .saveLoop ∧
        c'.row.toNat = c.row.toNat + 1) ∨
      (c.row.toNat + 1 = diagnosticRows ∧
        c'.label = .doneExit) := by
  unfold diagnosticRows at hRow ⊢
  have hSucc : (c.row + 1).toNat = c.row.toNat + 1 := by
    rw [BitVec.toNat_add]
    simp
    omega
  have hBound : (1120 : BitVec 32).toNat = 1120 := rfl
  simp only [Thread.next, hLabel, BitVec.ult, hSucc, hBound,
    decide_eq_true_eq] at hNext
  split_ifs at hNext with hMore
  · cases hNext
    left
    exact ⟨hMore, rfl, hSucc⟩
  · cases hNext
    right
    exact ⟨by omega, rfl⟩

namespace SaveState

variable {s : SaveState ι} {i : ι} {t : Thread} {c : Control}

/- Falling into the save loop sets the two pointers. -/
theorem perform_done
    (hLabel : (s.control i).label = .done)
    (hNext : c.label = .saveLoop) :
    s.perform buffers i t c =
      { s with
        control := Function.update s.control i c
        source := Function.update s.source i buffers.scratch
        stream :=
          Function.update s.stream i
            (buffers.streamStart t) } := by
  simp only [perform, hLabel, hNext]

/- A turn of the save loop copies one record. -/
theorem perform_saveLoop
    (hLabel : (s.control i).label = .saveLoop) :
    s.perform buffers i t c =
      { control := Function.update s.control i c
        source := Function.update s.source i (s.source i + 16)
        stream := Function.update s.stream i (s.stream i + 16)
        memory :=
          storePair s.memory (s.stream i)
            (loadPair s.memory (s.source i)) } := by
  simp only [perform, hLabel]

/- Every other step leaves pointers and memory alone. -/
theorem perform_quiet
    (hLabel : (s.control i).label ≠ .saveLoop)
    (hNext : c.label ≠ .saveLoop) :
    s.perform buffers i t c =
      { s with
        control := Function.update s.control i c } := by
  unfold perform
  split
  case h_1 hSaves => exact absurd hSaves hNext
  case h_2 hSaves => exact absurd hSaves hLabel
  case h_3 => rfl

end SaveState

/- The thread that saves starts at the head of the map. -/
theorem SaveBuffers.streamStart_of_saves
    {t : Thread}
    (hSaves : t.Saves) :
    buffers.streamStart t = buffers.map := by
  rcases hSaves with ⟨_, hCta, hWarp⟩
  simp [SaveBuffers.streamStart, hCta, hWarp]

------------------------------------------------------------
-- What The Memory Holds
------------------------------------------------------------

/- Memories agree on the scratch and on its copy. -/
def SaveBuffers.Agrees
    (buffers : SaveBuffers)
    (m m' : Memory) : Prop :=
  ∀ x, buffers.Holds x → m x = m' x

/- The memory with the first rows saved. -/
abbrev SaveBuffers.saved
    (buffers : SaveBuffers)
    (before : Memory)
    (n : Nat) : Memory :=
  copied before buffers.scratch buffers.map n

/-
  The saving thread and the memory: nothing is saved in front
  of the loop, the rows counted so far in it, and all of them
  behind it.
-/
def SaverOk
    (buffers : SaveBuffers)
    (before memory : Memory)
    (c : Control)
    (source stream : BitVec 64) : Prop :=
  match c.label with
  | .saveLoop =>
      c.row.toNat < diagnosticRows ∧
        source = recordAddr buffers.scratch c.row.toNat ∧
        stream = recordAddr buffers.map c.row.toNat ∧
        buffers.Agrees memory
          (buffers.saved before c.row.toNat)
  | .doneExit =>
      buffers.Agrees memory
        (buffers.saved before diagnosticRows)
  | _ => c.label.BeforeSave ∧ buffers.Agrees memory before

/- What holds of all threads and the memory. -/
structure SaveOk
    (launch : Launch ι)
    (buffers : SaveBuffers)
    (before : Memory)
    (s : SaveState ι) : Prop where
  saver :
    ∀ i, (launch.thread i).Saves →
      SaverOk buffers before s.memory (s.control i)
        (s.source i) (s.stream i)
  others :
    ∀ i, ¬ (launch.thread i).Saves →
      (s.control i).label.BeforeSave ∨
        (s.control i).label = .doneExit

variable {before memory memory' : Memory}
variable {c : Control} {source stream : BitVec 64}

/- In front of the loop nothing is saved. -/
theorem saverOk_of_beforeSave
    (hBefore : c.label.BeforeSave)
    (hAgrees : buffers.Agrees memory before) :
    SaverOk buffers before memory c source stream := by
  rcases c with
    ⟨label, polls, sense, row, leader, sample, bars, left⟩
  cases label with
  | saveLoop => exact absurd hBefore id
  | doneExit => exact absurd hBefore id
  | _ => exact ⟨hBefore, hAgrees⟩

/- The three places of the saving thread. -/
theorem SaverOk.cases
    (hOk : SaverOk buffers before memory c source stream) :
    (c.label.BeforeSave ∧ buffers.Agrees memory before) ∨
      (c.label = .saveLoop ∧
        c.row.toNat < diagnosticRows ∧
        source = recordAddr buffers.scratch c.row.toNat ∧
        stream = recordAddr buffers.map c.row.toNat ∧
        buffers.Agrees memory
          (buffers.saved before c.row.toNat)) ∨
      (c.label = .doneExit ∧
        buffers.Agrees memory
          (buffers.saved before diagnosticRows)) := by
  rcases c with
    ⟨label, polls, sense, row, leader, sample, bars, left⟩
  cases label with
  | saveLoop => exact Or.inr (Or.inl ⟨rfl, hOk⟩)
  | doneExit => exact Or.inr (Or.inr ⟨rfl, hOk⟩)
  | _ => exact Or.inl hOk

/- Only the two buffers matter. -/
theorem SaverOk.congr
    (hOk : SaverOk buffers before memory c source stream)
    (hSame : buffers.Agrees memory' memory) :
    SaverOk buffers before memory' c source stream := by
  have hTrans :
      ∀ {m : Memory},
        buffers.Agrees memory m → buffers.Agrees memory' m :=
    fun hAgrees x hHolds =>
      (hSame x hHolds).trans (hAgrees x hHolds)
  unfold SaverOk at hOk ⊢
  split
  case h_1 hLabel =>
      simp only [hLabel] at hOk
      exact ⟨hOk.1, hOk.2.1, hOk.2.2.1, hTrans hOk.2.2.2⟩
  case h_2 hLabel =>
      simp only [hLabel] at hOk
      exact hTrans hOk
  case h_3 hLoop hExit =>
      split at hOk
      case h_1 hLabel => exact absurd hLabel hLoop
      case h_2 hLabel => exact absurd hLabel hExit
      case h_3 => exact ⟨hOk.1, hTrans hOk.2⟩

/- A turn of the loop carries one row more over. -/
theorem agrees_storePair
    {row : Nat}
    (hRow : row < diagnosticRows)
    (hAgrees :
      buffers.Agrees memory (buffers.saved before row)) :
    buffers.Agrees
      (storePair memory (recordAddr buffers.map row)
        (loadPair memory (recordAddr buffers.scratch row)))
      (buffers.saved before (row + 1)) := by
  have hFits := buffers.apart.fits
  have hLoad :
      loadPair memory (recordAddr buffers.scratch row) =
        record (buffers.saved before row) buffers.scratch
          row := by
    apply loadPair_congr
    intro i hI
    apply hAgrees
    left
    rw [toNat_recordAddr_sub _ (by omega) hI]
    omega
  have hTurn :
      storePair (buffers.saved before row)
          (recordAddr buffers.map row)
          (record (buffers.saved before row) buffers.scratch
            row) =
        buffers.saved before (row + 1) :=
    copied_succ buffers.apart hRow
  intro x hHolds
  rw [hLoad, ← hTurn, storePair_apply, storePair_apply,
    hAgrees x hHolds]

------------------------------------------------------------
-- The Invariant
------------------------------------------------------------

/- The next record of a table. -/
theorem recordAddr_succ (base : BitVec 64) (k : Nat) :
    recordAddr base k + 16 = recordAddr base (k + 1) := by
  unfold recordAddr
  rw [BitVec.add_assoc, Nat.mul_add, BitVec.ofNat_add]
  rfl

namespace SaveOk

variable {s : SaveState ι} {i : ι}

/- A step of a thread that moves no data. -/
theorem quiet
    (hOk : SaveOk launch buffers before s)
    {c' : Control}
    (hSaver :
      (launch.thread i).Saves →
        SaverOk buffers before s.memory c' (s.source i)
          (s.stream i))
    (hOther :
      ¬ (launch.thread i).Saves →
        c'.label.BeforeSave ∨ c'.label = .doneExit) :
    SaveOk launch buffers before
      { s with control := Function.update s.control i c' } := by
  constructor
  · intro j hJ
    by_cases hSame : j = i
    · subst hSame
      simp only [Function.update_self]
      exact hSaver hJ
    · simp only [Function.update_of_ne hSame]
      exact hOk.saver j hJ
  · intro j hJ
    by_cases hSame : j = i
    · subst hSame
      simp only [Function.update_self]
      exact hOther hJ
    · simp only [Function.update_of_ne hSame]
      exact hOk.others j hJ

/-
  A step of the saving thread: no other thread saves, so
  only its own place and the memory count.
-/
theorem saving
    (hOk : SaveOk launch buffers before s)
    (hSaves : (launch.thread i).Saves)
    {c' : Control}
    {source' stream' : BitVec 64}
    {memory' : Memory}
    (hPlace :
      SaverOk buffers before memory' c' source' stream') :
    SaveOk launch buffers before
      { control := Function.update s.control i c'
        source := Function.update s.source i source'
        stream := Function.update s.stream i stream'
        memory := memory' } := by
  constructor
  · intro j hJ
    have hSame : j = i := launch.saver_unique hJ hSaves
    subst hSame
    simp only [Function.update_self]
    exact hPlace
  · intro j hJ
    have hNe : j ≠ i := by
      rintro rfl
      exact hJ hSaves
    simp only [Function.update_of_ne hNe]
    exact hOk.others j hJ

/- A step in front of the save loop. -/
theorem step_before
    (hOk : SaveOk launch buffers before s)
    {c' : Control}
    {a : Answer}
    (hBefore : (s.control i).label.BeforeSave)
    (hNext :
      (launch.thread i).next (s.control i) a = some c') :
    SaveOk launch buffers before
      (s.perform buffers i (launch.thread i) c') := by
  have hNotLoop : (s.control i).label ≠ .saveLoop := by
    intro hLoop
    rw [hLoop] at hBefore
    exact hBefore
  have hNotExit : (s.control i).label ≠ .doneExit := by
    intro hExit
    rw [hExit] at hBefore
    exact hBefore
  have hAgrees :
      (launch.thread i).Saves →
        buffers.Agrees s.memory before := by
    intro hSaves
    rcases (hOk.saver i hSaves).cases with
      ⟨_, hSame⟩ | ⟨hLoop, _⟩ | ⟨hExit, _⟩
    · exact hSame
    · exact absurd hLoop hNotLoop
    · exact absurd hExit hNotExit
  rcases beforeSave_next hBefore hNext with
    hStays | ⟨hDone, hBranch⟩
  · have hNextLoop : c'.label ≠ .saveLoop := by
      intro hLoop
      rw [hLoop] at hStays
      exact hStays
    rw [SaveState.perform_quiet hNotLoop hNextLoop]
    exact hOk.quiet
      (fun hSaves =>
        saverOk_of_beforeSave hStays (hAgrees hSaves))
      (fun _ => Or.inl hStays)
  · by_cases hSaves : (launch.thread i).Saves
    · -- row 0, nothing saved yet
      rw [if_pos hSaves] at hBranch
      rw [hBranch, SaveState.perform_done hDone rfl]
      apply hOk.saving hSaves
      refine ⟨Nat.zero_lt_succ 1119, ?_, ?_, ?_⟩
      · simp [recordAddr]
      · rw [SaveBuffers.streamStart_of_saves hSaves]
        simp [recordAddr]
      · intro x hHolds
        have hNone :
            buffers.saved before 0 x = before x :=
          congrFun copied_zero x
        exact (hAgrees hSaves x hHolds).trans hNone.symm
    · rw [if_neg hSaves] at hBranch
      have hNextLoop : c'.label ≠ .saveLoop := by
        rw [hBranch]
        exact Label.noConfusion
      rw [SaveState.perform_quiet hNotLoop hNextLoop]
      exact hOk.quiet
        (fun hOwn => absurd hOwn hSaves)
        (fun _ => Or.inr hBranch)

/- A turn of the save loop. -/
theorem step_saveLoop
    (hOk : SaveOk launch buffers before s)
    {c' : Control}
    {a : Answer}
    (hSaves : (launch.thread i).Saves)
    (hLoop : (s.control i).label = .saveLoop)
    (hNext :
      (launch.thread i).next (s.control i) a = some c') :
    SaveOk launch buffers before
      (s.perform buffers i (launch.thread i) c') := by
  rcases (hOk.saver i hSaves).cases with
    ⟨hBefore, _⟩ | ⟨_, hRow, hSource, hStream, hAgrees⟩ |
      ⟨hExit, _⟩
  · rw [hLoop] at hBefore
    exact absurd hBefore id
  · rw [SaveState.perform_saveLoop hLoop, hSource, hStream,
      recordAddr_succ, recordAddr_succ]
    apply hOk.saving hSaves
    have hSaved := agrees_storePair hRow hAgrees
    rcases saveLoop_next hLoop hRow hNext with
      ⟨hMore, hLabel, hCount⟩ | ⟨hLast, hLabel⟩
    · simp only [SaverOk, hLabel, hCount]
      exact ⟨hMore, trivial, trivial, hSaved⟩
    · simp only [SaverOk, hLabel]
      rw [← hLast]
      exact hSaved
  · rw [hLoop] at hExit
    exact Label.noConfusion hExit

/- Every action keeps the invariant. -/
theorem step
    (hOk : SaveOk launch buffers before s)
    {action : SaveAction ι}
    {s' : SaveState ι}
    (hStep : saveStep launch buffers s action = some s') :
    SaveOk launch buffers before s' := by
  cases action with
  | other x byte =>
      simp only [saveStep, Option.ite_none_left_eq_some,
        Option.some.injEq] at hStep
      rcases hStep with ⟨hOutside, rfl⟩
      constructor
      · intro j hJ
        apply (hOk.saver j hJ).congr
        intro y hHolds
        have hNe : y ≠ x := by
          rintro rfl
          exact hOutside hHolds
        exact Function.update_of_ne hNe _ _
      · exact hOk.others
  | thread i answer =>
      rcases Option.map_eq_some_iff.mp hStep with
        ⟨c', hNext, rfl⟩
      have hExit : (s.control i).label ≠ .doneExit := by
        intro hExit
        simp [Thread.next, hExit] at hNext
      by_cases hSaves : (launch.thread i).Saves
      · rcases (hOk.saver i hSaves).cases with
          ⟨hBefore, _⟩ | ⟨hLoop, _⟩ | ⟨hGone, _⟩
        · exact hOk.step_before hBefore hNext
        · exact hOk.step_saveLoop hSaves hLoop hNext
        · exact absurd hGone hExit
      · rcases hOk.others i hSaves with hBefore | hGone
        · exact hOk.step_before hBefore hNext
        · exact absurd hGone hExit

end SaveOk

/- The invariant holds in every reachable state. -/
theorem saveOk_of_reachable
    {s : SaveState ι}
    (hReach :
      (saveMachine launch buffers before).Reachable s) :
    SaveOk launch buffers before s := by
  refine Machine.Reach.invariant
    (SaveOk launch buffers before) ?_ ?_ hReach
  · rintro s ⟨hMemory, hLabels⟩
    constructor
    · intro i hSaves
      rcases hLabels i with hBefore | ⟨hOther, _⟩
      · apply saverOk_of_beforeSave hBefore
        intro x _
        rw [hMemory]
      · exact absurd hSaves hOther
    · intro i _
      rcases hLabels i with hBefore | ⟨_, hExit⟩
      · exact Or.inl hBefore
      · exact Or.inr hExit
  · intro s action s' hOk _ hStep
    exact hOk.step hStep

------------------------------------------------------------
-- What Is Saved
------------------------------------------------------------

/- A memory that agrees holds the same records. -/
theorem record_of_agrees
    {base : BitVec 64}
    (hAgrees : buffers.Agrees memory memory')
    (hBase : base = buffers.scratch ∨ base = buffers.map)
    {k : Nat}
    (hK : k < diagnosticRows) :
    record memory base k = record memory' base k := by
  have hFits := buffers.apart.fits
  apply loadPair_congr
  intro i hI
  have hPlace :=
    toNat_recordAddr_sub base
      (show 16 * k + 16 ≤ 2 ^ 64 by omega) hI
  apply hAgrees
  rcases hBase with rfl | rfl
  · exact Or.inl (by omega)
  · exact Or.inr (by omega)

/- A record of the copy is that of the scratch. -/
theorem record_saved
    {n k : Nat}
    (hN : n ≤ diagnosticRows)
    (hK : k < n) :
    record (buffers.saved before n) buffers.map k =
      record before buffers.scratch k := by
  have hFits := buffers.apart.fits
  exact record_copied (by omega) hK

/- The scratch is not written. -/
theorem record_scratch_saved
    {n k : Nat}
    (hN : n ≤ diagnosticRows)
    (hK : k < diagnosticRows) :
    record (buffers.saved before n) buffers.scratch k =
      record before buffers.scratch k := by
  have hFits := buffers.apart.fits
  apply loadPair_congr
  intro i hI
  have hOutside := buffers.apart (16 * k + i) (by omega)
  have hByte :
      recordAddr buffers.scratch k + BitVec.ofNat 64 i =
        buffers.scratch + BitVec.ofNat 64 (16 * k + i) := by
    rw [recordAddr, BitVec.add_assoc, ← BitVec.ofNat_add]
  apply copied_of_outside
  rw [hByte]
  omega

/- A run of a thread on its own is a run of the launch. -/
theorem run_thread
    (launch : Launch ι)
    (buffers : SaveBuffers)
    (before : Memory)
    (s : SaveState ι)
    (i : ι)
    (answers : List Answer)
    {c' : Control}
    (hRun :
      (entryBlock (launch.thread i)).run (s.control i)
        answers = some c') :
    ∃ s',
      (saveMachine launch buffers before).run s
          (answers.map (SaveAction.thread i)) = some s' ∧
        s'.control i = c' := by
  induction answers generalizing s with
  | nil =>
      refine ⟨s, rfl, ?_⟩
      simpa [Machine.run, Machine.runWhile] using hRun
  | cons a rest ih =>
      simp only [Machine.run, Machine.runWhile, if_true,
        Option.bind_eq_some_iff] at hRun
      rcases hRun with ⟨c, hNext, hRest⟩
      have hControl :
          (s.perform buffers i (launch.thread i) c).control i =
            c := by
        unfold SaveState.perform
        split <;> simp
      rcases ih (s.perform buffers i (launch.thread i) c)
        (by rw [hControl]; exact hRest) with
        ⟨s', hRun', hLast⟩
      refine ⟨s', ?_, hLast⟩
      have hStep :
          (saveMachine launch buffers before).step s
              (.thread i a) =
            some (s.perform buffers i (launch.thread i) c) := by
        exact Option.map_eq_some_iff.mpr ⟨c, hNext, rfl⟩
      simp only [List.map_cons, Machine.run, Machine.runWhile,
        if_true, hStep, Option.bind_some]
      exact hRun'

section Reachable

variable {s : SaveState ι} {i : ι}

/- The scratch is as it was. -/
theorem record_scratch_of_reachable
    (hReach :
      (saveMachine launch buffers before).Reachable s)
    (hSaves : (launch.thread i).Saves)
    {k : Nat}
    (hK : k < diagnosticRows) :
    record s.memory buffers.scratch k =
      record before buffers.scratch k := by
  have hOk := (saveOk_of_reachable hReach).saver i hSaves
  rcases hOk.cases with
    ⟨_, hAgrees⟩ | ⟨_, hRow, _, _, hAgrees⟩ | ⟨_, hAgrees⟩
  · exact record_of_agrees hAgrees (Or.inl rfl) hK
  · rw [record_of_agrees hAgrees (Or.inl rfl) hK]
    exact record_scratch_saved hRow.le hK
  · rw [record_of_agrees hAgrees (Or.inl rfl) hK]
    exact record_scratch_saved le_rfl hK

/- Behind the loop the map has all rows. -/
theorem record_map_of_exit
    (hReach :
      (saveMachine launch buffers before).Reachable s)
    (hSaves : (launch.thread i).Saves)
    (hExit : (s.control i).label = .doneExit)
    {k : Nat}
    (hK : k < diagnosticRows) :
    record s.memory buffers.map k =
      record before buffers.scratch k := by
  have hOk := (saveOk_of_reachable hReach).saver i hSaves
  rcases hOk.cases with
    ⟨hBefore, _⟩ | ⟨hLoop, _⟩ | ⟨_, hAgrees⟩
  · rw [hExit] at hBefore
    exact absurd hBefore id
  · rw [hExit] at hLoop
    exact Label.noConfusion hLoop
  · rw [record_of_agrees hAgrees (Or.inr rfl) hK]
    exact record_saved le_rfl hK

/- A thread that goes on alone leaves the block. -/
theorem exists_exit
    (launch : Launch ι)
    (buffers : SaveBuffers)
    (before : Memory)
    (s : SaveState ι)
    (i : ι)
    (answers : Nat → Answer) :
    ∃ n s',
      (saveMachine launch buffers before).run s
          ((List.range n).map
            (fun k => .thread i (answers k))) = some s' ∧
        (s'.control i).label = .doneExit := by
  rcases Machine.exists_halts
    (M := entryBlock (launch.thread i)) Control.measure
    (launch.thread i).measure_next (s.control i) answers with
    ⟨last, n, hRun, hRefuses⟩
  rcases run_thread launch buffers before s i _ hRun with
    ⟨s', hRun', hLast⟩
  refine ⟨n, s', ?_, ?_⟩
  · rw [List.map_map] at hRun'
    exact hRun'
  · rw [hLast]
    exact Thread.next_eq_none hRefuses

end Reachable

/-
  In every reachable state the scratch is as it was, and once
  the saving thread has left the block, the rows at the head
  of the map are those of the scratch; going on alone it
  leaves the block, whatever its loads return.
-/
theorem save_loop_copies
    (launch : Launch ι)
    (buffers : SaveBuffers)
    (before : Memory)
    (s : SaveState ι)
    (hReach :
      (saveMachine launch buffers before).Reachable s)
    (i : ι)
    (hSaves : (launch.thread i).Saves) :
    (∀ k, k < diagnosticRows →
      record s.memory buffers.scratch k =
        record before buffers.scratch k) ∧
    ((s.control i).label = .doneExit →
      ∀ k, k < diagnosticRows →
        record s.memory buffers.map k =
          record before buffers.scratch k) ∧
    ∀ answers : Nat → Answer,
      ∃ n s',
        (saveMachine launch buffers before).run s
            ((List.range n).map
              (fun k => .thread i (answers k))) = some s' ∧
          (s'.control i).label = .doneExit := by
  refine ⟨?_, ?_, ?_⟩
  · intro k hK
    exact record_scratch_of_reachable hReach hSaves hK
  · intro hExit k hK
    exact record_map_of_exit hReach hSaves hExit hK
  · exact exists_exit launch buffers before s i

/- Rank 1 of two ranks, with two threads of one warp. -/
def twoLanes : Launch Bool where
  thread := fun second =>
    { numDevices := 2
      deviceId := 1
      nctaid := 1
      ctaid := 0
      tid := if second then 1 else 0
      laneid := if second then 1 else 0 }
  lane := by decide
  distinct := by decide

/- Two buffers a megabyte apart. -/
def megabyteApart : SaveBuffers where
  scratch := 0x100000
  map := 0x200000
  ntid := 1
  apart := by
    intro i hI
    unfold diagnosticRows at hI ⊢
    rw [add_sub_right_comm, BitVec.toNat_add,
      BitVec.toNat_ofNat]
    have hBase :
        ((0x100000 : BitVec 64) - 0x200000).toNat =
          2 ^ 64 - 0x100000 := rfl
    rw [hBase]
    omega

/- Every byte is the last byte of its address. -/
def addressBytes : Memory :=
  fun x => UInt8.ofNat x.toNat

/- Both threads are behind the barrier. -/
def bothDone : SaveState Bool where
  control := fun _ =>
    { label := .done
      polls := 0
      sense := 0
      row := 0
      leader := 0
      sample := 20
      bars := 21
      left := some .release }
  source := fun _ => 0
  stream := fun _ => 0
  memory := addressBytes

/-
  The first thread saves two rows, other code writes between
  them, and the second thread leaves.
-/
def mixedTurns : List (SaveAction Bool) :=
  [.thread false ⟨0, 0⟩, .thread false ⟨0, 0⟩,
    .other 0x300000 7, .thread true ⟨0, 0⟩,
    .thread false ⟨0, 0⟩]

/- From there the first thread can leave the block. -/
theorem save_loop_twoLanes :
    ∃ t s n,
      (saveMachine twoLanes megabyteApart addressBytes).run
          bothDone mixedTurns = some t ∧
        (saveMachine twoLanes megabyteApart addressBytes).run
            t ((List.range n).map
              (fun _ => .thread false ⟨0, 0⟩)) = some s ∧
          (saveMachine twoLanes megabyteApart
            addressBytes).Reachable s ∧
          (s.control false).label = .doneExit := by
  have hMixed :
      ((saveMachine twoLanes megabyteApart addressBytes).run
        bothDone mixedTurns).isSome = true := by
    decide +kernel
  rcases Option.isSome_iff_exists.mp hMixed with ⟨t, hTurns⟩
  rcases exists_exit twoLanes megabyteApart addressBytes t
    false (fun _ => ⟨0, 0⟩) with ⟨n, s, hRun, hExit⟩
  have hStart :
      (saveMachine twoLanes megabyteApart
        addressBytes).Reachable bothDone :=
    Machine.Reach.init ⟨rfl, fun _ => Or.inl trivial⟩
  have hReach :=
    Machine.reachable_of_run
      (Machine.reachable_of_run hStart hTurns) hRun
  exact ⟨t, s, n, hTurns, hRun, hReach, hExit⟩

/- It saves what the memory held. -/
theorem save_loop_copies_twoLanes :
    ∃ s,
      (saveMachine twoLanes megabyteApart
        addressBytes).Reachable s ∧
      (s.control false).label = .doneExit ∧
      ∀ k, k < diagnosticRows →
        record s.memory 0x200000 k =
          record addressBytes 0x100000 k := by
  rcases save_loop_twoLanes with
    ⟨_, s, _, _, _, hReach, hExit⟩
  exact ⟨s, hReach, hExit,
    (save_loop_copies twoLanes megabyteApart addressBytes s
      hReach false (by decide)).2.1 hExit⟩

end Ptp

end FabricPerf
