import FabricPerf.Lib.Keyed
import FabricPerf.Lib.Transition
import Mathlib.Data.List.Nodup
import Mathlib.Logic.Function.Basic
import Mathlib.Tactic

/-
  The threads of a device that run the snippets of
  `memory.probe`, launch after launch.

  Every thread counts the bytes it moves in registers of its
  own and saves them when it ends; the host writes the launch
  index before a launch.  The events of the threads may come
  in any order.

  Main declarations:
    * `Memory.byteMachine`
    * `Memory.moved`, `Memory.executed`
    * `Memory.BytesOk`, `Memory.bytesOk_of_reachable`
    * `Memory.perm_savedThreads`, `Memory.sum_moved`
-/

------------------------------------------------------------
-- Registers
------------------------------------------------------------

namespace FabricPerf

namespace Memory

/- The probes that count, by their operations. -/
inductive ByteProbe where
| load
| store
| async
deriving DecidableEq, Repr

/- `%NR0`, `%NR1` and `%NR2` of a thread. -/
structure ByteCounters where
  nr0 : BitVec 64
  nr1 : BitVec 64
  nr2 : BitVec 64
deriving DecidableEq, Repr

namespace ByteCounters

/- `fabricperf_mem_init` -/
def init : ByteCounters where
  nr0 := 0
  nr1 := 0
  nr2 := 0

/- The counter of a probe. -/
def get (counters : ByteCounters) : ByteProbe → BitVec 64
| .load => counters.nr0
| .store => counters.nr1
| .async => counters.nr2

/-
  `fabricperf_mem_load`, `fabricperf_mem_store` and
  `fabricperf_mem_async`, with the bytes of the instruction.
-/
def count
    (counters : ByteCounters)
    (bytes : Nat) : ByteProbe → ByteCounters
| .load =>
    { counters with
      nr0 := counters.nr0 + BitVec.ofNat 64 bytes }
| .store =>
    { counters with
      nr1 := counters.nr1 + BitVec.ofNat 64 bytes }
| .async =>
    { counters with
      nr2 := counters.nr2 + BitVec.ofNat 64 bytes }

/- Counting adds to the counter of the probe only. -/
theorem get_count
    (counters : ByteCounters)
    (bytes : Nat)
    (probe own : ByteProbe) :
    (counters.count bytes own).get probe =
      if probe = own then
        counters.get probe + BitVec.ofNat 64 bytes
      else
        counters.get probe := by
  cases probe <;> cases own <;> rfl

end ByteCounters

------------------------------------------------------------
-- Devices
------------------------------------------------------------

/- The launches of a device: their threads and their index. -/
structure Kernels where
  threads : Nat → Nat
  launchIndex : Nat → BitVec 32

/- A thread before, during and after its kernel. -/
inductive ByteThread where
| idle
| running (counters : ByteCounters)
| saved
deriving DecidableEq, Repr

/- Bytes that a thread has moved. -/
structure ByteEvent where
  launch : Nat
  thread : Nat
  probe : ByteProbe
  bytes : Nat
deriving DecidableEq, Repr

/- What a `SAVE` has stored, and whose it was. -/
structure SavedBytes where
  launch : Nat
  thread : Nat
  counters : ByteCounters
  launchIndex : BitVec 64
deriving DecidableEq, Repr

/-
  A device in one of its launches: its threads, what they
  have moved, and the records of its map.
-/
structure DeviceState where
  launch : Nat
  thread : Nat → ByteThread
  events : List ByteEvent
  saved : List SavedBytes

/- Before the first launch. -/
def DeviceState.start : DeviceState where
  launch := 0
  thread := fun _ => .idle
  events := []
  saved := []

/- What threads do, and the host between two launches. -/
inductive ByteAction where
| init (thread : Nat)
| move (thread : Nat) (probe : ByteProbe) (bytes : Nat)
| save (thread : Nat)
| nextLaunch
deriving DecidableEq, Repr

/- A device with another phase of one thread. -/
def DeviceState.setThread
    (s : DeviceState)
    (thread : Nat)
    (phase : ByteThread) : DeviceState :=
  { s with thread := Function.update s.thread thread phase }

/- All threads of the launch have ended. -/
def DeviceState.Ended
    (kernels : Kernels)
    (s : DeviceState) : Prop :=
  ∀ thread < kernels.threads s.launch,
    s.thread thread = .saved

instance (kernels : Kernels) (s : DeviceState) :
    Decidable (s.Ended kernels) :=
  inferInstanceAs
    (Decidable (∀ thread < _, s.thread thread = .saved))

/- One action. -/
def Kernels.step
    (kernels : Kernels)
    (s : DeviceState)
    (a : ByteAction) : Option DeviceState :=
  match a with
  | .init thread =>
      if thread < kernels.threads s.launch ∧
          s.thread thread = .idle then
        some (s.setThread thread (.running .init))
      else
        none
  | .move thread probe bytes =>
      match s.thread thread with
      | .running counters =>
          some
            { s.setThread thread
                (.running (counters.count bytes probe)) with
              events :=
                s.events ++ [⟨s.launch, thread, probe, bytes⟩] }
      | .idle | .saved => none
  | .save thread =>
      match s.thread thread with
      | .running counters =>
          -- `fabricperf_mem_save`
          some
            { s.setThread thread .saved with
              saved :=
                s.saved ++
                  [⟨s.launch, thread, counters,
                    (kernels.launchIndex
                      s.launch).setWidth 64⟩] }
      | .idle | .saved => none
  | .nextLaunch =>
      if s.Ended kernels then
        some
          { s with
            launch := s.launch + 1
            thread := fun _ => .idle }
      else
        none

/- A device over any number of launches. -/
def byteMachine (kernels : Kernels) :
    Machine DeviceState ByteAction where
  init := fun s => s = DeviceState.start
  step := kernels.step

------------------------------------------------------------
-- Moved Bytes
------------------------------------------------------------

/- The bytes of a thread in a launch, by probe. -/
def moved
    (events : List ByteEvent)
    (launch thread : Nat)
    (probe : ByteProbe) : Nat :=
  ((events.filter
      (fun event =>
        event.launch = launch ∧ event.thread = thread ∧
          event.probe = probe)).map ByteEvent.bytes).sum

/- One more event counts for its own thread and probe. -/
theorem moved_concat
    (events : List ByteEvent)
    (event : ByteEvent)
    (launch thread : Nat)
    (probe : ByteProbe) :
    moved (events ++ [event]) launch thread probe =
      moved events launch thread probe +
        if event.launch = launch ∧ event.thread = thread ∧
            event.probe = probe then
          event.bytes
        else
          0 := by
  unfold moved
  rw [List.filter_append, List.map_append, List.sum_append]
  by_cases hOwn :
      event.launch = launch ∧ event.thread = thread ∧
        event.probe = probe
  · simp [hOwn]
  · simp [hOwn]

/- Without events of a thread there are no bytes. -/
theorem moved_eq_zero
    {events : List ByteEvent}
    {launch thread : Nat}
    (hNone :
      ∀ event ∈ events,
        ¬ (event.launch = launch ∧ event.thread = thread))
    (probe : ByteProbe) :
    moved events launch thread probe = 0 := by
  unfold moved
  rw [List.filter_eq_nil_iff.mpr]
  · rfl
  · intro event hMem hOwn
    have hBoth := of_decide_eq_true hOwn
    exact hNone event hMem ⟨hBoth.1, hBoth.2.1⟩

/- All bytes of a launch, by probe. -/
def executed
    (events : List ByteEvent)
    (launch : Nat)
    (probe : ByteProbe) : Nat :=
  ((events.filter
      (fun event =>
        event.launch = launch ∧ event.probe = probe)).map
    ByteEvent.bytes).sum

/- Counters that hold the bytes of a thread modulo 2^64. -/
def ByteCounters.Hold
    (counters : ByteCounters)
    (events : List ByteEvent)
    (launch thread : Nat) : Prop :=
  ∀ probe,
    counters.get probe =
      BitVec.ofNat 64 (moved events launch thread probe)

/- Whether the thread has already saved its record. -/
def SavedBytes.key (record : SavedBytes) : Nat × Nat :=
  (record.launch, record.thread)

/-
  The invariant: the registers of a running thread hold what
  it has moved, and so do its records; every ended thread has
  exactly one.
-/
structure BytesOk
    (kernels : Kernels)
    (s : DeviceState) : Prop where
  past :
    ∀ event ∈ s.events,
      event.launch ≤ s.launch ∧
        event.thread < kernels.threads event.launch
  idle :
    ∀ thread, s.thread thread = .idle →
      ∀ event ∈ s.events,
        ¬ (event.launch = s.launch ∧ event.thread = thread)
  running :
    ∀ thread counters, s.thread thread = .running counters →
      thread < kernels.threads s.launch ∧
        counters.Hold s.events s.launch thread
  records :
    ∀ record ∈ s.saved,
      record.launch ≤ s.launch ∧
        record.thread < kernels.threads record.launch ∧
        record.launchIndex =
          (kernels.launchIndex record.launch).setWidth 64 ∧
        record.counters.Hold s.events record.launch
          record.thread
  once : (s.saved.map SavedBytes.key).Nodup
  ended :
    ∀ thread,
      s.thread thread = .saved ↔
        (s.launch, thread) ∈ s.saved.map SavedBytes.key
  before :
    ∀ launch < s.launch,
      ∀ thread < kernels.threads launch,
        (launch, thread) ∈ s.saved.map SavedBytes.key

------------------------------------------------------------
-- Steps
------------------------------------------------------------

section Steps

variable {kernels : Kernels} {s s' : DeviceState}
variable {thread : Nat}

/- A record of a thread that the event does not belong to. -/
theorem ByteCounters.Hold.concat
    {counters : ByteCounters}
    {events : List ByteEvent}
    {launch : Nat}
    (hHold : counters.Hold events launch thread)
    {event : ByteEvent}
    (hOther : (event.launch, event.thread) ≠ (launch, thread)) :
    counters.Hold (events ++ [event]) launch thread := by
  intro probe
  have hNot :
      ¬ (event.launch = launch ∧ event.thread = thread ∧
        event.probe = probe) := by
    rintro ⟨hLaunch, hThread, _⟩
    exact hOther (by rw [hLaunch, hThread])
  rw [moved_concat, if_neg hNot, Nat.add_zero]
  exact hHold probe

/- The registers of the thread that moves bytes. -/
theorem ByteCounters.Hold.count
    {counters : ByteCounters}
    {events : List ByteEvent}
    {launch : Nat}
    (hHold : counters.Hold events launch thread)
    (probe : ByteProbe)
    (bytes : Nat) :
    (counters.count bytes probe).Hold
      (events ++ [⟨launch, thread, probe, bytes⟩]) launch
      thread := by
  intro own
  rw [moved_concat, ByteCounters.get_count, hHold own]
  by_cases hOwn : own = probe
  · rw [if_pos hOwn, if_pos ⟨rfl, rfl, hOwn.symm⟩,
      BitVec.ofNat_add]
  · rw [if_neg hOwn, if_neg (fun hAll => hOwn hAll.2.2.symm),
      Nat.add_zero]

/- A thread starts with empty registers. -/
theorem bytesOk_init
    (hOk : BytesOk kernels s)
    (hThread : thread < kernels.threads s.launch)
    (hIdle : s.thread thread = .idle) :
    BytesOk kernels (s.setThread thread (.running .init)) := by
  have hNone := hOk.idle thread hIdle
  refine
    { past := hOk.past, idle := ?_, running := ?_,
      records := hOk.records, once := hOk.once, ended := ?_,
      before := hOk.before }
  · intro other hOther
    apply hOk.idle
    by_cases hSame : other = thread
    · rw [hSame]
      exact hIdle
    · simpa [DeviceState.setThread, hSame] using hOther
  · intro other counters hRunning
    by_cases hSame : other = thread
    · subst hSame
      simp only [DeviceState.setThread, Function.update_self,
        ByteThread.running.injEq] at hRunning
      subst hRunning
      refine ⟨hThread, fun probe => ?_⟩
      have hZero : moved s.events s.launch other probe = 0 :=
        moved_eq_zero hNone probe
      change _ = BitVec.ofNat 64 (moved s.events s.launch _ _)
      rw [hZero]
      cases probe <;> rfl
    · simp only [DeviceState.setThread,
        Function.update_of_ne hSame] at hRunning
      exact hOk.running other counters hRunning
  · intro other
    have hEnded := hOk.ended other
    by_cases hSame : other = thread
    · subst hSame
      rw [hIdle] at hEnded
      simp only [DeviceState.setThread, Function.update_self]
      constructor
      · intro hSaved
        cases hSaved
      · intro hMem
        cases hEnded.mpr hMem
    · simpa [DeviceState.setThread, hSame] using hEnded

/- A running thread moves bytes. -/
theorem bytesOk_move
    (hOk : BytesOk kernels s)
    {counters : ByteCounters}
    (hRunning : s.thread thread = .running counters)
    (probe : ByteProbe)
    (bytes : Nat) :
    BytesOk kernels
      { s.setThread thread
          (.running (counters.count bytes probe)) with
        events :=
          s.events ++ [⟨s.launch, thread, probe, bytes⟩] } := by
  rcases hOk.running thread counters hRunning with
    ⟨hThread, hHold⟩
  refine
    { past := ?_, idle := ?_, running := ?_, records := ?_,
      once := hOk.once, ended := ?_, before := hOk.before }
  · intro event hMem
    rcases List.mem_append.mp hMem with hOld | hNew
    · exact hOk.past event hOld
    · rw [List.mem_singleton.mp hNew]
      exact ⟨Nat.le_refl s.launch, hThread⟩
  · intro other hIdle event hMem hOwn
    by_cases hSame : other = thread
    · subst hSame
      simp [DeviceState.setThread] at hIdle
    · simp only [DeviceState.setThread,
        Function.update_of_ne hSame] at hIdle
      rcases List.mem_append.mp hMem with hOld | hNew
      · exact hOk.idle other hIdle event hOld hOwn
      · rw [List.mem_singleton.mp hNew] at hOwn
        exact hSame hOwn.2.symm
  · intro other own hOther
    by_cases hSame : other = thread
    · subst hSame
      simp only [DeviceState.setThread, Function.update_self,
        ByteThread.running.injEq] at hOther
      subst hOther
      exact ⟨hThread, hHold.count probe bytes⟩
    · simp only [DeviceState.setThread,
        Function.update_of_ne hSame] at hOther
      rcases hOk.running other own hOther with ⟨hLt, hOwn⟩
      refine ⟨hLt, hOwn.concat ?_⟩
      intro hKey
      exact hSame (Prod.mk.inj hKey).2.symm
  · intro record hMem
    rcases hOk.records record hMem with
      ⟨hLaunch, hLt, hIndex, hOwn⟩
    refine ⟨hLaunch, hLt, hIndex, hOwn.concat ?_⟩
    -- a running thread has not saved yet
    intro hKey
    have hSaved :
        (s.launch, thread) ∈ s.saved.map SavedBytes.key :=
      List.mem_map.mpr ⟨record, hMem, hKey.symm⟩
    have hEnd := (hOk.ended thread).mpr hSaved
    rw [hRunning] at hEnd
    cases hEnd
  · intro other
    have hEnded := hOk.ended other
    by_cases hSame : other = thread
    · subst hSame
      rw [hRunning] at hEnded
      simp only [DeviceState.setThread, Function.update_self]
      constructor
      · intro hSaved
        cases hSaved
      · intro hMem
        cases hEnded.mpr hMem
    · simpa [DeviceState.setThread, hSame] using hEnded

/- A running thread saves its registers. -/
theorem bytesOk_save
    (hOk : BytesOk kernels s)
    {counters : ByteCounters}
    (hRunning : s.thread thread = .running counters) :
    BytesOk kernels
      { s.setThread thread .saved with
        saved :=
          s.saved ++
            [⟨s.launch, thread, counters,
              (kernels.launchIndex s.launch).setWidth 64⟩] } := by
  rcases hOk.running thread counters hRunning with
    ⟨hThread, hHold⟩
  have hFresh :
      (s.launch, thread) ∉ s.saved.map SavedBytes.key := by
    intro hMem
    have hEnd := (hOk.ended thread).mpr hMem
    rw [hRunning] at hEnd
    cases hEnd
  refine
    { past := hOk.past, idle := ?_, running := ?_,
      records := ?_, once := ?_, ended := ?_, before := ?_ }
  · intro other hIdle
    by_cases hSame : other = thread
    · subst hSame
      simp [DeviceState.setThread] at hIdle
    · simp only [DeviceState.setThread,
        Function.update_of_ne hSame] at hIdle
      exact hOk.idle other hIdle
  · intro other own hOther
    by_cases hSame : other = thread
    · subst hSame
      simp [DeviceState.setThread] at hOther
    · simp only [DeviceState.setThread,
        Function.update_of_ne hSame] at hOther
      exact hOk.running other own hOther
  · intro record hMem
    rcases List.mem_append.mp hMem with hOld | hNew
    · exact hOk.records record hOld
    · rw [List.mem_singleton.mp hNew]
      exact ⟨Nat.le_refl s.launch, hThread, rfl, hHold⟩
  · rw [List.map_append]
    apply List.Nodup.append hOk.once (List.nodup_singleton _)
    intro key hOld hNew
    rw [List.mem_singleton.mp hNew] at hOld
    exact hFresh hOld
  · intro other
    rw [List.map_append, List.mem_append]
    by_cases hSame : other = thread
    · subst hSame
      simp [DeviceState.setThread, SavedBytes.key]
    · have hEnded := hOk.ended other
      simp only [DeviceState.setThread,
        Function.update_of_ne hSame]
      rw [hEnded]
      constructor
      · exact Or.inl
      · rintro (hOld | hNew)
        · exact hOld
        · have hKey := List.mem_singleton.mp hNew
          exact absurd (Prod.mk.inj hKey).2 hSame
  · intro launch hBefore other hOther
    rw [List.map_append]
    exact
      List.mem_append_left _
        (hOk.before launch hBefore other hOther)

/- The host launches the next kernel. -/
theorem bytesOk_nextLaunch
    (hOk : BytesOk kernels s)
    (hEnded : s.Ended kernels) :
    BytesOk kernels
      { s with
        launch := s.launch + 1
        thread := fun _ => .idle } := by
  refine
    { past := ?_, idle := ?_, running := ?_, records := ?_,
      once := hOk.once, ended := ?_, before := ?_ }
  · intro event hMem
    rcases hOk.past event hMem with ⟨hPast, hLt⟩
    exact ⟨Nat.le_succ_of_le hPast, hLt⟩
  · intro other _ event hMem hOwn
    have hPast := (hOk.past event hMem).1
    have hLaunch : event.launch = s.launch + 1 := hOwn.1
    omega
  · intro other counters hRunning
    cases hRunning
  · intro record hMem
    rcases hOk.records record hMem with ⟨hLaunch, hRest⟩
    exact ⟨Nat.le_succ_of_le hLaunch, hRest⟩
  · intro other
    constructor
    · intro hSaved
      cases hSaved
    · intro hMem
      rcases List.mem_map.mp hMem with ⟨record, hRecord, hKey⟩
      have hLaunch := (hOk.records record hRecord).1
      have hSame : record.launch = s.launch + 1 :=
        (Prod.mk.inj hKey).1
      omega
  · intro launch hBefore other hOther
    rcases Nat.lt_succ_iff_lt_or_eq.mp hBefore with
      hOld | hLast
    · exact hOk.before launch hOld other hOther
    · subst hLast
      exact (hOk.ended other).mp (hEnded other hOther)

/- Every step keeps the invariant. -/
theorem bytesOk_step
    {a : ByteAction}
    (hOk : BytesOk kernels s)
    (hStep : kernels.step s a = some s') :
    BytesOk kernels s' := by
  cases a with
  | init thread =>
      simp only [Kernels.step, Option.ite_none_right_eq_some,
        Option.some.injEq] at hStep
      rcases hStep with ⟨⟨hThread, hIdle⟩, rfl⟩
      exact bytesOk_init hOk hThread hIdle
  | move thread probe bytes =>
      simp only [Kernels.step] at hStep
      split at hStep
      · next counters hRunning =>
          cases hStep
          exact bytesOk_move hOk hRunning probe bytes
      · cases hStep
      · cases hStep
  | save thread =>
      simp only [Kernels.step] at hStep
      split at hStep
      · next counters hRunning =>
          cases hStep
          exact bytesOk_save hOk hRunning
      · cases hStep
      · cases hStep
  | nextLaunch =>
      simp only [Kernels.step, Option.ite_none_right_eq_some,
        Option.some.injEq] at hStep
      rcases hStep with ⟨hEnded, rfl⟩
      exact bytesOk_nextLaunch hOk hEnded

end Steps

/- Every reachable device has it. -/
theorem bytesOk_of_reachable
    {kernels : Kernels}
    {s : DeviceState}
    (hReach : (byteMachine kernels).Reachable s) :
    BytesOk kernels s := by
  apply hReach.invariant (BytesOk kernels)
  · intro s hInit
    have hStart : s = DeviceState.start := hInit
    rw [hStart]
    refine
      { past := ?_, idle := ?_, running := ?_, records := ?_,
        once := List.nodup_nil, ended := ?_, before := ?_ }
    · intro event hMem
      cases hMem
    · intro thread _ event hMem
      cases hMem
    · intro thread counters hRunning
      cases hRunning
    · intro record hMem
      cases hMem
    · intro thread
      constructor
      · intro hSaved
        cases hSaved
      · intro hMem
        cases hMem
    · intro launch hBefore
      exact absurd hBefore (Nat.not_lt_zero launch)
  · intro s a s' hOk _ hStep
    exact bytesOk_step hOk hStep

------------------------------------------------------------
-- Launches That Have Ended
------------------------------------------------------------

/- All threads of a launch have ended. -/
def DeviceState.Done
    (kernels : Kernels)
    (s : DeviceState)
    (launch : Nat) : Prop :=
  launch < s.launch ∨ launch = s.launch ∧ s.Ended kernels

/- The records of a launch. -/
def DeviceState.recordsOf
    (s : DeviceState)
    (launch : Nat) : List SavedBytes :=
  s.saved.filter (fun record => record.launch = launch)

section Done

variable {kernels : Kernels} {s : DeviceState} {launch : Nat}

/- Every thread of such a launch has saved one record. -/
theorem perm_savedThreads
    (hOk : BytesOk kernels s)
    (hDone : s.Done kernels launch) :
    ((s.recordsOf launch).map SavedBytes.thread).Perm
      (List.range (kernels.threads launch)) := by
  have hKeys :
      ((s.recordsOf launch).map SavedBytes.key).Nodup :=
    hOk.once.sublist (List.filter_sublist.map _)
  have hThreads :
      ((s.recordsOf launch).map SavedBytes.thread).Nodup := by
    apply List.Nodup.map_on _ (List.Nodup.of_map _ hKeys)
    intro record hMem record' hMem' hSame
    have hLaunch :=
      of_decide_eq_true (List.mem_filter.mp hMem).2
    have hLaunch' :=
      of_decide_eq_true (List.mem_filter.mp hMem').2
    apply List.inj_on_of_nodup_map hKeys hMem hMem'
    unfold SavedBytes.key
    rw [hSame, hLaunch, hLaunch']
  rw [List.perm_ext_iff_of_nodup hThreads List.nodup_range]
  intro thread
  rw [List.mem_range]
  constructor
  · intro hMem
    rcases List.mem_map.mp hMem with ⟨record, hRecord, rfl⟩
    rcases List.mem_filter.mp hRecord with ⟨hSaved, hLaunch⟩
    rw [← of_decide_eq_true hLaunch]
    exact (hOk.records record hSaved).2.1
  · intro hLt
    have hKey :
        (launch, thread) ∈ s.saved.map SavedBytes.key := by
      rcases hDone with hPast | ⟨rfl, hEnded⟩
      · exact hOk.before launch hPast thread hLt
      · exact (hOk.ended thread).mp (hEnded thread hLt)
    rcases List.mem_map.mp hKey with ⟨record, hRecord, hSame⟩
    rcases Prod.mk.inj hSame with ⟨hLaunch, hThread⟩
    refine List.mem_map.mpr ⟨record, ?_, hThread⟩
    exact List.mem_filter.mpr
      ⟨hRecord, decide_eq_true hLaunch⟩

/- What its records add up to, thread by thread. -/
theorem sum_recordsOf
    (hOk : BytesOk kernels s)
    (hDone : s.Done kernels launch)
    (read : BitVec 64 → Int)
    (probe : ByteProbe) :
    ((s.recordsOf launch).map
        (fun record => read (record.counters.get probe))).sum =
      ∑ thread ∈ Finset.range (kernels.threads launch),
        read
          (BitVec.ofNat 64
            (moved s.events launch thread probe)) := by
  have hEach :
      (s.recordsOf launch).map
          (fun record => read (record.counters.get probe)) =
        ((s.recordsOf launch).map SavedBytes.thread).map
          (fun thread =>
            read
              (BitVec.ofNat 64
                (moved s.events launch thread probe))) := by
    rw [List.map_map]
    apply List.map_congr_left
    intro record hMem
    rcases List.mem_filter.mp hMem with ⟨hSaved, hLaunch⟩
    have hHold := (hOk.records record hSaved).2.2.2 probe
    rw [of_decide_eq_true hLaunch] at hHold
    rw [hHold]
    rfl
  rw [hEach, ((perm_savedThreads hOk hDone).map _).sum_eq]
  rfl

/- The threads of a launch have moved all of its bytes. -/
theorem sum_moved
    (hOk : BytesOk kernels s)
    (launch : Nat)
    (probe : ByteProbe) :
    (∑ thread ∈ Finset.range (kernels.threads launch),
        moved s.events launch thread probe) =
      executed s.events launch probe := by
  have hCover :
      ∀ event ∈ s.events.filter
          (fun event =>
            event.launch = launch ∧ event.probe = probe),
        event.thread ∈
          List.range (kernels.threads launch) := by
    intro event hMem
    rcases List.mem_filter.mp hMem with ⟨hIn, hOwn⟩
    have hLt := (hOk.past event hIn).2
    rw [(of_decide_eq_true hOwn).1] at hLt
    exact List.mem_range.mpr hLt
  unfold executed
  rw [← Keyed.sum_filter_key List.nodup_range hCover
    ByteEvent.bytes]
  change List.sum _ = _
  apply congrArg List.sum
  apply List.map_congr_left
  intro thread _
  unfold moved
  rw [List.filter_filter]
  apply congrArg List.sum
  apply congrArg (List.map ByteEvent.bytes)
  apply List.filter_congr
  intro event _
  rw [← Bool.decide_and, decide_eq_decide]
  tauto

end Done

end Memory

end FabricPerf
