import FabricPerf.Lib.Keyed
import FabricPerf.Ptp.Reports

/-
  All pairs of a world at once.

  Rank 0 runs one leader CTA for every follower rank, and
  all of them share the leader and follower buffers.  Slot
  addresses keep the pairs apart, so the world, seen from
  one pair, is a run of the pair machine.

  Main declarations:
    * `Ptp.worldMachine`
    * `Ptp.reach_pairView`
    * `Ptp.completed_rounds`
-/

------------------------------------------------------------
-- Worlds
------------------------------------------------------------

namespace FabricPerf

namespace Ptp

/-
  The ranks of a world.  The kernel prologue skips the
  handshake outside `2..8` ranks.
-/
structure World where
  numDevices : Nat
  hostId : Nat → BitVec 32
  two_le : 2 ≤ numDevices
  le_eight : numDevices ≤ 8

/- The pair of rank 0 and a follower rank. -/
def World.pair (world : World) (follower : Nat) : Pair where
  follower := follower
  hostId := fun role =>
    match role with
    | .leader => world.hostId 0
    | .follower => world.hostId follower

/- Both sides of every pair, and the shared buffers. -/
structure WorldState where
  party : Nat → Role → Party
  memory : SlotAddr → Slot

/- The state before the first launch: all buffers cleared. -/
def WorldState.start : WorldState where
  party := fun _ _ => Party.start
  memory := fun _ => Slot.cleared

/- An action of one pair. -/
structure Move where
  follower : Nat
  action : Action
deriving DecidableEq, Repr

namespace WorldState

/- Carry out the slot write of an action, if any. -/
def writeMemory
    (memory : SlotAddr → Slot)
    (addr : Message → SlotAddr) :
    Option (Message × Slot) → SlotAddr → Slot
| none => memory
| some (m, slot) =>
    fun x => if x = addr m then slot else memory x

/- One side of one pair acts on the shared buffers. -/
def act (world : World) (g : WorldState) (move : Move) :
    WorldState :=
  let role := move.action.role
  let p := g.party move.follower role
  let addr :=
    slotAddr world.numDevices move.follower p.cursor.sample
  let result :=
    p.step (world.pair move.follower) role
      (fun m => g.memory (addr m)) move.action.time
  { party := fun c r =>
      if c = move.follower ∧ r = role then result.1
        else g.party c r
    memory := writeMemory g.memory addr result.2 }

/- What one pair sees of the world. -/
def pairView
    (world : World)
    (g : WorldState)
    (follower : Nat) : PairState where
  party := g.party follower
  slots := fun sample m =>
    g.memory (slotAddr world.numDevices follower sample m)

end WorldState

/- The handshakes of all pairs over any number of launches. -/
def worldMachine (world : World) :
    Machine WorldState Move where
  init := fun g => g = WorldState.start
  step := fun g move =>
    if 1 ≤ move.follower ∧
        move.follower < world.numDevices then
      some (g.act world move)
    else
      none

/- No poll loop of any pair exhausts its bound. -/
def NoTimeout
    (world : World)
    (g : WorldState)
    (move : Move) : Prop :=
  Unexhausted (g.pairView world move.follower) move.action

------------------------------------------------------------
-- The World Seen From One Pair
------------------------------------------------------------

namespace WorldState

variable {world : World} {g : WorldState} {follower : Nat}

/- An action of the pair is that action of its view. -/
theorem pairView_act_self
    (hFollower : follower < world.numDevices)
    (a : Action) :
    (g.act world ⟨follower, a⟩).pairView world follower =
      (g.pairView world follower).act (world.pair follower)
        a := by
  have hStep :
      ∀ (result : Party × Option (Message × Slot))
        (sample : Nat),
        (WorldState.mk
          (fun c r =>
            if c = follower ∧ r = a.role then result.1
              else g.party c r)
          (writeMemory g.memory
            (slotAddr world.numDevices follower sample)
            result.2)).pairView world follower =
          ((g.pairView world follower).setParty a.role
            result.1).write sample result.2 := by
    rintro ⟨p, written⟩ sample
    cases written with
    | none =>
        apply PairState.ext
        · funext r
          simp [pairView, PairState.write, PairState.setParty]
        · rfl
    | some written =>
        rcases written with ⟨m, slot⟩
        apply PairState.ext
        · funext r
          simp [pairView, PairState.write, PairState.setParty,
            PairState.setSlot]
        · funext i n
          have hAddr :
              slotAddr world.numDevices follower i n =
                  slotAddr world.numDevices follower sample
                    m ↔ i = sample ∧ n = m := by
            constructor
            · intro hEq
              exact (slotAddr_injective hFollower hFollower
                hEq).2
            · rintro ⟨rfl, rfl⟩
              rfl
          simp only [pairView, writeMemory, PairState.write,
            PairState.setParty, PairState.setSlot, hAddr]
  exact hStep _ _

/- An action of another pair leaves the view alone. -/
theorem pairView_act_of_ne
    (hFollower : follower < world.numDevices)
    {move : Move}
    (hMove : move.follower < world.numDevices)
    (hNe : follower ≠ move.follower) :
    (g.act world move).pairView world follower =
      g.pairView world follower := by
  have hStep :
      ∀ (result : Party × Option (Message × Slot))
        (sample : Nat),
        (WorldState.mk
          (fun c r =>
            if c = move.follower ∧ r = move.action.role then
              result.1
            else
              g.party c r)
          (writeMemory g.memory
            (slotAddr world.numDevices move.follower sample)
            result.2)).pairView world follower =
          g.pairView world follower := by
    rintro ⟨p, written⟩ sample
    apply PairState.ext
    · funext r
      simp [pairView, hNe]
    · cases written with
      | none => rfl
      | some written =>
          rcases written with ⟨m, slot⟩
          funext i n
          have hAddr :
              slotAddr world.numDevices follower i n ≠
                slotAddr world.numDevices move.follower
                  sample m := by
            intro hEq
            exact hNe
              (slotAddr_injective hFollower hMove hEq).1
          simp only [pairView, writeMemory, if_neg hAddr]
  exact hStep _ _

end WorldState

/- The view of a pair is reached by a run of that pair. -/
theorem reach_pairView
    {world : World}
    {g : WorldState}
    (hReach :
      (worldMachine world).Reach (NoTimeout world) g)
    {follower : Nat}
    (hFollower : follower < world.numDevices) :
    (pairMachine (world.pair follower)).Reach Unexhausted
      (g.pairView world follower) := by
  apply hReach.project (fun g => g.pairView world follower)
  · intro g hInit
    have hStart : g = WorldState.start := hInit
    rw [hStart]
    rfl
  · intro g move g' hGuard hStep
    simp only [worldMachine, Option.ite_none_right_eq_some,
      Option.some.injEq] at hStep
    rcases hStep with ⟨⟨_, hMove⟩, hAct⟩
    rw [← hAct]
    by_cases hHere : follower = move.follower
    · right
      refine ⟨move.action, ?_, ?_⟩
      · rw [hHere]
        exact hGuard
      · rcases move with ⟨c, a⟩
        simp only at hHere
        subst hHere
        exact congrArg some
          (WorldState.pairView_act_self hFollower a).symm
    · left
      exact WorldState.pairView_act_of_ne hFollower hMove hHere

------------------------------------------------------------
-- Rounds Of One Pair
------------------------------------------------------------

/-
  What holds of a settled pair in a run without timeouts:
  its logs, its slots, and where its offsets come from.
-/
structure InRounds (s : PairState) : Prop where
  logs : ∀ r, LogsOk r (s.party r)
  fresh : SlotsFresh s
  echoed : Echoed (s.party .follower)
  backed : offsetLog.Backed s

/- Before the first launch nothing is logged or stored. -/
theorem InRounds.start : InRounds PairState.start where
  logs := fun _ => LogsOk.start
  fresh := SlotsFresh.start
  echoed := rfl
  backed := ReportLog.Backed.start rfl

/- Runs without timeouts keep to their rounds. -/
theorem inRounds_of_reach
    {pair : Pair}
    {s : PairState}
    (hReach : (pairMachine pair).Reach Unexhausted s) :
    InRounds s := by
  apply hReach.invariant_of (Settled pair) InRounds
  · exact fun _ => settled_of_reach
  · intro s hInit
    have hStart : s = PairState.start := hInit
    rw [hStart]
    exact InRounds.start
  · intro s a s' hSettled hRounds hGuard hStep
    have hAct : s.act pair a = s' := Option.some.inj hStep
    have hEffect := effect_act pair s a
    rw [hAct] at hEffect
    exact
      { logs :=
          logsOk_step hSettled hRounds.logs hGuard hEffect
        fresh :=
          slotsFresh_step hSettled hRounds.fresh hGuard hEffect
        echoed := echoed_step hRounds.echoed hGuard hEffect
        backed :=
          ReportLog.backed_step (offsetLog_kept pair) hSettled
            hRounds.backed hEffect }

/- A side has been through the given sample. -/
def Cursor.PassedSample
    (c : Cursor)
    (role : Role)
    (launch sample : Nat) : Prop :=
  20 * launch + sample < c.round ∨
    (20 * launch + sample = c.round ∧ role.syncLocal ≤ c.pc)

/- A side has stored a message of the given sample. -/
def Cursor.Stored
    (c : Cursor)
    (m : Message)
    (launch sample : Nat) : Prop :=
  20 * launch + sample < c.round ∨
    (20 * launch + sample = c.round ∧ m.storePc < c.pc)

/-
  Between a sample that both sides have been through and the
  next store, the slots of the sample are all zero.
-/
theorem cleared_of_passedSample
    {pair : Pair}
    {s : PairState}
    (hSettled : Settled pair s)
    (hRounds : InRounds s)
    {launch sample : Nat}
    (hSample : sample < 20)
    {m : Message}
    (hPassed :
      (s.cursors m.reader).PassedSample m.reader launch
        sample)
    (hNext :
      ¬ (s.cursors m.writer).Stored m (launch + 1) sample) :
    s.slots sample m = Slot.cleared := by
  apply hRounds.fresh.empty
  by_contra hUsed
  have hHeld := hSettled.coupled.slots.held sample m hUsed
  have hStored := hHeld.stored
  have hFresh := hHeld.fresh
  have hLine := hSettled.coupled.line
  have hSampleR := hLine.sample_lt m.reader
  have hPcW := hLine.pc_le m.writer
  have hRoleW : m.writer.syncLocal ≤ 14 := by
    cases m <;> decide
  have hStorePc := m.storePc_lt_syncLocal
  have hOlder : (s.slots sample m).launch ≤ launch := by
    by_contra hLater
    apply hNext
    unfold Cursor.Stored
    simp only [Cursor.pos] at hStored
    omega
  have hClear := m.clearPc_lt_syncLocal
  have hEmptied :
      (s.cursors m.reader).launch = launch ∧
        (s.cursors m.reader).Emptied m sample := by
    unfold Cursor.PassedSample Cursor.round at hPassed
    unfold Cursor.Emptied
    omega
  rcases hSettled.coupled.slots.emptied sample m
      (hSettled.live m.reader) hEmptied.2 with hZero | hLater
  · exact hUsed hZero
  · omega

/- An entry of the given round. -/
def OffsetStore.IsOf
    (o : OffsetStore)
    (launch sample : Nat) : Prop :=
  (o.launch, o.sample) = (launch, sample)

/- A row of the given round. -/
def RowStore.IsOf
    (row : RowStore)
    (launch sample : Nat) : Prop :=
  (row.launch, row.sample) = (launch, sample)

instance
    (o : OffsetStore)
    (launch sample : Nat) :
    Decidable (o.IsOf launch sample) :=
  inferInstanceAs (Decidable (_ = _))

instance
    (row : RowStore)
    (launch sample : Nat) :
    Decidable (row.IsOf launch sample) :=
  inferInstanceAs (Decidable (_ = _))

/- The keys of a log are distinct. -/
theorem LogsOk.nodup
    {role : Role}
    {p : Party}
    (hLogs : LogsOk role p)
    (log : Log)
    (hKept : log.keptBy role = true) :
    (log.rounds p).Nodup := by
  rw [hLogs log hKept]
  apply List.Nodup.map _ List.nodup_range
  intro i j hEq
  simp only [roundKey, Prod.mk.injEq] at hEq
  omega

/- A sample that a side has been through is in its logs. -/
theorem LogsOk.mem
    {role : Role}
    {p : Party}
    (hLogs : LogsOk role p)
    {log : Log}
    (hKept : log.keptBy role = true)
    {launch sample : Nat}
    (hSample : sample < 20)
    (hPassed : p.cursor.PassedSample role launch sample) :
    (launch, sample) ∈ log.rounds p := by
  have hPath := Log.pc_lt_syncLocal hKept
  rw [hLogs log hKept]
  refine List.mem_map.mpr
    ⟨20 * launch + sample, List.mem_range.mpr ?_, ?_⟩
  · rcases hPassed with hEarlier | ⟨hHere, hSync⟩
    · omega
    · rw [if_pos (by omega)]
      omega
  · unfold roundKey
    rw [Prod.mk.injEq]
    omega

/- What both sides have stored for one round. -/
structure RoundEntries where
  followerOffset : OffsetStore
  leaderOffset : OffsetStore
  followerRow : RowStore
  leaderRow : RowStore

/-
  The entries are the only ones of their round: one offset
  on each side at the index of the other rank, the leader's
  the negation of the follower's, and one diagnostic row on
  each side.
-/
structure StoredRound
    (follower launch sample : Nat)
    (side : Role → Party)
    (t1 t2 t3 t4 : BitVec 64)
    (e : RoundEntries) : Prop where
  followerOnly :
    (side .follower).offsets.filter
      (fun o => o.IsOf launch sample) = [e.followerOffset]
  leaderOnly :
    (side .leader).offsets.filter
      (fun o => o.IsOf launch sample) = [e.leaderOffset]
  sources :
    e.followerOffset.value.sources =
      roundReadings launch sample t1 t2 t3 t4
  value :
    e.followerOffset.value.val.toInt =
      ((t2 - t1) - (t4 - t3)).toInt.tdiv 2
  followerIndex : e.followerOffset.index = 0
  negated :
    e.leaderOffset.value.val = -e.followerOffset.value.val
  leaderIndex : e.leaderOffset.index = follower
  followerRowOnly :
    (side .follower).rows.filter
      (fun row => row.IsOf launch sample) = [e.followerRow]
  leaderRowOnly :
    (side .leader).rows.filter
      (fun row => row.IsOf launch sample) = [e.leaderRow]
  followerSlot :
    decodePtpSlot e.followerRow.slot 20 7 =
      (0, follower, sample)
  leaderSlot :
    decodePtpSlot e.leaderRow.slot 20 7 =
      (follower, 0, sample)

/- A sample that a side has been through has one entry a log. -/
theorem InRounds.exists_entry
    {s : PairState}
    (hRounds : InRounds s)
    {α : Type}
    (log : Log)
    (role : Role)
    (hKept : log.keptBy role = true)
    {launch sample : Nat}
    (hSample : sample < 20)
    (hPassed :
      (s.cursors role).PassedSample role launch sample)
    {entries : List α}
    {key : α → Nat × Nat}
    (hEntries :
      log.rounds (s.party role) = entries.map key) :
    ∃ entry ∈ entries,
      key entry = (launch, sample) ∧
        entries.filter
          (fun other => key other = (launch, sample)) =
          [entry] := by
  apply Keyed.exists_filter_eq_singleton
  · rw [← hEntries]
    exact (hRounds.logs role).nodup log hKept
  · rw [← hEntries]
    exact (hRounds.logs role).mem hKept hSample hPassed

/- Both sides have stored every sample they have been through. -/
theorem storedRound_of_passedSample
    {pair : Pair}
    {s : PairState}
    (hSettled : Settled pair s)
    (hRounds : InRounds s)
    (hFirst : 1 ≤ pair.follower)
    (hLast : pair.follower ≤ 7)
    {launch sample : Nat}
    (hSample : sample < 20)
    (hPassed :
      ∀ r, (s.cursors r).PassedSample r launch sample) :
    ∃ t1 t2 t3 t4 e,
      StoredRound pair.follower launch sample s.party
        t1 t2 t3 t4 e := by
  rcases hRounds.exists_entry .offsets .follower rfl
      hSample (hPassed .follower) rfl
    with ⟨fOffset, hFMem, hFKey, hFOnly⟩
  rcases hRounds.exists_entry .offsets .leader rfl
      hSample (hPassed .leader) rfl
    with ⟨lOffset, hLMem, hLKey, hLOnly⟩
  rcases hRounds.exists_entry .rows .follower rfl
      hSample (hPassed .follower) rfl
    with ⟨fRow, hFRowMem, hFRowKey, hFRowOnly⟩
  rcases hRounds.exists_entry .rows .leader rfl
      hSample (hPassed .leader) rfl
    with ⟨lRow, hLRowMem, hLRowKey, hLRowOnly⟩
  rcases hSettled.contents.offsets .follower fOffset hFMem
    with ⟨hFIndex, t1, t2, t3, t4, hSources, hVal⟩
  rcases hSettled.contents.offsets .leader lOffset hLMem
    with ⟨hLIndex, _⟩
  -- The leader's word is the only report of the round.
  rcases hRounds.backed.stored lOffset hLMem with
    ⟨_, w, hReported, hNegated⟩
  have hFReported : fOffset ∈ (s.party .follower).reports := by
    rw [hRounds.echoed]
    exact List.mem_append_left _ hFMem
  have hSame :
      fOffset = ⟨lOffset.launch, lOffset.sample, 0, w⟩ := by
    apply Keyed.eq_of_key
      ((hRounds.logs .follower).nodup .reports rfl)
      hFReported hReported
    exact hFKey.trans hLKey.symm
  have hFRound := Prod.mk.inj hFKey
  refine ⟨t1, t2, t3, t4, ⟨fOffset, lOffset, fRow, lRow⟩, ?_⟩
  exact
    { followerOnly := hFOnly
      leaderOnly := hLOnly
      sources := by
        rw [← hFRound.1, ← hFRound.2]
        exact hSources
      value := by
        simp only
        rw [hVal]
        exact SignedWord.toInt_halve _
      followerIndex := hFIndex
      negated := by
        simp only
        rw [hNegated, hSame]
        exact BitVec.zero_sub _
      leaderIndex := hLIndex
      followerRowOnly := hFRowOnly
      leaderRowOnly := hLRowOnly
      followerSlot := by
        simp only
        rw [hSettled.contents.rows .follower fRow hFRowMem,
          (Prod.mk.inj hFRowKey).2]
        exact decodePtpSlot_compactSlot hLast (Nat.zero_le 7)
          (Nat.ne_of_gt hFirst) hSample
      leaderSlot := by
        simp only
        rw [hSettled.contents.rows .leader lRow hLRowMem,
          (Prod.mk.inj hLRowKey).2]
        exact decodePtpSlot_compactSlot (Nat.zero_le 7) hLast
          (Nat.ne_of_lt hFirst) hSample }

/-
  A message that its reader has not accepted is neither
  overwritten nor cleared.
-/
theorem kept_of_unaccepted
    {pair : Pair}
    {s s' : PairState}
    {a : Action}
    (hSettled : Settled pair s)
    (hRounds : InRounds s)
    (hEffect : Effect pair s a s')
    {sample : Nat}
    {m : Message}
    (hUsed : (s.slots sample m).tag ≠ 0)
    (hWaiting : (s.slots sample m).accepted = false) :
    (s'.slots sample m).tag = (s.slots sample m).tag ∧
      (s'.slots sample m).data = (s.slots sample m).data := by
  cases hEffect with
  | store m' hOp =>
      have hEmpty := hSettled.store_empty hOp
      have hOther :
          ¬ (sample = (s.party a.role).cursor.sample ∧
            m = m') := by
        rintro ⟨rfl, rfl⟩
        exact hUsed hEmpty
      simp only [PairState.setSlot, if_neg hOther]
      exact ⟨rfl, rfl⟩
  | accept m' _ _ =>
      simp only [PairState.setSlot]
      by_cases hHere :
          sample = (s.party a.role).cursor.sample ∧ m = m'
      · rw [if_pos hHere, hHere.1, hHere.2]
        exact ⟨rfl, rfl⟩
      · rw [if_neg hHere]
        exact ⟨rfl, rfl⟩
  | clear m' hOp =>
      have hOther :
          ¬ (sample = (s.party a.role).cursor.sample ∧
            m = m') := by
        rintro ⟨rfl, rfl⟩
        have hAccepted :=
          hSettled.clear_accepted hRounds.fresh hOp hUsed
        simp only [PairState.slot] at hAccepted
        rw [hAccepted] at hWaiting
        exact Bool.false_ne_true hWaiting.symm
      simp only [PairState.setSlot, if_neg hOther]
      exact ⟨rfl, rfl⟩
  | _ => exact ⟨rfl, rfl⟩

------------------------------------------------------------
-- Completed Rounds Of A World
------------------------------------------------------------

/- The slot of a message in the shared buffers. -/
def WorldState.slot
    (world : World)
    (g : WorldState)
    (follower sample : Nat)
    (m : Message) : Slot :=
  g.memory (slotAddr world.numDevices follower sample m)

/-
  In every run without timeouts, for every follower: a
  sample that both sides have been through is stored on both
  sides and its slots are zero up to the next store, and no
  step overwrites or clears an unaccepted message.
-/
theorem completed_rounds
    (world : World)
    (g : WorldState)
    (hReach :
      (worldMachine world).Reach (NoTimeout world) g)
    (follower : Nat)
    (hFirst : 1 ≤ follower)
    (hLast : follower < world.numDevices) :
    (∀ launch sample,
      sample < samples →
      (∀ r, (g.party follower r).cursor.PassedSample r
        launch sample) →
        (∀ m : Message,
          ¬ (g.party follower m.writer).cursor.Stored m
              (launch + 1) sample →
            g.slot world follower sample m =
              Slot.cleared) ∧
        ∃ t1 t2 t3 t4 e,
          StoredRound follower launch sample
            (g.party follower) t1 t2 t3 t4 e) ∧
    ∀ move g',
      NoTimeout world g move →
      (worldMachine world).step g move = some g' →
        ∀ sample (m : Message),
          (g.slot world follower sample m).tag ≠ 0 →
          (g.slot world follower sample m).accepted = false →
            (g'.slot world follower sample m).tag =
                (g.slot world follower sample m).tag ∧
              (g'.slot world follower sample m).data =
                (g.slot world follower sample m).data := by
  have hPair := reach_pairView hReach hLast
  have hSettled := settled_of_reach hPair
  have hRounds := inRounds_of_reach hPair
  refine ⟨?_, ?_⟩
  · intro launch sample hSample hPassed
    refine ⟨?_, ?_⟩
    · intro m hNext
      exact cleared_of_passedSample hSettled hRounds hSample
        (hPassed m.reader) hNext
    · have hEight := world.le_eight
      exact storedRound_of_passedSample hSettled hRounds
        hFirst (by simp only [World.pair]; omega) hSample
        hPassed
  · intro move g' _ hStep sample m hUsed hWaiting
    simp only [worldMachine, Option.ite_none_right_eq_some,
      Option.some.injEq] at hStep
    rcases hStep with ⟨⟨_, hMove⟩, hAct⟩
    rw [← hAct]
    by_cases hHere : follower = move.follower
    · rcases move with ⟨c, a⟩
      simp only at hHere
      subst hHere
      have hView :=
        WorldState.pairView_act_self (g := g) hLast a
      have hEffect :=
        effect_act (world.pair follower)
          (g.pairView world follower) a
      rw [← hView] at hEffect
      exact kept_of_unaccepted hSettled hRounds hEffect hUsed
        hWaiting
    · have hView :=
        WorldState.pairView_act_of_ne (g := g) hLast hMove
          hHere
      have hSame :
          (g.act world move).slot world follower sample m =
            g.slot world follower sample m :=
        congrArg (fun s => s.slots sample m) hView
      rw [hSame]
      exact ⟨rfl, rfl⟩

instance
    (s : PairState)
    (a : Action) :
    Decidable (Unexhausted s a) :=
  match hOp : s.op a.role with
  | some (.wait m) =>
      decidable_of_iff
        (m.accepts (s.slot a.role m).tag = false →
          (s.party a.role).polls + 1 < pollBound)
        ⟨fun hBound m' hWait => by
            rw [hOp] at hWait
            cases hWait
            exact hBound,
          fun hBound => hBound m hOp⟩
  | some (.store _) | some .readDelayreqTime
  | some .storeOffset | some .storeRow | some (.clear _)
  | none =>
      isTrue (fun m hWait => by
        rw [hOp] at hWait
        cases hWait)

/- Two ranks on one host. -/
def twoRanks : World where
  numDevices := 2
  hostId := fun _ => 0
  two_le := by decide
  le_eight := by decide

/- Both sides go through the first sample. -/
def firstSample : List Move :=
  let clears : List Action :=
    List.replicate 5 ⟨.follower, 80⟩ ++
      List.replicate 4 ⟨.leader, 90⟩
  (completedSample ++ clears).map (fun a => ⟨1, a⟩)

/- The first sample of two ranks is stored on both sides. -/
theorem completed_rounds_firstSample :
    ∃ g, (worldMachine twoRanks).Reach (NoTimeout twoRanks) g ∧
      (∀ m, g.slot twoRanks 1 0 m = Slot.cleared) ∧
      ∃ t1 t2 t3 t4 e,
        StoredRound 1 0 0 (g.party 1) t1 t2 t3 t4 e := by
  have hRun :
      ((worldMachine twoRanks).runWhile
        (fun g move =>
          decide (Unexhausted (g.pairView twoRanks 1)
            move.action) && move.follower == 1)
        WorldState.start firstSample).any
        (fun g =>
          (g.party 1 .leader).cursor ==
              ⟨0, 0, 12, false⟩ &&
            (g.party 1 .follower).cursor ==
              ⟨0, 0, 14, false⟩) = true := by
    decide +kernel
  rcases (Option.any_eq_true _ _).mp hRun with
    ⟨g, hSome, hCursors⟩
  rw [Bool.and_eq_true] at hCursors
  have hLeader := eq_of_beq hCursors.1
  have hFollower := eq_of_beq hCursors.2
  have hReach :
      (worldMachine twoRanks).Reach (NoTimeout twoRanks) g := by
    refine Machine.reach_of_runWhile ?_
      (Machine.Reach.init rfl) hSome
    intro g move hCheck
    rw [Bool.and_eq_true] at hCheck
    have hOne : move.follower = 1 := eq_of_beq hCheck.2
    unfold NoTimeout
    rw [hOne]
    exact of_decide_eq_true hCheck.1
  have hAll :=
    (completed_rounds twoRanks g hReach 1 (by decide)
      (by decide)).1 0 0 (by decide) (by
        intro r
        cases r with
        | leader =>
            rw [hLeader]
            exact Or.inr ⟨rfl, by decide⟩
        | follower =>
            rw [hFollower]
            exact Or.inr ⟨rfl, by decide⟩)
  refine ⟨g, hReach, ?_, hAll.2⟩
  intro m
  apply hAll.1 m
  unfold Cursor.Stored
  cases m.writer with
  | leader =>
      rw [hLeader]
      simp [Cursor.round]
  | follower =>
      rw [hFollower]
      simp [Cursor.round]

end Ptp

end FabricPerf
