import FabricPerf.Ptp.Contents
import FabricPerf.Ptp.Coupling

/-
  Isolation of the rounds of a pair.

  A poll looks at the message kind alone, so a message that
  a timed out launch has left behind passes for one of the
  next launch, and an offset can mix timestamps of both.
  Runs that accept values of the own launch only are free of
  this, and so are runs in which no side is launched again
  after a timeout.

  Main declarations:
    * `Ptp.FromOneRound`
    * `Ptp.takeTurns`: runs whose poll loops may expire
    * `Ptp.offsets_from_one_round`
-/

------------------------------------------------------------
-- Offsets Of One Round
------------------------------------------------------------

namespace FabricPerf

namespace Ptp

/-
  The word was computed from the timestamps `T1`..`T4` of
  one sample of one launch.
-/
def FromOneRound (w : Word) : Prop :=
  ∃ (launch sample : Nat) (t1 t2 t3 t4 : BitVec 64),
    w.sources = roundReadings launch sample t1 t2 t3 t4

/-
  A side that is launched again only without timeouts finds
  no value of another launch.
-/
theorem acceptsOwnLaunch_of_coupled
    {s : PairState}
    (hCoupled : Coupled s)
    (a : Action) :
    AcceptsOwnLaunch s a := by
  intro m hOp hValue hHit
  have hReader := (path_wait hOp).1
  have hHeld := hCoupled.held_of_hit hHit
  have hFirst : m ≠ .connreq := by
    rintro rfl
    exact Bool.false_ne_true hValue
  have hPc := lt_syncLocal_of_path hOp
  have hRole : a.role.syncLocal ≤ 14 := by
    cases a.role <;> decide
  have hLaunch :=
    hHeld.launch_eq hFirst (by rw [hReader]; rfl)
      (by
        rw [hReader]
        simp only [PairState.cursors]
        omega)
  rw [hReader] at hLaunch
  exact hLaunch

/-
  A run that relaunches only without timeouts accepts values
  of the own launch only.
-/
theorem reach_acceptsOwnLaunch
    {pair : Pair}
    {s : PairState}
    (hReach : (pairMachine pair).Reach LiveRelaunch s) :
    (pairMachine pair).Reach AcceptsOwnLaunch s := by
  apply hReach.strengthen
  intro s a hBefore _
  exact acceptsOwnLaunch_of_coupled
    (coupled_of_reach hBefore) a

/-
  In every run that accepts values of the own launch only,
  every stored offset comes from one round; and every run
  that relaunches only without timeouts is such a run.
-/
theorem offsets_from_one_round
    (pair : Pair) :
    (∀ s, (pairMachine pair).Reach AcceptsOwnLaunch s →
      ∀ role, ∀ o ∈ (s.party role).offsets,
        FromOneRound o.value) ∧
    ∀ s, (pairMachine pair).Reach LiveRelaunch s →
      (pairMachine pair).Reach AcceptsOwnLaunch s := by
  refine ⟨?_, fun _ => reach_acceptsOwnLaunch⟩
  intro s hReach role o hMem
  rcases (contentsOk_of_reach hReach).offsets role o hMem
    with ⟨_, t1, t2, t3, t4, hSources, _⟩
  exact ⟨o.launch, o.sample, t1, t2, t3, t4, hSources⟩

------------------------------------------------------------
-- Runs Whose Poll Loops Expire
------------------------------------------------------------

/- One action, or all the polls of an unanswered wait. -/
inductive Turn where
| act (a : Action)
| expire (role : Role)
deriving DecidableEq, Repr

/- The side has used up the polls of its wait. -/
def PairState.expire (s : PairState) (role : Role) :
    PairState :=
  s.setParty role
    { s.party role with
      cursor := (s.party role).cursor.exhaust role
      polls := 0 }

/- Take one turn; only an unanswered wait can expire. -/
def PairState.turn (pair : Pair) (s : PairState) :
    Turn → Option PairState
| .act a => some (s.act pair a)
| .expire role =>
    match s.op role with
    | some (.wait m) =>
        if m.accepts (s.slot role m).tag = false ∧
            (s.party role).polls = 0 then
          some (s.expire role)
        else
          none
    | _ => none

/- Take the listed turns. -/
def takeTurns (pair : Pair) :
    PairState → List Turn → Option PairState
| s, [] => some s
| s, turn :: rest =>
    (s.turn pair turn).bind (fun s' => takeTurns pair s' rest)

/- A side that has polled in vain so many times. -/
def PairState.polling
    (s : PairState)
    (role : Role)
    (polls : Nat) : PairState :=
  s.setParty role { s.party role with polls := polls }

/- A poll that misses is counted or leaves the loop. -/
theorem act_miss
    (pair : Pair)
    {s : PairState}
    {role : Role}
    {m : Message}
    (hOp : s.op role = some (.wait m))
    (hMiss : m.accepts (s.slot role m).tag = false)
    (k : Nat) :
    (s.polling role k).act pair ⟨role, 0⟩ =
      if k + 1 < pollBound then s.polling role (k + 1)
      else s.expire role := by
  unfold PairState.op at hOp
  unfold PairState.slot at hMiss
  simp only [PairState.polling, PairState.act, Party.step,
    PairState.party_setParty_self, hOp]
  have hSlots :
      (s.setParty role
        { s.party role with polls := k }).slots =
        s.slots := rfl
  rw [hSlots, hMiss]
  simp only [Bool.false_eq_true, if_false]
  split
  · exact s.setParty_setParty role _ _
  · exact s.setParty_setParty role _ _

/- Before the bound it is counted. -/
theorem act_polling
    (pair : Pair)
    {s : PairState}
    {role : Role}
    {m : Message}
    (hOp : s.op role = some (.wait m))
    (hMiss : m.accepts (s.slot role m).tag = false)
    {k : Nat}
    (hBound : k + 1 < pollBound) :
    (s.polling role k).act pair ⟨role, 0⟩ =
      s.polling role (k + 1) :=
  (act_miss pair hOp hMiss k).trans (if_pos hBound)

/- The last poll that misses leaves the loop. -/
theorem act_last_poll
    (pair : Pair)
    {s : PairState}
    {role : Role}
    {m : Message}
    (hOp : s.op role = some (.wait m))
    (hMiss : m.accepts (s.slot role m).tag = false)
    {k : Nat}
    (hBound : ¬ k + 1 < pollBound) :
    (s.polling role k).act pair ⟨role, 0⟩ =
      s.expire role :=
  (act_miss pair hOp hMiss k).trans (if_neg hBound)

/- An unanswered wait polls on up to its bound. -/
theorem reachable_polling
    {pair : Pair}
    {s : PairState}
    (hReach : (pairMachine pair).Reachable s)
    {role : Role}
    {m : Message}
    (hOp : s.op role = some (.wait m))
    (hMiss : m.accepts (s.slot role m).tag = false)
    (hPolls : (s.party role).polls = 0)
    {k : Nat}
    (hBound : k < pollBound) :
    (pairMachine pair).Reachable (s.polling role k) := by
  induction k with
  | zero =>
      have hSame : s.polling role 0 = s := by
        unfold PairState.polling
        rw [← hPolls]
        exact s.setParty_self role
      rw [hSame]
      exact hReach
  | succ k ih =>
      apply Machine.Reach.step (a := ⟨role, 0⟩)
        (ih (by omega)) trivial
      exact congrArg some (act_polling pair hOp hMiss hBound)

/- Taking turns is a run: an expiry is all its polls. -/
theorem reachable_of_takeTurns
    {pair : Pair}
    {s s' : PairState}
    (hReach : (pairMachine pair).Reachable s)
    {turns : List Turn}
    (hTurns : takeTurns pair s turns = some s') :
    (pairMachine pair).Reachable s' := by
  induction turns generalizing s with
  | nil =>
      have hSame : s = s' := Option.some.inj hTurns
      rw [← hSame]
      exact hReach
  | cons turn rest ih =>
      rw [takeTurns] at hTurns
      rcases Option.bind_eq_some_iff.mp hTurns with
        ⟨next, hNext, hRest⟩
      apply ih _ hRest
      cases turn with
      | act a =>
          exact Machine.Reach.step hReach trivial hNext
      | expire role =>
          cases hOp : s.op role with
          | none =>
              simp [PairState.turn, hOp] at hNext
          | some op =>
              cases op with
              | wait m =>
                  simp only [PairState.turn, hOp,
                    Option.ite_none_right_eq_some,
                    Option.some.injEq] at hNext
                  rcases hNext with ⟨⟨hMiss, hPolls⟩, hEnd⟩
                  rw [← hEnd]
                  have hLast :=
                    reachable_polling hReach hOp hMiss hPolls
                      (show pollBound - 1 < pollBound by
                        decide)
                  apply Machine.Reach.step (a := ⟨role, 0⟩)
                    hLast trivial
                  exact congrArg some
                    (act_last_poll pair hOp hMiss (by decide))
              | store m | readDelayreqTime | storeOffset
              | storeRow | clear m =>
                  simp [PairState.turn, hOp] at hNext

------------------------------------------------------------
-- A Follow-Up Left Behind
------------------------------------------------------------

/- Rank 0 and rank 1. -/
def onePair : Pair where
  follower := 1
  hostId := fun _ => 0

/- One side acts several times at one clock value. -/
def Turn.acts (role : Role) (n : Nat) (t : BitVec 64) :
    List Turn :=
  List.replicate n (.act ⟨role, t⟩)

/- One side goes through samples in which it times out. -/
def Turn.idle (role : Role) (samples : Nat) : List Turn :=
  let begin :=
    match role with
    | .leader => Turn.acts .leader 1 0
    | .follower => []
  (List.replicate samples
    (begin ++ [.expire role] ++ Turn.acts role 1 0)).flatten

/-
  In launch 0 the follower gives up before the leader sends
  sync and follow-up, and the leader then waits in vain.
  In launch 1 the follower accepts both messages.
-/
def staleFollowup : List Turn :=
  Turn.acts .leader 1 10 ++ Turn.acts .follower 2 20 ++
    [.expire .follower] ++ Turn.acts .leader 3 30 ++
    [.expire .leader] ++
    Turn.acts .leader 1 40 ++ Turn.acts .follower 1 40 ++
    Turn.idle .follower 19 ++ Turn.idle .leader 19 ++
    Turn.acts .leader 1 1000 ++ Turn.acts .follower 1 1000 ++
    Turn.acts .follower 6 1010 ++ Turn.acts .leader 6 1020 ++
    Turn.acts .follower 3 1030

/- The sources of the offset that the follower then stores. -/
def staleSources : List Reading :=
  [⟨.syncReceipt, 1, 0, 1010⟩, ⟨.followUp, 0, 0, 30⟩,
    ⟨.delayResponse, 1, 0, 1020⟩,
    ⟨.delayRequest, 1, 0, 1010⟩]

/- Timeouts can mix timestamps of two launches. -/
theorem not_offsets_from_one_round :
    ¬ ∀ (pair : Pair) (s : PairState),
      (pairMachine pair).Reachable s →
        ∀ role, ∀ o ∈ (s.party role).offsets,
          FromOneRound o.value := by
  intro hAll
  have hRun :
      (takeTurns onePair PairState.start staleFollowup).any
        (fun s => (s.party .follower).offsets.any
          (fun o => o.value.sources == staleSources)) =
        true := by
    decide +kernel
  rcases (Option.any_eq_true _ _).mp hRun with
    ⟨s, hTurns, hAny⟩
  rcases List.any_eq_true.mp hAny with ⟨o, hMem, hBeq⟩
  have hSources : o.value.sources = staleSources :=
    eq_of_beq hBeq
  have hReach : (pairMachine onePair).Reachable s :=
    reachable_of_takeTurns (Machine.Reach.init rfl) hTurns
  rcases hAll onePair s hReach .follower o hMem with
    ⟨launch, sample, t1, t2, t3, t4, hRound⟩
  rw [hSources] at hRound
  simp only [staleSources, roundReadings, List.cons.injEq,
    Reading.mk.injEq] at hRound
  omega

------------------------------------------------------------
-- A Completed Sample
------------------------------------------------------------

instance
    (s : PairState)
    (a : Action) :
    Decidable (LiveRelaunch s a) :=
  inferInstanceAs (Decidable (_ → _))

/- The actions of both sides up to the leader's offset. -/
def completedSample : List Action :=
  List.replicate 1 ⟨.leader, 10⟩ ++
    List.replicate 2 ⟨.follower, 20⟩ ++
    List.replicate 3 ⟨.leader, 30⟩ ++
    List.replicate 4 ⟨.follower, 40⟩ ++
    List.replicate 2 ⟨.leader, 50⟩ ++
    List.replicate 3 ⟨.follower, 60⟩ ++
    List.replicate 2 ⟨.leader, 70⟩

/- The completed sample stores offsets of one round. -/
theorem offsets_from_one_round_completedSample :
    ∃ s, (pairMachine onePair).Reach LiveRelaunch s ∧
      ∀ role, ∃ o ∈ (s.party role).offsets,
        FromOneRound o.value := by
  have hRun :
      ((pairMachine onePair).runWhile
        (fun s a => decide (LiveRelaunch s a))
        PairState.start completedSample).any
        (fun s =>
          (s.party .follower).offsets.length == 1 &&
            (s.party .leader).offsets.length == 1) =
        true := by
    decide +kernel
  rcases (Option.any_eq_true _ _).mp hRun with
    ⟨s, hSome, hLengths⟩
  rw [Bool.and_eq_true] at hLengths
  have hReach : (pairMachine onePair).Reach LiveRelaunch s :=
    Machine.reach_of_runWhile
      (fun _ _ hCheck => of_decide_eq_true hCheck)
      (Machine.Reach.init rfl) hSome
  refine ⟨s, hReach, ?_⟩
  intro role
  have hLength : (s.party role).offsets.length = 1 := by
    cases role with
    | leader => exact eq_of_beq hLengths.2
    | follower => exact eq_of_beq hLengths.1
  rcases List.length_eq_one_iff.mp hLength with ⟨o, hOne⟩
  have hMem : o ∈ (s.party role).offsets := by
    rw [hOne]
    exact List.mem_singleton_self o
  refine ⟨o, hMem, ?_⟩
  exact (offsets_from_one_round onePair).1 s
    ((offsets_from_one_round onePair).2 s hReach) role o hMem

end Ptp

end FabricPerf
