import FabricPerf.Ptp.Fabric

/-
  The diagnostic rows of a pair, compared with its offsets
  and with each other.

  A side stores the row of a sample right after the offset,
  from the same registers (`RowsMatch`).  The follower's row
  is due from its report on, and the leader's row is made
  from the report that it has accepted (`rowLog`).

  Main declarations:
    * `Ptp.RowsMatch`, `Ptp.rowLog`
    * `Ptp.rowsOk_of_reach`
    * `Ptp.exists_rowPair`
-/

------------------------------------------------------------
-- Rows And Offsets Of One Side
------------------------------------------------------------

namespace FabricPerf

namespace Ptp

/- The side has stored the word for the round. -/
def HasOffset
    (p : Party)
    (launch sample : Nat)
    (value : Word) : Prop :=
  ∃ o ∈ p.offsets,
    (o.launch, o.sample) = (launch, sample) ∧
      o.value = value

/-
  Every row repeats the offset of its round, and so will the
  row that a side is about to store.
-/
structure RowsMatch (role : Role) (p : Party) : Prop where
  stored :
    ∀ row ∈ p.rows,
      HasOffset p row.launch row.sample row.offset
  next :
    p.cursor.pc = Log.pc .rows role →
      HasOffset p p.cursor.launch p.cursor.sample
        (p.offsetWord role)

namespace RowsMatch

variable {role : Role} {p q : Party}

/- No rows, and none about to be stored. -/
theorem start : RowsMatch role Party.start where
  stored := fun _ hMem => absurd hMem List.not_mem_nil
  next := fun hPc => by
    cases role <;> exact absurd hPc (by decide)

/- What leaves both logs alone and does not come to the row. -/
theorem keep
    (hMatch : RowsMatch role p)
    (hOffsets : q.offsets = p.offsets)
    (hRows : q.rows = p.rows)
    (hPc : q.cursor.pc ≠ Log.pc .rows role) :
    RowsMatch role q where
  stored := by
    intro row hMem
    rw [hRows] at hMem
    rcases hMatch.stored row hMem with ⟨o, hO, hSame⟩
    refine ⟨o, ?_, hSame⟩
    rw [hOffsets]
    exact hO
  next := fun hHere => absurd hHere hPc

/- An operation in front of one that is no row store. -/
theorem pc_ne_of_path
    {op : Op}
    (hOp : (path role)[p.cursor.pc]? = some op)
    (hOffset : op ≠ .storeOffset)
    (hCursor : q.cursor = p.cursor.advance) :
    q.cursor.pc ≠ Log.pc .rows role := by
  intro hHere
  have hBefore : Log.pc .rows role = Log.pc .offsets role + 1 := by
    cases role <;> rfl
  have hPc : p.cursor.pc = Log.pc .offsets role := by
    rw [hCursor] at hHere
    simp only [Cursor.advance] at hHere
    omega
  have hStore :
      (path role)[Log.pc .offsets role]? = some .storeOffset := by
    cases role <;> rfl
  rw [hPc, hStore] at hOp
  exact hOffset (Option.some.inj hOp).symm

/- The offset is stored, the row comes next. -/
theorem storeOffset
    (hMatch : RowsMatch role p)
    (index : Nat) :
    RowsMatch role
      { p.advance with
        offsets :=
          p.offsets ++ [p.entry index (p.offsetWord role)] } where
  stored := by
    intro row hMem
    rcases hMatch.stored row hMem with ⟨o, hO, hSame⟩
    exact ⟨o, List.mem_append_left _ hO, hSame⟩
  next := fun _ =>
    ⟨p.entry index (p.offsetWord role),
      List.mem_append_right _ (List.mem_singleton_self _),
      rfl, by cases role <;> rfl⟩

/- The row is stored with that offset. -/
theorem storeRow
    {pair : Pair}
    (hMatch : RowsMatch role p)
    (hPc : p.cursor.pc = Log.pc .rows role) :
    RowsMatch role
      { p.advance with rows := p.rows ++ [p.row pair role] } where
  stored := by
    intro row hMem
    rcases List.mem_append.mp hMem with hOld | hNew
    · exact hMatch.stored row hOld
    · rw [List.mem_singleton.mp hNew]
      exact hMatch.next hPc
  next := fun hHere => by
    simp only [Party.advance, Cursor.advance] at hHere
    omega

end RowsMatch

/- Every action keeps rows and offsets in step. -/
theorem rowsMatch_step
    {pair : Pair}
    {s s' : PairState}
    {a : Action}
    (hMatch : ∀ r, RowsMatch r (s.party r))
    (hEffect : Effect pair s a s') :
    ∀ r, RowsMatch r (s'.party r) := by
  have hActor := hMatch a.role
  have hRow : Log.pc .rows a.role < a.role.syncLocal :=
    Log.pc_lt_syncLocal rfl
  have hFirst : 0 < Log.pc .rows a.role := by
    cases a.role <;> decide
  cases hEffect with
  | store m hOp =>
      apply forall_party_setParty hMatch
      exact hActor.keep rfl rfl
        (RowsMatch.pc_ne_of_path hOp Op.noConfusion rfl)
  | accept m hOp _ =>
      apply forall_party_setParty hMatch
      exact hActor.keep rfl rfl
        (RowsMatch.pc_ne_of_path hOp Op.noConfusion rfl)
  | miss m hOp _ _ =>
      apply forall_party_setParty hMatch
      refine hActor.keep ?_ ?_ ?_
      · rfl
      · rfl
      · intro hHere
        unfold PairState.op at hOp
        simp only at hHere
        rw [hHere, Log.path_pc rfl] at hOp
        exact Op.noConfusion (Option.some.inj hOp)
  | exhaust m _ _ _ =>
      apply forall_party_setParty hMatch
      exact hActor.keep rfl rfl (Nat.ne_of_gt hRow)
  | readDelayreqTime hOp =>
      apply forall_party_setParty hMatch
      exact hActor.keep rfl rfl
        (RowsMatch.pc_ne_of_path hOp Op.noConfusion rfl)
  | storeOffset hOp =>
      apply forall_party_setParty hMatch
      exact hActor.storeOffset (pair.peer a.role)
  | storeRow hOp =>
      apply forall_party_setParty hMatch
      exact hActor.storeRow (Log.pc_eq_of_path hOp)
  | clear m hOp =>
      apply forall_party_setParty hMatch
      exact hActor.keep rfl rfl
        (RowsMatch.pc_ne_of_path hOp Op.noConfusion rfl)
  | leaveSample hSync =>
      apply forall_party_setParty hMatch
      refine hActor.keep ?_ ?_ ?_
      · rfl
      · rfl
      · simp only [Cursor.leaveSample]
        split
        · exact Nat.ne_of_lt hFirst
        · simp only
          omega
  | relaunch _ =>
      apply forall_party_setParty hMatch
      refine hActor.keep ?_ ?_ ?_
      · rfl
      · rfl
      · exact Nat.ne_of_lt hFirst

------------------------------------------------------------
-- The Follower's Rows, From Its Reports On
------------------------------------------------------------

/-
  The rows a follower has stored, and between its report and
  the row store also the one that the store will write.
-/
def Party.due (pair : Pair) (p : Party) : List RowStore :=
  p.rows ++
    if p.cursor.pc = 8 ∨ p.cursor.pc = 9 then
      [p.row pair .follower]
    else
      []

/- Stored rows are due. -/
theorem Party.mem_due_of_mem
    {pair : Pair}
    {p : Party}
    {row : RowStore}
    (hMem : row ∈ p.rows) :
    row ∈ p.due pair :=
  List.mem_append_left _ hMem

/- A due row is stored or made from the current registers. -/
theorem Party.mem_due
    {pair : Pair}
    {p : Party}
    {row : RowStore} :
    row ∈ p.due pair ↔
      row ∈ p.rows ∨
        ((p.cursor.pc = 8 ∨ p.cursor.pc = 9) ∧
          row = p.row pair .follower) := by
  unfold Party.due
  rw [List.mem_append]
  by_cases hPc : p.cursor.pc = 8 ∨ p.cursor.pc = 9
  · rw [if_pos hPc, List.mem_singleton]
    tauto
  · rw [if_neg hPc]
    simp [hPc]

section Due

variable {pair : Pair} {s s' : PairState} {a : Action}
variable {row : RowStore}

/- Away from the two counters the due rows are stored. -/
theorem due_of_away
    {p q : Party}
    (hDue : row ∈ p.due pair)
    (hPc : p.cursor.pc ≠ 8 ∧ p.cursor.pc ≠ 9)
    (hRows : q.rows = p.rows) :
    row ∈ q.due pair := by
  rcases Party.mem_due.mp hDue with hStored | ⟨hHere, _⟩
  · apply Party.mem_due_of_mem
    rw [hRows]
    exact hStored
  · exact absurd hHere (not_or.mpr hPc)

/- Only two operations stand at the two counters. -/
theorem pc_ne_of_op
    {op : Op}
    (hOp : s.op .follower = some op)
    (hOffset : op ≠ .storeOffset)
    (hRow : op ≠ .storeRow) :
    (s.party .follower).cursor.pc ≠ 8 ∧
      (s.party .follower).cursor.pc ≠ 9 := by
  unfold PairState.op at hOp
  constructor
  · intro hPc
    rw [hPc] at hOp
    exact hOffset (Option.some.inj hOp).symm
  · intro hPc
    rw [hPc] at hOp
    exact hRow (Option.some.inj hOp).symm

/- A due row stays due. -/
theorem due_step
    (hDue : row ∈ (s.party .follower).due pair)
    (hEffect : Effect pair s a s') :
    row ∈ (s'.party .follower).due pair := by
  by_cases hRole : a.role = .follower
  · rcases a with ⟨role, time⟩
    simp only at hRole
    subst hRole
    cases hEffect with
    | store m hOp =>
        rw [PairState.party_setSlot,
          PairState.party_setParty_self]
        refine due_of_away hDue
          (pc_ne_of_op hOp Op.noConfusion Op.noConfusion) ?_
        rfl
    | accept m hOp _ =>
        rw [PairState.party_setSlot,
          PairState.party_setParty_self]
        refine due_of_away hDue
          (pc_ne_of_op hOp Op.noConfusion Op.noConfusion) ?_
        rfl
    | miss m hOp _ _ | exhaust m hOp _ _ =>
        rw [PairState.party_setParty_self]
        refine due_of_away hDue
          (pc_ne_of_op hOp Op.noConfusion Op.noConfusion) ?_
        rfl
    | readDelayreqTime hOp =>
        rw [PairState.party_setParty_self]
        refine due_of_away hDue
          (pc_ne_of_op hOp Op.noConfusion Op.noConfusion) ?_
        rfl
    | storeOffset hOp =>
        have hPc : (s.party .follower).cursor.pc = 8 := by
          rcases path_local.2.1 hOp with ⟨hLead, _⟩ | ⟨_, hPc⟩
          · exact Role.noConfusion hLead
          · exact hPc
        rw [PairState.party_setParty_self]
        rcases Party.mem_due.mp hDue with hStored | ⟨_, hNext⟩
        · exact Party.mem_due_of_mem hStored
        · refine Party.mem_due.mpr (Or.inr ⟨Or.inr ?_, hNext⟩)
          simp only [Party.advance, Cursor.advance, hPc]
    | storeRow hOp =>
        rw [PairState.party_setParty_self]
        apply Party.mem_due_of_mem
        rcases Party.mem_due.mp hDue with hStored | ⟨_, hNext⟩
        · exact List.mem_append_left _ hStored
        · rw [hNext]
          exact List.mem_append_right _
            (List.mem_singleton_self _)
    | clear m hOp =>
        rw [PairState.party_setSlot,
          PairState.party_setParty_self]
        refine due_of_away hDue
          (pc_ne_of_op hOp Op.noConfusion Op.noConfusion) ?_
        rfl
    | leaveSample hSync =>
        rw [PairState.party_setParty_self]
        simp only [Role.syncLocal] at hSync
        refine due_of_away hDue ⟨by omega, by omega⟩ ?_
        rfl
    | relaunch hOver =>
        rw [PairState.party_setParty_self]
        simp only [Role.syncLocal] at hOver
        refine due_of_away hDue ⟨by omega, by omega⟩ ?_
        rfl
  · have hSame :
        s'.party .follower = s.party .follower := by
      cases hEffect <;>
        exact s.party_setParty_of_ne _ (Ne.symm hRole)
    rw [hSame]
    exact hDue

end Due

------------------------------------------------------------
-- The Leader's Rows
------------------------------------------------------------

/- A report that a due row of the follower stands behind. -/
def SentRow
    (pair : Pair)
    (p : Party)
    (launch sample : Nat)
    (tag : BitVec 64)
    (data : Word) : Prop :=
  ∃ row ∈ p.due pair,
    (row.launch, row.sample) = (launch, sample) ∧
      tag = reportTag row.latency ∧
      data.val = row.offset.val

/- The leader's rows show the tags and words of reports. -/
def rowLog (pair : Pair) : ReportLog RowStore where
  Sent := SentRow pair
  entries := Party.rows
  round := fun row => (row.launch, row.sample)
  MadeOf := fun row tag data =>
    row.latency = tag >>> 8 ∧ row.offset.val = 0 - data.val

/- They are a log made from reports. -/
theorem rowLog_kept (pair : Pair) : (rowLog pair).Kept pair where
  sent := by
    intro s a hRole hOp
    have hPc := (path_store hOp).2
    simp only [Message.storePc] at hPc
    -- the row that the follower will store
    refine
      ⟨(s.party a.role).row pair .follower, ?_, rfl, ?_, rfl⟩
    · refine Party.mem_due.mpr (Or.inr ⟨Or.inl ?_, rfl⟩)
      simp only [Party.advance, Cursor.advance, hPc]
    · rfl
  lasts := by
    rintro s s' a launch sample tag data ⟨row, hDue, hRest⟩
      hEffect
    exact ⟨row, due_step hDue hEffect, hRest⟩
  grows := by
    intro s s' a hEffect
    rcases (logs_of_effect hEffect .leader).2 with
      hSame | ⟨hOp, hNew⟩
    · exact Or.inl hSame
    · rcases path_local.2.2 hOp with ⟨_, hPc⟩ | ⟨hFollow, _⟩
      · exact Or.inr
          ⟨by omega, by omega, _, hNew, rfl, rfl, rfl⟩
      · exact Role.noConfusion hFollow

------------------------------------------------------------
-- Rows In Runs Without Timeouts
------------------------------------------------------------

/- What holds of the rows of a settled pair. -/
structure RowsOk (pair : Pair) (s : PairState) : Prop where
  match_offsets : ∀ r, RowsMatch r (s.party r)
  backed : (rowLog pair).Backed s

/- Runs without timeouts keep their rows in order. -/
theorem rowsOk_of_reach
    {pair : Pair}
    {s : PairState}
    (hReach : (pairMachine pair).Reach Unexhausted s) :
    RowsOk pair s := by
  apply hReach.invariant_of (Settled pair) (RowsOk pair)
  · exact fun _ => settled_of_reach
  · intro s hInit
    have hStart : s = PairState.start := hInit
    rw [hStart]
    exact ⟨fun _ => RowsMatch.start, ReportLog.Backed.start rfl⟩
  · intro s a s' hSettled hOk _ hStep
    have hAct : s.act pair a = s' := Option.some.inj hStep
    have hEffect := effect_act pair s a
    rw [hAct] at hEffect
    exact
      ⟨rowsMatch_step hOk.match_offsets hEffect,
        ReportLog.backed_step (rowLog_kept pair) hSettled
          hOk.backed hEffect⟩

/-
  The rows of one round: one on each side, in its slot, with
  an offset that the side has stored for the round; the
  leader's offset is the negation of the follower's, and its
  latency the report's upper bits.
-/
structure RowPair
    (pair : Pair)
    (side : Role → Party)
    (launch sample : Nat)
    (fRow lRow : RowStore) : Prop where
  followerOnly :
    (side .follower).rows.filter
      (fun row => row.IsOf launch sample) = [fRow]
  leaderOnly :
    (side .leader).rows.filter
      (fun row => row.IsOf launch sample) = [lRow]
  followerSlot :
    fRow.slot = compactSlot pair.follower 0 sample
  leaderSlot :
    lRow.slot = compactSlot 0 pair.follower sample
  followerOffset :
    HasOffset (side .follower) launch sample fRow.offset
  leaderOffset :
    HasOffset (side .leader) launch sample lRow.offset
  negated : lRow.offset.val = -fRow.offset.val
  latency : lRow.latency = reportTag fRow.latency >>> 8
  halved : ∃ w, fRow.offset.val = SignedWord.halve w

/- The only entry of a key is found by its key. -/
theorem eq_of_filter_eq_singleton
    {α : Type}
    {l : List α}
    {P : α → Bool}
    {a b : α}
    (hOnly : l.filter P = [a])
    (hMem : b ∈ l)
    (hKey : P b = true) :
    b = a := by
  have hIn : b ∈ l.filter P := List.mem_filter.mpr ⟨hMem, hKey⟩
  rw [hOnly] at hIn
  exact List.mem_singleton.mp hIn

/- A follower that is through a sample has no row due for it. -/
theorem mem_rows_of_passed
    {pair : Pair}
    {p : Party}
    {row : RowStore}
    {launch sample : Nat}
    (hDue : row ∈ p.due pair)
    (hKey : (row.launch, row.sample) = (launch, sample))
    (hPassed :
      p.cursor.PassedSample .follower launch sample) :
    row ∈ p.rows := by
  rcases Party.mem_due.mp hDue with hStored | ⟨hHere, hRow⟩
  · exact hStored
  · exfalso
    rw [hRow] at hKey
    rcases Prod.mk.inj hKey with ⟨hLaunch, hAt⟩
    change p.cursor.launch = launch at hLaunch
    change p.cursor.sample = sample at hAt
    unfold Cursor.PassedSample Cursor.round at hPassed
    simp only [Role.syncLocal] at hPassed
    omega

/- A round that both sides are through has its two rows. -/
theorem exists_rowPair
    {pair : Pair}
    {s : PairState}
    (hReach : (pairMachine pair).Reach Unexhausted s)
    (hFirst : 1 ≤ pair.follower)
    (hLast : pair.follower ≤ 7)
    {launch sample : Nat}
    (hSample : sample < 20)
    (hPassed :
      ∀ r, (s.cursors r).PassedSample r launch sample) :
    ∃ fRow lRow,
      RowPair pair s.party launch sample fRow lRow := by
  have hSettled := settled_of_reach hReach
  have hRounds := inRounds_of_reach hReach
  have hRows := rowsOk_of_reach hReach
  rcases storedRound_of_passedSample hSettled hRounds hFirst
    hLast hSample hPassed with ⟨t1, t2, t3, t4, e, hStored⟩
  have hFRow :
      e.followerRow ∈ (s.party .follower).rows ∧
        e.followerRow.IsOf launch sample := by
    have hIn :
        e.followerRow ∈
          (s.party .follower).rows.filter
            (fun row => row.IsOf launch sample) := by
      rw [hStored.followerRowOnly]
      exact List.mem_singleton_self _
    rcases List.mem_filter.mp hIn with ⟨hMem, hOf⟩
    exact ⟨hMem, of_decide_eq_true hOf⟩
  have hLRow :
      e.leaderRow ∈ (s.party .leader).rows ∧
        e.leaderRow.IsOf launch sample := by
    have hIn :
        e.leaderRow ∈
          (s.party .leader).rows.filter
            (fun row => row.IsOf launch sample) := by
      rw [hStored.leaderRowOnly]
      exact List.mem_singleton_self _
    rcases List.mem_filter.mp hIn with ⟨hMem, hOf⟩
    exact ⟨hMem, of_decide_eq_true hOf⟩
  have hFKey := Prod.mk.inj hFRow.2
  have hLKey := Prod.mk.inj hLRow.2
  have hFOffset :=
    (hRows.match_offsets .follower).stored e.followerRow
      hFRow.1
  have hLOffset :=
    (hRows.match_offsets .leader).stored e.leaderRow hLRow.1
  rw [hFKey.1, hFKey.2] at hFOffset
  rw [hLKey.1, hLKey.2] at hLOffset
  -- the report behind the leader's row is the follower's row
  rcases hRows.backed.stored e.leaderRow hLRow.1 with
    ⟨tag, data, ⟨row, hDue, hKey, hTag, hData⟩, hLatency,
      hNegated⟩
  have hRound :
      (row.launch, row.sample) = (launch, sample) :=
    hKey.trans hLRow.2
  have hSame : row = e.followerRow := by
    apply eq_of_filter_eq_singleton hStored.followerRowOnly
    · exact mem_rows_of_passed hDue hRound
        (hPassed .follower)
    · exact decide_eq_true hRound
  rcases hFOffset with ⟨o, hO, hOKey, hValue⟩
  rcases hSettled.contents.offsets .follower o hO with
    ⟨_, t1', t2', t3', t4', _, hHalved⟩
  refine ⟨e.followerRow, e.leaderRow, ?_⟩
  exact
    { followerOnly := hStored.followerRowOnly
      leaderOnly := hStored.leaderRowOnly
      followerSlot := by
        rw [hSettled.contents.rows .follower _ hFRow.1,
          hFKey.2]
        rfl
      leaderSlot := by
        rw [hSettled.contents.rows .leader _ hLRow.1,
          hLKey.2]
        rfl
      followerOffset := ⟨o, hO, hOKey, hValue⟩
      leaderOffset := hLOffset
      negated := by
        rw [hNegated, hData, hSame]
        exact BitVec.zero_sub _
      latency := by
        rw [hLatency, hTag, hSame]
      halved := by
        rw [← hValue]
        exact ⟨_, hHalved⟩ }

------------------------------------------------------------
-- Rows Of A World
------------------------------------------------------------

/-
  In every run without timeouts, a round that both sides of
  a pair are through has one diagnostic row on each side, in
  its slot, with the offset of the side's table; the leader's
  row has the negated offset and the latency of the report.
-/
theorem diagnostic_rows_agree
    (world : World)
    (g : WorldState)
    (hReach :
      (worldMachine world).Reach (NoTimeout world) g)
    (follower : Nat)
    (hFirst : 1 ≤ follower)
    (hLast : follower < world.numDevices)
    (launch sample : Nat)
    (hSample : sample < 20)
    (hPassed :
      ∀ r, (g.party follower r).cursor.PassedSample r launch
        sample) :
    ∃ fRow lRow,
      RowPair (world.pair follower) (g.party follower) launch
        sample fRow lRow := by
  have hEight := world.le_eight
  exact exists_rowPair (reach_pairView hReach hLast) hFirst
    (by simp only [World.pair]; omega) hSample hPassed

/- A run of two ranks through their first sample. -/
theorem reach_firstSample :
    ∃ g, (worldMachine twoRanks).Reach (NoTimeout twoRanks) g ∧
      ∀ r, (g.party 1 r).cursor.PassedSample r 0 0 ∧
        (g.party 1 r).rows.map RowStore.latency = [10] := by
  have hRun :
      ((worldMachine twoRanks).runWhile
        (fun g move =>
          decide (Unexhausted (g.pairView twoRanks 1)
            move.action) && move.follower == 1)
        WorldState.start firstSample).any
        (fun g =>
          ((g.party 1 .leader).cursor ==
              ⟨0, 0, 12, false⟩ &&
            (g.party 1 .leader).rows.map RowStore.latency ==
              [10]) &&
          ((g.party 1 .follower).cursor ==
              ⟨0, 0, 14, false⟩ &&
            (g.party 1 .follower).rows.map RowStore.latency ==
              [10])) = true := by
    decide +kernel
  rcases (Option.any_eq_true _ _).mp hRun with
    ⟨g, hSome, hBoth⟩
  rw [Bool.and_eq_true, Bool.and_eq_true, Bool.and_eq_true]
    at hBoth
  rcases hBoth with ⟨⟨hLeader, hLRows⟩, ⟨hFollower, hFRows⟩⟩
  refine ⟨g, ?_, ?_⟩
  · refine Machine.reach_of_runWhile ?_
      (Machine.Reach.init rfl) hSome
    intro g move hCheck
    rw [Bool.and_eq_true] at hCheck
    have hOne : move.follower = 1 := eq_of_beq hCheck.2
    unfold NoTimeout
    rw [hOne]
    exact of_decide_eq_true hCheck.1
  · intro r
    cases r with
    | leader =>
        rw [eq_of_beq hLeader]
        exact ⟨Or.inr ⟨rfl, by decide⟩, eq_of_beq hLRows⟩
    | follower =>
        rw [eq_of_beq hFollower]
        exact ⟨Or.inr ⟨rfl, by decide⟩, eq_of_beq hFRows⟩

/- There the two rows of the sample agree. -/
theorem diagnostic_rows_agree_firstSample :
    ∃ g, (worldMachine twoRanks).Reach (NoTimeout twoRanks) g ∧
      ∃ fRow lRow,
        RowPair (twoRanks.pair 1) (g.party 1) 0 0 fRow
          lRow := by
  rcases reach_firstSample with ⟨g, hReach, hBoth⟩
  exact ⟨g, hReach,
    diagnostic_rows_agree twoRanks g hReach 1 (by decide)
      (by decide) 0 0 (by decide) (fun r => (hBoth r).1)⟩

end Ptp

end FabricPerf
