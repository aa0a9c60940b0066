import FabricPerf.Latency.Mailbox

/-
  Which timestamps the valid records carry.

  A poll that hits while the sender is between its time
  store and its tag store sees the tag of one send beside
  the time of the next, and neither validity test looks at
  that.  Runs without such a hit pair every valid record
  with its own send.

  Main declarations:
    * `Latency.RecordsOwn`
    * `Latency.NoHitDuringSend`
    * `Latency.records_own_timestamp`
-/

------------------------------------------------------------
-- Own Timestamps
------------------------------------------------------------

namespace FabricPerf

namespace Latency

/- The time word is the one of the send of launch and step. -/
def OwnStamp
    (sent : List Send)
    (launch : Nat)
    (hit : Hit)
    (time : Stamp) : Prop :=
  ∃ send ∈ sent,
    send.IsOf launch hit.step ∧
      time = send.stamp ∧
        hit.time = send.published

/- The row of the hit does not have the invalid bit 31. -/
def Hit.IsValid (hit : Hit) : Prop :=
  hit.srLatencyRow.vblock &&& 2147483648#32 = 0#32

instance (hit : Hit) : Decidable hit.IsValid :=
  inferInstanceAs (Decidable (_ = _))

/-
  Every valid record carries the timestamp of the send of
  its own launch and step.
-/
def RecordsOwn (s : MailState) : Prop :=
  ∀ rec ∈ s.receiver.saved,
    rec.hit.IsValid →
      OwnStamp s.sender.sent rec.launch rec.hit rec.time

/-
  A valid poll hit finds the sender between two sends, not
  between its time store and its tag store.
-/
def NoHitDuringSend
    (box : Mailbox)
    (s : MailState)
    (a : MailAction) : Prop :=
  ∀ offset wait,
    a = .poll offset →
    s.receiver.phase = .polling wait →
    s.mail.tag =
      mailboxTag wait.step (box.runId s.receiver.launch) →
    invalidHit s.mail.time.val wait.misses = false →
      s.sender.inFlight = none

/- More sends take nothing away. -/
theorem OwnStamp.mono
    {sent sent' : List Send}
    {launch : Nat}
    {hit : Hit}
    {time : Stamp}
    (hOwn : OwnStamp sent launch hit time)
    (hSub : sent ⊆ sent') :
    OwnStamp sent' launch hit time := by
  rcases hOwn with ⟨send, hMem, hRest⟩
  exact ⟨send, hSub hMem, hRest⟩

/- A row without the invalid bit comes from a valid hit. -/
theorem Hit.invalidHit_of_isValid
    {hit : Hit}
    (hValid : hit.IsValid) :
    invalidHit hit.time hit.misses = false := by
  by_contra hNot
  have hInvalid := Bool.eq_true_of_not_eq_false hNot
  unfold Hit.IsValid Hit.srLatencyRow Hit.channel at hValid
  rw [hInvalid] at hValid
  exact channelWord_flag hit.source hit.vblock hValid

/- And a valid hit saves a row without the invalid bit. -/
theorem Hit.isValid_of_invalidHit
    {hit : Hit}
    (hSource : hit.source.toNat < 16)
    (hVblock : hit.vblock.toNat < 4096)
    (hValid : invalidHit hit.time hit.misses = false) :
    hit.IsValid := by
  unfold Hit.IsValid Hit.srLatencyRow Hit.channel
  rw [hValid]
  exact channelWord_no_flag (by omega) (by omega)

------------------------------------------------------------
-- Hits Between Sends
------------------------------------------------------------

/- A valid hit between two sends is on its own send. -/
theorem ownStamp_of_hit
    {box : Mailbox}
    {s : MailState}
    (hOk : MailOk box s)
    {wait : Wait}
    (hTag :
      s.mail.tag =
        mailboxTag wait.step (box.runId s.receiver.launch))
    (hValid : invalidHit s.mail.time.val wait.misses = false)
    (hIdle : s.sender.inFlight = none)
    (offset : BitVec 64) :
    OwnStamp s.sender.sent s.receiver.launch
      (box.hitOf wait s.mail offset) s.mail.time := by
  have hHolds := hOk.holds
  unfold MailHolds at hHolds
  rw [hIdle] at hHolds
  rcases hHolds with hCleared | ⟨send, hMem, hOwn, hTime⟩
  · rw [hCleared] at hTag
    exact absurd hTag.symm (mailboxTag_ne_zero _ _)
  · have hIsOf :=
      hOk.isOf_of_tag hMem hOk.receiverLaunch
        (hOwn.symm.trans hTag)
    rcases hTime with hStamp | hZero
    · exact ⟨send, hMem, hIsOf, hStamp,
        congrArg Traced.val hStamp⟩
    · -- A cleared time word never passes the validity test.
      rw [hZero] at hValid
      simp [invalidHit] at hValid

/- The hook after a hit, and the records saved so far. -/
structure PhaseOwn (s : MailState) : Prop where
  phase :
    ∀ hit time,
      s.receiver.phase = .hit hit time ∨
          s.receiver.phase = .cleared hit time →
        hit.IsValid →
          OwnStamp s.sender.sent s.receiver.launch hit time
  records : RecordsOwn s

/- Steps that leave the receiver alone keep its records. -/
theorem PhaseOwn.of_receiver_eq
    {s s' : MailState}
    (hOwn : PhaseOwn s)
    (hReceiver : s'.receiver = s.receiver)
    (hSent : s.sender.sent ⊆ s'.sender.sent) :
    PhaseOwn s' where
  phase := by
    intro hit time hPhase hValid
    rw [hReceiver] at hPhase ⊢
    exact (hOwn.phase hit time hPhase hValid).mono hSent
  records := by
    intro rec hMem hValid
    rw [hReceiver] at hMem
    exact (hOwn.records rec hMem hValid).mono hSent

/- A guarded step keeps the records with their own sends. -/
theorem PhaseOwn.step
    {box : Mailbox}
    {s s' : MailState}
    {a : MailAction}
    (hOk : MailOk box s)
    (hOwn : PhaseOwn s)
    (hGuard : NoHitDuringSend box s a)
    (hStep : MailStep box s a s') :
    PhaseOwn s' := by
  cases hStep with
  | sendTime step clock offset send hSend hIdle hNew =>
      exact hOwn.of_receiver_eq rfl
        (List.subset_append_left _ _)
  | sendTag send hFlight =>
      exact hOwn.of_receiver_eq rfl (List.Subset.refl _)
  | nextSenderLaunch hIdle hLaunch =>
      exact hOwn.of_receiver_eq rfl (List.Subset.refl _)
  | recvStart step localTime hPhase =>
      refine ⟨?_, hOwn.records⟩
      intro hit time hNext
      simp at hNext
  | hit offset wait hPhase hTag =>
      refine ⟨?_, hOwn.records⟩
      intro hit time hNext hValid
      simp only [RecvPhase.hit.injEq, reduceCtorEq,
        or_false] at hNext
      rcases hNext with ⟨hHit, hTime⟩
      rw [← hHit] at hValid
      rw [← hHit, ← hTime]
      have hTest := Hit.invalidHit_of_isValid hValid
      exact ownStamp_of_hit hOk hTag hTest
        (hGuard offset wait rfl hPhase hTag hTest) offset
  | miss offset wait hPhase hTag hBound =>
      refine ⟨?_, hOwn.records⟩
      intro hit time hNext
      simp at hNext
  | giveUp offset wait hPhase hTag =>
      refine ⟨?_, hOwn.records⟩
      intro hit time hNext
      simp at hNext
  | clear hit time hPhase =>
      refine ⟨?_, hOwn.records⟩
      intro hit' time' hNext hValid
      simp only [RecvPhase.cleared.injEq, reduceCtorEq,
        false_or] at hNext
      rw [← hNext.1] at hValid ⊢
      rw [← hNext.2]
      exact hOwn.phase hit time (Or.inl hPhase) hValid
  | save hit time hPhase =>
      refine ⟨?_, ?_⟩
      · intro hit' time' hNext
        simp at hNext
      · intro rec hMem hValid
        rcases List.mem_append.mp hMem with hOld | hNew
        · exact hOwn.records rec hOld hValid
        · rw [List.mem_singleton.mp hNew] at hValid ⊢
          exact hOwn.phase hit time (Or.inr hPhase) hValid
  | nextReceiverLaunch hPhase hLaunch =>
      refine ⟨?_, hOwn.records⟩
      intro hit time hNext
      simp only [hPhase, reduceCtorEq, or_self] at hNext

------------------------------------------------------------
-- Hits During A Send
------------------------------------------------------------

/- A hit during a send carries the time of that send. -/
theorem stamp_of_hit_during_send
    {box : Mailbox}
    {s : MailState}
    (hOk : MailOk box s)
    {wait : Wait}
    (hTag :
      s.mail.tag =
        mailboxTag wait.step (box.runId s.receiver.launch))
    {own : Send}
    (hFlight : s.sender.inFlight = some own) :
    s.mail.time = own.stamp ∧
      ¬ own.IsOf s.receiver.launch wait.step := by
  have hHolds := hOk.holds
  unfold MailHolds at hHolds
  rw [hFlight] at hHolds
  rcases hHolds with ⟨hOwn, hCleared | ⟨hTime, hSlot⟩⟩
  · rw [hCleared] at hTag
    exact absurd hTag.symm (mailboxTag_ne_zero _ _)
  · refine ⟨hTime, ?_⟩
    intro hSame
    rcases hSlot with hZero | ⟨send, hMem, hNe, hTagOf⟩
    · rw [hZero] at hTag
      exact absurd hTag.symm (mailboxTag_ne_zero _ _)
    · have hIsOf :=
        hOk.isOf_of_tag hMem hOk.receiverLaunch
          (hTagOf.symm.trans hTag)
      apply hNe
      exact Keyed.eq_of_key hOk.distinct hMem hOwn
        ((Send.isOf_iff.mp hIsOf).trans
          (Send.isOf_iff.mp hSame).symm)

/- The rest of the hook saves what the poll has hit. -/
theorem run_hit
    {box : Mailbox}
    {s : MailState}
    {wait : Wait}
    (hPhase : s.receiver.phase = .polling wait)
    (hTag :
      s.mail.tag =
        mailboxTag wait.step (box.runId s.receiver.launch))
    (offset : BitVec 64) :
    (mailMachine box).run s [.poll offset, .clear, .save] =
      some
        { s with
          mail := Mail.cleared
          receiver :=
            { s.receiver with
              phase := .idle
              saved :=
                s.receiver.saved ++
                  [⟨s.receiver.launch,
                    box.hitOf wait s.mail offset,
                    s.mail.time⟩] } } := by
  simp only [Machine.run, Machine.runWhile, if_true,
    mailMachine, Mailbox.step, hPhase, if_pos hTag,
    Option.bind_some]

/-
  In every run without a valid hit during a send, every
  valid record carries the timestamp of its own send; and
  after every such hit the hook saves one that does not.
-/
theorem records_own_timestamp
    (box : Mailbox) :
    (∀ s, (mailMachine box).Reach (NoHitDuringSend box) s →
      RecordsOwn s) ∧
    ∀ s offset, (mailMachine box).Reachable s →
      ¬ NoHitDuringSend box s (.poll offset) →
        ∃ s',
          (mailMachine box).run s
              [.poll offset, .clear, .save] = some s' ∧
            ¬ RecordsOwn s' := by
  refine ⟨?_, ?_⟩
  · intro s hReach
    have hOwn : PhaseOwn s := by
      apply hReach.invariant_of (MailOk box) PhaseOwn
      · exact fun _ hBefore =>
          mailOk_of_reachable hBefore.reachable
      · intro s hInit
        have hStart : s = MailState.start := hInit
        rw [hStart]
        refine ⟨?_, ?_⟩
        · intro hit time hPhase
          simp [MailState.start] at hPhase
        · exact fun _ hMem => absurd hMem List.not_mem_nil
      · intro s a s' hOk hPhase hGuard hStep
        exact hPhase.step hOk hGuard (mailStep_of_step hStep)
    exact hOwn.records
  · intro s offset hReach hHit
    simp only [NoHitDuringSend, not_forall] at hHit
    rcases hHit with
      ⟨_, wait, hPoll, hPhase, hTag, hTest, hBusy⟩
    cases hPoll
    have hOk := mailOk_of_reachable hReach
    rcases Option.ne_none_iff_exists'.mp hBusy with
      ⟨own, hFlight⟩
    rcases stamp_of_hit_during_send hOk hTag hFlight with
      ⟨hTime, hOther⟩
    refine ⟨_, run_hit hPhase hTag offset, ?_⟩
    intro hOwn
    have hBounds := box.slot.bounds
    have hSaved :=
      hOwn ⟨s.receiver.launch, box.hitOf wait s.mail offset,
        s.mail.time⟩
        (List.mem_append_right _ (List.mem_singleton_self _))
        (Hit.isValid_of_invalidHit hBounds.1 hBounds.2 hTest)
    rcases hSaved with ⟨send, _, hIsOf, hStamp, _⟩
    have hSame : send = own := by
      have hSources :=
        congrArg Traced.sources (hStamp.symm.trans hTime)
      simpa [Send.stamp] using hSources
    rw [hSame] at hIsOf
    exact hOther hIsOf

------------------------------------------------------------
-- Runs Of One Slot
------------------------------------------------------------

/- A slot from rank 1 to rank 0, over one launch. -/
def oneLaunch : Mailbox where
  slot :=
    { numDevices := 2
      receiver := 0
      source := 1
      vblock := 3
      world_le := by decide
      recvRuns := by decide
      sendRuns := by decide }
  launches := 1
  runId := fun _ => 7
  launches_pos := by decide
  distinct := by
    intro i hi j hj _
    omega

/- The receiver misses twice before the sender publishes. -/
def wholePublish : List MailAction :=
  [.recvStart 1 500, .poll 0, .poll 0,
    .sendTime 1 600 0, .sendTag, .poll 0, .clear, .save]

/- Its valid record carries its own timestamp. -/
theorem records_own_timestamp_wholePublish :
    ∃ s rec,
      (mailMachine oneLaunch).Reach (NoHitDuringSend oneLaunch)
          s ∧
        rec ∈ s.receiver.saved ∧
          OwnStamp s.sender.sent rec.launch rec.hit
            rec.time := by
  have hRun :
      ((mailMachine oneLaunch).runWhile
        (fun s a =>
          match a with
          | .poll _ => s.sender.inFlight.isNone
          | _ => true)
        MailState.start wholePublish).any
        (fun s => s.receiver.saved.any
          (fun rec => decide rec.hit.IsValid)) = true := by
    decide +kernel
  rcases (Option.any_eq_true _ _).mp hRun with
    ⟨s, hSome, hAny⟩
  rcases List.any_eq_true.mp hAny with ⟨rec, hMem, hTest⟩
  have hReach :
      (mailMachine oneLaunch).Reach (NoHitDuringSend oneLaunch)
        s := by
    refine Machine.reach_of_runWhile ?_
      (Machine.Reach.init rfl) hSome
    rintro s a hCheck offset wait rfl _ _ _
    exact Option.isNone_iff_eq_none.mp hCheck
  exact ⟨s, rec, hReach, hMem,
    (records_own_timestamp oneLaunch).1 s hReach rec hMem
      (of_decide_eq_true hTest)⟩

/-
  The receiver misses twice; then the sender finishes step 1
  and stores the time word of step 2 before the next poll.
-/
def tornPublish : List MailAction :=
  [.recvStart 1 500, .poll 0, .poll 0,
    .sendTime 1 600 0, .sendTag, .sendTime 2 700 0,
    .poll 0, .clear, .save]

/- A valid record can carry the timestamp of another step. -/
theorem not_records_own_timestamp :
    ¬ ∀ (box : Mailbox) (s : MailState),
      (mailMachine box).Reachable s → RecordsOwn s := by
  intro hAll
  have hRun :
      ((mailMachine oneLaunch).run MailState.start
        tornPublish).any
        (fun s => s.receiver.saved.any
          (fun rec =>
            decide rec.hit.IsValid &&
              rec.time == Send.stamp ⟨0, 2, 700⟩ &&
              rec.hit.step == 1)) = true := by
    decide +kernel
  rcases (Option.any_eq_true _ _).mp hRun with
    ⟨s, hSome, hAny⟩
  rcases List.any_eq_true.mp hAny with ⟨rec, hMem, hTest⟩
  simp only [Bool.and_eq_true, decide_eq_true_eq,
    beq_iff_eq] at hTest
  rcases hTest with ⟨⟨hValid, hTime⟩, hStep⟩
  have hReach : (mailMachine oneLaunch).Reachable s :=
    Machine.reachable_of_run (Machine.Reach.init rfl) hSome
  rcases hAll oneLaunch s hReach rec hMem hValid with
    ⟨send, _, hIsOf, hStamp, _⟩
  have hSame : send = ⟨0, 2, 700⟩ := by
    have hSources :=
      congrArg Traced.sources (hStamp.symm.trans hTime)
    simpa [Send.stamp] using hSources
  rw [hSame, hStep] at hIsOf
  exact absurd hIsOf.2 (by decide)

end Latency

end FabricPerf
