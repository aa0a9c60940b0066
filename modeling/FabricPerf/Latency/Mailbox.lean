import FabricPerf.Latency.Hooks
import FabricPerf.Lib.Keyed
import FabricPerf.Lib.Traced
import FabricPerf.Lib.Transition

/-
  One mailbox slot of the latency probe, its sender and its
  single receiver thread.

  The sender publishes with two stores, the time word and
  then the tag word; the receiver polls both words at once,
  clears both at once and saves a record.  The time word
  remembers the send it was stored by.

  Main declarations:
    * `Latency.mailMachine`
    * `Latency.MailStep`
    * `Latency.MailOk`
    * `Latency.mailOk_of_reachable`
-/

------------------------------------------------------------
-- States
------------------------------------------------------------

namespace FabricPerf

namespace Latency

/- One execution of the send hook. -/
structure Send where
  launch : Nat
  step : BitVec 64
  published : BitVec 64
deriving DecidableEq, Repr

/- A time word and the send that stored it. -/
abbrev Stamp := Traced Send 64

/- The time word a send stores. -/
def Send.stamp (send : Send) : Stamp :=
  Traced.read send send.published

/- The slot: its tag word and its time word. -/
structure Mail where
  tag : BitVec 64
  time : Stamp
deriving DecidableEq, Repr

/- The slot after the receiver's clearing store. -/
def Mail.cleared : Mail where
  tag := 0
  time := Traced.const 0

/-
  The sender.  `inFlight` is the send whose time word is
  stored and whose tag word is not; `sent` (history) lists
  all sends.
-/
structure Sender where
  launch : Nat
  inFlight : Option Send
  sent : List Send
deriving DecidableEq, Repr

/- A receive hook that polls for its message. -/
structure Wait where
  step : BitVec 64
  localTime : BitVec 64
  misses : Nat
deriving DecidableEq, Repr

/- What the receive hook of the slot is doing. -/
inductive RecvPhase where
| idle
| polling (wait : Wait)
| hit (hit : Hit) (time : Stamp)
| cleared (hit : Hit) (time : Stamp)
deriving DecidableEq, Repr

/- A saved record, its launch and the time word it used. -/
structure Saved where
  launch : Nat
  hit : Hit
  time : Stamp
deriving DecidableEq, Repr

/- The receiver. -/
structure Receiver where
  launch : Nat
  phase : RecvPhase
  saved : List Saved
deriving DecidableEq, Repr

/- The slot and both sides. -/
structure MailState where
  mail : Mail
  sender : Sender
  receiver : Receiver
deriving DecidableEq, Repr

/- The state before the first launch: the slot is cleared. -/
def MailState.start : MailState where
  mail := Mail.cleared
  sender := { launch := 0, inFlight := none, sent := [] }
  receiver := { launch := 0, phase := .idle, saved := [] }

------------------------------------------------------------
-- Actions
------------------------------------------------------------

/-
  A slot used by a number of launches, each with its own run
  id modulo 2^24.
-/
structure Mailbox where
  slot : MailboxSlot
  launches : Nat
  runId : Nat → BitVec 32
  launches_pos : 0 < launches
  distinct :
    ∀ i < launches, ∀ j < launches,
      (runId i).toNat % 2 ^ 24 = (runId j).toNat % 2 ^ 24 →
        i = j

/- The stores, polls and clears of the two hooks. -/
inductive MailAction where
| sendTime (step clock offset : BitVec 64)
| sendTag
| nextSenderLaunch
| recvStart (step localTime : BitVec 64)
| poll (offset : BitVec 64)
| clear
| save
| nextReceiverLaunch
deriving DecidableEq, Repr

/- The send is the one of the given launch and step. -/
def Send.IsOf
    (send : Send)
    (launch : Nat)
    (step : BitVec 64) : Prop :=
  send.launch = launch ∧
    send.step.toNat % 2 ^ 32 = step.toNat % 2 ^ 32

instance
    (send : Send)
    (launch : Nat)
    (step : BitVec 64) :
    Decidable (send.IsOf launch step) :=
  inferInstanceAs (Decidable (_ ∧ _))

namespace Mailbox

/- The tag word a send stores. -/
def tagOf (box : Mailbox) (send : Send) : BitVec 64 :=
  mailboxTag send.step (box.runId send.launch)

/- What a receive hook knows when its poll hits. -/
def hitOf
    (box : Mailbox)
    (wait : Wait)
    (mail : Mail)
    (offset : BitVec 64) : Hit where
  source := box.slot.source
  vblock := box.slot.vblock
  step := wait.step
  tag := mail.tag
  time := mail.time.val
  misses := wait.misses
  offset := offset
  localTime := wait.localTime

/-
  One action.  Steps of one launch are distinct modulo 2^32,
  so a step that was sent is not sent again.
-/
def step (box : Mailbox) (s : MailState) :
    MailAction → Option MailState
| .sendTime step clock offset =>
    if s.sender.inFlight = none ∧
        ∀ send ∈ s.sender.sent,
          ¬ send.IsOf s.sender.launch step then
      let send : Send :=
        { launch := s.sender.launch
          step := step
          published := publishedTime clock offset }
      some
        { s with
          mail := { s.mail with time := send.stamp }
          sender :=
            { s.sender with
              inFlight := some send
              sent := s.sender.sent ++ [send] } }
    else
      none
| .sendTag =>
    match s.sender.inFlight with
    | some send =>
        some
          { s with
            mail := { s.mail with tag := box.tagOf send }
            sender := { s.sender with inFlight := none } }
    | none => none
| .nextSenderLaunch =>
    if s.sender.inFlight = none ∧
        s.sender.launch + 1 < box.launches then
      some
        { s with
          sender :=
            { s.sender with launch := s.sender.launch + 1 } }
    else
      none
| .recvStart step localTime =>
    match s.receiver.phase with
    | .idle =>
        some
          { s with
            receiver :=
              { s.receiver with
                phase :=
                  .polling
                    { step := step
                      localTime := localTime
                      misses := 0 } } }
    | _ => none
| .poll offset =>
    match s.receiver.phase with
    | .polling wait =>
        let phase : RecvPhase :=
          if s.mail.tag =
              mailboxTag wait.step
                (box.runId s.receiver.launch) then
            .hit (box.hitOf wait s.mail offset) s.mail.time
          else if wait.misses + 1 < pollBound then
            .polling { wait with misses := wait.misses + 1 }
          else
            .idle
        some
          { s with
            receiver := { s.receiver with phase := phase } }
    | _ => none
| .clear =>
    match s.receiver.phase with
    | .hit hit time =>
        some
          { s with
            mail := Mail.cleared
            receiver :=
              { s.receiver with phase := .cleared hit time } }
    | _ => none
| .save =>
    match s.receiver.phase with
    | .cleared hit time =>
        some
          { s with
            receiver :=
              { s.receiver with
                phase := .idle
                saved :=
                  s.receiver.saved ++
                    [{ launch := s.receiver.launch
                       hit := hit
                       time := time }] } }
    | _ => none
| .nextReceiverLaunch =>
    if s.receiver.phase = .idle ∧
        s.receiver.launch + 1 < box.launches then
      some
        { s with
          receiver :=
            { s.receiver with
              launch := s.receiver.launch + 1 } }
    else
      none

end Mailbox

/- The slot over any number of steps and launches. -/
def mailMachine (box : Mailbox) :
    Machine MailState MailAction where
  init := fun s => s = MailState.start
  step := box.step

------------------------------------------------------------
-- What A Step Does
------------------------------------------------------------

/- The ways an action can change the slot and its users. -/
inductive MailStep
    (box : Mailbox)
    (s : MailState) : MailAction → MailState → Prop where
| sendTime
    (step clock offset : BitVec 64)
    (send : Send)
    (hSend :
      send =
        ⟨s.sender.launch, step, publishedTime clock offset⟩)
    (hIdle : s.sender.inFlight = none)
    (hNew :
      ∀ other ∈ s.sender.sent,
        ¬ other.IsOf send.launch send.step) :
    MailStep box s (.sendTime step clock offset)
      { s with
        mail := { s.mail with time := send.stamp }
        sender :=
          { s.sender with
            inFlight := some send
            sent := s.sender.sent ++ [send] } }
| sendTag
    (send : Send)
    (hFlight : s.sender.inFlight = some send) :
    MailStep box s .sendTag
      { s with
        mail := { s.mail with tag := box.tagOf send }
        sender := { s.sender with inFlight := none } }
| nextSenderLaunch
    (hIdle : s.sender.inFlight = none)
    (hLaunch : s.sender.launch + 1 < box.launches) :
    MailStep box s .nextSenderLaunch
      { s with
        sender :=
          { s.sender with launch := s.sender.launch + 1 } }
| recvStart
    (step localTime : BitVec 64)
    (hPhase : s.receiver.phase = .idle) :
    MailStep box s (.recvStart step localTime)
      { s with
        receiver :=
          { s.receiver with
            phase := .polling ⟨step, localTime, 0⟩ } }
| hit
    (offset : BitVec 64)
    (wait : Wait)
    (hPhase : s.receiver.phase = .polling wait)
    (hTag :
      s.mail.tag =
        mailboxTag wait.step (box.runId s.receiver.launch)) :
    MailStep box s (.poll offset)
      { s with
        receiver :=
          { s.receiver with
            phase :=
              .hit (box.hitOf wait s.mail offset)
                s.mail.time } }
| miss
    (offset : BitVec 64)
    (wait : Wait)
    (hPhase : s.receiver.phase = .polling wait)
    (hTag :
      s.mail.tag ≠
        mailboxTag wait.step (box.runId s.receiver.launch))
    (hBound : wait.misses + 1 < pollBound) :
    MailStep box s (.poll offset)
      { s with
        receiver :=
          { s.receiver with
            phase :=
              .polling
                { wait with misses := wait.misses + 1 } } }
| giveUp
    (offset : BitVec 64)
    (wait : Wait)
    (hPhase : s.receiver.phase = .polling wait)
    (hTag :
      s.mail.tag ≠
        mailboxTag wait.step (box.runId s.receiver.launch)) :
    MailStep box s (.poll offset)
      { s with receiver := { s.receiver with phase := .idle } }
| clear
    (hit : Hit)
    (time : Stamp)
    (hPhase : s.receiver.phase = .hit hit time) :
    MailStep box s .clear
      { s with
        mail := Mail.cleared
        receiver :=
          { s.receiver with phase := .cleared hit time } }
| save
    (hit : Hit)
    (time : Stamp)
    (hPhase : s.receiver.phase = .cleared hit time) :
    MailStep box s .save
      { s with
        receiver :=
          { s.receiver with
            phase := .idle
            saved :=
              s.receiver.saved ++
                [⟨s.receiver.launch, hit, time⟩] } }
| nextReceiverLaunch
    (hPhase : s.receiver.phase = .idle)
    (hLaunch : s.receiver.launch + 1 < box.launches) :
    MailStep box s .nextReceiverLaunch
      { s with
        receiver :=
          { s.receiver with
            launch := s.receiver.launch + 1 } }

/- Every step of the machine is one of the listed ones. -/
theorem mailStep_of_step
    {box : Mailbox}
    {s s' : MailState}
    {a : MailAction}
    (hStep : (mailMachine box).step s a = some s') :
    MailStep box s a s' := by
  simp only [mailMachine] at hStep
  cases a with
  | sendTime step clock offset =>
      simp only [Mailbox.step, Option.ite_none_right_eq_some,
        Option.some.injEq] at hStep
      rcases hStep with ⟨⟨hIdle, hNew⟩, hEq⟩
      rw [← hEq]
      exact MailStep.sendTime step clock offset _ rfl hIdle
        hNew
  | sendTag =>
      simp only [Mailbox.step] at hStep
      split at hStep
      · rename_i send hFlight
        rw [← Option.some.inj hStep]
        exact MailStep.sendTag send hFlight
      · cases hStep
  | nextSenderLaunch =>
      simp only [Mailbox.step, Option.ite_none_right_eq_some,
        Option.some.injEq] at hStep
      rcases hStep with ⟨⟨hIdle, hLaunch⟩, hEq⟩
      rw [← hEq]
      exact MailStep.nextSenderLaunch hIdle hLaunch
  | recvStart step localTime =>
      simp only [Mailbox.step] at hStep
      split at hStep
      · rename_i hPhase
        rw [← Option.some.inj hStep]
        exact MailStep.recvStart step localTime hPhase
      · cases hStep
  | poll offset =>
      simp only [Mailbox.step] at hStep
      split at hStep
      · rename_i wait hPhase
        rw [← Option.some.inj hStep]
        by_cases hTag :
            s.mail.tag =
              mailboxTag wait.step
                (box.runId s.receiver.launch)
        · rw [if_pos hTag]
          exact MailStep.hit offset wait hPhase hTag
        · rw [if_neg hTag]
          by_cases hBound : wait.misses + 1 < pollBound
          · rw [if_pos hBound]
            exact MailStep.miss offset wait hPhase hTag hBound
          · rw [if_neg hBound]
            exact MailStep.giveUp offset wait hPhase hTag
      · cases hStep
  | clear =>
      simp only [Mailbox.step] at hStep
      split at hStep
      · rename_i hit time hPhase
        rw [← Option.some.inj hStep]
        exact MailStep.clear hit time hPhase
      · cases hStep
  | save =>
      simp only [Mailbox.step] at hStep
      split at hStep
      · rename_i hit time hPhase
        rw [← Option.some.inj hStep]
        exact MailStep.save hit time hPhase
      · cases hStep
  | nextReceiverLaunch =>
      simp only [Mailbox.step, Option.ite_none_right_eq_some,
        Option.some.injEq] at hStep
      rcases hStep with ⟨⟨hPhase, hLaunch⟩, hEq⟩
      rw [← hEq]
      exact MailStep.nextReceiverLaunch hPhase hLaunch

------------------------------------------------------------
-- Sends And The Slot
------------------------------------------------------------

/- The launch and step of a send, as far as tags show it. -/
def Send.key (send : Send) : Nat × Nat :=
  (send.launch, send.step.toNat % 2 ^ 32)

/- A send of a launch and step has their key. -/
theorem Send.isOf_iff
    {send : Send}
    {launch : Nat}
    {step : BitVec 64} :
    send.IsOf launch step ↔
      send.key = (launch, step.toNat % 2 ^ 32) := by
  unfold Send.IsOf Send.key
  rw [Prod.mk.injEq]

/-
  What the slot holds.  Between sends: nothing, or the tag
  of a send with its own time word, which may have been
  cleared.  During a send: nothing, or its time word beside
  no tag or the tag of another send.
-/
def MailHolds
    (box : Mailbox)
    (mail : Mail)
    (sender : Sender) : Prop :=
  match sender.inFlight with
  | none =>
      mail = Mail.cleared ∨
        ∃ send ∈ sender.sent,
          mail.tag = box.tagOf send ∧
            (mail.time = send.stamp ∨
              mail.time = Traced.const 0)
  | some own =>
      own ∈ sender.sent ∧
        (mail = Mail.cleared ∨
          (mail.time = own.stamp ∧
            (mail.tag = 0 ∨
              ∃ send ∈ sender.sent,
                send ≠ own ∧ mail.tag = box.tagOf send)))

/- What holds of the slot and its users in every run. -/
structure MailOk (box : Mailbox) (s : MailState) : Prop where
  senderLaunch : s.sender.launch < box.launches
  receiverLaunch : s.receiver.launch < box.launches
  sentLaunch :
    ∀ send ∈ s.sender.sent, send.launch ≤ s.sender.launch
  distinct : (s.sender.sent.map Send.key).Nodup
  holds : MailHolds box s.mail s.sender

namespace MailOk

variable {box : Mailbox} {s s' : MailState} {a : MailAction}

/- Before the first launch nothing is sent. -/
theorem start : MailOk box MailState.start where
  senderLaunch := box.launches_pos
  receiverLaunch := box.launches_pos
  sentLaunch := fun _ hMem => absurd hMem List.not_mem_nil
  distinct := List.nodup_nil
  holds := Or.inl rfl

/- The tag of a launch and step is that of their send only. -/
theorem isOf_of_tag
    (hOk : MailOk box s)
    {send : Send}
    (hMem : send ∈ s.sender.sent)
    {launch : Nat}
    {step : BitVec 64}
    (hLaunch : launch < box.launches)
    (hTag :
      box.tagOf send = mailboxTag step (box.runId launch)) :
    send.IsOf launch step := by
  rcases mailboxTag_eq_iff.mp hTag with ⟨hStep, hRun⟩
  have hSent := hOk.sentLaunch send hMem
  have hSender := hOk.senderLaunch
  exact ⟨box.distinct _ (by omega) _ hLaunch hRun, hStep⟩

/- A clearing store keeps the slot in order. -/
theorem holds_cleared
    {sender : Sender}
    (hHolds : MailHolds box s.mail sender) :
    MailHolds box Mail.cleared sender := by
  unfold MailHolds at hHolds ⊢
  split at hHolds
  · exact Or.inl rfl
  · exact ⟨hHolds.1, Or.inl rfl⟩

/- A time store begins a send. -/
theorem holds_sendTime
    (hHolds : MailHolds box s.mail s.sender)
    (hIdle : s.sender.inFlight = none)
    {send : Send}
    (hNew : send ∉ s.sender.sent) :
    MailHolds box { s.mail with time := send.stamp }
      { s.sender with
        inFlight := some send
        sent := s.sender.sent ++ [send] } := by
  unfold MailHolds at hHolds
  rw [hIdle] at hHolds
  refine ⟨List.mem_append_right _ (List.mem_singleton_self _),
    Or.inr ⟨rfl, ?_⟩⟩
  rcases hHolds with hCleared | ⟨other, hMem, hTag, _⟩
  · left
    rw [hCleared]
    rfl
  · right
    refine ⟨other, List.mem_append_left _ hMem, ?_, hTag⟩
    rintro rfl
    exact hNew hMem

/- A tag store ends a send. -/
theorem holds_sendTag
    (hHolds : MailHolds box s.mail s.sender)
    {send : Send}
    (hFlight : s.sender.inFlight = some send) :
    MailHolds box { s.mail with tag := box.tagOf send }
      { s.sender with inFlight := none } := by
  unfold MailHolds at hHolds
  rw [hFlight] at hHolds
  rcases hHolds with ⟨hMem, hSlot⟩
  refine Or.inr ⟨send, hMem, rfl, ?_⟩
  rcases hSlot with hCleared | ⟨hTime, _⟩
  · right
    rw [hCleared]
    rfl
  · exact Or.inl hTime

/- Every step keeps the slot and the sends in order. -/
theorem step
    (hOk : MailOk box s)
    (hStep : MailStep box s a s') :
    MailOk box s' := by
  cases hStep with
  | sendTime step clock offset send hSend hIdle hNew =>
      have hLaunch : send.launch = s.sender.launch := by
        rw [hSend]
      have hFresh : send ∉ s.sender.sent :=
        fun hMem => hNew send hMem ⟨rfl, rfl⟩
      exact
        { senderLaunch := hOk.senderLaunch
          receiverLaunch := hOk.receiverLaunch
          sentLaunch := by
            intro other hMem
            rcases List.mem_append.mp hMem with hOld | hLast
            · exact hOk.sentLaunch other hOld
            · rw [List.mem_singleton.mp hLast]
              exact Nat.le_of_eq hLaunch
          distinct := by
            simp only [List.map_append, List.map_cons,
              List.map_nil]
            apply List.Nodup.append hOk.distinct
              (List.nodup_singleton _)
            intro key hOld hLast
            rcases List.mem_map.mp hOld with
              ⟨other, hMem, hKey⟩
            rw [List.mem_singleton.mp hLast] at hKey
            exact hNew other hMem (Send.isOf_iff.mpr hKey)
          holds := holds_sendTime hOk.holds hIdle hFresh }
  | sendTag send hFlight =>
      exact
        { senderLaunch := hOk.senderLaunch
          receiverLaunch := hOk.receiverLaunch
          sentLaunch := hOk.sentLaunch
          distinct := hOk.distinct
          holds := holds_sendTag hOk.holds hFlight }
  | nextSenderLaunch hIdle hLaunch =>
      exact
        { senderLaunch := hLaunch
          receiverLaunch := hOk.receiverLaunch
          sentLaunch := fun send hMem =>
            Nat.le_succ_of_le (hOk.sentLaunch send hMem)
          distinct := hOk.distinct
          holds := hOk.holds }
  | nextReceiverLaunch hPhase hLaunch =>
      exact
        { senderLaunch := hOk.senderLaunch
          receiverLaunch := hLaunch
          sentLaunch := hOk.sentLaunch
          distinct := hOk.distinct
          holds := hOk.holds }
  | clear hit time hPhase =>
      exact
        { senderLaunch := hOk.senderLaunch
          receiverLaunch := hOk.receiverLaunch
          sentLaunch := hOk.sentLaunch
          distinct := hOk.distinct
          holds := holds_cleared hOk.holds }
  | _ =>
      exact
        { senderLaunch := hOk.senderLaunch
          receiverLaunch := hOk.receiverLaunch
          sentLaunch := hOk.sentLaunch
          distinct := hOk.distinct
          holds := hOk.holds }

end MailOk

/- Every reachable state has its slot and sends in order. -/
theorem mailOk_of_reachable
    {box : Mailbox}
    {s : MailState}
    (hReach : (mailMachine box).Reachable s) :
    MailOk box s := by
  apply hReach.invariant (MailOk box)
  · intro s hInit
    have hStart : s = MailState.start := hInit
    rw [hStart]
    exact MailOk.start
  · intro s a s' hOk _ hStep
    exact hOk.step (mailStep_of_step hStep)

end Latency

end FabricPerf
