import FabricPerf.Latency.Consume

/-
  All mailbox slots of a world, in the mailbox buffers of its
  ranks.

  A send hook stores at the address it computes, a receive
  hook polls and clears at its own, and every rank keeps the
  rows that its receive hooks have saved, in order.  Seen
  from one slot the world is the machine of that slot, so
  that what holds of single slots holds side by side.

  Main declarations:
    * `Latency.mailWorldMachine`
    * `Latency.reachable_view`
    * `Latency.SlotHits`, `Latency.RowsKept`
-/

------------------------------------------------------------
-- States
------------------------------------------------------------

namespace FabricPerf

namespace Latency

deriving instance DecidableEq for MailboxSlot

/-
  A world and its launches, each with its own run id modulo
  2^24.
-/
structure MailWorld where
  numDevices : BitVec 32
  launches : Nat
  runId : Nat → BitVec 32
  launches_pos : 0 < launches
  distinct :
    ∀ i < launches, ∀ j < launches,
      (runId i).toNat % 2 ^ 24 = (runId j).toNat % 2 ^ 24 →
        i = j

/- One slot of a world over all launches. -/
def MailWorld.box
    (world : MailWorld)
    (slot : MailboxSlot) : Mailbox where
  slot := slot
  launches := world.launches
  runId := world.runId
  launches_pos := world.launches_pos
  distinct := world.distinct

/- A row that a receive hook has saved, and its slot. -/
abbrev SlotTaken := MailboxSlot × Taken

/-
  The mailbox buffers, the two sides of every slot, and the
  rows that each rank has saved.
-/
structure MailWorldState where
  mail : MailboxAddr → PostedMail
  sender : MailboxSlot → Poster
  receiver : MailboxSlot → Taker
  rows : BitVec 32 → List SlotTaken

/- Cleared buffers before the first launch. -/
def MailWorldState.start : MailWorldState where
  mail := fun _ => PostedMail.cleared
  sender := fun _ => PostState.start.sender
  receiver := fun _ => PostState.start.receiver
  rows := fun _ => []

/- One action of the hooks of a slot. -/
structure SlotAction where
  slot : MailboxSlot
  action : MailAction

------------------------------------------------------------
-- Steps
------------------------------------------------------------

/- The actions of the send hook. -/
def MailAction.isSend : MailAction → Bool
| .sendTime _ _ _ | .sendTag | .nextSenderLaunch => true
| .recvStart _ _ | .poll _ | .clear | .save
| .nextReceiverLaunch => false

/- The address that the hook of an action computes. -/
def SlotAction.addr (a : SlotAction) : MailboxAddr :=
  if a.action.isSend then
    sendAddr a.slot.source a.slot.receiver a.slot.vblock
  else
    recvAddr a.slot.receiver a.slot.source a.slot.vblock

/- What the hooks of a slot see through an address. -/
def MailWorldState.at
    (s : MailWorldState)
    (slot : MailboxSlot)
    (addr : MailboxAddr) : PostState where
  mail := s.mail addr
  sender := s.sender slot
  receiver := s.receiver slot

/- The rows that a step of a slot has saved. -/
def newRows
    (slot : MailboxSlot)
    (p p' : PostState) : List SlotTaken :=
  (p'.receiver.saved.drop p.receiver.saved.length).map
    (fun taken => (slot, taken))

/- The world after a step of a slot. -/
def MailWorldState.put
    (s : MailWorldState)
    (slot : MailboxSlot)
    (addr : MailboxAddr)
    (p' : PostState) : MailWorldState where
  mail := Function.update s.mail addr p'.mail
  sender := Function.update s.sender slot p'.sender
  receiver := Function.update s.receiver slot p'.receiver
  rows :=
    Function.update s.rows slot.receiver
      (s.rows slot.receiver ++
        newRows slot (s.at slot addr) p')

/- One action of the hooks of one slot of the world. -/
def MailWorld.step
    (world : MailWorld)
    (s : MailWorldState)
    (a : SlotAction) : Option MailWorldState :=
  if a.slot.numDevices = world.numDevices then
    ((world.box a.slot).postStep (s.at a.slot a.addr)
      a.action).map (s.put a.slot a.addr)
  else
    none

/- All slots of a world over any number of launches. -/
def mailWorldMachine (world : MailWorld) :
    Machine MailWorldState SlotAction where
  init := fun s => s = MailWorldState.start
  step := world.step

------------------------------------------------------------
-- One Slot Of The World
------------------------------------------------------------

/- The address of a slot. -/
def MailboxSlot.addr (slot : MailboxSlot) : MailboxAddr :=
  recvAddr slot.receiver slot.source slot.vblock

/- Both hooks of a slot compute its address. -/
theorem SlotAction.addr_slot (a : SlotAction) :
    a.addr = a.slot.addr := by
  unfold SlotAction.addr
  split
  · exact a.slot.addr_eq
  · rfl

/- Slots of one world at one address are the same. -/
theorem MailboxSlot.eq_of_addr
    {slot slot' : MailboxSlot}
    (hWorld : slot.numDevices = slot'.numDevices)
    (hAddr : slot.addr = slot'.addr) :
    slot = slot' := by
  rcases MailboxSlot.addr_injective hAddr with
    ⟨hReceiver, hSource, hVblock⟩
  rcases slot with ⟨devices, receiver, source, vblock, _, _, _⟩
  rcases slot' with
    ⟨devices', receiver', source', vblock', _, _, _⟩
  simp only at hWorld hReceiver hSource hVblock
  subst hWorld hReceiver hSource hVblock
  rfl

/- The world seen from a slot. -/
def MailWorldState.view
    (s : MailWorldState)
    (slot : MailboxSlot) : PostState :=
  s.at slot slot.addr

section Put

variable {s : MailWorldState} {slot other : MailboxSlot}
variable {p' : PostState}

/- A slot sees its own step. -/
theorem view_put_self :
    (s.put slot slot.addr p').view slot = p' := by
  simp [MailWorldState.view, MailWorldState.at,
    MailWorldState.put]

/- A slot sees no step of another slot of its world. -/
theorem view_put_of_ne
    (hWorld : other.numDevices = slot.numDevices)
    (hNe : other ≠ slot) :
    (s.put slot slot.addr p').view other = s.view other := by
  have hAddr : other.addr ≠ slot.addr :=
    fun hSame => hNe (MailboxSlot.eq_of_addr hWorld hSame)
  simp [MailWorldState.view, MailWorldState.at,
    MailWorldState.put, hAddr, hNe]

end Put

/- What a step of the world is. -/
theorem MailWorld.step_eq_some
    {world : MailWorld}
    {s s' : MailWorldState}
    {a : SlotAction}
    (hStep : world.step s a = some s') :
    a.slot.numDevices = world.numDevices ∧
      ∃ p',
        (world.box a.slot).postStep (s.view a.slot) a.action =
            some p' ∧
          s' = s.put a.slot a.slot.addr p' := by
  simp only [MailWorld.step, Option.ite_none_right_eq_some,
    Option.map_eq_some_iff, a.addr_slot] at hStep
  rcases hStep with ⟨hWorld, p', hPost, hPut⟩
  exact ⟨hWorld, p', hPost, hPut.symm⟩

/- Seen from a slot of the world, runs are runs of the slot. -/
theorem reachable_view
    {world : MailWorld}
    {s : MailWorldState}
    (hReach : (mailWorldMachine world).Reachable s)
    {slot : MailboxSlot}
    (hWorld : slot.numDevices = world.numDevices) :
    (postMachine (world.box slot)).Reachable (s.view slot) := by
  refine Machine.Reach.project (fun s => s.view slot) ?_ ?_
    hReach
  · intro s hInit
    have hStart : s = MailWorldState.start := hInit
    rw [hStart]
    rfl
  · intro s a s' _ hStep
    rcases MailWorld.step_eq_some hStep with
      ⟨hDevices, p', hPost, rfl⟩
    by_cases hSame : slot = a.slot
    · right
      subst hSame
      refine ⟨a.action, trivial, ?_⟩
      rw [view_put_self]
      exact hPost
    · left
      exact view_put_of_ne (hWorld.trans hDevices.symm) hSame

------------------------------------------------------------
-- The Hits Of A Slot
------------------------------------------------------------

/- A hit of the hook of a slot. -/
def Hit.Of (hit : Hit) (slot : MailboxSlot) : Prop :=
  hit.source = slot.source ∧ hit.vblock = slot.vblock

/- The hit in progress, if there is one. -/
def TakePhase.hit? : TakePhase → Option Hit
| .hit known _ | .cleared known _ => some known
| .idle | .polling _ => none

/-
  A hit of the hook of a slot in a launch: it saw the tag of
  its own step before the poll bound was reached.
-/
def Hit.Seen
    (hit : Hit)
    (box : Mailbox)
    (launch : Nat) : Prop :=
  hit.Of box.slot ∧
    hit.tag = mailboxTag hit.step (box.runId launch) ∧
    hit.misses < pollBound

/- All hits of a slot are like that. -/
structure SlotHits (box : Mailbox) (s : PostState) : Prop where
  waiting :
    ∀ wait, s.receiver.phase = .polling wait →
      wait.misses < pollBound
  phase :
    ∀ hit, s.receiver.phase.hit? = some hit →
      hit.Seen box s.receiver.launch
  saved :
    ∀ taken ∈ s.receiver.saved,
      taken.hit.Seen box taken.launch

/- Every step keeps them. -/
theorem slotHits_step
    {box : Mailbox}
    {s s' : PostState}
    {a : MailAction}
    (hHits : SlotHits box s)
    (hStep : box.postStep s a = some s') :
    SlotHits box s' := by
  cases a with
  | sendTime step clock offset =>
      simp only [Mailbox.postStep] at hStep
      split at hStep
      · cases hStep
        exact ⟨hHits.waiting, hHits.phase, hHits.saved⟩
      · cases hStep
  | sendTag =>
      simp only [Mailbox.postStep] at hStep
      split at hStep
      · cases hStep
        exact ⟨hHits.waiting, hHits.phase, hHits.saved⟩
      · cases hStep
  | nextSenderLaunch =>
      simp only [Mailbox.postStep, Option.ite_none_right_eq_some,
        Option.some.injEq] at hStep
      rw [← hStep.2]
      exact ⟨hHits.waiting, hHits.phase, hHits.saved⟩
  | recvStart step localTime =>
      simp only [Mailbox.postStep] at hStep
      split at hStep
      · cases hStep
        refine ⟨?_, ?_, hHits.saved⟩
        · intro wait hPhase
          cases hPhase
          exact Nat.two_pow_pos 20
        · intro hit hHit
          cases hHit
      · cases hStep
  | poll offset =>
      simp only [Mailbox.postStep] at hStep
      split at hStep
      · next wait hPhase =>
          cases hStep
          have hWait := hHits.waiting wait hPhase
          refine ⟨?_, ?_, hHits.saved⟩
          · intro next hNext
            dsimp only at hNext
            split at hNext
            · cases hNext
            · split at hNext
              · next hBound =>
                  cases hNext
                  exact hBound
              · cases hNext
          · intro hit hHit
            dsimp only at hHit
            split at hHit
            · next hTag =>
                cases hHit
                exact ⟨⟨rfl, rfl⟩, hTag, hWait⟩
            · split at hHit
              · cases hHit
              · cases hHit
      · cases hStep
  | clear =>
      simp only [Mailbox.postStep] at hStep
      split at hStep
      · next known mail hPhase =>
          cases hStep
          refine ⟨?_, ?_, hHits.saved⟩
          · intro wait hWait
            cases hWait
          · intro hit hHit
            apply hHits.phase
            rw [hPhase]
            exact hHit
      · cases hStep
  | save =>
      simp only [Mailbox.postStep] at hStep
      split at hStep
      · next known mail hPhase =>
          cases hStep
          refine ⟨?_, ?_, ?_⟩
          · intro wait hWait
            cases hWait
          · intro hit hHit
            cases hHit
          · intro taken hMem
            rcases List.mem_append.mp hMem with hOld | hNew
            · exact hHits.saved taken hOld
            · rw [List.mem_singleton.mp hNew]
              apply hHits.phase
              rw [hPhase]
              rfl
      · cases hStep
  | nextReceiverLaunch =>
      simp only [Mailbox.postStep, Option.ite_none_right_eq_some,
        Option.some.injEq] at hStep
      rcases hStep with ⟨⟨hPhase, _⟩, hNext⟩
      rw [← hNext]
      refine ⟨hHits.waiting, ?_, hHits.saved⟩
      intro hit hHit
      rw [hPhase] at hHit
      cases hHit

/- Hence every reachable state has them. -/
theorem slotHits_of_reachable
    {box : Mailbox}
    {s : PostState}
    (hReach : (postMachine box).Reachable s) :
    SlotHits box s := by
  apply hReach.invariant (SlotHits box)
  · intro s hInit
    have hStart : s = PostState.start := hInit
    rw [hStart]
    refine ⟨?_, ?_, ?_⟩
    · intro wait hPhase
      cases hPhase
    · intro hit hHit
      cases hHit
    · intro taken hMem
      cases hMem
  · intro s a s' hHits _ hStep
    exact slotHits_step hHits hStep

------------------------------------------------------------
-- The Rows Of A Rank
------------------------------------------------------------

/- A step keeps the records it finds. -/
theorem saved_grows
    {box : Mailbox}
    {p p' : PostState}
    {a : MailAction}
    (hStep : box.postStep p a = some p') :
    p.receiver.saved <+: p'.receiver.saved := by
  cases a <;>
    simp only [Mailbox.postStep] at hStep <;>
    split at hStep <;>
    cases hStep <;>
    first
    | exact List.prefix_rfl
    | exact List.prefix_append _ _

/-
  A rank has the records of the receive hooks of its slots,
  slot by slot in their order, and no others.
-/
structure RowsKept
    (world : MailWorld)
    (s : MailWorldState) : Prop where
  own :
    ∀ rank, ∀ row ∈ s.rows rank,
      row.1.receiver = rank ∧
        row.1.numDevices = world.numDevices
  all :
    ∀ slot : MailboxSlot,
      slot.numDevices = world.numDevices →
        (s.rows slot.receiver).filter
            (fun row => row.1 = slot) =
          (s.receiver slot).saved.map
            (fun taken => (slot, taken))

/- Every step keeps the rows of all ranks. -/
theorem rowsKept_step
    {world : MailWorld}
    {s s' : MailWorldState}
    {a : SlotAction}
    (hKept : RowsKept world s)
    (hStep : world.step s a = some s') :
    RowsKept world s' := by
  rcases MailWorld.step_eq_some hStep with
    ⟨hDevices, p', hPost, rfl⟩
  have hNew :
      ∀ row ∈ newRows a.slot (s.view a.slot) p',
        row.1 = a.slot := by
    intro row hMem
    rcases List.mem_map.mp hMem with ⟨taken, _, rfl⟩
    rfl
  constructor
  · intro rank row hMem
    by_cases hRank : rank = a.slot.receiver
    · subst hRank
      simp only [MailWorldState.put, Function.update_self]
        at hMem
      rcases List.mem_append.mp hMem with hOld | hLate
      · exact hKept.own _ row hOld
      · rw [hNew row hLate]
        exact ⟨rfl, hDevices⟩
    · simp only [MailWorldState.put,
        Function.update_of_ne hRank] at hMem
      exact hKept.own rank row hMem
  · intro slot hWorld
    by_cases hSame : slot = a.slot
    · subst hSame
      have hGrow :
          (s.receiver a.slot).saved ++
              p'.receiver.saved.drop
                (s.receiver a.slot).saved.length =
            p'.receiver.saved :=
        (List.prefix_append_drop (saved_grows hPost)).symm
      have hAll := hKept.all a.slot hWorld
      have hLate :
          (newRows a.slot (s.view a.slot) p').filter
              (fun row => row.1 = a.slot) =
            newRows a.slot (s.view a.slot) p' := by
        apply List.filter_eq_self.mpr
        intro row hMem
        exact decide_eq_true (hNew row hMem)
      simp only [MailWorldState.put, Function.update_self]
      change
        List.filter _
            (s.rows a.slot.receiver ++
              newRows a.slot (s.view a.slot) p') = _
      rw [List.filter_append, hAll, hLate, newRows,
        ← List.map_append]
      exact congrArg _ hGrow
    · have hLate :
          (newRows a.slot (s.view a.slot) p').filter
              (fun row => row.1 = slot) = [] := by
        apply List.filter_eq_nil_iff.mpr
        intro row hMem
        rw [hNew row hMem]
        simpa using Ne.symm hSame
      have hReceiver :
          Function.update s.receiver a.slot p'.receiver slot =
            s.receiver slot :=
        Function.update_of_ne hSame _ _
      simp only [MailWorldState.put, hReceiver]
      by_cases hRank : slot.receiver = a.slot.receiver
      · rw [hRank, Function.update_self]
        change
          List.filter _
              (s.rows a.slot.receiver ++
                newRows a.slot (s.view a.slot) p') = _
        rw [List.filter_append, hLate, List.append_nil, ← hRank]
        exact hKept.all slot hWorld
      · rw [Function.update_of_ne hRank]
        exact hKept.all slot hWorld

/- Every reachable state has kept its rows. -/
theorem rowsKept_of_reachable
    {world : MailWorld}
    {s : MailWorldState}
    (hReach : (mailWorldMachine world).Reachable s) :
    RowsKept world s := by
  apply hReach.invariant (RowsKept world)
  · intro s hInit
    have hStart : s = MailWorldState.start := hInit
    rw [hStart]
    exact
      ⟨fun _ _ hMem => absurd hMem List.not_mem_nil,
        fun _ _ => rfl⟩
  · intro s a s' hKept _ hStep
    exact rowsKept_step hKept hStep

end Latency

end FabricPerf
