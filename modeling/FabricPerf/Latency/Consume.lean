import FabricPerf.Latency.Pairing

/-
  What the records of one mailbox slot were read from.

  Both words of the slot remember the post that stored them.
  Nothing is assumed of the sender's steps: it may post the
  same step again, and run ahead or behind by any number of
  launches.  Without repeated steps this is the mailbox slot
  of before, `mailMachine`.

  Main declarations:
    * `Latency.postMachine`
    * `Latency.mail_reachable_iff`
    * `Latency.ConsumeOk`
    * `Latency.consumed_once`
-/

------------------------------------------------------------
-- States
------------------------------------------------------------

namespace FabricPerf

namespace Latency

/- One execution of the send hook, in order of time stores. -/
structure Post where
  number : Nat
  launch : Nat
  step : BitVec 64
  published : BitVec 64
deriving DecidableEq, Repr

/- The two words of the slot and the posts that stored them. -/
structure PostedMail where
  tag : Traced Post 64
  time : Traced Post 64
deriving DecidableEq, Repr

/- The slot after the receiver's clearing store. -/
def PostedMail.cleared : PostedMail where
  tag := Traced.const 0
  time := Traced.const 0

/- The sender; `posts` (history) lists all time stores. -/
structure Poster where
  launch : Nat
  inFlight : Option Post
  posts : List Post
deriving DecidableEq, Repr

/- What the receive hook of the slot is doing. -/
inductive TakePhase where
| idle
| polling (wait : Wait)
| hit (hit : Hit) (mail : PostedMail)
| cleared (hit : Hit) (mail : PostedMail)
deriving DecidableEq, Repr

/- A saved record, its launch and the words it was made of. -/
structure Taken where
  launch : Nat
  hit : Hit
  mail : PostedMail
deriving DecidableEq, Repr

/- The receiver. -/
structure Taker where
  launch : Nat
  phase : TakePhase
  saved : List Taken
deriving DecidableEq, Repr

/- The slot and both sides. -/
structure PostState where
  mail : PostedMail
  sender : Poster
  receiver : Taker
deriving DecidableEq, Repr

/- The state before the first launch: the slot is cleared. -/
def PostState.start : PostState where
  mail := PostedMail.cleared
  sender := { launch := 0, inFlight := none, posts := [] }
  receiver := { launch := 0, phase := .idle, saved := [] }

------------------------------------------------------------
-- Steps
------------------------------------------------------------

namespace Mailbox

/- The tag word of a post. -/
def tagOfPost
    (box : Mailbox)
    (post : Post) : Traced Post 64 :=
  Traced.read post
    (mailboxTag post.step (box.runId post.launch))

/- The time word of a post. -/
def timeOfPost (post : Post) : Traced Post 64 :=
  Traced.read post post.published

/- What a receive hook knows when its poll hits. -/
def takeOf
    (box : Mailbox)
    (wait : Wait)
    (mail : PostedMail)
    (offset : BitVec 64) : Hit where
  source := box.slot.source
  vblock := box.slot.vblock
  step := wait.step
  tag := mail.tag.val
  time := mail.time.val
  misses := wait.misses
  offset := offset
  localTime := wait.localTime

/- One action of the two hooks. -/
def postStep (box : Mailbox) (s : PostState) :
    MailAction → Option PostState
| .sendTime step clock offset =>
    match s.sender.inFlight with
    | none =>
        let post : Post :=
          { number := s.sender.posts.length
            launch := s.sender.launch
            step := step
            published := publishedTime clock offset }
        some
          { s with
            mail := { s.mail with time := timeOfPost post }
            sender :=
              { s.sender with
                inFlight := some post
                posts := s.sender.posts ++ [post] } }
    | some _ => none
| .sendTag =>
    match s.sender.inFlight with
    | some post =>
        some
          { s with
            mail := { s.mail with tag := box.tagOfPost post }
            sender := { s.sender with inFlight := none } }
    | none => none
| .nextSenderLaunch =>
    if s.sender.inFlight = none ∧
        s.sender.launch + 1 < box.launches then
      some
        { s with
          sender :=
            { s.sender with launch := s.sender.launch + 1 } }
    else
      none
| .recvStart step localTime =>
    match s.receiver.phase with
    | .idle =>
        some
          { s with
            receiver :=
              { s.receiver with
                phase :=
                  .polling
                    { step := step
                      localTime := localTime
                      misses := 0 } } }
    | _ => none
| .poll offset =>
    match s.receiver.phase with
    | .polling wait =>
        let phase : TakePhase :=
          if s.mail.tag.val =
              mailboxTag wait.step
                (box.runId s.receiver.launch) then
            .hit (box.takeOf wait s.mail offset) s.mail
          else if wait.misses + 1 < pollBound then
            .polling { wait with misses := wait.misses + 1 }
          else
            .idle
        some
          { s with
            receiver := { s.receiver with phase := phase } }
    | _ => none
| .clear =>
    match s.receiver.phase with
    | .hit hit mail =>
        some
          { s with
            mail := PostedMail.cleared
            receiver :=
              { s.receiver with phase := .cleared hit mail } }
    | _ => none
| .save =>
    match s.receiver.phase with
    | .cleared hit mail =>
        some
          { s with
            receiver :=
              { s.receiver with
                phase := .idle
                saved :=
                  s.receiver.saved ++
                    [{ launch := s.receiver.launch
                       hit := hit
                       mail := mail }] } }
    | _ => none
| .nextReceiverLaunch =>
    if s.receiver.phase = .idle ∧
        s.receiver.launch + 1 < box.launches then
      some
        { s with
          receiver :=
            { s.receiver with
              launch := s.receiver.launch + 1 } }
    else
      none

end Mailbox

/- The slot over any number of posts and launches. -/
def postMachine (box : Mailbox) :
    Machine PostState MailAction where
  init := fun s => s = PostState.start
  step := box.postStep

------------------------------------------------------------
-- Posts Without Repeated Steps
------------------------------------------------------------

/- The post as a send, without its number. -/
def Post.send (post : Post) : Send where
  launch := post.launch
  step := post.step
  published := post.published

/- The slot without the posts of its tag. -/
def PostedMail.mail (mail : PostedMail) : Mail where
  tag := mail.tag.val
  time := mail.time.relabel Post.send

/- The phase without them. -/
def TakePhase.recvPhase : TakePhase → RecvPhase
| .idle => .idle
| .polling wait => .polling wait
| .hit known mail => .hit known mail.mail.time
| .cleared known mail => .cleared known mail.mail.time

/- A saved record without them. -/
def Taken.forget (taken : Taken) : Saved where
  launch := taken.launch
  hit := taken.hit
  time := taken.mail.mail.time

/- The state without them. -/
def PostState.forget (s : PostState) : MailState where
  mail := s.mail.mail
  sender :=
    { launch := s.sender.launch
      inFlight := s.sender.inFlight.map Post.send
      sent := s.sender.posts.map Post.send }
  receiver :=
    { launch := s.receiver.launch
      phase := s.receiver.phase.recvPhase
      saved := s.receiver.saved.map Taken.forget }

/- A time store is not of a step its launch has posted. -/
def NewStep (s : PostState) : MailAction → Prop
| .sendTime step _ _ =>
    ∀ post ∈ s.sender.posts,
      ¬ post.send.IsOf s.sender.launch step
| _ => True

section Forget

variable {box : Mailbox} {s : PostState} {a : MailAction}

/- The sender's step is new among the sends it has made. -/
theorem newStep_sendTime_iff
    {step clock offset : BitVec 64} :
    NewStep s (.sendTime step clock offset) ↔
      ∀ send ∈ s.forget.sender.sent,
        ¬ send.IsOf s.forget.sender.launch step := by
  simp [NewStep, PostState.forget]

/- Both machines look at the same words of the slot. -/
theorem hitOf_forget
    (wait : Wait)
    (mail : PostedMail)
    (offset : BitVec 64) :
    box.hitOf wait mail.mail offset =
      box.takeOf wait mail offset := rfl

/- `mailMachine` takes new steps only. -/
theorem newStep_of_step
    {m : MailState}
    (hStep : box.step s.forget a = some m) :
    NewStep s a := by
  cases a with
  | sendTime step clock offset =>
      simp only [Mailbox.step,
        Option.ite_none_right_eq_some] at hStep
      exact newStep_sendTime_iff.mpr hStep.1.2
  | _ => trivial

/- On new steps the two machines do the same. -/
theorem step_forget
    (hNew : NewStep s a) :
    box.step s.forget a =
      (box.postStep s a).map PostState.forget := by
  cases a with
  | sendTime step clock offset =>
      have hUnsent := newStep_sendTime_iff.mp hNew
      cases hFlight : s.sender.inFlight with
      | none =>
          have hIdle : s.forget.sender.inFlight = none := by
            simp [PostState.forget, hFlight]
          simp only [Mailbox.step, Mailbox.postStep, hFlight,
            if_pos (And.intro hIdle hUnsent), Option.map_some]
          simp [PostState.forget, PostedMail.mail, Post.send,
            Mailbox.timeOfPost, Send.stamp, Traced.relabel,
            Traced.read]
      | some post =>
          have hBusy : s.forget.sender.inFlight ≠ none := by
            simp [PostState.forget, hFlight]
          simp only [Mailbox.step, Mailbox.postStep, hFlight,
            hBusy, false_and, if_false, Option.map_none]
  | sendTag =>
      cases hFlight : s.sender.inFlight <;>
        simp [Mailbox.step, Mailbox.postStep,
          PostState.forget, hFlight, PostedMail.mail,
          Mailbox.tagOf, Mailbox.tagOfPost, Post.send]
  | nextSenderLaunch =>
      simp only [Mailbox.step, Mailbox.postStep,
        PostState.forget, Option.map_eq_none_iff]
      split <;> rfl
  | recvStart step localTime =>
      cases hPhase : s.receiver.phase <;>
        simp [Mailbox.step, Mailbox.postStep,
          PostState.forget, hPhase, TakePhase.recvPhase]
  | poll offset =>
      cases hPhase : s.receiver.phase with
      | polling wait =>
          simp only [Mailbox.step, Mailbox.postStep,
            PostState.forget, hPhase, TakePhase.recvPhase,
            hitOf_forget, Option.map_some]
          by_cases hTag :
              s.mail.tag.val =
                mailboxTag wait.step
                  (box.runId s.receiver.launch)
          · simp [PostedMail.mail, hTag]
          · by_cases hBound : wait.misses + 1 < pollBound
            · simp [PostedMail.mail, hTag, hBound]
            · simp [PostedMail.mail, hTag, hBound]
      | _ =>
          simp [Mailbox.step, Mailbox.postStep,
            PostState.forget, hPhase, TakePhase.recvPhase]
  | clear =>
      cases hPhase : s.receiver.phase <;>
        simp [Mailbox.step, Mailbox.postStep,
          PostState.forget, hPhase, TakePhase.recvPhase,
          PostedMail.mail, PostedMail.cleared, Mail.cleared,
          Traced.relabel, Traced.const]
  | save =>
      cases hPhase : s.receiver.phase <;>
        simp [Mailbox.step, Mailbox.postStep,
          PostState.forget, hPhase, TakePhase.recvPhase,
          Taken.forget]
  | nextReceiverLaunch =>
      cases hPhase : s.receiver.phase <;>
        simp only [Mailbox.step, Mailbox.postStep,
          PostState.forget, hPhase, TakePhase.recvPhase,
          reduceCtorEq, false_and, true_and, if_false,
          Option.map_none]
      split <;>
        simp [PostState.forget, TakePhase.recvPhase]

end Forget

/-
  The mailbox slot of before reaches what this one reaches
  by new steps, without the posts of its words.
-/
theorem mail_reachable_iff
    (box : Mailbox)
    (m : MailState) :
    (mailMachine box).Reachable m ↔
      ∃ s, (postMachine box).Reach NewStep s ∧
        s.forget = m := by
  apply Machine.reachable_iff_of_view PostState.forget
  · intro t
    constructor
    · intro hInit
      have hStart : t = MailState.start := hInit
      rw [hStart]
      exact ⟨PostState.start, rfl, rfl⟩
    · rintro ⟨s, hInit, rfl⟩
      have hStart : s = PostState.start := hInit
      rw [hStart]
      rfl
  · exact fun s a t hStep => newStep_of_step hStep
  · exact fun s a hNew => step_forget hNew

------------------------------------------------------------
-- What Was Consumed
------------------------------------------------------------

/- The posts whose time word the hook in progress has read. -/
def TakePhase.reading : TakePhase → List Post
| .hit _ mail | .cleared _ mail => mail.time.sources
| .idle | .polling _ => []

/- The posts whose time word a saved record has read. -/
def Taker.read (receiver : Taker) : List Post :=
  receiver.saved.flatMap (fun taken => taken.mail.time.sources)

/- The same, with the hook in progress. -/
def PostState.consumed (s : PostState) : List Post :=
  s.receiver.read ++ s.receiver.phase.reading

/- A tag word is cleared or of one of the posts. -/
def TagFrom
    (box : Mailbox)
    (posts : List Post)
    (tag : Traced Post 64) : Prop :=
  tag = Traced.const 0 ∨
    ∃ post ∈ posts, tag = box.tagOfPost post

/- A time word is cleared or of one of the posts. -/
def TimeFrom
    (posts : List Post)
    (time : Traced Post 64) : Prop :=
  time = Traced.const 0 ∨
    ∃ post ∈ posts, time = Mailbox.timeOfPost post

/-
  A hit of a launch.  Its tag was stored by a post of the
  launch for the step, and its time word is cleared or was
  stored by a post.
-/
structure TakeOk
    (box : Mailbox)
    (posts : List Post)
    (launch : Nat)
    (hit : Hit)
    (mail : PostedMail) : Prop where
  tag :
    ∃ post ∈ posts, mail.tag = box.tagOfPost post ∧
      post.launch = launch ∧
      post.step.toNat % 2 ^ 32 = hit.step.toNat % 2 ^ 32
  time : TimeFrom posts mail.time
  timeVal : hit.time = mail.time.val

/- The hook in progress has hit as above, or not yet. -/
def TakePhase.Ok
    (phase : TakePhase)
    (box : Mailbox)
    (posts : List Post)
    (launch : Nat) : Prop :=
  match phase with
  | .hit known mail | .cleared known mail =>
      TakeOk box posts launch known mail
  | .idle | .polling _ => True

/- The hook has hit and not cleared the slot yet. -/
def TakePhase.IsHit : TakePhase → Prop
| .hit _ _ => True
| .idle | .polling _ | .cleared _ _ => False

/-
  The invariant.  Outside of a hit the slot's time word has
  not been consumed.
-/
structure ConsumeOk (box : Mailbox) (s : PostState) : Prop where
  senderLaunch : s.sender.launch < box.launches
  receiverLaunch : s.receiver.launch < box.launches
  launches :
    ∀ post ∈ s.sender.posts, post.launch < box.launches
  numbers :
    ∀ post ∈ s.sender.posts,
      post.number < s.sender.posts.length
  nodup : s.sender.posts.Nodup
  inFlight :
    ∀ post, s.sender.inFlight = some post →
      post ∈ s.sender.posts
  tag : TagFrom box s.sender.posts s.mail.tag
  time : TimeFrom s.sender.posts s.mail.time
  once : s.consumed.Nodup
  posted : ∀ post ∈ s.consumed, post ∈ s.sender.posts
  unread :
    ¬ s.receiver.phase.IsHit →
      ∀ post ∈ s.mail.time.sources, post ∉ s.consumed
  phase :
    s.receiver.phase.Ok box s.sender.posts s.receiver.launch
  saved :
    ∀ taken ∈ s.receiver.saved,
      TakeOk box s.sender.posts taken.launch taken.hit
        taken.mail

section Growth

variable {box : Mailbox} {posts more : List Post}

theorem TagFrom.mono
    {tag : Traced Post 64}
    (hTag : TagFrom box posts tag)
    (hSub : posts ⊆ more) :
    TagFrom box more tag := by
  rcases hTag with hCleared | ⟨post, hMem, hOf⟩
  · exact Or.inl hCleared
  · exact Or.inr ⟨post, hSub hMem, hOf⟩

theorem TimeFrom.mono
    {time : Traced Post 64}
    (hTime : TimeFrom posts time)
    (hSub : posts ⊆ more) :
    TimeFrom more time := by
  rcases hTime with hCleared | ⟨post, hMem, hOf⟩
  · exact Or.inl hCleared
  · exact Or.inr ⟨post, hSub hMem, hOf⟩

theorem TakeOk.mono
    {launch : Nat}
    {hit : Hit}
    {mail : PostedMail}
    (hTake : TakeOk box posts launch hit mail)
    (hSub : posts ⊆ more) :
    TakeOk box more launch hit mail where
  tag := by
    rcases hTake.tag with ⟨post, hMem, hOf⟩
    exact ⟨post, hSub hMem, hOf⟩
  time := hTake.time.mono hSub
  timeVal := hTake.timeVal

theorem TakePhase.Ok.mono
    {phase : TakePhase}
    {launch : Nat}
    (hPhase : phase.Ok box posts launch)
    (hSub : posts ⊆ more) :
    phase.Ok box more launch := by
  cases phase with
  | idle => trivial
  | polling wait => trivial
  | hit known mail => exact TakeOk.mono hPhase hSub
  | cleared known mail => exact TakeOk.mono hPhase hSub

/- The posts of a time word are among the posts. -/
theorem TimeFrom.mem
    {time : Traced Post 64}
    (hTime : TimeFrom posts time)
    {post : Post}
    (hSource : post ∈ time.sources) :
    post ∈ posts := by
  rcases hTime with hCleared | ⟨other, hMem, hOf⟩
  · rw [hCleared] at hSource
    cases hSource
  · rw [hOf] at hSource
    rw [List.mem_singleton.mp hSource]
    exact hMem

/- A time word has at most one source. -/
theorem TimeFrom.nodup
    {time : Traced Post 64}
    (hTime : TimeFrom posts time) :
    time.sources.Nodup := by
  rcases hTime with hCleared | ⟨post, _, hOf⟩
  · rw [hCleared]
    exact List.nodup_nil
  · rw [hOf]
    simp [Mailbox.timeOfPost]

end Growth

namespace ConsumeOk

variable {box : Mailbox} {s s' : PostState}

/- Before the first launch nothing is posted. -/
theorem start : ConsumeOk box PostState.start where
  senderLaunch := box.launches_pos
  receiverLaunch := box.launches_pos
  launches := fun _ h => absurd h List.not_mem_nil
  numbers := fun _ h => absurd h List.not_mem_nil
  nodup := List.nodup_nil
  inFlight := fun _ h => by cases h
  tag := Or.inl rfl
  time := Or.inl rfl
  once := List.nodup_nil
  posted := fun _ h => absurd h List.not_mem_nil
  unread := fun _ _ h => absurd h List.not_mem_nil
  phase := trivial
  saved := fun _ h => absurd h List.not_mem_nil

/- A time store posts with a fresh number. -/
theorem sendTime
    (hOk : ConsumeOk box s)
    (post : Post)
    (hNumber : post.number = s.sender.posts.length)
    (hLaunch : post.launch = s.sender.launch) :
    ConsumeOk box
      { s with
        mail := { s.mail with time := Mailbox.timeOfPost post }
        sender :=
          { s.sender with
            inFlight := some post
            posts := s.sender.posts ++ [post] } } := by
  have hFresh : post ∉ s.sender.posts := by
    intro hMem
    have hLess := hOk.numbers post hMem
    omega
  have hSub : s.sender.posts ⊆ s.sender.posts ++ [post] :=
    List.subset_append_left _ _
  exact
    { senderLaunch := hOk.senderLaunch
      receiverLaunch := hOk.receiverLaunch
      launches := by
        intro other hMem
        rcases List.mem_append.mp hMem with hOld | hNew
        · exact hOk.launches other hOld
        · rw [List.mem_singleton.mp hNew, hLaunch]
          exact hOk.senderLaunch
      numbers := by
        intro other hMem
        rw [List.length_append, List.length_singleton]
        rcases List.mem_append.mp hMem with hOld | hNew
        · exact Nat.lt_succ_of_lt (hOk.numbers other hOld)
        · rw [List.mem_singleton.mp hNew, hNumber]
          exact Nat.lt_succ_self _
      nodup := by
        refine List.nodup_append.mpr ⟨hOk.nodup, by simp, ?_⟩
        intro other hMem last hLast hSame
        rw [List.mem_singleton] at hLast
        rw [hSame, hLast] at hMem
        exact hFresh hMem
      inFlight := by
        intro other hSome
        cases hSome
        exact List.mem_append_right _ List.mem_cons_self
      tag := hOk.tag.mono hSub
      time :=
        Or.inr ⟨post,
          List.mem_append_right _ List.mem_cons_self, rfl⟩
      once := hOk.once
      posted := fun other hMem => hSub (hOk.posted other hMem)
      unread := by
        intro _ other hSource hConsumed
        rw [List.mem_singleton.mp hSource] at hConsumed
        exact hFresh (hOk.posted post hConsumed)
      phase := hOk.phase.mono hSub
      saved := fun taken hMem =>
        (hOk.saved taken hMem).mono hSub }

/- A poll that hits starts to consume the slot's words. -/
theorem hit
    (hOk : ConsumeOk box s)
    {wait : Wait}
    (hPhase : s.receiver.phase = .polling wait)
    (hTag :
      s.mail.tag.val =
        mailboxTag wait.step (box.runId s.receiver.launch))
    (offset : BitVec 64) :
    ConsumeOk box
      { s with
        receiver :=
          { s.receiver with
            phase :=
              .hit (box.takeOf wait s.mail offset)
                s.mail } } := by
  have hRead : s.consumed = s.receiver.read := by
    simp [PostState.consumed, hPhase, TakePhase.reading]
  have hUnread :=
    hOk.unread (by
      rw [hPhase]
      exact id)
  have hTake :
      TakeOk box s.sender.posts s.receiver.launch
        (box.takeOf wait s.mail offset) s.mail := by
    refine ⟨?_, hOk.time, rfl⟩
    rcases hOk.tag with hCleared | ⟨post, hMem, hOf⟩
    · -- A cleared tag equals no tag a hook waits for.
      rw [hCleared] at hTag
      exact absurd hTag.symm (mailboxTag_ne_zero _ _)
    · rw [hOf] at hTag
      rcases mailboxTag_eq_iff.mp hTag with ⟨hStep, hRun⟩
      refine ⟨post, hMem, hOf, ?_, hStep⟩
      exact box.distinct _ (hOk.launches post hMem) _
        hOk.receiverLaunch hRun
  exact
    { hOk with
      once := by
        refine List.nodup_append.mpr
          ⟨hRead ▸ hOk.once, hOk.time.nodup, ?_⟩
        intro post hOld other hSource hSame
        rw [← hSame] at hSource
        exact hUnread post hSource (hRead ▸ hOld)
      posted := by
        intro post hMem
        rcases List.mem_append.mp hMem with hOld | hNew
        · exact hOk.posted post (hRead ▸ hOld)
        · exact hOk.time.mem hNew
      unread := fun hNot => absurd trivial hNot
      phase := hTake }

/- The clearing store. -/
theorem clear
    (hOk : ConsumeOk box s)
    {hit : Hit}
    {mail : PostedMail}
    (hPhase : s.receiver.phase = .hit hit mail) :
    ConsumeOk box
      { s with
        mail := PostedMail.cleared
        receiver :=
          { s.receiver with phase := .cleared hit mail } } := by
  have hSame :
      PostState.consumed
          { s with
            mail := PostedMail.cleared
            receiver :=
              { s.receiver with
                phase := .cleared hit mail } } =
        s.consumed := by
    simp [PostState.consumed, hPhase, TakePhase.reading,
      Taker.read]
  have hTake := hOk.phase
  rw [hPhase] at hTake
  exact
    { hOk with
      tag := Or.inl rfl
      time := Or.inl rfl
      once := hSame ▸ hOk.once
      posted := hSame ▸ hOk.posted
      unread := fun _ _ hSource =>
        absurd hSource List.not_mem_nil
      phase := hTake }

/- Saving the record. -/
theorem save
    (hOk : ConsumeOk box s)
    {hit : Hit}
    {mail : PostedMail}
    (hPhase : s.receiver.phase = .cleared hit mail) :
    ConsumeOk box
      { s with
        receiver :=
          { s.receiver with
            phase := .idle
            saved :=
              s.receiver.saved ++
                [⟨s.receiver.launch, hit, mail⟩] } } := by
  have hConsumed :
      s.receiver.read ++ mail.time.sources = s.consumed := by
    simp [PostState.consumed, hPhase, TakePhase.reading]
  have hSame :
      PostState.consumed
          { s with
            receiver :=
              { s.receiver with
                phase := .idle
                saved :=
                  s.receiver.saved ++
                    [⟨s.receiver.launch, hit, mail⟩] } } =
        s.consumed := by
    rw [← hConsumed]
    simp [PostState.consumed, Taker.read, TakePhase.reading]
  have hTake := hOk.phase
  rw [hPhase] at hTake
  exact
    { hOk with
      once := hSame ▸ hOk.once
      posted := hSame ▸ hOk.posted
      unread := by
        intro _
        rw [hSame]
        exact hOk.unread (by
          rw [hPhase]
          exact id)
      phase := trivial
      saved := by
        intro taken hMem
        rcases List.mem_append.mp hMem with hOld | hNew
        · exact hOk.saved taken hOld
        · rw [List.mem_singleton.mp hNew]
          exact hTake }

/- A receiver that neither hits nor saves. -/
theorem quiet
    (hOk : ConsumeOk box s)
    {receiver : Taker}
    (hLaunch : receiver.launch < box.launches)
    (hSaved : receiver.saved = s.receiver.saved)
    (hBefore : s.receiver.phase.reading = [])
    (hNotHit : ¬ s.receiver.phase.IsHit)
    (hAfter : receiver.phase.reading = [])
    (hPhase :
      receiver.phase.Ok box s.sender.posts receiver.launch) :
    ConsumeOk box { s with receiver := receiver } := by
  have hSame :
      PostState.consumed { s with receiver := receiver } =
        s.consumed := by
    simp [PostState.consumed, Taker.read, hSaved, hBefore,
      hAfter]
  exact
    { hOk with
      receiverLaunch := hLaunch
      once := hSame ▸ hOk.once
      posted := hSame ▸ hOk.posted
      unread := by
        intro _
        rw [hSame]
        exact hOk.unread hNotHit
      phase := hPhase
      saved := by
        rw [hSaved]
        exact hOk.saved }

/- Every step keeps the invariant. -/
theorem step
    (hOk : ConsumeOk box s)
    {a : MailAction}
    (hStep : box.postStep s a = some s') :
    ConsumeOk box s' := by
  cases a with
  | sendTime step clock offset =>
      simp only [Mailbox.postStep] at hStep
      split at hStep
      · cases hStep
        exact hOk.sendTime _ rfl rfl
      · cases hStep
  | sendTag =>
      simp only [Mailbox.postStep] at hStep
      split at hStep
      · next post hFlight =>
          cases hStep
          exact
            { hOk with
              inFlight := fun _ h => by cases h
              tag :=
                Or.inr ⟨post, hOk.inFlight post hFlight, rfl⟩ }
      · cases hStep
  | nextSenderLaunch =>
      simp only [Mailbox.postStep, Option.ite_none_right_eq_some,
        Option.some.injEq] at hStep
      rcases hStep with ⟨⟨_, hLaunch⟩, hNext⟩
      rw [← hNext]
      exact { hOk with senderLaunch := hLaunch }
  | recvStart step localTime =>
      simp only [Mailbox.postStep] at hStep
      split at hStep
      · next hPhase =>
          cases hStep
          refine hOk.quiet ?_ ?_ ?_ ?_ ?_ ?_
          · exact hOk.receiverLaunch
          · rfl
          · rw [hPhase]
            rfl
          · rw [hPhase]
            exact id
          · rfl
          · trivial
      · cases hStep
  | poll offset =>
      simp only [Mailbox.postStep] at hStep
      split at hStep
      · next wait hPhase =>
          cases hStep
          split
          · next hTag => exact hOk.hit hPhase hTag offset
          · refine hOk.quiet ?_ ?_ ?_ ?_ ?_ ?_
            · exact hOk.receiverLaunch
            · rfl
            · rw [hPhase]
              rfl
            · rw [hPhase]
              exact id
            · dsimp only
              split <;> rfl
            · dsimp only
              split <;> trivial
      · cases hStep
  | clear =>
      simp only [Mailbox.postStep] at hStep
      split at hStep
      · next hit mail hPhase =>
          cases hStep
          exact hOk.clear hPhase
      · cases hStep
  | save =>
      simp only [Mailbox.postStep] at hStep
      split at hStep
      · next hit mail hPhase =>
          cases hStep
          exact hOk.save hPhase
      · cases hStep
  | nextReceiverLaunch =>
      simp only [Mailbox.postStep, Option.ite_none_right_eq_some,
        Option.some.injEq] at hStep
      rcases hStep with ⟨⟨hPhase, hLaunch⟩, hNext⟩
      rw [← hNext]
      refine hOk.quiet ?_ ?_ ?_ ?_ ?_ ?_
      · exact hLaunch
      · rfl
      · rw [hPhase]
        rfl
      · rw [hPhase]
        exact id
      · rw [hPhase]
        rfl
      · rw [hPhase]
        trivial

end ConsumeOk

/- Every reachable state meets the invariant. -/
theorem consumeOk_of_reachable
    {box : Mailbox}
    {s : PostState}
    (hReach : (postMachine box).Reachable s) :
    ConsumeOk box s := by
  apply hReach.invariant (ConsumeOk box)
  · intro s hInit
    have hStart : s = PostState.start := hInit
    rw [hStart]
    exact ConsumeOk.start
  · intro s a s' hOk _ hStep
    exact hOk.step hStep

------------------------------------------------------------
-- Records And Posts
------------------------------------------------------------

/- A record of a cleared time word shows the invalid bit. -/
theorem TakeOk.flagged
    {box : Mailbox}
    {posts : List Post}
    {launch : Nat}
    {hit : Hit}
    {mail : PostedMail}
    (hTake : TakeOk box posts launch hit mail)
    (hCleared : mail.time.sources = []) :
    hit.srLatencyRow.vblock &&& 2147483648#32 ≠ 0#32 := by
  have hZero : hit.time = 0 := by
    rw [hTake.timeVal]
    rcases hTake.time with hConst | ⟨post, _, hOf⟩
    · rw [hConst]
      rfl
    · rw [hOf] at hCleared
      cases hCleared
  have hInvalid : invalidHit hit.time hit.misses = true := by
    simp [invalidHit, hZero]
  simp only [Hit.srLatencyRow, Hit.channel, hInvalid]
  exact channelWord_flag hit.source hit.vblock

/-
  In every run: each time store is read by at most one saved
  record, the tag a record was saved for was stored in its
  own launch for its step, and a record of a cleared time
  word is flagged invalid.
-/
theorem consumed_once
    (box : Mailbox)
    (s : PostState)
    (hReach : (postMachine box).Reachable s) :
    (s.sender.posts.Nodup ∧
      ∀ post ∈ s.sender.posts,
        (s.receiver.saved.filter
          (fun taken =>
            decide (post ∈ taken.mail.time.sources))).length ≤
          1) ∧
    (∀ taken ∈ s.receiver.saved,
      ∃ post ∈ s.sender.posts,
        taken.mail.tag.sources = [post] ∧
          post.launch = taken.launch ∧
          post.step.toNat % 2 ^ 32 =
            taken.hit.step.toNat % 2 ^ 32) ∧
    ∀ taken ∈ s.receiver.saved,
      taken.mail.time.sources = [] →
        taken.hit.srLatencyRow.vblock &&& 2147483648#32 ≠
          0#32 := by
  have hOk := consumeOk_of_reachable hReach
  have hRead : s.receiver.read.Nodup :=
    (List.nodup_append.mp hOk.once).1
  refine ⟨⟨hOk.nodup, ?_⟩, ?_, ?_⟩
  · intro post _
    exact Keyed.length_filter_mem_le_one hRead post
  · intro taken hMem
    rcases (hOk.saved taken hMem).tag with
      ⟨post, hPost, hOf, hLaunch, hStep⟩
    refine ⟨post, hPost, ?_, hLaunch, hStep⟩
    rw [hOf]
    rfl
  · intro taken hMem hCleared
    exact (hOk.saved taken hMem).flagged hCleared

/-
  The sender stores the time word of step 2 before the hook
  of step 1 clears the slot; the hook of step 2 then finds
  its tag beside a cleared time word.
-/
def clearedPublish : List MailAction :=
  [.recvStart 1 500, .poll 0, .poll 0,
    .sendTime 1 600 0, .sendTag, .poll 0,
    .sendTime 2 700 0, .clear, .save,
    .recvStart 2 800, .poll 0, .poll 0, .sendTag,
    .poll 0, .clear, .save]

/- The record of step 2 is flagged. -/
theorem consumed_once_clearedPublish :
    ∃ s taken, (postMachine oneLaunch).Reachable s ∧
      taken ∈ s.receiver.saved ∧
      taken.mail.time.sources = [] ∧
      taken.hit.srLatencyRow.vblock &&& 2147483648#32 ≠
        0#32 := by
  have hRun :
      ((postMachine oneLaunch).run PostState.start
        clearedPublish).any
        (fun s => s.receiver.saved.any
          (fun taken => taken.mail.time.sources.isEmpty)) =
          true := by
    decide +kernel
  rcases (Option.any_eq_true _ _).mp hRun with
    ⟨s, hSome, hAny⟩
  rcases List.any_eq_true.mp hAny with ⟨taken, hMem, hEmpty⟩
  have hCleared := List.isEmpty_iff.mp hEmpty
  have hReach : (postMachine oneLaunch).Reachable s :=
    Machine.reachable_of_run (Machine.Reach.init rfl) hSome
  exact ⟨s, taken, hReach, hMem, hCleared,
    (consumed_once oneLaunch s hReach).2.2 taken hMem
      hCleared⟩

end Latency

end FabricPerf
