import FabricPerf.Lib.Transition
import Mathlib.Data.List.FinRange

/-
  The exchange of fabric handles through files.

  Each rank creates three buffers, publishes one handle file
  for each of them by rename, polls the files of all ranks
  and imports what it has read.  An attempt that fails is
  repeated by a later launch.

  Main declarations:
    * `Latency.exchangeMachine`
    * `Latency.Current`
    * `Latency.exchange_agrees`
    * `Latency.agrees_of_single_attempts`
-/

------------------------------------------------------------
-- Handles And Ranks
------------------------------------------------------------

namespace FabricPerf

namespace Latency

/- The three exported buffers of a rank. -/
inductive HandleKind where
| leader
| follower
| mailbox
deriving DecidableEq, Repr

/- The order in which the source goes through the kinds. -/
def HandleKind.all : List HandleKind :=
  [.leader, .follower, .mailbox]

/-
  An exported handle: of a buffer that one attempt of a rank
  has created, or one an earlier run has left in its file.
-/
inductive FabricHandle (R : Nat) where
| own (rank : Fin R) (attempt : Nat) (kind : HandleKind)
| stale (bytes : Nat)
deriving DecidableEq, Repr

/- A file or a table entry of a rank. -/
abbrev FileName (R : Nat) : Type := Fin R × HandleKind

/- The handles in a table or in a directory. -/
abbrev Handles (R : Nat) : Type :=
  HandleKind → Fin R → Option (FabricHandle R)

/- Replace one entry. -/
def Handles.set
    {R : Nat}
    (handles : Handles R)
    (kind : HandleKind)
    (rank : Fin R)
    (entry : Option (FabricHandle R)) : Handles R :=
  fun k r =>
    if k = kind ∧ r = rank then entry else handles k r

/- One pass over all ranks' files. -/
def pollPass (R : Nat) : List (FileName R) :=
  (List.finRange R).flatMap
    (fun rank => HandleKind.all.map (fun kind => (rank, kind)))

/- Where a rank stands in `prepare_buffers_locked`. -/
inductive PreparePhase (R : Nat) where
| idle
| creating (todo : List HandleKind)
| writing (todo : List HandleKind)
| polling (todo : List (FileName R)) (ready : Bool)
| importing (todo : List (FileName R))
| copying
| prepared
deriving DecidableEq, Repr

/-
  A rank.  `localBuff` has the handle of each local buffer,
  `table` what the running attempt has read from the files
  and `buffs` whose allocation each entry of the pointer
  tables maps.
-/
structure ExchangeRank (R : Nat) where
  attempt : Nat
  phase : PreparePhase R
  localBuff : HandleKind → Option (FabricHandle R)
  table : Handles R
  buffs : Handles R

/- The directory and all ranks. -/
structure ExchangeState (R : Nat) where
  files : Handles R
  rank : Fin R → ExchangeRank R

/- A rank before its first launch. -/
def ExchangeRank.start (R : Nat) : ExchangeRank R where
  attempt := 0
  phase := .idle
  localBuff := fun _ => none
  table := fun _ _ => none
  buffs := fun _ _ => none

------------------------------------------------------------
-- Steps
------------------------------------------------------------

/- What a rank can do next. -/
inductive RankAction where
| begin
| create
| write
| read
| importNext
| finish
| fail
deriving DecidableEq, Repr

namespace ExchangeRank

variable {R : Nat}

/- The handle an attempt exports for one of its buffers. -/
def exported
    (self : ExchangeRank R)
    (me : Fin R)
    (kind : HandleKind) : FabricHandle R :=
  .own me self.attempt kind

/-
  A launch reaches the bookkeeping arrays: fresh tables, and
  the buffers are created again.
-/
def begin (self : ExchangeRank R) : ExchangeRank R :=
  { self with
    attempt := self.attempt + 1
    phase := .creating HandleKind.all
    table := fun _ _ => none
    buffs := fun _ _ => none }

/- `create_fabric_buffer` sets the local pointer. -/
def create
    (self : ExchangeRank R)
    (me : Fin R)
    (kind : HandleKind)
    (todo : List HandleKind) : ExchangeRank R :=
  { self with
    localBuff := fun k =>
      if k = kind then
        some (self.exported me kind)
      else
        self.localBuff k
    phase :=
      if todo = [] then .writing HandleKind.all
      else .creating todo }

/- After the last file is renamed the polling starts. -/
def wrote
    (self : ExchangeRank R)
    (todo : List HandleKind) : ExchangeRank R :=
  { self with
    phase :=
      if todo = [] then .polling (pollPass R) true
      else .writing todo }

/-
  One file is read.  A rank with a missing file ends the pass
  after its last file; a complete pass ends the loop.
-/
def read
    (self : ExchangeRank R)
    (files : Handles R)
    (name : FileName R)
    (todo : List (FileName R))
    (ready : Bool) : ExchangeRank R :=
  let found := files name.2 name.1
  let ready := ready && found.isSome
  { self with
    table := self.table.set name.2 name.1 found
    phase :=
      if todo = [] then
        if ready then .importing (pollPass R)
        else .polling (pollPass R) true
      else if name.2 = .mailbox ∧ ready = false then
        .polling (pollPass R) true
      else
        .polling todo ready }

/- One entry is filled: the rank's own, or an import. -/
def importNext
    (self : ExchangeRank R)
    (me : Fin R)
    (name : FileName R)
    (todo : List (FileName R)) : ExchangeRank R :=
  { self with
    buffs :=
      self.buffs.set name.2 name.1
        (if name.1 = me then self.localBuff name.2
         else self.table name.2 name.1)
    phase :=
      if todo = [] then .copying else .importing todo }

/- Any call of the attempt fails, or the polling times out. -/
def fail (self : ExchangeRank R) : ExchangeRank R :=
  { self with
    phase := .idle
    table := fun _ _ => none }

end ExchangeRank

namespace ExchangeState

variable {R : Nat}

/- Replace one rank. -/
def setRank
    (s : ExchangeState R)
    (me : Fin R)
    (self : ExchangeRank R) : ExchangeState R :=
  { s with
    rank := fun r => if r = me then self else s.rank r }

/- Replace one file. -/
def publish
    (s : ExchangeState R)
    (me : Fin R)
    (kind : HandleKind) : ExchangeState R :=
  { s with
    files :=
      s.files.set kind me
        (some ((s.rank me).exported me kind)) }

/- One step of one rank, where it can take it. -/
def step
    (s : ExchangeState R)
    (me : Fin R)
    (action : RankAction) : Option (ExchangeState R) :=
  let self := s.rank me
  match action, self.phase with
  | .begin, .idle => some (s.setRank me self.begin)
  | .create, .creating (kind :: todo) =>
      some (s.setRank me (self.create me kind todo))
  | .write, .writing (kind :: todo) =>
      some ((s.publish me kind).setRank me (self.wrote todo))
  | .read, .polling (name :: todo) ready =>
      some (s.setRank me
        (self.read s.files name todo ready))
  | .importNext, .importing (name :: todo) =>
      some (s.setRank me (self.importNext me name todo))
  | .finish, .copying =>
      some (s.setRank me { self with phase := .prepared })
  | .fail, .creating _ | .fail, .writing _
  | .fail, .polling _ _ | .fail, .importing _
  | .fail, .copying => some (s.setRank me self.fail)
  | _, _ => none

end ExchangeState

/-
  All ranks over one directory, which may hold files of an
  earlier run.
-/
def exchangeMachine (R : Nat) :
    Machine (ExchangeState R) (Fin R × RankAction) where
  init := fun s =>
    (∀ r, s.rank r = ExchangeRank.start R) ∧
      ∀ k r h, s.files k r = some h → ∃ n, h = .stale n
  step := fun s a => s.step a.1 a.2

/-
  Two prepared ranks map, for each other, the buffers that
  back the other's local ones.
-/
def ExchangeState.Agrees
    {R : Nat}
    (s : ExchangeState R) : Prop :=
  ∀ i j, i ≠ j →
    (s.rank i).phase = .prepared →
    (s.rank j).phase = .prepared →
      ∀ kind, ∃ h,
        (s.rank i).buffs kind j = some h ∧
          (s.rank j).localBuff kind = some h

------------------------------------------------------------
-- What A Step Can Do
------------------------------------------------------------

/- The seven ways a step changes the state. -/
inductive ExchangeStep
    {R : Nat}
    (s : ExchangeState R)
    (me : Fin R) : RankAction → ExchangeState R → Prop where
| begin
    (hPhase : (s.rank me).phase = .idle) :
    ExchangeStep s me .begin
      (s.setRank me (s.rank me).begin)
| create
    {kind : HandleKind} {todo : List HandleKind}
    (hPhase : (s.rank me).phase = .creating (kind :: todo)) :
    ExchangeStep s me .create
      (s.setRank me ((s.rank me).create me kind todo))
| write
    {kind : HandleKind} {todo : List HandleKind}
    (hPhase : (s.rank me).phase = .writing (kind :: todo)) :
    ExchangeStep s me .write
      ((s.publish me kind).setRank me
        ((s.rank me).wrote todo))
| read
    {name : FileName R} {todo : List (FileName R)}
    {ready : Bool}
    (hPhase :
      (s.rank me).phase = .polling (name :: todo) ready) :
    ExchangeStep s me .read
      (s.setRank me ((s.rank me).read s.files name todo ready))
| importNext
    {name : FileName R} {todo : List (FileName R)}
    (hPhase :
      (s.rank me).phase = .importing (name :: todo)) :
    ExchangeStep s me .importNext
      (s.setRank me ((s.rank me).importNext me name todo))
| finish
    (hPhase : (s.rank me).phase = .copying) :
    ExchangeStep s me .finish
      (s.setRank me { s.rank me with phase := .prepared })
| fail
    (hPhase : (s.rank me).phase ≠ .idle) :
    ExchangeStep s me .fail
      (s.setRank me (s.rank me).fail)

/- A step is one of the seven. -/
theorem exchangeStep_of_step
    {R : Nat}
    {s s' : ExchangeState R}
    {me : Fin R}
    {action : RankAction}
    (hStep : s.step me action = some s') :
    ExchangeStep s me action s' := by
  unfold ExchangeState.step at hStep
  dsimp only at hStep
  split at hStep <;> cases hStep
  · exact .begin ‹_›
  · exact .create ‹_›
  · exact .write ‹_›
  · exact .read ‹_›
  · exact .importNext ‹_›
  · exact .finish ‹_›
  all_goals
    refine .fail ?_
    simp [*]

------------------------------------------------------------
-- What A Rank Has Read And Imported
------------------------------------------------------------

namespace PreparePhase

variable {R : Nat}

/- The file has yet to be read before the loop can end. -/
def Unread : PreparePhase R → FileName R → Prop
| .polling todo ready, name => ready = true → name ∈ todo
| .importing _, _ | .copying, _ | .prepared, _ => False
| _, _ => True

/- The entry has yet to be filled. -/
def Unimported : PreparePhase R → FileName R → Prop
| .importing todo, name => name ∈ todo
| .copying, _ | .prepared, _ => False
| _, _ => True

end PreparePhase

/- Every file is in a pass. -/
theorem mem_pollPass
    {R : Nat}
    (name : FileName R) :
    name ∈ pollPass R := by
  rcases name with ⟨rank, kind⟩
  simp only [pollPass, List.mem_flatMap, List.mem_map]
  refine ⟨rank, List.mem_finRange rank, kind, ?_, rfl⟩
  cases kind <;> simp [HandleKind.all]

/-
  What is not left to read is in the table, and what is not
  left to import is in the pointer tables as it was read.
-/
structure ExchangeRank.Filled
    {R : Nat}
    (rank : ExchangeRank R)
    (me : Fin R) : Prop where
  read :
    ∀ name, rank.phase.Unread name ∨
      (rank.table name.2 name.1).isSome = true
  imported :
    ∀ name, rank.phase.Unimported name ∨ name.1 = me ∨
      rank.buffs name.2 name.1 = rank.table name.2 name.1

namespace ExchangeRank

variable {R : Nat} {self : ExchangeRank R} {me : Fin R}

/- A rank in a phase before the loop is filled trivially. -/
theorem filled_of_early
    (hRead : ∀ name, self.phase.Unread name)
    (hImported : ∀ name, self.phase.Unimported name) :
    self.Filled me where
  read := fun name => Or.inl (hRead name)
  imported := fun name => Or.inl (hImported name)

/- A fresh pass leaves every file to be read. -/
theorem filled_of_newPass
    (hPhase : self.phase = .polling (pollPass R) true) :
    self.Filled me := by
  apply filled_of_early
  · intro name
    rw [hPhase]
    exact fun _ => mem_pollPass name
  · intro name
    rw [hPhase]
    trivial

/- Reading a file keeps the table filled up. -/
theorem filled_read
    (hFilled : self.Filled me)
    {files : Handles R}
    {name : FileName R}
    {todo : List (FileName R)}
    {ready : Bool}
    (hPhase : self.phase = .polling (name :: todo) ready) :
    (self.read files name todo ready).Filled me := by
  -- A ready rank has read what was not left, and now `name`.
  have hTable :
      (ready && (files name.2 name.1).isSome) = true →
        ∀ other, other ∈ todo ∨
          ((self.table.set name.2 name.1
            (files name.2 name.1)) other.2 other.1).isSome =
              true := by
    intro hReady other
    rw [Bool.and_eq_true] at hReady
    by_cases hName : other = name
    · right
      simp [Handles.set, hName, hReady.2]
    · rcases hFilled.read other with hLeft | hSome
      · rw [hPhase] at hLeft
        have hMem := hLeft hReady.1
        left
        exact (List.mem_cons.mp hMem).resolve_left hName
      · right
        unfold Handles.set
        split
        · exact hReady.2
        · exact hSome
  cases todo with
  | nil =>
      by_cases hReady :
          (ready && (files name.2 name.1).isSome) = true
      · constructor
        · intro other
          right
          exact (hTable hReady other).resolve_left
            List.not_mem_nil
        · intro other
          left
          simp only [read, hReady, if_true]
          exact mem_pollPass other
      · apply filled_of_newPass
        simp [read, hReady]
  | cons next rest =>
      by_cases hBreak :
          name.2 = .mailbox ∧
            (ready && (files name.2 name.1).isSome) = false
      · apply filled_of_newPass
        simp only [read, reduceCtorEq, if_false]
        exact if_pos hBreak
      · have hNext :
            (self.read files name (next :: rest) ready).phase =
              .polling (next :: rest)
                (ready && (files name.2 name.1).isSome) := by
          simp only [read, reduceCtorEq, if_false]
          exact if_neg hBreak
        constructor
        · intro other
          rw [hNext]
          by_cases hReady :
              (ready && (files name.2 name.1).isSome) = true
          · exact (hTable hReady other).imp_left
              (fun hMem _ => hMem)
          · exact Or.inl (fun h => absurd h hReady)
        · intro other
          rw [hNext]
          exact Or.inl trivial

/- Importing keeps the pointer tables filled up. -/
theorem filled_importNext
    (hFilled : self.Filled me)
    {name : FileName R}
    {todo : List (FileName R)}
    (hPhase : self.phase = .importing (name :: todo)) :
    (self.importNext me name todo).Filled me := by
  have hBuffs :
      ∀ other, other ∈ todo ∨ other.1 = me ∨
        (self.importNext me name todo).buffs
            other.2 other.1 =
          self.table other.2 other.1 := by
    intro other
    by_cases hName : other = name
    · subst hName
      by_cases hMe : other.1 = me
      · exact Or.inr (Or.inl hMe)
      · right
        right
        simp [importNext, Handles.set, hMe]
    · rcases hFilled.imported other with
        hLeft | hMe | hSame
      · rw [hPhase] at hLeft
        left
        exact (List.mem_cons.mp hLeft).resolve_left hName
      · exact Or.inr (Or.inl hMe)
      · right
        right
        have hOther :
            ¬ (other.2 = name.2 ∧ other.1 = name.1) :=
          fun h => hName (Prod.ext h.2 h.1)
        simp [importNext, Handles.set, hOther, hSame]
  have hTable :
      ∀ other : FileName R,
        (self.table other.2 other.1).isSome = true := by
    intro other
    rcases hFilled.read other with hLeft | hSome
    · rw [hPhase] at hLeft
      exact hLeft.elim
    · exact hSome
  cases todo with
  | nil =>
      constructor
      · intro other
        exact Or.inr (hTable other)
      · intro other
        right
        exact (hBuffs other).resolve_left List.not_mem_nil
  | cons next rest =>
      constructor
      · intro other
        exact Or.inr (hTable other)
      · intro other
        exact hBuffs other

end ExchangeRank

------------------------------------------------------------
-- Agreement
------------------------------------------------------------

/-
  A rank reads from a peer's file no handle but the one that
  backs the peer's buffer, and creates no buffer whose handle
  a peer has read in its running attempt.
-/
def Current
    {R : Nat}
    (s : ExchangeState R)
    (a : Fin R × RankAction) : Prop :=
  match a.2, (s.rank a.1).phase with
  | .read, .polling (name :: _) _ =>
      name.1 ≠ a.1 →
        ∀ h, s.files name.2 name.1 = some h →
          (s.rank name.1).localBuff name.2 = some h
  | .create, .creating (kind :: _) =>
      ∀ i, i ≠ a.1 → (s.rank i).table kind a.1 = none
  | _, _ => True

namespace ExchangeState

variable {R : Nat} {s s' : ExchangeState R} {me : Fin R}

/- What ranks have read is what backs the peers' buffers. -/
def TablesCurrent (s : ExchangeState R) : Prop :=
  ∀ i j, j ≠ i → ∀ kind h,
    (s.rank i).table kind j = some h →
      (s.rank j).localBuff kind = some h

/- The invariant of the exchange. -/
structure Ok (s : ExchangeState R) : Prop where
  current : s.TablesCurrent
  filled : ∀ i, (s.rank i).Filled i

@[simp] theorem setRank_self
    (self : ExchangeRank R) :
    (s.setRank me self).rank me = self :=
  if_pos rfl

theorem setRank_of_ne
    {self : ExchangeRank R}
    {r : Fin R}
    (hNe : r ≠ me) :
    (s.setRank me self).rank r = s.rank r :=
  if_neg hNe

@[simp] theorem publish_rank
    (kind : HandleKind) :
    (s.publish me kind).rank = s.rank := rfl

/- One rank changes its table or its buffers. -/
theorem TablesCurrent.setRank
    (hCurrent : s.TablesCurrent)
    {self : ExchangeRank R}
    (hTable :
      ∀ j, j ≠ me → ∀ kind h,
        self.table kind j = some h →
          (s.rank j).localBuff kind = some h)
    (hLocal :
      ∀ i, i ≠ me → ∀ kind h,
        (s.rank i).table kind me = some h →
          self.localBuff kind = some h) :
    (s.setRank me self).TablesCurrent := by
  intro i j hNe kind h hRead
  by_cases hI : i = me
  · subst hI
    rw [setRank_self] at hRead
    rw [setRank_of_ne hNe]
    exact hTable j hNe kind h hRead
  · rw [setRank_of_ne hI] at hRead
    by_cases hJ : j = me
    · subst hJ
      rw [setRank_self]
      exact hLocal i hI kind h hRead
    · rw [setRank_of_ne hJ]
      exact hCurrent i j hNe kind h hRead

/- A step that keeps a rank's table and local buffers. -/
theorem TablesCurrent.setRank_of_eq
    (hCurrent : s.TablesCurrent)
    {self : ExchangeRank R}
    (hTable : self.table = (s.rank me).table)
    (hLocal : self.localBuff = (s.rank me).localBuff) :
    (s.setRank me self).TablesCurrent := by
  apply hCurrent.setRank
  · intro j hNe kind h hRead
    rw [hTable] at hRead
    exact hCurrent me j hNe kind h hRead
  · intro i hNe kind h hRead
    rw [hLocal]
    exact hCurrent i me hNe.symm kind h hRead

/- A step that forgets a rank's table. -/
theorem TablesCurrent.setRank_of_empty
    (hCurrent : s.TablesCurrent)
    {self : ExchangeRank R}
    (hTable : self.table = fun _ _ => none)
    (hLocal : self.localBuff = (s.rank me).localBuff) :
    (s.setRank me self).TablesCurrent := by
  apply hCurrent.setRank
  · intro j _ kind h hRead
    rw [hTable] at hRead
    cases hRead
  · intro i hNe kind h hRead
    rw [hLocal]
    exact hCurrent i me hNe.symm kind h hRead

/- One rank replaced by a filled one. -/
theorem filled_setRank
    (hFilled : ∀ i, (s.rank i).Filled i)
    {self : ExchangeRank R}
    (hSelf : self.Filled me) :
    ∀ i, ((s.setRank me self).rank i).Filled i := by
  intro i
  by_cases hI : i = me
  · subst hI
    rw [setRank_self]
    exact hSelf
  · rw [setRank_of_ne hI]
    exact hFilled i

/- Steps under the guard keep the tables current. -/
theorem TablesCurrent.step
    (hCurrent : s.TablesCurrent)
    {action : RankAction}
    (hOk : Latency.Current s (me, action))
    (hStep : ExchangeStep s me action s') :
    s'.TablesCurrent := by
  cases hStep with
  | begin hPhase =>
      exact hCurrent.setRank_of_empty rfl rfl
  | @create kind todo hPhase =>
      simp only [Latency.Current, hPhase] at hOk
      apply hCurrent.setRank
      · intro j hNe k h hRead
        exact hCurrent me j hNe k h hRead
      · intro i hNe k h hRead
        -- The new buffer's handle is in nobody's table.
        have hOther : k ≠ kind := by
          intro hSame
          rw [hSame, hOk i hNe] at hRead
          cases hRead
        simp only [ExchangeRank.create, if_neg hOther]
        exact hCurrent i me hNe.symm k h hRead
  | write hPhase =>
      exact TablesCurrent.setRank_of_eq
        (s := s.publish me _) hCurrent rfl rfl
  | @read name todo ready hPhase =>
      simp only [Latency.Current, hPhase] at hOk
      apply hCurrent.setRank
      · intro j hNe k h hRead
        simp only [ExchangeRank.read, Handles.set] at hRead
        split at hRead
        · next hName =>
            rw [hName.1, hName.2]
            exact hOk (hName.2 ▸ hNe) h hRead
        · exact hCurrent me j hNe k h hRead
      · intro i hNe k h hRead
        exact hCurrent i me hNe.symm k h hRead
  | importNext hPhase =>
      exact hCurrent.setRank_of_eq rfl rfl
  | finish hPhase =>
      exact hCurrent.setRank_of_eq rfl rfl
  | fail hPhase =>
      exact hCurrent.setRank_of_empty rfl rfl

/- Every step keeps the ranks filled. -/
theorem filled_step
    (hFilled : ∀ i, (s.rank i).Filled i)
    {action : RankAction}
    (hStep : ExchangeStep s me action s') :
    ∀ i, (s'.rank i).Filled i := by
  cases hStep with
  | begin hPhase =>
      apply filled_setRank hFilled
      exact ExchangeRank.filled_of_early
        (fun _ => trivial) (fun _ => trivial)
  | @create kind todo hPhase =>
      apply filled_setRank hFilled
      cases todo <;>
        exact ExchangeRank.filled_of_early
          (fun _ => trivial) (fun _ => trivial)
  | @write kind todo hPhase =>
      apply filled_setRank (s := s.publish me kind) hFilled
      cases todo with
      | nil =>
          exact ExchangeRank.filled_of_newPass rfl
      | cons next rest =>
          exact ExchangeRank.filled_of_early
            (fun _ => trivial) (fun _ => trivial)
  | read hPhase =>
      apply filled_setRank hFilled
      exact ExchangeRank.filled_read (hFilled me) hPhase
  | importNext hPhase =>
      apply filled_setRank hFilled
      exact ExchangeRank.filled_importNext (hFilled me) hPhase
  | finish hPhase =>
      apply filled_setRank hFilled
      constructor
      · intro name
        have hRead := (hFilled me).read name
        rw [hPhase] at hRead
        exact hRead
      · intro name
        have hImported := (hFilled me).imported name
        rw [hPhase] at hImported
        exact hImported
  | fail hPhase =>
      apply filled_setRank hFilled
      exact ExchangeRank.filled_of_early
        (fun _ => trivial) (fun _ => trivial)

/- The invariant gives agreement. -/
theorem Ok.agrees (hOk : s.Ok) : s.Agrees := by
  intro i j hNe hI _ kind
  have hRead := (hOk.filled i).read (j, kind)
  have hImported := (hOk.filled i).imported (j, kind)
  rw [hI] at hRead hImported
  have hSome := hRead.resolve_left id
  have hSame :=
    (hImported.resolve_left id).resolve_left hNe.symm
  rcases Option.isSome_iff_exists.mp hSome with ⟨h, hTable⟩
  refine ⟨h, ?_, ?_⟩
  · exact hSame.trans hTable
  · exact hOk.current i j hNe.symm kind h hTable

end ExchangeState

/- An initial state meets the invariant. -/
theorem exchangeOk_init
    {R : Nat}
    {s : ExchangeState R}
    (hStart : ∀ r, s.rank r = ExchangeRank.start R) :
    s.Ok where
  current := by
    intro i j _ kind h hRead
    rw [hStart i] at hRead
    cases hRead
  filled := by
    intro i
    rw [hStart i]
    exact ExchangeRank.filled_of_early
      (fun _ => trivial) (fun _ => trivial)

/- Runs under the guard meet the invariant. -/
theorem exchangeOk_of_reach
    {R : Nat}
    {s : ExchangeState R}
    (hReach : (exchangeMachine R).Reach Current s) :
    s.Ok := by
  apply hReach.invariant ExchangeState.Ok
  · intro s hInit
    exact exchangeOk_init hInit.1
  · intro s a s' hBefore hOk hStep
    have hCases := exchangeStep_of_step hStep
    exact
      { current := hBefore.current.step hOk hCases
        filled := ExchangeState.filled_step hBefore.filled
          hCases }

------------------------------------------------------------
-- Single Attempts Over An Empty Directory
------------------------------------------------------------

/- An empty directory and no launch yet. -/
def ExchangeState.empty (R : Nat) : ExchangeState R where
  files := fun _ _ => none
  rank := fun _ => ExchangeRank.start R

/- It is an initial state. -/
theorem exchangeMachine_init_empty (R : Nat) :
    (exchangeMachine R).init (ExchangeState.empty R) :=
  ⟨fun _ => rfl, fun _ _ _ hFile => by cases hFile⟩

/- The exchange over a directory without earlier files. -/
def emptyExchange (R : Nat) :
    Machine (ExchangeState R) (Fin R × RankAction) where
  init := fun s => s = ExchangeState.empty R
  step := (exchangeMachine R).step

/- No rank begins an attempt twice. -/
def FirstAttempt
    {R : Nat}
    (s : ExchangeState R)
    (a : Fin R × RankAction) : Prop :=
  a.2 = .begin → (s.rank a.1).attempt = 0

/-
  The local buffers of a rank in its only attempt: those left
  to create are absent and the others are the attempt's.
-/
def ExchangeRank.Single
    {R : Nat}
    (rank : ExchangeRank R)
    (me : Fin R) : Prop :=
  match rank.phase with
  | .idle =>
      rank.attempt = 0 → ∀ kind, rank.localBuff kind = none
  | .creating todo =>
      rank.attempt ≠ 0 ∧ todo.Nodup ∧
        ∀ kind, rank.localBuff kind =
          if kind ∈ todo then none
          else some (rank.exported me kind)
  | _ =>
      rank.attempt ≠ 0 ∧
        ∀ kind, rank.localBuff kind =
          some (rank.exported me kind)

/- A rank is past its creations. -/
def PreparePhase.Made
    {R : Nat} : PreparePhase R → Prop
| .idle | .creating _ => False
| _ => True

namespace ExchangeRank

variable {R : Nat} {rank : ExchangeRank R} {me : Fin R}

/- A rank past its creations has all its local buffers. -/
theorem Single.of_made
    (hSingle : rank.Single me)
    (hMade : rank.phase.Made) :
    rank.attempt ≠ 0 ∧
      ∀ kind, rank.localBuff kind =
        some (rank.exported me kind) := by
  unfold Single at hSingle
  split at hSingle
  · next h =>
      rw [h] at hMade
      exact hMade.elim
  · next h =>
      rw [h] at hMade
      exact hMade.elim
  · exact hSingle

/- And a rank that has them all is single. -/
theorem single_of_made
    (hMade : rank.phase.Made)
    (hAttempt : rank.attempt ≠ 0)
    (hLocal :
      ∀ kind, rank.localBuff kind =
        some (rank.exported me kind)) :
    rank.Single me := by
  unfold Single
  split
  · exact fun hZero => absurd hZero hAttempt
  · next h =>
      rw [h] at hMade
      exact hMade.elim
  · exact ⟨hAttempt, hLocal⟩

/- A rank that has left its first phase has begun. -/
theorem Single.attempt_ne_zero
    (hSingle : rank.Single me)
    (hPhase : rank.phase ≠ .idle) :
    rank.attempt ≠ 0 := by
  unfold Single at hSingle
  split at hSingle
  · next h => exact absurd h hPhase
  · exact hSingle.1
  · exact hSingle.1

/- Reading leaves a rank past its creations. -/
theorem read_made
    (files : Handles R)
    (name : FileName R)
    (todo : List (FileName R))
    (ready : Bool) :
    (rank.read files name todo ready).phase.Made := by
  unfold read
  dsimp only
  split_ifs <;> trivial

/- Creating a buffer keeps the rank single. -/
theorem single_create
    (hSingle : rank.Single me)
    {kind : HandleKind}
    {todo : List HandleKind}
    (hPhase : rank.phase = .creating (kind :: todo)) :
    (rank.create me kind todo).Single me := by
  simp only [Single, hPhase] at hSingle
  rcases hSingle with ⟨hAttempt, hNodup, hLocal⟩
  rcases List.nodup_cons.mp hNodup with ⟨hFresh, hRest⟩
  have hCreated :
      ∀ k, (rank.create me kind todo).localBuff k =
        if k ∈ todo then none
        else some (rank.exported me k) := by
    intro k
    by_cases hK : k = kind
    · subst hK
      simp [create, hFresh]
    · simp [create, hK, hLocal k]
  cases todo with
  | nil =>
      refine ⟨hAttempt, ?_⟩
      intro k
      exact (hCreated k).trans (if_neg List.not_mem_nil)
  | cons next rest =>
      exact ⟨hAttempt, hRest, hCreated⟩

end ExchangeRank

namespace ExchangeState

variable {R : Nat} {s s' : ExchangeState R} {me : Fin R}

/-
  The invariant of single attempts: what is in a file or was
  read from one backs a local buffer.
-/
structure SingleOk (s : ExchangeState R) : Prop where
  single : ∀ r, (s.rank r).Single r
  files :
    ∀ kind r h, s.files kind r = some h →
      (s.rank r).localBuff kind = some h
  tables :
    ∀ i j kind h, (s.rank i).table kind j = some h →
      (s.rank j).localBuff kind = some h

/- One rank is replaced and keeps what it had created. -/
theorem SingleOk.setRank
    (hOk : s.SingleOk)
    {self : ExchangeRank R}
    (hSingle : self.Single me)
    (hLocal :
      ∀ kind h, (s.rank me).localBuff kind = some h →
        self.localBuff kind = some h)
    (hTable :
      ∀ j kind h, self.table kind j = some h →
        (s.rank j).localBuff kind = some h) :
    (s.setRank me self).SingleOk := by
  have hKeeps :
      ∀ r kind h, (s.rank r).localBuff kind = some h →
        ((s.setRank me self).rank r).localBuff kind =
          some h := by
    intro r kind h hBacks
    by_cases hR : r = me
    · subst hR
      rw [setRank_self]
      exact hLocal kind h hBacks
    · rw [setRank_of_ne hR]
      exact hBacks
  refine ⟨?_, ?_, ?_⟩
  · intro r
    by_cases hR : r = me
    · subst hR
      rw [setRank_self]
      exact hSingle
    · rw [setRank_of_ne hR]
      exact hOk.single r
  · intro kind r h hFile
    exact hKeeps r kind h (hOk.files kind r h hFile)
  · intro i j kind h hRead
    apply hKeeps j kind h
    by_cases hI : i = me
    · subst hI
      rw [setRank_self] at hRead
      exact hTable j kind h hRead
    · rw [setRank_of_ne hI] at hRead
      exact hOk.tables i j kind h hRead

/- The buffer about to be created is not there yet. -/
theorem SingleOk.absent
    (hOk : s.SingleOk)
    {kind : HandleKind}
    {todo : List HandleKind}
    (hPhase : (s.rank me).phase = .creating (kind :: todo)) :
    (s.rank me).localBuff kind = none := by
  have hSingle := hOk.single me
  simp only [ExchangeRank.Single, hPhase] at hSingle
  rw [hSingle.2.2 kind, if_pos List.mem_cons_self]

/- Steps of first attempts keep the invariant. -/
theorem SingleOk.step
    (hOk : s.SingleOk)
    {action : RankAction}
    (hFirst : FirstAttempt s (me, action))
    (hStep : ExchangeStep s me action s') :
    s'.SingleOk := by
  have hSingle := hOk.single me
  cases hStep with
  | begin hPhase =>
      have hNone : ∀ kind, (s.rank me).localBuff kind = none := by
        simp only [ExchangeRank.Single, hPhase] at hSingle
        exact hSingle (hFirst rfl)
      apply hOk.setRank
      · refine ⟨Nat.succ_ne_zero _, by decide, ?_⟩
        intro kind
        rw [if_pos (by cases kind <;> decide)]
        exact hNone kind
      · intro kind h hBacks
        exact hBacks
      · intro j kind h hRead
        cases hRead
  | @create kind todo hPhase =>
      apply hOk.setRank
      · exact ExchangeRank.single_create hSingle hPhase
      · intro k h hBacks
        have hOther : k ≠ kind := by
          intro hSame
          rw [hSame, hOk.absent hPhase] at hBacks
          cases hBacks
        simp only [ExchangeRank.create, if_neg hOther]
        exact hBacks
      · exact hOk.tables me
  | @write kind todo hPhase =>
      have hMade := hSingle.of_made (by rw [hPhase]; trivial)
      have hPublished : (s.publish me kind).SingleOk := by
        refine ⟨hOk.single, ?_, hOk.tables⟩
        intro k r h hFile
        simp only [publish, Handles.set] at hFile
        split at hFile
        · next hName =>
            rw [hName.1, hName.2, publish_rank, hMade.2 kind]
            exact hFile
        · exact hOk.files k r h hFile
      apply hPublished.setRank
      · cases todo <;> exact hMade
      · intro k h hBacks
        exact hBacks
      · exact hOk.tables me
  | @read name todo ready hPhase =>
      have hMade := hSingle.of_made (by rw [hPhase]; trivial)
      apply hOk.setRank
      · exact ExchangeRank.single_of_made
          (ExchangeRank.read_made s.files name todo ready)
          hMade.1 hMade.2
      · intro k h hBacks
        exact hBacks
      · intro j k h hRead
        simp only [ExchangeRank.read, Handles.set] at hRead
        split at hRead
        · next hName =>
            rw [hName.1, hName.2]
            exact hOk.files name.2 name.1 h hRead
        · exact hOk.tables me j k h hRead
  | @importNext name todo hPhase =>
      have hMade := hSingle.of_made (by rw [hPhase]; trivial)
      apply hOk.setRank
      · cases todo <;> exact hMade
      · intro k h hBacks
        exact hBacks
      · exact hOk.tables me
  | finish hPhase =>
      have hMade := hSingle.of_made (by rw [hPhase]; trivial)
      apply hOk.setRank
      · exact hMade
      · intro k h hBacks
        exact hBacks
      · exact hOk.tables me
  | fail hPhase =>
      have hBegun := hSingle.attempt_ne_zero hPhase
      apply hOk.setRank
      · intro hZero
        exact absurd hZero hBegun
      · intro k h hBacks
        exact hBacks
      · intro j k h hRead
        cases hRead

end ExchangeState

/- Runs of first attempts keep the invariant. -/
theorem singleOk_of_reach
    {R : Nat}
    {s : ExchangeState R}
    (hReach : (emptyExchange R).Reach FirstAttempt s) :
    s.SingleOk := by
  apply hReach.invariant ExchangeState.SingleOk
  · intro s hInit
    rw [hInit]
    refine ⟨?_, ?_, ?_⟩
    · intro r _ kind
      rfl
    · intro kind r h hFile
      cases hFile
    · intro i j kind h hRead
      cases hRead
  · intro s a s' hOk hFirst hStep
    exact hOk.step hFirst (exchangeStep_of_step hStep)

/- In such runs every read is current. -/
theorem current_of_singleOk
    {R : Nat}
    {s : ExchangeState R}
    (hOk : s.SingleOk)
    (a : Fin R × RankAction) :
    Current s a := by
  unfold Current
  split
  · intro _ h hFile
    exact hOk.files _ _ h hFile
  · next hPhase =>
      intro i _
      cases hRead : (s.rank i).table _ a.1 with
      | none => rfl
      | some h =>
          have hBacks := hOk.tables i a.1 _ h hRead
          rw [hOk.absent hPhase] at hBacks
          cases hBacks
  · trivial

/-
  Over an empty directory, as long as no rank repeats an
  attempt, every read is current.
-/
theorem reach_current_of_single
    {R : Nat}
    {s : ExchangeState R}
    (hReach : (emptyExchange R).Reach FirstAttempt s) :
    (exchangeMachine R).Reach Current s := by
  have hCurrent : (emptyExchange R).Reach Current s :=
    hReach.strengthen
      (fun s a hBefore _ =>
        current_of_singleOk (singleOk_of_reach hBefore) a)
  apply hCurrent.of_same_steps
  · intro s hInit
    rw [hInit]
    exact exchangeMachine_init_empty R
  · intro s a _ _
    rfl

/- There prepared ranks agree. -/
theorem agrees_of_single_attempts
    {R : Nat}
    {s : ExchangeState R}
    (hReach : (emptyExchange R).Reach FirstAttempt s) :
    s.Agrees :=
  (exchangeOk_of_reach (reach_current_of_single hReach)).agrees

------------------------------------------------------------
-- When Prepared Ranks Agree
------------------------------------------------------------

/-
  In runs where ranks read current handles only and re-create
  no buffer a peer has read about, prepared ranks agree.
-/
theorem exchange_agrees
    {R : Nat}
    {s : ExchangeState R}
    (hReach : (exchangeMachine R).Reach Current s) :
    s.Agrees :=
  (exchangeOk_of_reach hReach).agrees

/- The actions of one rank. -/
def byRank
    {R : Nat}
    (rank : Fin R)
    (actions : List RankAction) :
    List (Fin R × RankAction) :=
  actions.map (fun action => (rank, action))

/- A launch creates the buffers and renames the files. -/
def publishAll : List RankAction :=
  .begin :: List.replicate 3 .create ++
    List.replicate 3 .write

/- It fills six entries of each table and is prepared. -/
def importAll : List RankAction :=
  List.replicate 6 .importNext ++ [.finish]

/- Two ranks that both publish before either polls. -/
def pairedExchange : List (Fin 2 × RankAction) :=
  byRank 0 publishAll ++ byRank 1 publishAll ++
    byRank 0 (List.replicate 6 .read ++ importAll) ++
    byRank 1 (List.replicate 6 .read ++ importAll)

/- They are prepared and agree. -/
theorem exchange_agrees_pairedExchange :
    ∃ s, (exchangeMachine 2).Reach Current s ∧
      (s.rank 0).phase = .prepared ∧
      (s.rank 1).phase = .prepared ∧ s.Agrees := by
  have hRun :
      ((emptyExchange 2).runWhile
        (fun s a =>
          !(a.2 == .begin) || (s.rank a.1).attempt == 0)
        (ExchangeState.empty 2) pairedExchange).any
        (fun s =>
          (s.rank 0).phase = .prepared ∧
          (s.rank 1).phase = .prepared) = true := by
    decide +kernel
  rcases (Option.any_eq_true _ _).mp hRun with
    ⟨s, hSome, hEnd⟩
  rcases of_decide_eq_true hEnd with ⟨hZero, hOne⟩
  have hReach : (emptyExchange 2).Reach FirstAttempt s := by
    refine Machine.reach_of_runWhile ?_
      (Machine.Reach.init rfl) hSome
    intro s a hCheck hBegin
    simpa [hBegin] using hCheck
  have hCurrent := reach_current_of_single hReach
  exact ⟨s, hCurrent, hZero, hOne, exchange_agrees hCurrent⟩

/-
  Rank 0 publishes and times out, rank 1 publishes and reads
  all files, and rank 0 repeats its attempt before rank 1
  imports.
-/
def retriedExchange : List (Fin 2 × RankAction) :=
  byRank 0 (publishAll ++ [.fail]) ++
    byRank 1 (publishAll ++ List.replicate 6 .read) ++
    byRank 0
      (publishAll ++ List.replicate 6 .read ++ importAll) ++
    byRank 1 importAll

/- Two prepared ranks need not agree. -/
theorem not_exchange_agrees :
    ¬ ∀ (R : Nat) (s : ExchangeState R),
      (exchangeMachine R).Reachable s → s.Agrees := by
  intro hAll
  have hRun :
      ((exchangeMachine 2).run (ExchangeState.empty 2)
        retriedExchange).any
        (fun s =>
          (s.rank 0).phase = .prepared ∧
          (s.rank 1).phase = .prepared ∧
          (s.rank 1).buffs .leader 0 =
            some (.own 0 1 .leader) ∧
          (s.rank 0).localBuff .leader =
            some (.own 0 2 .leader)) = true := by
    decide +kernel
  rcases (Option.any_eq_true _ _).mp hRun with
    ⟨s, hSome, hEnd⟩
  rcases of_decide_eq_true hEnd with
    ⟨hZero, hOne, hMapped, hLocal⟩
  have hReach :=
    Machine.reachable_of_run
      (Machine.Reach.init (exchangeMachine_init_empty 2))
      hSome
  rcases hAll 2 s hReach 1 0 (by decide) hOne hZero .leader
    with ⟨h, hBuffs, hBacks⟩
  rw [hMapped] at hBuffs
  rw [hLocal, ← hBuffs] at hBacks
  exact absurd hBacks (by decide)

end Latency

end FabricPerf
