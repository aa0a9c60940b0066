import FabricPerf.Runtime.Resources

/-
  When the teardown accounts for every resource.

  An attempt executes a prefix of the preparation.  What it
  leaves in the tables can be read off that prefix, and a
  resource that is in no table at the end is lost.

  Main declarations:
    * `Runtime.Kept`
    * `Runtime.kept_exec_iff`
    * `Runtime.Accounted`
    * `Runtime.balanced_iff_accounted`
-/

------------------------------------------------------------
-- What A Trace Leaves In The Tables
------------------------------------------------------------

namespace FabricPerf

namespace Runtime

open Latency (HandleKind)

section Exec

variable {R : Nat} {me : Fin R}
variable {s : BufferRuntime R} {ops : List (PrepareOp R)}

@[simp] theorem exec_nil : exec me s [] = s := rfl

@[simp] theorem exec_cons
    (op : PrepareOp R) :
    exec me s (op :: ops) = exec me (op.apply me s) ops := rfl

theorem exec_append
    (first second : List (PrepareOp R)) :
    exec me s (first ++ second) =
      exec me (exec me s first) second :=
  List.foldl_append

@[simp] theorem apply_attempt
    (op : PrepareOp R) :
    (op.apply me s).attempt = s.attempt := by
  cases op <;> rfl

@[simp] theorem apply_released
    (op : PrepareOp R) :
    (op.apply me s).released = s.released := by
  cases op <;> rfl

@[simp] theorem apply_acquired
    (op : PrepareOp R) :
    (op.apply me s).acquired =
      s.acquired ++ (op.acquires s.attempt).toList := by
  cases op <;> rfl

@[simp] theorem exec_attempt :
    (exec me s ops).attempt = s.attempt := by
  induction ops generalizing s with
  | nil => rfl
  | cons op rest ih =>
      rw [exec_cons, ih, apply_attempt]

@[simp] theorem exec_released :
    (exec me s ops).released = s.released := by
  induction ops generalizing s with
  | nil => rfl
  | cons op rest ih =>
      rw [exec_cons, ih, apply_released]

theorem exec_acquired :
    (exec me s ops).acquired =
      s.acquired ++
        ops.filterMap (PrepareOp.acquires s.attempt) := by
  induction ops generalizing s with
  | nil => simp
  | cons op rest ih =>
      rw [exec_cons, ih, apply_acquired, apply_attempt,
        List.append_assoc]
      cases hOp : op.acquires s.attempt <;> simp [hOp]

/- A run of steps prepares the buffers by its last step. -/
theorem exec_prepared :
    (exec me s ops).prepared =
      (s.prepared || decide (PrepareOp.done ∈ ops)) := by
  induction ops generalizing s with
  | nil => simp
  | cons op rest ih =>
      rw [exec_cons, ih]
      cases op <;> simp [PrepareOp.apply]

/- The device tables: nothing clears them. -/
theorem exec_device
    (table : DeviceTable) :
    (exec me s ops).device table =
      if PrepareOp.alloc table ∈ ops then some s.attempt
      else s.device table := by
  induction ops generalizing s with
  | nil => simp
  | cons op rest ih =>
      rw [exec_cons, ih]
      cases op with
      | alloc other =>
          by_cases hSame : table = other
          · simp [PrepareOp.apply, hSame]
          · simp [PrepareOp.apply, hSame]
      | _ => simp [PrepareOp.apply]

/- The handles, as long as the arrays are not replaced. -/
theorem exec_handles
    (hReset : PrepareOp.reset ∉ ops)
    (slot : BufferSlot R) :
    (exec me s ops).handles slot =
      if PrepareOp.obtain slot ∈ ops then some s.attempt
      else s.handles slot := by
  induction ops generalizing s with
  | nil => simp
  | cons op rest ih =>
      rw [List.mem_cons, not_or] at hReset
      rw [exec_cons, ih hReset.2]
      cases op with
      | obtain other =>
          by_cases hSame : slot = other
          · simp [PrepareOp.apply, hSame]
          · simp [PrepareOp.apply, hSame]
      | reset => exact absurd rfl hReset.1
      | _ => simp [PrepareOp.apply]

/- The local pointers. -/
theorem exec_localBuff
    (kind : HandleKind) :
    (exec me s ops).localBuff kind =
      if PrepareOp.keepLocal kind ∈ ops then some s.attempt
      else s.localBuff kind := by
  induction ops generalizing s with
  | nil => simp
  | cons op rest ih =>
      rw [exec_cons, ih]
      cases op with
      | keepLocal other =>
          by_cases hSame : kind = other
          · simp [PrepareOp.apply, hSame]
          · simp [PrepareOp.apply, hSame]
      | _ => simp [PrepareOp.apply]

/-
  The mapped views, as long as the arrays are not replaced
  and the local pointers are this attempt's.
-/
theorem exec_buffs
    (hReset : PrepareOp.reset ∉ ops)
    (hKeep : ∀ kind, PrepareOp.keepLocal kind ∉ ops)
    (hLocal :
      ∀ slot, PrepareOp.record slot ∈ ops →
        s.localBuff slot.1 = some s.attempt)
    (slot : BufferSlot R) :
    (exec me s ops).buffs slot =
      if PrepareOp.record slot ∈ ops then some s.attempt
      else s.buffs slot := by
  induction ops generalizing s with
  | nil => simp
  | cons op rest ih =>
      rw [List.mem_cons, not_or] at hReset
      have hRest :
          ∀ other, PrepareOp.record other ∈ rest →
            (op.apply me s).localBuff other.1 =
              some (op.apply me s).attempt := by
        intro other hMem
        have hSame := hLocal other (List.mem_cons_of_mem op hMem)
        cases op with
        | keepLocal kind =>
            exact absurd List.mem_cons_self (hKeep kind)
        | _ => exact hSame
      rw [exec_cons,
        ih hReset.2
          (fun kind hMem =>
            hKeep kind (List.mem_cons_of_mem op hMem))
          hRest]
      cases op with
      | record other =>
          have hOther := hLocal other List.mem_cons_self
          by_cases hSame : slot = other
          · simp [PrepareOp.apply, hSame, hOther]
          · simp [PrepareOp.apply, hSame]
      | reset => exact absurd rfl hReset.1
      | _ => simp [PrepareOp.apply]

/- Without a record the mapped views stay. -/
theorem exec_buffs_of_not_record
    (hReset : PrepareOp.reset ∉ ops)
    (hRecord : ∀ slot, PrepareOp.record slot ∉ ops) :
    (exec me s ops).buffs = s.buffs := by
  induction ops generalizing s with
  | nil => rfl
  | cons op rest ih =>
      rw [List.mem_cons, not_or] at hReset
      rw [exec_cons,
        ih hReset.2
          (fun slot hMem =>
            hRecord slot (List.mem_cons_of_mem op hMem))]
      cases op with
      | record other =>
          exact absurd List.mem_cons_self (hRecord other)
      | reset => exact absurd rfl hReset.1
      | _ => rfl

end Exec

------------------------------------------------------------
-- The Steps Of The Preparation
------------------------------------------------------------

section Steps

variable {R : Nat} {p : Plugin} {me : Fin R}

/- The arrays are replaced before anything else is done. -/
theorem reset_not_mem :
    PrepareOp.reset ∉
      createAllOps p me ++ shareOps p me := by
  simp only [createAllOps, shareOps, createOps, tableOps,
    List.mem_append, List.mem_cons, List.mem_flatMap,
    List.not_mem_nil, reduceCtorEq, or_false, false_or,
    and_false, exists_false, not_exists, not_and]
  intro rank _ hMem
  unfold rankOps at hMem
  split at hMem <;> simp [importOps] at hMem

/- A rank's own views are recorded from its local pointers. -/
theorem record_not_mem_createAllOps
    (slot : BufferSlot R) :
    PrepareOp.record slot ∉ createAllOps p me := by
  simp [createAllOps, createOps]

theorem keepLocal_mem_createAllOps
    {kind : HandleKind}
    (hKind : kind ∈ p.kinds) :
    PrepareOp.keepLocal kind ∈ createAllOps p me := by
  simp [createAllOps, createOps, hKind]

theorem keepLocal_not_mem_shareOps
    (kind : HandleKind) :
    PrepareOp.keepLocal kind ∉ shareOps p me := by
  simp only [shareOps, tableOps, List.mem_append,
    List.mem_cons, List.mem_flatMap, List.not_mem_nil,
    reduceCtorEq, or_false, false_or, and_false,
    exists_false, not_exists, not_and]
  intro rank _ hMem
  unfold rankOps at hMem
  split at hMem <;> simp [importOps] at hMem

theorem kind_mem_of_record
    {slot : BufferSlot R}
    (hMem : PrepareOp.record slot ∈ shareOps p me) :
    slot.1 ∈ p.kinds := by
  simp only [shareOps, tableOps, List.mem_append,
    List.mem_cons, List.mem_flatMap, List.not_mem_nil,
    reduceCtorEq, or_false, false_or, and_false,
    exists_false] at hMem
  rcases hMem with ⟨rank, _, hRank⟩
  unfold rankOps at hRank
  split at hRank
  · rcases List.mem_map.mp hRank with ⟨kind, hKind, hSlot⟩
    cases hSlot
    exact hKind
  · rcases List.mem_flatMap.mp hRank with
      ⟨kind, hKind, hImport⟩
    simp only [importOps, List.mem_cons, reduceCtorEq,
      PrepareOp.record.injEq, List.not_mem_nil, or_false,
      false_or] at hImport
    rw [hImport]
    exact hKind

/-
  A prefix of the preparation makes only its checks, or
  replaces the arrays after them.
-/
theorem trace_cases
    {t : List (PrepareOp R)}
    (hTrace : t <+: prepareOps p me) :
    (∀ op ∈ t, op = .call) ∨
      ∃ body, body <+: createAllOps p me ++ shareOps p me ∧
        t = checkOps R ++ .reset :: body := by
  rcases EarlyReturn.prefix_append_cases hTrace with
    hChecks | ⟨rest, hRest, hSplit⟩
  · left
    intro op hOp
    have hMem := hChecks.subset hOp
    simpa [checkOps] using hMem
  · rcases List.prefix_cons_iff.mp hRest with
      hNil | ⟨body, hBody, hPrefix⟩
    · left
      intro op hOp
      rw [hSplit, hNil, List.append_nil] at hOp
      simpa [checkOps] using hOp
    · right
      rw [hBody] at hSplit
      exact ⟨body, hPrefix, hSplit⟩

variable {s : BufferRuntime R} {body : List (PrepareOp R)}

/- The handles after the arrays were replaced. -/
theorem handles_of_reset
    (hBody : body <+: createAllOps p me ++ shareOps p me)
    (slot : BufferSlot R) :
    (exec me s (checkOps R ++ .reset :: body)).handles slot =
      if PrepareOp.obtain slot ∈ body then some s.attempt
      else none := by
  have hReset : PrepareOp.reset ∉ body :=
    fun hMem => reset_not_mem (hBody.subset hMem)
  rw [exec_append, exec_cons, exec_handles hReset,
    apply_attempt, exec_attempt]
  rfl

/- The mapped views after the arrays were replaced. -/
theorem buffs_of_reset
    (hBody : body <+: createAllOps p me ++ shareOps p me)
    (slot : BufferSlot R) :
    (exec me s (checkOps R ++ .reset :: body)).buffs slot =
      if PrepareOp.record slot ∈ body then some s.attempt
      else none := by
  have hReset : PrepareOp.reset ∉ body :=
    fun hMem => reset_not_mem (hBody.subset hMem)
  rw [exec_append, exec_cons]
  rcases EarlyReturn.prefix_append_cases hBody with
    hCreate | ⟨rest, hShare, hSplit⟩
  · -- No view is recorded before the buffers are shared.
    have hNone : ∀ other, PrepareOp.record other ∉ body :=
      fun other hMem =>
        record_not_mem_createAllOps other
          (hCreate.subset hMem)
    rw [exec_buffs_of_not_record hReset hNone,
      if_neg (hNone slot)]
    rfl
  · subst hSplit
    rw [List.mem_append, not_or] at hReset
    rw [exec_append, exec_buffs hReset.2]
    · rw [exec_buffs_of_not_record hReset.1
          record_not_mem_createAllOps]
      simp only [exec_attempt, apply_attempt, List.mem_append,
        record_not_mem_createAllOps, false_or]
      rfl
    · intro kind hMem
      exact keepLocal_not_mem_shareOps kind
        (hShare.subset hMem)
    · intro other hMem
      have hKind := kind_mem_of_record (hShare.subset hMem)
      rw [exec_localBuff,
        if_pos (keepLocal_mem_createAllOps hKind),
        exec_attempt]

/- The first thing acquired is a handle. -/
theorem obtains_of_acquires
    {t : List (PrepareOp R)}
    (hTrace : t <+: prepareOps p me)
    {op : PrepareOp R}
    {n : Nat}
    (hOp : op ∈ t)
    (hAcquires : op.acquires n ≠ none) :
    ∃ slot, PrepareOp.obtain slot ∈ t := by
  rcases List.exists_cons_of_ne_nil p.kinds_ne_nil with
    ⟨kind, kinds, hKinds⟩
  have hSplit :
      ∃ rest, prepareOps p me =
        (checkOps R ++ [.reset, .call, .call]) ++
          .obtain (kind, me) :: rest := by
    simp only [prepareOps, createAllOps, hKinds,
      List.flatMap_cons, createOps]
    exact ⟨_, by simp [checkOps]; rfl⟩
  rcases hSplit with ⟨rest, hOps⟩
  rw [hOps] at hTrace
  have hEarly :
      ∀ other ∈ checkOps R ++ [.reset, .call, .call],
        other.acquires n = none := by
    intro other hMem
    have hEither : other = .call ∨ other = .reset := by
      simp only [checkOps, List.cons_append, List.nil_append,
        List.mem_cons, List.not_mem_nil, or_false] at hMem
      tauto
    rcases hEither with hCall | hReset
    · rw [hCall]
      rfl
    · rw [hReset]
      rfl
  rcases EarlyReturn.prefix_append_cases hTrace with
    hFirst | ⟨later, hLater, hT⟩
  · exact absurd (hEarly op (hFirst.subset hOp)) hAcquires
  · rcases List.prefix_cons_iff.mp hLater with
      hNil | ⟨tail, hTail, _⟩
    · rw [hT, hNil, List.append_nil] at hOp
      exact absurd (hEarly op hOp) hAcquires
    · refine ⟨(kind, me), ?_⟩
      rw [hT, hTail]
      exact List.mem_append_right _ List.mem_cons_self

end Steps

------------------------------------------------------------
-- No Resource Is Acquired Twice
------------------------------------------------------------

section Names

variable {R : Nat} (p : Plugin) (me : Fin R) (n : Nat)

/- The two resources behind one view. -/
def views (slot : BufferSlot R) : List (Resource R) :=
  [.handle n slot, .range n slot]

/- The views in the order in which they are obtained. -/
def obtainedSlots : List (BufferSlot R) :=
  p.kinds.map (fun kind => (kind, me)) ++
    (List.finRange R).flatMap
      (fun rank =>
        if rank = me then []
        else p.kinds.map (fun kind => (kind, rank)))

/- All that a complete attempt acquires. -/
theorem acquired_prepareOps :
    (prepareOps p me).filterMap (PrepareOp.acquires n) =
      (obtainedSlots p me).flatMap (views n) ++
        p.tables.map (Resource.allocation n) := by
  have hRank :
      ∀ rank : Fin R,
        (rankOps p me rank).filterMap (PrepareOp.acquires n) =
          (if rank = me then []
            else p.kinds.map (fun kind => (kind, rank))).flatMap
              (views n) := by
    intro rank
    unfold rankOps
    split
    · simp [List.filterMap_map, PrepareOp.acquires]
    · rw [List.filterMap_flatMap, List.flatMap_map]
      rfl
  simp only [prepareOps, createAllOps, shareOps, checkOps,
    List.filterMap_append, List.filterMap_cons,
    List.filterMap_nil, PrepareOp.acquires,
    List.filterMap_flatMap, obtainedSlots,
    List.flatMap_append, List.flatMap_map, List.flatMap_assoc,
    hRank, List.nil_append, List.append_nil, createOps,
    tableOps, views, List.append_assoc]
  rw [List.map_eq_flatMap]

/- Every view is obtained once. -/
theorem obtainedSlots_nodup : (obtainedSlots p me).Nodup := by
  have hMap :
      ∀ rank : Fin R,
        (p.kinds.map (fun kind => (kind, rank))).Nodup := by
    intro rank
    exact p.kinds_nodup.map (fun a b h => (Prod.mk.inj h).1)
  refine List.nodup_append'.mpr ⟨hMap me, ?_, ?_⟩
  · refine List.nodup_flatMap.mpr ⟨?_, ?_⟩
    · intro rank _
      split
      · exact List.nodup_nil
      · exact hMap rank
    · refine (List.nodup_finRange R).imp ?_
      intro a b hNe slot hA hB
      dsimp only at hA hB
      split at hA
      · cases hA
      · split at hB
        · cases hB
        · rcases List.mem_map.mp hA with ⟨_, _, hSlot⟩
          rcases List.mem_map.mp hB with ⟨_, _, hSlot'⟩
          rw [← hSlot'] at hSlot
          exact hNe (Prod.mk.inj hSlot).2
  · intro slot hOwn hPeer
    rcases List.mem_map.mp hOwn with ⟨_, _, hSlot⟩
    rcases List.mem_flatMap.mp hPeer with ⟨rank, _, hRank⟩
    split at hRank
    · cases hRank
    · next hNe =>
        rcases List.mem_map.mp hRank with ⟨_, _, hSlot'⟩
        rw [← hSlot] at hSlot'
        exact hNe (Prod.mk.inj hSlot').2

/- So no attempt acquires a resource twice. -/
theorem acquired_prepareOps_nodup :
    ((prepareOps p me).filterMap
      (PrepareOp.acquires n)).Nodup := by
  rw [acquired_prepareOps]
  refine List.nodup_append'.mpr ⟨?_, ?_, ?_⟩
  · refine List.nodup_flatMap.mpr ⟨?_, ?_⟩
    · intro slot _
      simp [views]
    · refine (obtainedSlots_nodup p me).imp ?_
      intro a b hNe
      simp [Function.onFun, views, hNe.symm]
  · exact p.tables_nodup.map (fun a b h => by
      cases h
      rfl)
  · intro resource hView hTable
    rcases List.mem_map.mp hTable with ⟨table, _, hAlloc⟩
    rcases List.mem_flatMap.mp hView with ⟨slot, _, hIn⟩
    rw [← hAlloc] at hIn
    simp [views] at hIn

end Names

------------------------------------------------------------
-- Attempts
------------------------------------------------------------

/- The trace obtains a handle. -/
def Acquires
    {R : Nat}
    (t : List (PrepareOp R)) : Prop :=
  ∃ slot, PrepareOp.obtain slot ∈ t

/- The trace replaces the bookkeeping arrays. -/
def Resets
    {R : Nat}
    (t : List (PrepareOp R)) : Prop :=
  PrepareOp.reset ∈ t

/- Every range the trace maps is recorded by it. -/
def Records
    {R : Nat}
    (t : List (PrepareOp R)) : Prop :=
  ∀ slot, PrepareOp.map slot ∈ t → PrepareOp.record slot ∈ t

/- Every resource is in the table the teardown looks into. -/
structure Kept
    {R : Nat}
    (s : BufferRuntime R) : Prop where
  handle :
    ∀ n slot, Resource.handle n slot ∈ s.acquired →
      s.handles slot = some n
  range :
    ∀ n slot, Resource.range n slot ∈ s.acquired →
      s.buffs slot = some n
  allocation :
    ∀ n table, Resource.allocation n table ∈ s.acquired →
      s.device table = some n

/-
  What holds between the attempts.  Resources are named by
  the attempts so far, and a handle comes first.
-/
structure Named
    {R : Nat}
    (s : BufferRuntime R) : Prop where
  old : ∀ r ∈ s.acquired, r.attempt ≤ s.attempt
  first :
    s.acquired ≠ [] →
      ∃ n slot, Resource.handle n slot ∈ s.acquired

section Attempts

variable {R : Nat} {p : Plugin} {me : Fin R}
variable {s : BufferRuntime R} {t : List (PrepareOp R)}

/- One attempt that executes the trace. -/
def execAttempt
    (me : Fin R)
    (s : BufferRuntime R)
    (t : List (PrepareOp R)) : BufferRuntime R :=
  exec me { s with attempt := s.attempt + 1 } t

theorem execAttempt_acquired :
    (execAttempt me s t).acquired =
      s.acquired ++
        t.filterMap (PrepareOp.acquires (s.attempt + 1)) :=
  exec_acquired

/- What a trace acquires is named by its attempt. -/
theorem attempt_of_acquires
    {n : Nat}
    {op : PrepareOp R}
    {r : Resource R}
    (hAcquires : op.acquires n = some r) :
    r.attempt = n := by
  cases op <;> cases hAcquires <;> rfl

/- A resource of an attempt is an old or a new one. -/
theorem mem_execAttempt_acquired
    {r : Resource R} :
    r ∈ (execAttempt me s t).acquired ↔
      r ∈ s.acquired ∨
        ∃ op ∈ t, op.acquires (s.attempt + 1) = some r := by
  rw [execAttempt_acquired, List.mem_append,
    List.mem_filterMap]

/- A trace that only checks leaves everything as it is. -/
theorem exec_of_calls
    (hCalls : ∀ op ∈ t, op = .call) :
    exec me s t = s := by
  induction t with
  | nil => rfl
  | cons op rest ih =>
      have hCall := hCalls op List.mem_cons_self
      have hSame : PrepareOp.apply me s op = s := by
        rw [hCall]
        simp [PrepareOp.apply, PrepareOp.acquires]
      rw [exec_cons, hSame]
      exact ih
        (fun other hMem =>
          hCalls other (List.mem_cons_of_mem op hMem))

/- Attempts keep the resources named. -/
theorem Named.execAttempt
    (hNamed : Named s)
    (hTrace : t <+: prepareOps p me) :
    Named (execAttempt me s t) where
  old := by
    intro r hMem
    have hAttempt :
        (Runtime.execAttempt me s t).attempt =
          s.attempt + 1 :=
      exec_attempt
    rw [hAttempt]
    rcases mem_execAttempt_acquired.mp hMem with
      hOld | ⟨op, _, hAcquires⟩
    · exact Nat.le_succ_of_le (hNamed.old r hOld)
    · exact (attempt_of_acquires hAcquires).le
  first := by
    intro hSome
    rcases List.exists_mem_of_ne_nil _ hSome with ⟨r, hMem⟩
    rcases mem_execAttempt_acquired.mp hMem with
      hOld | ⟨op, hOp, hAcquires⟩
    · rcases hNamed.first (List.ne_nil_of_mem hOld) with
        ⟨n, slot, hHandle⟩
      exact ⟨n, slot,
        mem_execAttempt_acquired.mpr (Or.inl hHandle)⟩
    · rcases obtains_of_acquires hTrace hOp
          (n := s.attempt + 1) (by simp [hAcquires]) with
        ⟨slot, hObtain⟩
      exact ⟨s.attempt + 1, slot,
        mem_execAttempt_acquired.mpr
          (Or.inr ⟨_, hObtain, rfl⟩)⟩

/- Nothing is acquired yet iff neither part acquires. -/
theorem execAttempt_acquired_eq_nil_iff
    (hTrace : t <+: prepareOps p me) :
    (execAttempt me s t).acquired = [] ↔
      s.acquired = [] ∧ ¬ Acquires t := by
  rw [execAttempt_acquired, List.append_eq_nil_iff]
  apply and_congr_right
  intro _
  constructor
  · rintro hNone ⟨slot, hObtain⟩
    cases List.filterMap_eq_nil_iff.mp hNone _ hObtain
  · intro hNone
    rw [List.filterMap_eq_nil_iff]
    intro op hOp
    by_contra hAcquires
    exact hNone (obtains_of_acquires hTrace hOp hAcquires)

/- An attempt that only checks keeps what was kept. -/
theorem kept_execAttempt_of_calls
    (hCalls : ∀ op ∈ t, op = .call) :
    Kept (execAttempt me s t) ↔ Kept s := by
  have hSame :
      execAttempt me s t =
        { s with attempt := s.attempt + 1 } :=
    exec_of_calls hCalls
  rw [hSame]
  constructor
  · intro hKept
    exact ⟨hKept.handle, hKept.range, hKept.allocation⟩
  · intro hKept
    exact ⟨hKept.handle, hKept.range, hKept.allocation⟩

/- A trace that only checks neither resets nor maps. -/
theorem not_resets_of_calls
    (hCalls : ∀ op ∈ t, op = .call) :
    ¬ Resets t ∧ Records t := by
  constructor
  · intro hMem
    cases hCalls _ hMem
  · intro slot hMem
    cases hCalls _ hMem

variable {body : List (PrepareOp R)}

/- Other operations stand behind the reset. -/
theorem mem_body_iff
    {op : PrepareOp R}
    (hCall : op ≠ .call)
    (hReset : op ≠ .reset) :
    op ∈ checkOps R ++ .reset :: body ↔ op ∈ body := by
  simp [checkOps, hCall, hReset]

/- The handles after an attempt that replaces the arrays. -/
theorem handles_execAttempt
    (hBody : body <+: createAllOps p me ++ shareOps p me)
    (slot : BufferSlot R) :
    (execAttempt me s (checkOps R ++ .reset :: body)).handles
        slot =
      if PrepareOp.obtain slot ∈ body then
        some (s.attempt + 1)
      else none :=
  handles_of_reset hBody slot

/- The views after an attempt that replaces the arrays. -/
theorem buffs_execAttempt
    (hBody : body <+: createAllOps p me ++ shareOps p me)
    (slot : BufferSlot R) :
    (execAttempt me s (checkOps R ++ .reset :: body)).buffs
        slot =
      if PrepareOp.record slot ∈ body then
        some (s.attempt + 1)
      else none :=
  buffs_of_reset hBody slot

/-
  Where the arrays are replaced, a handle of an earlier
  attempt is in no table any more.
-/
theorem acquired_eq_nil_of_kept
    (hNamed : Named s)
    (hBody : body <+: createAllOps p me ++ shareOps p me)
    (hKept :
      Kept (execAttempt me s (checkOps R ++ .reset :: body))) :
    s.acquired = [] := by
  by_contra hSome
  rcases hNamed.first hSome with ⟨n, slot, hMem⟩
  have hIn :=
    hKept.handle n slot
      (mem_execAttempt_acquired.mpr (Or.inl hMem))
  rw [handles_execAttempt hBody] at hIn
  split at hIn
  · have hOld := hNamed.old _ hMem
    have hNew := Option.some.inj hIn
    simp only [Resource.attempt] at hOld
    omega
  · cases hIn

/- What is kept has been recorded. -/
theorem records_of_kept
    (hBody : body <+: createAllOps p me ++ shareOps p me)
    (hKept :
      Kept (execAttempt me s (checkOps R ++ .reset :: body))) :
    Records (checkOps R ++ .reset :: body) := by
  intro slot hMap
  have hIn :=
    hKept.range (s.attempt + 1) slot
      (mem_execAttempt_acquired.mpr (Or.inr ⟨_, hMap, rfl⟩))
  rw [buffs_execAttempt hBody] at hIn
  split at hIn
  · next hRecord =>
      exact (mem_body_iff (by simp) (by simp)).mpr hRecord
  · cases hIn

/- A first attempt keeps all that it records. -/
theorem kept_of_records
    (hBody : body <+: createAllOps p me ++ shareOps p me)
    (hNone : s.acquired = [])
    (hRecords : Records (checkOps R ++ .reset :: body)) :
    Kept (execAttempt me s (checkOps R ++ .reset :: body)) := by
  have hNew :
      ∀ r ∈ (execAttempt me s
          (checkOps R ++ .reset :: body)).acquired,
        ∃ op ∈ checkOps R ++ .reset :: body,
          op.acquires (s.attempt + 1) = some r := by
    intro r hMem
    apply (mem_execAttempt_acquired.mp hMem).resolve_left
    rw [hNone]
    exact List.not_mem_nil
  refine ⟨?_, ?_, ?_⟩
  · intro n slot hMem
    rcases hNew _ hMem with ⟨op, hOp, hAcquires⟩
    cases op <;> cases hAcquires
    rw [handles_execAttempt hBody, if_pos]
    exact (mem_body_iff (by simp) (by simp)).mp hOp
  · intro n slot hMem
    rcases hNew _ hMem with ⟨op, hOp, hAcquires⟩
    cases op <;> cases hAcquires
    rw [buffs_execAttempt hBody, if_pos]
    exact (mem_body_iff (by simp) (by simp)).mp
      (hRecords slot hOp)
  · intro n table hMem
    rcases hNew _ hMem with ⟨op, hOp, hAcquires⟩
    cases op <;> cases hAcquires
    exact (exec_device table).trans (if_pos hOp)

/-
  The step lemma.  After an attempt every resource is kept
  iff it was so before, no resource was there if the arrays
  have been replaced, and each mapped range is recorded.
-/
theorem kept_exec_iff
    (hNamed : Named s)
    (hTrace : t <+: prepareOps p me) :
    Kept (execAttempt me s t) ↔
      Kept s ∧ (Resets t → s.acquired = []) ∧ Records t := by
  rcases trace_cases hTrace with hCalls | ⟨body, hBody, hT⟩
  · -- Only checks: nothing changes.
    have hTrivial := not_resets_of_calls hCalls
    rw [kept_execAttempt_of_calls hCalls]
    exact
      ⟨fun hKept =>
        ⟨hKept, fun hReset => absurd hReset hTrivial.1,
          hTrivial.2⟩,
        fun hAll => hAll.1⟩
  · subst hT
    constructor
    · intro hKept
      have hNone := acquired_eq_nil_of_kept hNamed hBody hKept
      refine ⟨?_, fun _ => hNone, records_of_kept hBody hKept⟩
      constructor <;> intro n x hMem <;>
        rw [hNone] at hMem <;> cases hMem
    · rintro ⟨_, hReset, hRecords⟩
      have hNone : s.acquired = [] :=
        hReset (List.mem_append_right _ List.mem_cons_self)
      exact kept_of_records hBody hNone hRecords

end Attempts

------------------------------------------------------------
-- Runs Of Attempts
------------------------------------------------------------

section Attempts

variable {R : Nat} (p : Plugin) (me : Fin R)

/-
  What the attempts execute, up to the one that completes;
  the launches after it find the buffers prepared.
-/
def traces :
    List (Nat → Bool) → List (List (PrepareOp R))
| [] => []
| fails :: rest =>
    if PrepareOp.done ∈ attemptOps p me fails then
      [attemptOps p me fails]
    else
      attemptOps p me fails :: traces rest

/-
  No attempt gets to the bookkeeping arrays after one that
  has created a buffer, and no attempt ends between mapping a
  range and recording it.
-/
def Accounted (attempts : List (Nat → Bool)) : Prop :=
  (traces p me attempts).Pairwise
      (fun t u => Acquires t → ¬ Resets u) ∧
    ∀ t ∈ traces p me attempts, Records t

variable {p me}

/- Every trace is a prefix of the preparation. -/
theorem prefix_of_mem_traces
    {attempts : List (Nat → Bool)}
    {t : List (PrepareOp R)}
    (hMem : t ∈ traces p me attempts) :
    t <+: prepareOps p me := by
  induction attempts with
  | nil => cases hMem
  | cons fails rest ih =>
      have hHead :
          attemptOps p me fails <+: prepareOps p me :=
        EarlyReturn.executed_prefix _ _ _
      rw [traces] at hMem
      split at hMem
      · rw [List.mem_singleton.mp hMem]
        exact hHead
      · rcases List.mem_cons.mp hMem with hFirst | hRest
        · rw [hFirst]
          exact hHead
        · exact ih hRest

/- Once prepared, further launches change nothing. -/
theorem foldl_attempt_of_prepared
    {s : BufferRuntime R}
    (hPrepared : s.prepared = true)
    (attempts : List (Nat → Bool)) :
    attempts.foldl (attempt p me) s = s := by
  induction attempts with
  | nil => rfl
  | cons fails rest ih =>
      have hSame : attempt p me s fails = s := by
        rw [attempt, if_pos hPrepared]
      rw [List.foldl_cons, hSame, ih]

/- The attempts execute their traces one after the other. -/
theorem foldl_attempt_eq_traces
    {s : BufferRuntime R}
    (hPrepared : s.prepared = false)
    (attempts : List (Nat → Bool)) :
    attempts.foldl (attempt p me) s =
      (traces p me attempts).foldl (execAttempt me) s := by
  induction attempts generalizing s with
  | nil => rfl
  | cons fails rest ih =>
      have hStep :
          attempt p me s fails =
            execAttempt me s (attemptOps p me fails) := by
        rw [attempt, if_neg (by simp [hPrepared])]
        rfl
      have hNext :
          (execAttempt me s (attemptOps p me fails)).prepared =
            decide (PrepareOp.done ∈ attemptOps p me fails) := by
        refine exec_prepared.trans ?_
        simp [hPrepared]
      rw [List.foldl_cons, hStep, traces]
      split
      · next hDone =>
          rw [foldl_attempt_of_prepared
            (hNext.trans (decide_eq_true hDone))]
          rfl
      · next hDone =>
          rw [ih (hNext.trans (decide_eq_false hDone))]
          rfl

/-
  The run lemma.  After several traces every resource is kept
  iff no trace resets after another has acquired, or after
  something was there before, and each records what it maps.
-/
theorem kept_foldl_iff
    {s : BufferRuntime R}
    (hNamed : Named s)
    {ts : List (List (PrepareOp R))}
    (hTraces : ∀ t ∈ ts, t <+: prepareOps p me) :
    Kept (ts.foldl (execAttempt me) s) ↔
      Kept s ∧ (∀ t ∈ ts, Resets t → s.acquired = []) ∧
        ts.Pairwise (fun t u => Acquires t → ¬ Resets u) ∧
        ∀ t ∈ ts, Records t := by
  induction ts generalizing s with
  | nil => simp
  | cons t rest ih =>
      have hHead := hTraces t List.mem_cons_self
      have hRest :
          ∀ u ∈ rest, u <+: prepareOps p me :=
        fun u hMem => hTraces u (List.mem_cons_of_mem t hMem)
      rw [List.foldl_cons, ih (hNamed.execAttempt hHead) hRest,
        kept_exec_iff hNamed hHead, List.pairwise_cons]
      simp only [execAttempt_acquired_eq_nil_iff hHead,
        List.forall_mem_cons]
      constructor
      · rintro ⟨⟨hKept, hReset, hRecords⟩, hLater, hPairs,
          hAll⟩
        exact ⟨hKept,
          ⟨hReset, fun u hMem hU => (hLater u hMem hU).1⟩,
          ⟨fun u hMem hAcquires hU =>
            (hLater u hMem hU).2 hAcquires, hPairs⟩,
          hRecords, hAll⟩
      · rintro ⟨hKept, ⟨hReset, hOthers⟩, ⟨hAfter, hPairs⟩,
          hRecords, hAll⟩
        exact ⟨⟨hKept, hReset, hRecords⟩,
          fun u hMem hU =>
            ⟨hOthers u hMem hU,
              fun hAcquires => hAfter u hMem hAcquires hU⟩,
          hPairs, hAll⟩

end Attempts

------------------------------------------------------------
-- Ranges Are Mapped Before They Are Recorded
------------------------------------------------------------

section Order

variable {R : Nat} {p : Plugin} {me : Fin R}
variable {first second : List (PrepareOp R)}

/- In every prefix, a peer's recorded range is mapped. -/
def MapsFirst
    (me : Fin R)
    (ops : List (PrepareOp R)) : Prop :=
  ∀ t, t <+: ops → ∀ slot, slot.2 ≠ me →
    PrepareOp.record slot ∈ t → PrepareOp.map slot ∈ t

theorem mapsFirst_of_not_record
    (hRecord :
      ∀ slot, slot.2 ≠ me → PrepareOp.record slot ∉ first) :
    MapsFirst me first := by
  intro t hT slot hPeer hMem
  exact absurd (hT.subset hMem) (hRecord slot hPeer)

theorem MapsFirst.append
    (hFirst : MapsFirst me first)
    (hSecond : MapsFirst me second) :
    MapsFirst me (first ++ second) := by
  intro t hT slot hPeer hMem
  rcases EarlyReturn.prefix_append_cases hT with
    hIn | ⟨rest, hRest, hSplit⟩
  · exact hFirst t hIn slot hPeer hMem
  · rw [hSplit] at hMem ⊢
    rcases List.mem_append.mp hMem with hLeft | hRight
    · exact List.mem_append_left _
        (hFirst first List.prefix_rfl slot hPeer hLeft)
    · exact List.mem_append_right _
        (hSecond rest hRest slot hPeer hRight)

theorem mapsFirst_flatMap
    {α : Type}
    (f : α → List (PrepareOp R))
    (hEach : ∀ a, MapsFirst me (f a))
    (l : List α) :
    MapsFirst me (l.flatMap f) := by
  induction l with
  | nil =>
      exact mapsFirst_of_not_record
        (fun _ _ => List.not_mem_nil)
  | cons a rest ih =>
      rw [List.flatMap_cons]
      exact (hEach a).append ih

theorem mapsFirst_importOps
    (slot : BufferSlot R) :
    MapsFirst me (importOps slot) := by
  intro t hT other _ hMem
  have hOther := hT.subset hMem
  simp only [importOps, List.mem_cons, reduceCtorEq,
    PrepareOp.record.injEq, List.not_mem_nil, or_false,
    false_or] at hOther
  subst hOther
  have hSplit :
      importOps other =
        [.obtain other, .call, .map other] ++
          [.call, .record other] := rfl
  rw [hSplit] at hT
  exact EarlyReturn.mem_of_later hT hMem (by simp) (by simp)

theorem mapsFirst_rankOps
    (rank : Fin R) :
    MapsFirst me (rankOps p me rank) := by
  unfold rankOps
  split
  · next hMe =>
      apply mapsFirst_of_not_record
      intro slot hPeer hMem
      rcases List.mem_map.mp hMem with ⟨kind, _, hSlot⟩
      cases hSlot
      exact hPeer hMe
  · exact mapsFirst_flatMap _
      (fun kind => mapsFirst_importOps (kind, rank)) _

/- What a trace records it has mapped. -/
theorem map_mem_of_record
    {t : List (PrepareOp R)}
    (hTrace : t <+: prepareOps p me)
    {slot : BufferSlot R}
    (hRecord : PrepareOp.record slot ∈ t) :
    PrepareOp.map slot ∈ t := by
  by_cases hPeer : slot.2 = me
  · -- A local range is mapped when its buffer is created.
    have hSplit :
        prepareOps p me =
          (checkOps R ++ .reset :: createAllOps p me) ++
            shareOps p me := by
      simp [prepareOps]
    rw [hSplit] at hTrace
    have hNot :
        PrepareOp.record slot ∉
          checkOps R ++ .reset :: createAllOps p me := by
      simp [checkOps, record_not_mem_createAllOps]
    have hShare : PrepareOp.record slot ∈ shareOps p me := by
      have hMem := hTrace.subset hRecord
      exact (List.mem_append.mp hMem).resolve_left hNot
    apply EarlyReturn.mem_of_later hTrace hRecord hNot
    have hKind := kind_mem_of_record hShare
    rcases slot with ⟨kind, rank⟩
    simp only at hPeer
    subst hPeer
    simp [createAllOps, createOps, hKind]
  · have hOps : MapsFirst me (prepareOps p me) := by
      have hShare : MapsFirst me (shareOps p me) := by
        refine MapsFirst.append (MapsFirst.append
          (MapsFirst.append ?_ ?_) ?_) ?_
        · exact mapsFirst_of_not_record (by simp)
        · exact mapsFirst_flatMap _ mapsFirst_rankOps _
        · exact mapsFirst_of_not_record (by simp [tableOps])
        · exact mapsFirst_of_not_record (by simp)
      have hBefore :
          MapsFirst me
            (checkOps R ++ .reset :: createAllOps p me) :=
        mapsFirst_of_not_record (by
          simp [checkOps, record_not_mem_createAllOps])
      have hAll := hBefore.append hShare
      simpa [prepareOps] using hAll
    exact hOps t hTrace slot hPeer hRecord

end Order

------------------------------------------------------------
-- The Teardown
------------------------------------------------------------

/- The view or the table a resource is for is the plugin's. -/
def Plugin.Has
    {R : Nat}
    (p : Plugin) : Resource R → Prop
| .handle _ slot | .range _ slot => slot.1 ∈ p.kinds
| .allocation _ table => table ∈ p.tables

/- The tables name resources that were acquired once. -/
structure Sound
    {R : Nat}
    (p : Plugin)
    (s : BufferRuntime R) : Prop where
  named : Named s
  nodup : s.acquired.Nodup
  has : ∀ r ∈ s.acquired, p.Has r
  released : s.released = []
  handles :
    ∀ n slot, s.handles slot = some n →
      Resource.handle n slot ∈ s.acquired
  buffs :
    ∀ n slot, s.buffs slot = some n →
      Resource.range n slot ∈ s.acquired
  device :
    ∀ n table, s.device table = some n →
      Resource.allocation n table ∈ s.acquired

section Teardown

variable {R : Nat} {p : Plugin} {me : Fin R}
variable {s : BufferRuntime R} {t : List (PrepareOp R)}

/- The preparation acquires for the plugin's buffers only. -/
theorem has_of_mem_prepareOps
    {op : PrepareOp R}
    (hMem : op ∈ prepareOps p me)
    {n : Nat}
    {r : Resource R}
    (hAcquires : op.acquires n = some r) :
    p.Has r := by
  have hIn :
      r ∈ (prepareOps p me).filterMap
        (PrepareOp.acquires n) :=
    List.mem_filterMap.mpr ⟨op, hMem, hAcquires⟩
  rw [acquired_prepareOps, List.mem_append] at hIn
  rcases hIn with hView | hTable
  · rcases List.mem_flatMap.mp hView with
      ⟨slot, hSlot, hViews⟩
    have hKind : slot.1 ∈ p.kinds := by
      rcases List.mem_append.mp hSlot with hOwn | hPeer
      · rcases List.mem_map.mp hOwn with ⟨kind, hKind, h⟩
        rw [← h]
        exact hKind
      · rcases List.mem_flatMap.mp hPeer with ⟨rank, _, hIn⟩
        split at hIn
        · cases hIn
        · rcases List.mem_map.mp hIn with ⟨kind, hKind, h⟩
          rw [← h]
          exact hKind
    simp only [views, List.mem_cons, List.not_mem_nil,
      or_false] at hViews
    rcases hViews with hHandle | hRange
    · rw [hHandle]
      exact hKind
    · rw [hRange]
      exact hKind
  · rcases List.mem_map.mp hTable with ⟨table, hMem, hAlloc⟩
    rw [← hAlloc]
    exact hMem

/- Attempts keep the tables sound. -/
theorem Sound.execAttempt
    (hSound : Sound p s)
    (hTrace : t <+: prepareOps p me) :
    Sound p (execAttempt me s t) where
  named := hSound.named.execAttempt hTrace
  nodup := by
    rw [execAttempt_acquired]
    refine List.nodup_append'.mpr ⟨hSound.nodup, ?_, ?_⟩
    · have hSub := hTrace.filterMap
        (PrepareOp.acquires (s.attempt + 1))
      exact (acquired_prepareOps_nodup p me
        (s.attempt + 1)).sublist hSub.sublist
    · intro r hOld hNew
      rcases List.mem_filterMap.mp hNew with
        ⟨op, _, hAcquires⟩
      have hLe := hSound.named.old r hOld
      have hEq := attempt_of_acquires hAcquires
      omega
  has := by
    intro r hMem
    rcases mem_execAttempt_acquired.mp hMem with
      hOld | ⟨op, hOp, hAcquires⟩
    · exact hSound.has r hOld
    · exact has_of_mem_prepareOps (hTrace.subset hOp)
        hAcquires
  released := exec_released.trans hSound.released
  handles := by
    intro n slot hEntry
    rw [mem_execAttempt_acquired]
    rcases trace_cases hTrace with hCalls | ⟨body, hBody, hT⟩
    · rw [Runtime.execAttempt, exec_of_calls hCalls] at hEntry
      exact Or.inl (hSound.handles n slot hEntry)
    · subst hT
      rw [handles_execAttempt hBody] at hEntry
      split at hEntry
      · next hObtain =>
          cases hEntry
          exact Or.inr ⟨_, List.mem_append_right _
            (List.mem_cons_of_mem _ hObtain), rfl⟩
      · cases hEntry
  buffs := by
    intro n slot hEntry
    rw [mem_execAttempt_acquired]
    rcases trace_cases hTrace with hCalls | ⟨body, hBody, hT⟩
    · rw [Runtime.execAttempt, exec_of_calls hCalls] at hEntry
      exact Or.inl (hSound.buffs n slot hEntry)
    · subst hT
      rw [buffs_execAttempt hBody] at hEntry
      split at hEntry
      · next hRecord =>
          cases hEntry
          have hIn :
              PrepareOp.record slot ∈
                checkOps R ++ .reset :: body :=
            List.mem_append_right _
              (List.mem_cons_of_mem _ hRecord)
          exact Or.inr
            ⟨_, map_mem_of_record hTrace hIn, rfl⟩
      · cases hEntry
  device := by
    intro n table hEntry
    rw [mem_execAttempt_acquired]
    rw [Runtime.execAttempt, exec_device] at hEntry
    split at hEntry
    · next hAlloc =>
        cases hEntry
        exact Or.inr ⟨_, hAlloc, rfl⟩
    · exact Or.inl (hSound.device n table hEntry)

/- Before the first launch nothing is recorded. -/
theorem sound_start : Sound p (BufferRuntime.start R) where
  named :=
    { old := fun _ hMem => absurd hMem List.not_mem_nil
      first := fun hSome => absurd rfl hSome }
  nodup := List.nodup_nil
  has := fun _ hMem => absurd hMem List.not_mem_nil
  released := rfl
  handles := fun _ _ hEntry => by cases hEntry
  buffs := fun _ _ hEntry => by cases hEntry
  device := fun _ _ hEntry => by cases hEntry

theorem kept_start : Kept (BufferRuntime.start R) where
  handle := fun _ _ hMem => absurd hMem List.not_mem_nil
  range := fun _ _ hMem => absurd hMem List.not_mem_nil
  allocation := fun _ _ hMem => absurd hMem List.not_mem_nil

/- Runs of traces keep the tables sound. -/
theorem sound_foldl
    (hSound : Sound p s)
    {ts : List (List (PrepareOp R))}
    (hTraces : ∀ t ∈ ts, t <+: prepareOps p me) :
    Sound p (ts.foldl (execAttempt me) s) := by
  induction ts generalizing s with
  | nil => exact hSound
  | cons t rest ih =>
      exact ih
        (hSound.execAttempt (hTraces t List.mem_cons_self))
        (fun u hMem => hTraces u (List.mem_cons_of_mem t hMem))

/- The teardown goes through the plugin's views. -/
theorem mem_slots_iff
    {slot : BufferSlot R} :
    slot ∈ p.slots R ↔ slot.1 ∈ p.kinds := by
  rcases slot with ⟨kind, rank⟩
  simp [Plugin.slots]

theorem handle_mem_teardown_iff
    {n : Nat}
    {slot : BufferSlot R} :
    Resource.handle n slot ∈ teardown p s ↔
      slot.1 ∈ p.kinds ∧ s.handles slot = some n := by
  simp [teardown, mem_slots_iff]

theorem range_mem_teardown_iff
    {n : Nat}
    {slot : BufferSlot R} :
    Resource.range n slot ∈ teardown p s ↔
      slot.1 ∈ p.kinds ∧ s.buffs slot = some n := by
  simp [teardown, mem_slots_iff]

theorem allocation_mem_teardown_iff
    {n : Nat}
    {table : DeviceTable} :
    Resource.allocation n table ∈ teardown p s ↔
      table ∈ p.tables ∧ s.device table = some n := by
  simp [teardown]

/- The teardown releases nothing twice. -/
theorem teardown_nodup : (teardown p s).Nodup := by
  have hSlots : (p.slots R).Nodup :=
    p.kinds_nodup.product (List.nodup_finRange R)
  refine List.nodup_append'.mpr
    ⟨List.nodup_append'.mpr ⟨?_, ?_, ?_⟩, ?_, ?_⟩
  · apply p.tables_nodup.filterMap
    intro a b r hA hB
    simp only [Option.mem_def, Option.map_eq_some_iff]
      at hA hB
    grind
  · apply hSlots.filterMap
    intro a b r hA hB
    simp only [Option.mem_def, Option.map_eq_some_iff]
      at hA hB
    grind
  · intro r hA hB
    simp only [List.mem_filterMap, Option.map_eq_some_iff]
      at hA hB
    grind
  · apply hSlots.filterMap
    intro a b r hA hB
    simp only [Option.mem_def, Option.map_eq_some_iff]
      at hA hB
    grind
  · intro r hA hB
    simp only [List.mem_append, List.mem_filterMap,
      Option.map_eq_some_iff] at hA hB
    grind

/- After the teardown all is balanced iff all was kept. -/
theorem balanced_fini_iff
    (hSound : Sound p s) :
    Balanced (fini p s) ↔ Kept s := by
  have hReleased : (fini p s).released = teardown p s := by
    simp [fini, hSound.released]
  unfold Balanced
  rw [hReleased]
  constructor
  · rintro ⟨hPerm, _⟩
    refine ⟨?_, ?_, ?_⟩
    · intro n slot hMem
      exact (handle_mem_teardown_iff.mp
        (hPerm.mem_iff.mpr hMem)).2
    · intro n slot hMem
      exact (range_mem_teardown_iff.mp
        (hPerm.mem_iff.mpr hMem)).2
    · intro n table hMem
      exact (allocation_mem_teardown_iff.mp
        (hPerm.mem_iff.mpr hMem)).2
  · intro hKept
    refine ⟨?_, teardown_nodup⟩
    refine (List.perm_ext_iff_of_nodup teardown_nodup
      hSound.nodup).mpr ?_
    intro r
    cases r with
    | handle n slot =>
        rw [handle_mem_teardown_iff]
        constructor
        · rintro ⟨_, hEntry⟩
          exact hSound.handles n slot hEntry
        · intro hMem
          exact ⟨hSound.has _ hMem, hKept.handle n slot hMem⟩
    | range n slot =>
        rw [range_mem_teardown_iff]
        constructor
        · rintro ⟨_, hEntry⟩
          exact hSound.buffs n slot hEntry
        · intro hMem
          exact ⟨hSound.has _ hMem, hKept.range n slot hMem⟩
    | allocation n table =>
        rw [allocation_mem_teardown_iff]
        constructor
        · rintro ⟨_, hEntry⟩
          exact hSound.device n table hEntry
        · intro hMem
          exact ⟨hSound.has _ hMem,
            hKept.allocation n table hMem⟩

end Teardown

------------------------------------------------------------
-- When Resources Are Balanced
------------------------------------------------------------

/-
  After any attempts and the teardown, everything acquired is
  released exactly once iff the attempts are accounted for.
-/
theorem balanced_iff_accounted
    {R : Nat}
    (p : Plugin)
    (me : Fin R)
    (attempts : List (Nat → Bool)) :
    Balanced (fini p (runAttempts p me attempts)) ↔
      Accounted p me attempts := by
  have hTraces :
      ∀ t ∈ traces p me attempts, t <+: prepareOps p me :=
    fun t hMem => prefix_of_mem_traces hMem
  have hRun :
      runAttempts p me attempts =
        (traces p me attempts).foldl (execAttempt me)
          (BufferRuntime.start R) :=
    foldl_attempt_eq_traces rfl attempts
  rw [hRun, balanced_fini_iff (sound_foldl sound_start hTraces),
    kept_foldl_iff (sound_start (p := p)).named hTraces]
  constructor
  · rintro ⟨_, _, hAccounted⟩
    exact hAccounted
  · intro hAccounted
    exact ⟨kept_start, fun _ _ _ => rfl, hAccounted⟩

/- An attempt whose step of the given number fails. -/
def failingAt (step : Nat) : Nat → Bool :=
  fun i => i == step

/-
  An exchange that fails leaves the local ranges mapped, in
  both plugins.
-/
theorem not_balanced :
    (¬ ∀ (R : Nat) (me : Fin R) (attempts : List (Nat → Bool)),
      Balanced (fini latencyPlugin
        (runAttempts latencyPlugin me attempts))) ∧
    ¬ ∀ (R : Nat) (me : Fin R) (attempts : List (Nat → Bool)),
      Balanced (fini memoryPlugin
        (runAttempts memoryPlugin me attempts)) := by
  constructor
  · intro hAll
    have hBalanced := (hAll 2 0 [failingAt 32]).1.length_eq
    exact absurd hBalanced (by decide +kernel)
  · intro hAll
    have hBalanced := (hAll 2 0 [failingAt 24]).1.length_eq
    exact absurd hBalanced (by decide +kernel)

end Runtime

end FabricPerf
