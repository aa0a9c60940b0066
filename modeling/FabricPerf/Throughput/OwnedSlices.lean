import FabricPerf.Lib.Keyed
import FabricPerf.Throughput.SharedSlices

/-
  A shared stream, seen as one of four leaders.

  Where at most one leader of each slice receives, the others
  store nothing, and the stream looks like that of four
  leaders of which some never received: each slice holds what
  its owner's history says and is decoded to its launch.

  Main declarations:
    * `Throughput.StreamState.view`
    * `Throughput.slicesHold_view`
    * `Throughput.StreamState.launches`
    * `Throughput.records_owned`
-/

------------------------------------------------------------
-- Owners Of Slices
------------------------------------------------------------

namespace FabricPerf

namespace Throughput

open Analysis

/- A leader for each slice, if any. -/
abbrev Owner (groups : Nat) : Type := Fin 4 → Option (Fin groups)

/- Owners are leaders of their slices. -/
def Owner.Valid {groups : Nat} (owner : Owner groups) : Prop :=
  ∀ w g, owner w = some g → sliceOf g = w

/- A leader that returns without an arrival. -/
def Leader.absent : Leader :=
  { Leader.init 0 with flushed := some 0 }

namespace StreamState

variable {groups : Nat}

/- Only owners have received. -/
def OwnedBy
    (s : StreamState groups)
    (owner : Owner groups) : Prop :=
  ∀ g, owner (sliceOf g) ≠ some g → (s.leader g).times = []

/- The stream as one of its owners. -/
def view
    (s : StreamState groups)
    (owner : Owner groups) : StreamState 4 where
  memory := s.memory
  leader := fun w => (owner w).elim Leader.absent s.leader

/- No two leaders of one slice have received. -/
def Alone (s : StreamState groups) : Prop :=
  ∀ g h, sliceOf g = sliceOf h →
    (s.leader g).times ≠ [] → (s.leader h).times ≠ [] → g = h

/- The first leader of each slice that has received. -/
def owner (s : StreamState groups) : Owner groups :=
  fun w =>
    (List.finRange groups).find?
      (fun g => sliceOf g = w ∧ (s.leader g).times ≠ [])

/- Such a leader is one of the slice. -/
theorem owner_valid (s : StreamState groups) :
    s.owner.Valid := by
  intro w g hOwner
  have hFound := List.find?_some hOwner
  exact (of_decide_eq_true hFound).1

/- Where leaders are alone, only these have received. -/
theorem ownedBy_owner
    {s : StreamState groups}
    (hAlone : s.Alone) :
    s.OwnedBy s.owner := by
  intro g hOther
  by_contra hSome
  cases hOwner : s.owner (sliceOf g) with
  | none =>
      have hNone :=
        List.find?_eq_none.mp hOwner g (List.mem_finRange g)
      exact hNone (decide_eq_true ⟨rfl, hSome⟩)
  | some h =>
      have hThere := List.find?_some hOwner
      have hFound := of_decide_eq_true hThere
      have hSame := hAlone g h hFound.1.symm hSome hFound.2
      exact hOther (hOwner.trans (congrArg some hSame.symm))

variable {s : StreamState groups} {owner : Owner groups}
variable {g : Fin groups} {leader : Leader}

/- Replacing the owner of a slice. -/
theorem view_setLeader_owner
    (hValid : owner.Valid)
    (hOwner : owner (sliceOf g) = some g) :
    (s.setLeader g leader).view owner =
      (s.view owner).setLeader (sliceOf g) leader := by
  have hLeader :
      ∀ w,
        (owner w).elim Leader.absent
            (fun h => if h = g then leader else s.leader h) =
          if w = sliceOf g then leader
          else (owner w).elim Leader.absent s.leader := by
    intro w
    by_cases hSlice : w = sliceOf g
    · rw [if_pos hSlice, hSlice, hOwner, Option.elim_some,
        if_pos rfl]
    · rw [if_neg hSlice]
      cases hOther : owner w with
      | none => rfl
      | some h =>
          have hNe : h ≠ g := by
            rintro rfl
            exact hSlice (hValid w h hOther).symm
          rw [Option.elim_some, if_neg hNe, Option.elim_some]
  exact congrArg (StreamState.mk s.memory) (funext hLeader)

/- Replacing another leader is not seen. -/
theorem view_setLeader_other
    (hValid : owner.Valid)
    (hOther : owner (sliceOf g) ≠ some g) :
    (s.setLeader g leader).view owner = s.view owner := by
  have hLeader :
      ∀ w,
        (owner w).elim Leader.absent
            (fun h => if h = g then leader else s.leader h) =
          (owner w).elim Leader.absent s.leader := by
    intro w
    cases hOwner : owner w with
    | none => rfl
    | some h =>
        have hNe : h ≠ g := by
          rintro rfl
          rw [hValid w h hOwner] at hOther
          exact hOther hOwner
        rw [Option.elim_some, if_neg hNe, Option.elim_some]
  exact congrArg (StreamState.mk s.memory) (funext hLeader)

/- The owner of a slice is seen. -/
theorem view_leader
    (hOwner : owner (sliceOf g) = some g) :
    (s.view owner).leader (sliceOf g) = s.leader g := by
  unfold view
  simp only [hOwner, Option.elim_some]

end StreamState

------------------------------------------------------------
-- Steps Seen By The Owners
------------------------------------------------------------

variable {stream : SharedStream}
variable {s s' : StreamState stream.groups}
variable {owner : Owner stream.groups}
variable {g : Fin stream.groups}

/- A leader without arrivals has no stores to issue. -/
def Unreceived (s : StreamState stream.groups) : Prop :=
  ∀ g, (s.leader g).times = [] → (s.leader g).pending = []

/- One step keeps it so. -/
theorem unreceived_step
    {action : StreamAction stream.groups}
    (hKnown : HeadersHold stream s)
    (hInv : Unreceived s)
    (hStep : stream.step s action = some s') :
    Unreceived s' := by
  cases action with
  | recv g time =>
      simp only [Stream.step,
        Option.ite_none_right_eq_some] at hStep
      rw [← Option.some.inj hStep.2, enterRecv_eq,
        enterRecv_leader (hKnown.leaders g).ok]
      intro h hNone
      rw [leader_setLeader] at hNone ⊢
      split at hNone
      · simp at hNone
      · next hOther =>
          rw [if_neg hOther]
          exact hInv h hNone
  | flush g time =>
      simp only [Stream.step,
        Option.ite_none_right_eq_some] at hStep
      rw [← Option.some.inj hStep.2,
        enterFlush_leader (hKnown.leaders g).ok]
      intro h hNone
      rw [leader_setLeader] at hNone ⊢
      split at hNone
      · next hSame =>
          rw [if_pos hSame]
          exact if_pos hNone
      · next hOther =>
          rw [if_neg hOther]
          exact hInv h hNone
  | store g =>
      simp only [Stream.step] at hStep
      split at hStep
      · cases hStep
      · next store rest hPending =>
          rw [← Option.some.inj hStep]
          intro h hNone
          rw [leader_setLeader] at hNone ⊢
          split at hNone
          · next hSame =>
              have hIdle := hInv g hNone
              rw [hPending] at hIdle
              cases hIdle
          · next hOther =>
              rw [if_neg hOther]
              exact hInv h hNone

/- It is so in every reached state. -/
theorem unreceived_of_reach
    (hReach : (sharedMachine stream).Reach Short s) :
    Unreceived s := by
  refine hReach.invariant_of (HeadersHold stream) Unreceived
    (fun _ => headersHold_of_reach) ?_ ?_
  · intro s hInit g _
    rcases hInit.2 g with ⟨start, hLeader⟩
    rw [hLeader]
    rfl
  · intro s a s' hKnown hInv _ hStep
    exact unreceived_step hKnown hInv hStep

/- A step forgets no arrival. -/
theorem times_of_step
    {action : StreamAction stream.groups}
    (hStep : stream.step s action = some s')
    (h : Fin stream.groups)
    (hNone : (s'.leader h).times = []) :
    (s.leader h).times = [] := by
  cases action with
  | recv g time =>
      simp only [Stream.step,
        Option.ite_none_right_eq_some] at hStep
      rw [← Option.some.inj hStep.2, leader_setLeader] at hNone
      split at hNone
      · simp [Stream.enterRecv] at hNone
      · exact hNone
  | flush g time =>
      simp only [Stream.step,
        Option.ite_none_right_eq_some] at hStep
      rw [← Option.some.inj hStep.2, leader_setLeader] at hNone
      split at hNone
      · next hSame =>
          rw [hSame]
          exact hNone
      · exact hNone
  | store g =>
      simp only [Stream.step] at hStep
      split at hStep
      · cases hStep
      · rw [← Option.some.inj hStep, leader_setLeader] at hNone
        split at hNone
        · next hSame =>
            rw [hSame]
            exact hNone
        · exact hNone

/- Owners of a later state are owners before. -/
theorem ownedBy_of_step
    {action : StreamAction stream.groups}
    (hStep : stream.step s action = some s')
    (hOwned : s'.OwnedBy owner) :
    s.OwnedBy owner :=
  fun g hOther => times_of_step hStep g (hOwned g hOther)

/- A slice without an owner is zero. -/
theorem cell_absent (k : Nat) : Leader.absent.cell k = 0 := by
  match k with
  | 0 => rfl
  | 1 => rfl
  | _ + 2 => rfl

/- The slices hold initially. -/
theorem slicesHold_view_init
    (hInit : (sharedMachine stream).init s) :
    SlicesHold stream.toStream (s.view owner) := by
  rcases hInit with ⟨hZero, hFresh⟩
  intro w
  have hW := w.isLt
  have hCells :
      ∀ k, k < 1024 →
        s.memory (cellAddr stream.map1 (1024 * w.val + k)) =
          0 := by
    intro k hK
    exact hZero _ (by omega)
  cases hOwner : owner w with
  | none =>
      have hLeader :
          (s.view owner).leader w = Leader.absent := by
        simp only [StreamState.view, hOwner, Option.elim_none]
      rw [hLeader]
      refine ⟨⟨rfl, rfl, by decide, fun hSome => ?_⟩, ?_, ?_⟩
      · exact absurd rfl hSome
      · exact fun _ hMem => absurd hMem List.not_mem_nil
      · intro k hK
        rw [cell_absent]
        exact hCells k hK
  | some g =>
      rcases hFresh g with ⟨start, hStart⟩
      have hLeader :
          (s.view owner).leader w = Leader.init start := by
        simp only [StreamState.view, hOwner, Option.elim_some,
          hStart]
      rw [hLeader]
      refine
        ⟨⟨rfl, rfl, by simp [Leader.init], fun hSome => ?_⟩,
          ?_, ?_⟩
      · exact absurd rfl hSome
      · exact fun _ hMem => absurd hMem List.not_mem_nil
      · intro k hK
        rw [cell_fresh]
        exact hCells k hK

/- One step keeps what the owners see. -/
theorem slicesHold_view_step
    {action : StreamAction stream.groups}
    (hValid : owner.Valid)
    (hIdle : Unreceived s)
    (hShort : Short s action)
    (hStep : stream.step s action = some s')
    (hOwned : s'.OwnedBy owner)
    (hInv : SlicesHold stream.toStream (s.view owner)) :
    SlicesHold stream.toStream (s'.view owner) := by
  have hBefore := ownedBy_of_step hStep hOwned
  cases action with
  | recv g time =>
      simp only [Stream.step,
        Option.ite_none_right_eq_some] at hStep
      have hSame := Option.some.inj hStep.2
      -- A leader that receives is the owner of its slice.
      have hOwner : owner (sliceOf g) = some g := by
        by_contra hOther
        have hNone := hOwned g hOther
        rw [← hSame, leader_setLeader, if_pos rfl] at hNone
        simp [Stream.enterRecv] at hNone
      have hSlice := hInv (sliceOf g)
      rw [StreamState.view_leader hOwner] at hSlice
      rw [← hSame, enterRecv_eq,
        StreamState.view_setLeader_owner hValid hOwner]
      exact slicesHold_setLeader hInv
        (sliceHolds_recv hStep.1 hShort hSlice time)
  | flush g time =>
      simp only [Stream.step,
        Option.ite_none_right_eq_some] at hStep
      have hSame := Option.some.inj hStep.2
      by_cases hOwner : owner (sliceOf g) = some g
      · have hSlice := hInv (sliceOf g)
        rw [StreamState.view_leader hOwner] at hSlice
        rw [← hSame,
          StreamState.view_setLeader_owner hValid hOwner]
        exact slicesHold_setLeader hInv
          (sliceHolds_flush hStep.1 hSlice time)
      · rw [← hSame,
          StreamState.view_setLeader_other hValid hOwner]
        exact hInv
  | store g =>
      simp only [Stream.step] at hStep
      split at hStep
      · cases hStep
      · next store rest hPending =>
          have hSame := Option.some.inj hStep
          -- Only owners have stores to issue.
          have hOwner : owner (sliceOf g) = some g := by
            by_contra hOther
            have hNone := hIdle g (hBefore g hOther)
            rw [hPending] at hNone
            cases hNone
          have hLeader :
              ((s.view owner).leader (sliceOf g)).pending =
                store :: rest := by
            rw [StreamState.view_leader hOwner]
            exact hPending
          have hStores := slicesHold_store hInv hLeader
          rw [StreamState.view_leader hOwner] at hStores
          rw [← hSame,
            StreamState.view_setLeader_owner hValid hOwner]
          exact hStores

/-
  The slices of a shared stream hold what the histories of
  their owners say.
-/
theorem slicesHold_view
    (hReach : (sharedMachine stream).Reach Short s)
    (hValid : owner.Valid)
    (hOwned : s.OwnedBy owner) :
    SlicesHold stream.toStream (s.view owner) := by
  induction hReach with
  | init hInit => exact slicesHold_view_init hInit
  | step hBefore hShort hStep ih =>
      exact slicesHold_view_step hValid
        (unreceived_of_reach hBefore) hShort hStep hOwned
        (ih (ownedBy_of_step hStep hOwned))

------------------------------------------------------------
-- Decoding
------------------------------------------------------------

namespace StreamState

variable {groups : Nat}

/- The leaders of a slice. -/
def leadersOf
    (s : StreamState groups)
    (w : Fin 4) : List Leader :=
  ((List.finRange groups).filter
    (fun g => sliceOf g = w)).map s.leader

/- The launches that the histories of a slice stand for. -/
def launches
    (s : StreamState groups)
    (base : Nat)
    (w : Fin 4) : List CellLaunch :=
  (s.leadersOf w).filterMap (CellLaunch.ofLeader base w)

/- The receive-hook executions of a slice. -/
def arrivals
    (s : StreamState groups)
    (w : Fin 4) : Nat :=
  ((s.leadersOf w).map (fun leader => leader.times.length)).sum

end StreamState

/- Only leaders without arrivals stand for no launch. -/
theorem ofLeader_eq_none_iff
    {base : Nat}
    {w : Fin 4}
    {leader : Leader} :
    CellLaunch.ofLeader base w leader = none ↔
      leader.times = [] := by
  unfold CellLaunch.ofLeader
  split
  case isTrue hNone => simp [hNone]
  case isFalse hSome => simp [hSome]

/- The launches of a slice are those of its owner. -/
theorem launches_eq
    (hValid : owner.Valid)
    (hOwned : s.OwnedBy owner)
    (base : Nat)
    (w : Fin 4) :
    s.launches base w =
      (CellLaunch.ofLeader base w
        ((s.view owner).leader w)).toList := by
  unfold StreamState.launches StreamState.leadersOf
  rw [List.filterMap_map]
  cases hOwner : owner w with
  | none =>
      have hAbsent :
          (s.view owner).leader w = Leader.absent := by
        simp only [StreamState.view, hOwner, Option.elim_none]
      rw [hAbsent, ofLeader_eq_none_iff.mpr rfl, Option.toList_none,
        List.filterMap_eq_nil_iff]
      intro g hMem
      have hSlice := of_decide_eq_true (List.mem_filter.mp hMem).2
      apply ofLeader_eq_none_iff.mpr
      apply hOwned g
      rw [hSlice, hOwner]
      exact (Option.some_ne_none g).symm
  | some g =>
      have hSlice := hValid w g hOwner
      subst hSlice
      rw [StreamState.view_leader hOwner]
      have hNodup :
          ((List.finRange stream.groups).filter
            (fun h => sliceOf h = sliceOf g)).Nodup :=
        (List.nodup_finRange _).filter _
      have hMem :
          g ∈ (List.finRange stream.groups).filter
            (fun h => sliceOf h = sliceOf g) :=
        List.mem_filter.mpr
          ⟨List.mem_finRange g, decide_eq_true rfl⟩
      rw [List.filterMap_eq_flatMap_toList]
      refine Keyed.flatMap_eq_of_mem hNodup hMem ?_
      intro h hIn hOther
      have hSame := of_decide_eq_true (List.mem_filter.mp hIn).2
      have hNone : (s.leader h).times = [] := by
        apply hOwned h
        rw [hSame, hOwner]
        intro hEq
        exact hOther (Option.some.inj hEq).symm
      rw [Function.comp_apply, ofLeader_eq_none_iff.mpr hNone]
      rfl

/- Where all leaders have returned, so have the owners. -/
theorem closed_view
    (hClosed : s.Closed)
    (owner : Owner stream.groups) :
    (s.view owner).Closed := by
  intro w
  simp only [StreamState.view]
  cases owner w with
  | none => exact ⟨rfl, Option.some_ne_none 0⟩
  | some g => exact hClosed g

/-
  A stream whose slices have one receiver each is decoded to
  the launches of their histories.
-/
theorem records_owned
    (hReach : (sharedMachine stream).Reach Short s)
    (hAlone : s.Alone)
    (hClosed : s.Closed)
    (blockIndex base : Nat) :
    throughputWorkgroupCellRecords (s.rawCells stream.toStream)
        blockIndex (some base) =
      (List.finRange 4).flatMap (s.launches base) := by
  have hValid := s.owner_valid
  have hOwned := StreamState.ownedBy_owner hAlone
  have hInv := slicesHold_view hReach hValid hOwned
  have hClosedView := closed_view hClosed s.owner
  have hLength :
      (s.rawCells stream.toStream).length = 4096 :=
    StreamState.length_rawCells
  have hDecodable : Decodable (s.rawCells stream.toStream) := by
    unfold Decodable
    rw [hLength]
    decide
  have hCells :
      (s.rawCells stream.toStream).length / throughputWorkgroups =
        1024 := by
    rw [hLength]
    rfl
  rw [records_of_decodable hDecodable,
    List.filterMap_eq_flatMap_toList]
  apply List.flatMap_congr
  intro w _
  rw [launches_eq hValid hOwned base w]
  exact congrArg Option.toList
    (decodeWorkgroup_rawCells (s := s.view s.owner) hInv
      hClosedView base hCells _ hDecodable)

end Throughput

end FabricPerf
