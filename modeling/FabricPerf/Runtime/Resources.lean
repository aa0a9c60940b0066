import FabricPerf.Latency.Exchange
import FabricPerf.Lib.EarlyReturn
import Mathlib.Data.List.ProdSigma
import Mathlib.Data.List.Nodup

/-
  What `prepare_buffers_locked` acquires and what the
  teardown releases.

  The preparation is a straight line of calls, each of which
  may fail and end the attempt; a later launch repeats it.
  A resource is named by the attempt that acquired it and the
  buffer or table it was acquired for.

  Main declarations:
    * `Runtime.prepareOps`
    * `Runtime.runAttempts`, `Runtime.fini`
    * `Runtime.Balanced`
    * `Runtime.Accounted`
-/

------------------------------------------------------------
-- Plugins And Resources
------------------------------------------------------------

namespace FabricPerf

namespace Runtime

open Latency (HandleKind)

/- The plain device allocations. -/
inductive DeviceTable where
| leader
| follower
| mailbox
| result
| latencyOffset
deriving DecidableEq, Repr

/- The buffers and tables one of the two plugins prepares. -/
structure Plugin where
  kinds : List HandleKind
  tables : List DeviceTable
  kinds_ne_nil : kinds ≠ []
  kinds_nodup : kinds.Nodup
  tables_nodup : tables.Nodup

/- `latency.c`. -/
def latencyPlugin : Plugin where
  kinds := [.leader, .follower, .mailbox]
  tables :=
    [.leader, .follower, .mailbox, .result, .latencyOffset]
  kinds_ne_nil := by decide
  kinds_nodup := by decide
  tables_nodup := by decide

/- `memory.cc`. -/
def memoryPlugin : Plugin where
  kinds := [.leader, .follower]
  tables := [.leader, .follower, .result]
  kinds_ne_nil := by decide
  kinds_nodup := by decide
  tables_nodup := by decide

/- A view of a rank's buffer. -/
abbrev BufferSlot (R : Nat) : Type := HandleKind × Fin R

/- What an attempt can acquire. -/
inductive Resource (R : Nat) where
| handle (attempt : Nat) (slot : BufferSlot R)
| range (attempt : Nat) (slot : BufferSlot R)
| allocation (attempt : Nat) (table : DeviceTable)
deriving DecidableEq, Repr

/- The attempt that acquired it. -/
def Resource.attempt
    {R : Nat} : Resource R → Nat
| .handle n _ | .range n _ | .allocation n _ => n

/-
  The runtime state.  An entry of a table is the attempt whose
  handle, range or allocation it names.  `acquired` and
  `released` (history) are logs of the driver.
-/
structure BufferRuntime (R : Nat) where
  attempt : Nat
  prepared : Bool
  handles : BufferSlot R → Option Nat
  buffs : BufferSlot R → Option Nat
  localBuff : HandleKind → Option Nat
  device : DeviceTable → Option Nat
  acquired : List (Resource R)
  released : List (Resource R)

/- Before the first launch. -/
def BufferRuntime.start (R : Nat) : BufferRuntime R where
  attempt := 0
  prepared := false
  handles := fun _ => none
  buffs := fun _ => none
  localBuff := fun _ => none
  device := fun _ => none
  acquired := []
  released := []

------------------------------------------------------------
-- The Preparation
------------------------------------------------------------

/- The steps of `prepare_buffers_locked`. -/
inductive PrepareOp (R : Nat) where
-- A call that can fail and acquires nothing.
| call
-- The bookkeeping arrays are allocated anew, zeroed.
| reset
-- `cuMemCreate` or `cuMemImportFromShareableHandle`.
| obtain (slot : BufferSlot R)
-- `cuMemMap`.
| map (slot : BufferSlot R)
-- `*ptr = addr` for a local buffer.
| keepLocal (kind : HandleKind)
-- An entry of `leader_buffs` and its siblings is set.
| record (slot : BufferSlot R)
-- `cuMemAlloc`.
| alloc (table : DeviceTable)
-- `buffers_prepared = true`.
| done
deriving DecidableEq, Repr

namespace PrepareOp

variable {R : Nat}

/- Whether the step is a call that can fail. -/
def fallible : PrepareOp R → Bool
| .call | .obtain _ | .map _ | .alloc _ => true
| .reset | .keepLocal _ | .record _ | .done => false

/- What a step acquires. -/
def acquires
    (attempt : Nat) : PrepareOp R → Option (Resource R)
| .obtain slot => some (.handle attempt slot)
| .map slot => some (.range attempt slot)
| .alloc table => some (.allocation attempt table)
| _ => none

/- What a step that does not fail does. -/
def apply
    (me : Fin R)
    (s : BufferRuntime R)
    (op : PrepareOp R) : BufferRuntime R :=
  let s :=
    { s with
      acquired :=
        s.acquired ++ (op.acquires s.attempt).toList }
  match op with
  | .call | .map _ => s
  | .reset =>
      { s with
        handles := fun _ => none
        buffs := fun _ => none }
  | .obtain slot =>
      { s with
        handles :=
          Function.update s.handles slot (some s.attempt) }
  | .keepLocal kind =>
      { s with
        localBuff :=
          Function.update s.localBuff kind (some s.attempt) }
  | .record slot =>
      { s with
        buffs :=
          Function.update s.buffs slot
            (if slot.2 = me then s.localBuff slot.1
             else some s.attempt) }
  | .alloc table =>
      { s with
        device :=
          Function.update s.device table (some s.attempt) }
  | .done => { s with prepared := true }

end PrepareOp

/- `create_fabric_buffer`. -/
def createOps
    {R : Nat}
    (me : Fin R)
    (kind : HandleKind) : List (PrepareOp R) :=
  [ .call, -- cuMemGetAllocationGranularity
    .obtain (kind, me),
    .call, -- cuMemAddressReserve
    .map (kind, me),
    .call, -- cuMemSetAccess
    .call, -- cuMemExportToShareableHandle
    .keepLocal kind,
    .call ] -- cuMemsetD8

/- `import_fabric_buffer`. -/
def importOps
    {R : Nat}
    (slot : BufferSlot R) : List (PrepareOp R) :=
  [ .obtain slot,
    .call, -- cuMemAddressReserve
    .map slot,
    .call, -- cuMemSetAccess
    .record slot ]

/- One round of the loop over the ranks. -/
def rankOps
    {R : Nat}
    (p : Plugin)
    (me rank : Fin R) : List (PrepareOp R) :=
  if rank = me then
    p.kinds.map (fun kind => .record (kind, rank))
  else
    p.kinds.flatMap (fun kind => importOps (kind, rank))

/- A device allocation and the copy or memset that fills it. -/
def tableOps
    {R : Nat}
    (table : DeviceTable) : List (PrepareOp R) :=
  [.alloc table, .call]

/- MPI, the device, its two attributes and their test. -/
def checkOps (R : Nat) : List (PrepareOp R) :=
  [.call, .call, .call, .call, .call]

/- The test of the arrays and the rank's own buffers. -/
def createAllOps
    {R : Nat}
    (p : Plugin)
    (me : Fin R) : List (PrepareOp R) :=
  .call :: p.kinds.flatMap (createOps me)

/-
  The host arrays, the exchange (whichever of its calls
  fails), the loop over the ranks and the device tables.
-/
def shareOps
    {R : Nat}
    (p : Plugin)
    (me : Fin R) : List (PrepareOp R) :=
  [.call, .call] ++
    (List.finRange R).flatMap (rankOps p me) ++
    p.tables.flatMap tableOps ++ [.done]

/- `prepare_buffers_locked`. -/
def prepareOps
    {R : Nat}
    (p : Plugin)
    (me : Fin R) : List (PrepareOp R) :=
  checkOps R ++
    .reset :: (createAllOps p me ++ shareOps p me)

------------------------------------------------------------
-- Attempts And Teardown
------------------------------------------------------------

section Runs

variable {R : Nat} (p : Plugin) (me : Fin R)

/- Execute some steps. -/
def exec
    (s : BufferRuntime R)
    (ops : List (PrepareOp R)) : BufferRuntime R :=
  ops.foldl (PrepareOp.apply me) s

/- The steps of an attempt up to the first failing call. -/
def attemptOps (fails : Nat → Bool) : List (PrepareOp R) :=
  EarlyReturn.executed PrepareOp.fallible (prepareOps p me)
    fails

/- One call of `prepare_buffers_locked`. -/
def attempt
    (s : BufferRuntime R)
    (fails : Nat → Bool) : BufferRuntime R :=
  if s.prepared then
    s
  else
    exec me { s with attempt := s.attempt + 1 }
      (attemptOps p me fails)

/- The attempts of all launches. -/
def runAttempts
    (attempts : List (Nat → Bool)) : BufferRuntime R :=
  attempts.foldl (attempt p me) (BufferRuntime.start R)

/- The slots the teardown goes through. -/
def Plugin.slots (R : Nat) : List (BufferSlot R) :=
  p.kinds ×ˢ List.finRange R

/- What the teardown frees, unmaps and releases, in order. -/
def teardown (s : BufferRuntime R) : List (Resource R) :=
  p.tables.filterMap
      (fun table =>
        (s.device table).map (fun n => .allocation n table)) ++
    (p.slots R).filterMap
      (fun slot =>
        (s.buffs slot).map (fun n => .range n slot)) ++
    (p.slots R).filterMap
      (fun slot =>
        (s.handles slot).map (fun n => .handle n slot))

/- `neutrino_plugin_fini_v1` and `teardown_fabric_runtime`. -/
def fini (s : BufferRuntime R) : BufferRuntime R :=
  { BufferRuntime.start R with
    acquired := s.acquired
    released := s.released ++ teardown p s }

end Runs

/-
  Everything acquired is released exactly once, and nothing
  else is.
-/
def Balanced
    {R : Nat}
    (s : BufferRuntime R) : Prop :=
  s.released.Perm s.acquired ∧ s.released.Nodup

end Runtime

end FabricPerf
