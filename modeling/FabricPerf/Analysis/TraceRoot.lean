import FabricPerf.Analysis.Python

/-
  Trace roots as the analyzers walk over them
  (`analysis/common.py`).

  What the generated reader of a directory makes of a result
  file is a parameter.

  Main declarations:
    * `Analysis.TraceDir`, `Analysis.TraceRoot`
    * `Analysis.TraceRoot.iterTraceDirs`
    * `Analysis.TraceRoot.iterTraceDirs_ok`
    * `Analysis.TraceRoot.iterTraceDirs_eq`
-/

------------------------------------------------------------
-- Directories
------------------------------------------------------------

namespace FabricPerf

namespace Analysis

open Raising

/- The last part of a path. -/
def ResultFile.name (file : ResultFile) : String :=
  String.ofList
    (file.path.toList.reverse.takeWhile (· ≠ '/')).reverse

/-
  A directory under a trace root: whether `read.py` and
  `result` are there, `parse` of the loaded reader, the
  sorted result files, and the rank in `event.log`.
-/
structure TraceDir (ρ : Type) where
  hasReader : Bool
  hasResult : Bool
  loadReader : Except PyErr (ResultFile → Except PyErr ρ)
  resultFiles : List ResultFile
  parseRank : Except PyErr Nat

/-
  A trace root, the name of its parent, and the directories
  in it, in sorted order.
-/
structure TraceRoot (ρ : Type) where
  path : String
  name : String
  parentName : String
  own : TraceDir ρ
  children : List (TraceDir ρ)

namespace TraceRoot

variable {ρ : Type}

/- The directories of a trace root, with the trace's name. -/
def traceDirs (root : TraceRoot ρ) :
    List (String × TraceDir ρ) :=
  if root.own.hasReader && root.own.hasResult then
    [(root.parentName, root.own)]
  else
    (root.children.filter (·.hasReader)).map
      (fun child => (root.name, child))

/- `iter_trace_dirs` -/
def iterTraceDirs (root : TraceRoot ρ) :
    Except PyErr (List (String × TraceDir ρ)) :=
  if root.traceDirs.isEmpty then
    throw
      (.fileNotFoundError
        ("no per-rank trace directories under: " ++ root.path))
  else
    pure root.traceDirs

/- Iterating gives the directories, if it does not raise. -/
theorem iterTraceDirs_ok
    {root : TraceRoot ρ}
    {dirs : List (String × TraceDir ρ)}
    (hIter : root.iterTraceDirs = .ok dirs) :
    dirs = root.traceDirs := by
  unfold iterTraceDirs at hIter
  split at hIter
  · cases hIter
  · cases hIter
    rfl

/- A root whose directories are those of some items is read. -/
theorem iterTraceDirs_eq
    {root : TraceRoot ρ}
    {α : Type}
    {IsOf : String × TraceDir ρ → α → Prop}
    {items : List α}
    (hDirs : List.Forall₂ IsOf root.traceDirs items)
    (hSome : items ≠ []) :
    root.iterTraceDirs = .ok root.traceDirs := by
  have hThere : ¬ root.traceDirs.isEmpty := by
    intro hEmpty
    rw [List.isEmpty_iff.mp hEmpty] at hDirs
    cases hDirs
    exact hSome rfl
  unfold iterTraceDirs
  rw [if_neg hThere]
  rfl

end TraceRoot

end Analysis

end FabricPerf
