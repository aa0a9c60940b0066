import FabricPerf.Lib.Dict
import Mathlib.Data.List.TakeWhile

/-
  Ordered maps as one text.

  The entries stand between separators, in order.  An entry is
  its key, a mark and its value, or the key alone where the
  value is empty.  Reading skips empty parts, and a key that
  comes again keeps its place and takes the new value.

  Main declarations:
    * `KeyValues.parse`, `KeyValues.format`
    * `KeyValues.Clean`
    * `KeyValues.parse_format`
    * `KeyValues.clean_parse`
    * `KeyValues.mem_keys_parse`, `KeyValues.find?_parse`
-/

namespace KeyValues

variable {α : Type} [DecidableEq α]

------------------------------------------------------------
-- Parts
------------------------------------------------------------

/- The parts between separators that are not empty. -/
def parts (sep : α) (text : List α) : List (List α) :=
  (text.splitOn sep).filter (fun part => !part.isEmpty)

/- A part before and after its first mark. -/
def entry (mark : α) (part : List α) : List α × List α :=
  (part.takeWhile (· ≠ mark), (part.dropWhile (· ≠ mark)).drop 1)

/- An entry as a part. -/
def part (mark : α) (e : List α × List α) : List α :=
  if e.2.isEmpty then e.1 else e.1 ++ mark :: e.2

/- No part between separators holds one. -/
theorem notMem_of_mem_splitOn
    {sep : α}
    {text part : List α}
    (hMem : part ∈ text.splitOn sep) :
    sep ∉ part := by
  induction text generalizing part with
  | nil =>
      rw [List.splitOn_nil, List.mem_singleton] at hMem
      simp [hMem]
  | cons c rest ih =>
      rw [List.splitOn_cons_eq_if_modifyHead] at hMem
      split at hMem
      case isTrue hSep =>
          rcases List.mem_cons.mp hMem with hFirst | hRest
          · simp [hFirst]
          · exact ih hRest
      case isFalse hOther =>
          have hNe : sep ≠ c := by
            intro hSame
            exact hOther (by simp [hSame])
          cases hParts : rest.splitOn sep with
          | nil =>
              exact absurd hParts (List.splitOn_ne_nil sep rest)
          | cons first more =>
              rw [hParts, List.modifyHead_cons,
                List.mem_cons] at hMem
              rcases hMem with hFirst | hMore
              · have hOld : sep ∉ first :=
                  ih (by rw [hParts]; exact List.mem_cons_self)
                rw [hFirst]
                simp [hNe, hOld]
              · apply ih
                rw [hParts]
                exact List.mem_cons_of_mem _ hMore

/- The key of a part has no mark. -/
theorem mark_notMem_entry (mark : α) (part : List α) :
    mark ∉ (entry mark part).1 := by
  intro hMem
  simpa using List.mem_takeWhile_imp hMem

/- A key and a value come from their part. -/
theorem notMem_entry
    {sep mark : α}
    {part : List α}
    (hPart : sep ∉ part) :
    sep ∉ (entry mark part).1 ∧ sep ∉ (entry mark part).2 := by
  constructor
  · intro hMem
    exact hPart ((List.takeWhile_sublist _).subset hMem)
  · intro hMem
    exact hPart
      ((List.dropWhile_sublist _).subset
        (List.mem_of_mem_drop hMem))

/- Reading a written entry gives it back. -/
theorem entry_part
    {mark : α}
    {e : List α × List α}
    (hKey : mark ∉ e.1) :
    entry mark (part mark e) = e := by
  rcases e with ⟨key, value⟩
  have hAll : ∀ c ∈ key, decide (c ≠ mark) = true := by
    intro c hMem
    apply decide_eq_true
    intro hSame
    rw [hSame] at hMem
    exact hKey hMem
  have hTake : key.takeWhile (· ≠ mark) = key :=
    List.takeWhile_eq_self_iff.mpr hAll
  have hDrop : key.dropWhile (· ≠ mark) = [] :=
    List.dropWhile_eq_nil_iff.mpr hAll
  cases value with
  | nil =>
      change (key.takeWhile (· ≠ mark),
        (key.dropWhile (· ≠ mark)).drop 1) = (key, [])
      rw [hTake, hDrop]
      rfl
  | cons c rest =>
      change ((key ++ mark :: c :: rest).takeWhile (· ≠ mark),
        ((key ++ mark :: c :: rest).dropWhile (· ≠ mark)).drop
          1) = (key, c :: rest)
      rw [List.takeWhile_append_of_pos hAll,
        List.dropWhile_append_of_pos hAll]
      simp

------------------------------------------------------------
-- Maps
------------------------------------------------------------

/- Read the entries of a text in order. -/
def parse (sep mark : α) (text : List α) :
    Dict (List α) (List α) :=
  ((parts sep text).map (entry mark)).foldl
    (fun d e => d.set e.1 e.2) Dict.empty

/- Write the entries in order. -/
def format (sep mark : α) (d : Dict (List α) (List α)) :
    List α :=
  [sep].intercalate (d.entries.map (part mark))

/-
  An entry that is read back: its key is not empty and has no
  separator and no mark, its value has no separator.
-/
structure Clean (sep mark : α) (e : List α × List α) :
    Prop where
  ne_nil : e.1 ≠ []
  key_sep : sep ∉ e.1
  key_mark : mark ∉ e.1
  value_sep : sep ∉ e.2

namespace Clean

variable {sep mark : α} {e : List α × List α}

omit [DecidableEq α] in
/- A written entry has no separator. -/
theorem notMem_part
    (hClean : Clean sep mark e)
    (hNe : sep ≠ mark) :
    sep ∉ part mark e := by
  unfold part
  split
  · exact hClean.key_sep
  · simp [hClean.key_sep, hNe, hClean.value_sep]

omit [DecidableEq α] in
/- A written entry is not empty. -/
theorem part_ne_nil (hClean : Clean sep mark e) :
    part mark e ≠ [] := by
  unfold part
  split
  · exact hClean.ne_nil
  · simp

end Clean

/- Reading what was written gives the map back. -/
theorem parse_format
    {sep mark : α}
    {d : Dict (List α) (List α)}
    (hNe : sep ≠ mark)
    (hClean : ∀ e ∈ d.entries, Clean sep mark e) :
    parse sep mark (format sep mark d) = d := by
  have hParts :
      parts sep (format sep mark d) = d.entries.map (part mark) := by
    unfold parts format
    cases hEntries : d.entries with
    | nil => rfl
    | cons e rest =>
        have hSep :
            ∀ p ∈ (e :: rest).map (part mark), sep ∉ p := by
          intro p hMem
          rcases List.mem_map.mp hMem with ⟨own, hOwn, rfl⟩
          rw [← hEntries] at hOwn
          exact (hClean own hOwn).notMem_part hNe
        rw [List.splitOn_intercalate sep hSep (by simp),
          List.filter_eq_self]
        intro p hMem
        rcases List.mem_map.mp hMem with ⟨own, hOwn, rfl⟩
        rw [← hEntries] at hOwn
        simpa using (hClean own hOwn).part_ne_nil
  have hEntries :
      (d.entries.map (part mark)).map (entry mark) = d.entries := by
    rw [List.map_map]
    apply (List.map_congr_left _).trans (List.map_id _)
    intro e hMem
    exact entry_part (hClean e hMem).key_mark
  unfold parse
  rw [hParts, hEntries]
  exact Dict.setAll_empty d

/- What is read has clean entries, empty keys apart. -/
theorem clean_parse
    {sep mark : α}
    {text : List α}
    (hNamed : [] ∉ (parse sep mark text).keys) :
    ∀ e ∈ (parse sep mark text).entries, Clean sep mark e := by
  intro e hMem
  have hEntry :
      ∀ e ∈ (parts sep text).map (entry mark),
        mark ∉ e.1 ∧ sep ∉ e.1 ∧ sep ∉ e.2 := by
    intro e hMem
    rcases List.mem_map.mp hMem with ⟨p, hPart, rfl⟩
    have hSep := notMem_of_mem_splitOn (List.mem_filter.mp hPart).1
    exact ⟨mark_notMem_entry mark p, notMem_entry hSep⟩
  have hOwn :=
    Dict.forall_foldl_set hEntry
      (fun e hMem => absurd hMem List.not_mem_nil) e hMem
  refine ⟨?_, hOwn.2.1, hOwn.1, hOwn.2.2⟩
  intro hEmpty
  apply hNamed
  rw [← hEmpty]
  exact List.mem_map_of_mem hMem

/- The keys that are read are those of the parts. -/
theorem mem_keys_parse
    {sep mark : α}
    {text key : List α} :
    key ∈ (parse sep mark text).keys ↔
      ∃ p ∈ parts sep text, (entry mark p).1 = key := by
  unfold parse
  rw [Dict.keys_foldl_set, Dict.mem_appendMissing]
  simp [Dict.keys, Dict.empty]

/- The value of a key is that of the last part with it. -/
theorem find?_parse
    (sep mark : α)
    (text key : List α) :
    (parse sep mark text).find? key =
      (((parts sep text).map (entry mark)).reverse.find?
        (fun e => e.1 = key)).map Prod.snd := by
  unfold parse
  rw [Dict.find?_foldl_set]
  exact Option.or_none

end KeyValues
