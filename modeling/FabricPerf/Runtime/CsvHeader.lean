import FabricPerf.Runtime.CsvRows

/-
  The CSV file that the processes of a run share.

  `open_csv_locked` looks at the size of the file, opens it
  for appending and, if it was missing or empty, writes the
  header.  The mutex around it belongs to one process, so the
  three steps of several processes interleave.  Appends are
  atomic.

  Main declarations:
    * `Runtime.csvMachine`
    * `Runtime.OneHeader`
    * `Runtime.one_header_iff`
-/

------------------------------------------------------------
-- The Shared File
------------------------------------------------------------

namespace FabricPerf

namespace Runtime

/-
  Where a process is: `checked` after the `stat`, with its
  decision, and `headerDue` after the `fopen` of a process
  that is to write the header.
-/
inductive CsvHandle where
| closed
| checked (writeHeader : Bool)
| headerDue
| ready
deriving DecidableEq, Repr

/- The file, if there is one, and the processes. -/
structure CsvDir (ι : Type) where
  file : Option Text
  handle : ι → CsvHandle

/- The steps of a process on the file. -/
inductive CsvAction (ι V : Type) where
| stat (p : ι)
| fopen (p : ι) (success : Bool)
| header (p : ι)
| row (p : ι) (row : CsvRow V)
| fini (p : ι)

/- The names in the header. -/
def csvColumns : List Text :=
  ["rank", "device", "launch_index", "kernel", "grid", "block",
    "shared_bytes", "duration_s", "dram_read_Bps",
    "dram_write_Bps", "nvlink_rx_Bps", "nvlink_tx_Bps",
    "xbar_read_Bps", "xbar_write_Bps", "xbar_metric",
    "xbar_value", "raw_metrics"].map String.toList

/- The line that `open_csv_locked` prints. -/
def csvHeader : Text :=
  "rank,device,launch_index,kernel,grid,block,".toList ++
    "shared_bytes,duration_s,".toList ++
    "dram_read_Bps,dram_write_Bps,nvlink_rx_Bps,".toList ++
    "nvlink_tx_Bps,xbar_read_Bps,xbar_write_Bps,".toList ++
    "xbar_metric,xbar_value,raw_metrics\n".toList

namespace CsvDir

variable {ι : Type} [DecidableEq ι]

/- Replace the handle of a process. -/
def setHandle
    (s : CsvDir ι)
    (p : ι)
    (handle : CsvHandle) : CsvDir ι :=
  { s with
    handle := fun q => if q = p then handle else s.handle q }

/- What is in the file; a missing one is empty. -/
def contents (s : CsvDir ι) : Text :=
  s.file.getD []

/- Append to the file; `fopen` creates a missing one. -/
def append (s : CsvDir ι) (text : Text) : CsvDir ι :=
  { s with file := some (s.contents ++ text) }

/- `stat` fails or reports a size of zero. -/
def noContents (s : CsvDir ι) : Bool :=
  s.contents == []

variable {V : Type}

/- One step of one process. -/
def step
    (format : RowFormat V)
    (s : CsvDir ι) :
    CsvAction ι V → Option (CsvDir ι)
| .stat p =>
    if s.handle p = .closed then
      some (s.setHandle p (.checked s.noContents))
    else
      none
| .fopen p success =>
    match s.handle p with
    | .checked writeHeader =>
        if success then
          some
            ((s.append []).setHandle p
              (if writeHeader then .headerDue else .ready))
        else
          some (s.setHandle p .closed)
    | _ => none
| .header p =>
    if s.handle p = .headerDue then
      some ((s.append csvHeader).setHandle p .ready)
    else
      none
| .row p row =>
    if s.handle p = .ready then
      some (s.append (writeFields (rowFields format row)))
    else
      none
| .fini p =>
    if s.handle p = .ready then
      some (s.setHandle p .closed)
    else
      none

end CsvDir

/-
  The file holds the header as its first record and no
  second one, on whole lines.
-/
def HeaderFirst (text : Text) : Prop :=
  ∃ rows,
    Rfc4180.Complete text (csvColumns :: rows) ∧
      csvColumns ∉ rows

section Machine

variable {ι V : Type} [DecidableEq ι]

/-
  The processes start without the file, with an empty one or
  with one that an earlier run has left.
-/
def csvMachine (format : RowFormat V) :
    Machine (CsvDir ι) (CsvAction ι V) where
  init := fun s =>
    (∀ p, s.handle p = .closed) ∧
      ∀ text, s.file = some text →
        text = [] ∨ HeaderFirst text
  step := CsvDir.step format

------------------------------------------------------------
-- Headers And Rows
------------------------------------------------------------

/- What one file promises its reader. -/
structure OneHeader (s : CsvDir ι) : Prop where
  file : s.contents = [] ∨ HeaderFirst (s.contents)
  ready : ∀ p, s.handle p = .ready → HeaderFirst (s.contents)

/- A process writes its header while the file is empty. -/
def HeaderOnEmpty (s : CsvDir ι) : CsvAction ι V → Prop
| .header _ => s.contents = []
| _ => True

/- What the processes know of the file. -/
structure HeaderInv (s : CsvDir ι) : Prop where
  good : OneHeader s
  checked :
    ∀ p, s.handle p = .checked false →
      HeaderFirst (s.contents)

/- The header is the line of its columns. -/
theorem csvHeader_eq : csvHeader = Rfc4180.line csvColumns := by
  decide +kernel

/- The columns are written plainly. -/
theorem encodes_csvColumns :
    List.Forall₂ Rfc4180.Encodes csvColumns csvColumns := by
  rw [List.forall₂_same]
  intro column hMem
  apply Rfc4180.Encodes.plain
  have hAll :
      csvColumns.all
          (fun column =>
            column.all (fun c => !Rfc4180.isSpecial c)) =
        true := by
    decide +kernel
  intro c hC
  have hPlain :=
    List.all_eq_true.mp (List.all_eq_true.mp hAll column hMem)
      c hC
  simpa using hPlain

/- A header appended to whole lines is one more record. -/
theorem complete_append_csvHeader
    {text : Text}
    {records : List (List Text)}
    (hComplete : Rfc4180.Complete text records) :
    Rfc4180.Complete (text ++ csvHeader)
      (records ++ [csvColumns]) := by
  rw [csvHeader_eq]
  exact hComplete.append_line (by decide) encodes_csvColumns

/- A row is not the header: it begins with digits. -/
theorem rowFields_ne_csvColumns
    (format : RowFormat V)
    (row : CsvRow V) :
    rowFields format row ≠ csvColumns := by
  intro hSame
  have hHead : decimal row.rank = "rank".toList :=
    (List.cons.inj hSame).1
  have hMem : 'r' ∈ decimal row.rank := by
    rw [hHead]
    decide
  have hDigit :=
    Nat.isDigit_of_mem_toDigits (by decide) (by decide) hMem
  exact absurd hDigit (by decide)

namespace HeaderFirst

/- The header alone. -/
theorem of_empty : HeaderFirst csvHeader := by
  have hComplete :=
    complete_append_csvHeader Rfc4180.complete_nil
  rw [List.nil_append, List.nil_append] at hComplete
  exact ⟨[], hComplete, List.not_mem_nil⟩

/- A row does not disturb the header. -/
theorem append_row
    {text : Text}
    (hFirst : HeaderFirst text)
    (format : RowFormat V)
    (row : CsvRow V) :
    HeaderFirst
      (text ++ writeFields (rowFields format row)) := by
  rcases hFirst with ⟨rows, hComplete, hNone⟩
  refine ⟨rows ++ [rowFields format row], ?_, ?_⟩
  · exact complete_append_writeFields hComplete
      (List.cons_ne_nil _ _) (nulFree_rowFields row)
  · intro hMem
    rcases List.mem_append.mp hMem with hMem | hMem
    · exact hNone hMem
    · exact rowFields_ne_csvColumns format row
        (List.mem_singleton.mp hMem).symm

/- A second header is a data row. -/
theorem not_append_header
    {text : Text}
    (hFirst : HeaderFirst text) :
    ¬ HeaderFirst (text ++ csvHeader) := by
  rcases hFirst with ⟨rows, hComplete, _⟩
  rintro ⟨others, hOther, hNone⟩
  have hSame :=
    (complete_append_csvHeader hComplete).unique hOther
  have hRows : rows ++ [csvColumns] = others :=
    (List.cons.inj hSame).2
  apply hNone
  rw [← hRows]
  exact List.mem_append_right _ (List.mem_singleton_self _)

end HeaderFirst

------------------------------------------------------------
-- Runs
------------------------------------------------------------

omit [DecidableEq ι] in
/- Appending appends to the contents. -/
@[simp] theorem contents_append
    (s : CsvDir ι)
    (text : Text) :
    (s.append text).contents = s.contents ++ text := rfl

/- Handles are not part of the contents. -/
@[simp] theorem contents_setHandle
    (s : CsvDir ι)
    (p : ι)
    (handle : CsvHandle) :
    (s.setHandle p handle).contents = s.contents := rfl

/- The replaced handle and the others. -/
@[simp] theorem handle_setHandle
    (s : CsvDir ι)
    (p q : ι)
    (handle : CsvHandle) :
    (s.setHandle p handle).handle q =
      if q = p then handle else s.handle q := rfl

omit [DecidableEq ι] in
/- Appending leaves the handles alone. -/
@[simp] theorem handle_append
    (s : CsvDir ι)
    (text : Text) :
    (s.append text).handle = s.handle := rfl

/- The processes start without knowing anything. -/
theorem headerInv_init
    {format : RowFormat V}
    {s : CsvDir ι}
    (hInit : (csvMachine format).init s) :
    HeaderInv s := by
  rcases hInit with ⟨hClosed, hFile⟩
  refine ⟨⟨?_, ?_⟩, ?_⟩
  · cases hContents : s.file with
    | none =>
        exact Or.inl (by simp [CsvDir.contents, hContents])
    | some text =>
        have hText := hFile text hContents
        simpa [CsvDir.contents, hContents] using hText
  · intro p hReady
    rw [hClosed p] at hReady
    cases hReady
  · intro p hChecked
    rw [hClosed p] at hChecked
    cases hChecked

/- A step that leaves the contents alone and tells no more. -/
theorem HeaderInv.setHandle
    {s : CsvDir ι}
    (hInv : HeaderInv s)
    {p : ι}
    {handle : CsvHandle}
    (hKnows :
      handle = .ready ∨ handle = .checked false →
        HeaderFirst s.contents) :
    HeaderInv (s.setHandle p handle) := by
  refine ⟨⟨hInv.good.file, ?_⟩, ?_⟩
  · intro q hReady
    rw [handle_setHandle] at hReady
    split at hReady
    · exact hKnows (Or.inl hReady)
    · exact hInv.good.ready q hReady
  · intro q hChecked
    rw [handle_setHandle] at hChecked
    split at hChecked
    · exact hKnows (Or.inr hChecked)
    · exact hInv.checked q hChecked

omit [DecidableEq ι] in
/- A step after which the file begins with the header. -/
theorem HeaderInv.of_headerFirst
    {s : CsvDir ι}
    (hFirst : HeaderFirst s.contents) :
    HeaderInv s :=
  ⟨⟨Or.inr hFirst, fun _ _ => hFirst⟩, fun _ _ => hFirst⟩

/- Guarded steps keep what the processes know. -/
theorem headerInv_step
    {format : RowFormat V}
    {s s' : CsvDir ι}
    {a : CsvAction ι V}
    (hInv : HeaderInv s)
    (hStep : CsvDir.step format s a = some s')
    (hOk : HeaderOnEmpty s a) :
    HeaderInv s' := by
  cases a with
  | stat p =>
      simp only [CsvDir.step] at hStep
      split_ifs at hStep
      cases hStep
      apply hInv.setHandle
      rintro (hReady | hChecked)
      · cases hReady
      · have hSome : s.noContents = false :=
          CsvHandle.checked.inj hChecked
        have hNe : s.contents ≠ [] := by
          simpa [CsvDir.noContents] using hSome
        exact hInv.good.file.resolve_left hNe
  | fopen p success =>
      simp only [CsvDir.step] at hStep
      split at hStep
      case h_2 => cases hStep
      case h_1 writeHeader hHandle =>
          have hOpened : HeaderInv (s.append []) := by
            refine ⟨⟨?_, ?_⟩, ?_⟩
            · simpa using hInv.good.file
            · simpa using hInv.good.ready
            · simpa using hInv.checked
          cases success with
          | false =>
              cases hStep
              apply hInv.setHandle
              rintro (hReady | hChecked)
              · cases hReady
              · cases hChecked
          | true =>
              cases hStep
              apply hOpened.setHandle
              intro hKnows
              rw [contents_append, List.append_nil]
              cases writeHeader with
              | true =>
                  rcases hKnows with hReady | hChecked
                  · cases hReady
                  · cases hChecked
              | false => exact hInv.checked p hHandle
  | header p =>
      simp only [CsvDir.step] at hStep
      split_ifs at hStep
      cases hStep
      apply HeaderInv.of_headerFirst
      have hEmpty : s.contents = [] := hOk
      rw [contents_setHandle, contents_append, hEmpty,
        List.nil_append]
      exact HeaderFirst.of_empty
  | row p row =>
      simp only [CsvDir.step] at hStep
      split_ifs at hStep with hReady
      cases hStep
      apply HeaderInv.of_headerFirst
      exact (hInv.good.ready p hReady).append_row format row
  | fini p =>
      simp only [CsvDir.step] at hStep
      split_ifs at hStep
      cases hStep
      apply hInv.setHandle
      rintro (hReady | hChecked)
      · cases hReady
      · cases hChecked

/- A header written later is a second one. -/
theorem headerOnEmpty_of_oneHeader
    {format : RowFormat V}
    {s s' : CsvDir ι}
    {a : CsvAction ι V}
    (hInv : HeaderInv s)
    (hStep : CsvDir.step format s a = some s')
    (hGood : OneHeader s') :
    HeaderOnEmpty s a := by
  cases a with
  | header p =>
      simp only [CsvDir.step] at hStep
      split_ifs at hStep
      cases hStep
      rcases hInv.good.file with hEmpty | hFirst
      · exact hEmpty
      · have hReady := hGood.ready p (by simp)
        exact absurd hReady hFirst.not_append_header
  | stat | fopen | row | fini => trivial

/-
  In every run the file has one header, and it comes first,
  exactly if no process appends to the file between the
  `stat` and the header of another.
-/
theorem one_header_iff
    (format : RowFormat V)
    (s : CsvDir ι)
    (hInit : (csvMachine format).init s)
    (actions : List (CsvAction ι V)) :
    (csvMachine format).Stays OneHeader s actions ↔
      (csvMachine format).Meets HeaderOnEmpty s actions := by
  refine Machine.stays_iff_meets ?_ ?_ ?_
    (headerInv_init hInit) actions
  · intro s hInv
    exact hInv.good
  · intro s a s' hInv hStep hOk
    exact headerInv_step hInv hStep hOk
  · intro s a s' hInv hStep hGood
    exact headerOnEmpty_of_oneHeader hInv hStep hGood

end Machine

------------------------------------------------------------
-- Two Processes
------------------------------------------------------------

/- Streams that print nothing. -/
def silentFormat : RowFormat Unit where
  isNan := fun _ => false
  number := fun _ => []
  status := fun _ => []
  interval := 1000
  nulFree_number := fun _ => rfl
  nulFree_status := fun _ => rfl

/- Two processes and no file. -/
def freshDir : CsvDir Bool where
  file := none
  handle := fun _ => .closed

/- One process after the other. -/
def serialOpening : List (CsvAction Bool Unit) :=
  [.stat false, .fopen false true, .header false,
    .stat true, .fopen true true]

/- Both processes look at the file before either writes. -/
def racingOpening : List (CsvAction Bool Unit) :=
  [.stat false, .stat true, .fopen false true,
    .fopen true true, .header false, .header true]

/- Serial openings write one header. -/
theorem one_header_iff_serial :
    (csvMachine silentFormat).Stays OneHeader freshDir
      serialOpening := by
  have hInit : (csvMachine silentFormat).init freshDir :=
    ⟨fun _ => rfl, nofun⟩
  apply (one_header_iff silentFormat freshDir hInit
    serialOpening).mpr
  intro s₁ hStat
  cases hStat
  refine ⟨trivial, ?_⟩
  intro s₂ hOpen
  cases hOpen
  refine ⟨trivial, ?_⟩
  intro s₃ hHeader
  refine ⟨rfl, ?_⟩
  intro s₄ _
  refine ⟨trivial, ?_⟩
  intro s₅ _
  exact ⟨trivial, trivial⟩

/- Racing openings write two. -/
theorem not_one_header :
    ∃ s,
      (csvMachine silentFormat).run freshDir racingOpening =
          some s ∧
        Rfc4180.read s.contents =
          some [csvColumns, csvColumns] ∧
        ¬ OneHeader s := by
  have hTwo :
      Rfc4180.Complete (csvHeader ++ csvHeader)
        [csvColumns, csvColumns] := by
    have hFirst :=
      complete_append_csvHeader Rfc4180.complete_nil
    rw [List.nil_append, List.nil_append] at hFirst
    exact complete_append_csvHeader hFirst
  refine ⟨_, rfl, hTwo.read_eq, ?_⟩
  intro hGood
  exact HeaderFirst.of_empty.not_append_header
    (hGood.ready false rfl)

end Runtime

end FabricPerf
