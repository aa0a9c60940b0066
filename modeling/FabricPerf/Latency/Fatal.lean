import FabricPerf.Latency.Compact

/-
  Which result files `read_trace` cannot skip.

  Decoding a file can fail at each of its steps.  Most of the
  failures are exceptions that `read_trace` skips the file
  on; `Fatal` collects the others in terms of the header, the
  section table, the slots and the reader.

  Main declarations:
    * `Latency.Fatal`, `Latency.fileRecords`
    * `Latency.fatal_iff`, `Latency.fileRecords_eq`
-/

------------------------------------------------------------
-- Fatal Files
------------------------------------------------------------

namespace FabricPerf

namespace Latency

open Analysis StructFormat

/- The slot at an offset is in the file. -/
abbrev SlotInFile (file : ResultFile) (offset : Nat) : Prop :=
  offset + 16 ≤ file.contents.length

/- The slot at an offset is unused. -/
abbrev UnusedSlot (file : ResultFile) (offset : Nat) : Prop :=
  SlotInFile file offset ∧ rowAt file offset = zeroRow

/- The offsets of the streams, in the order they are read. -/
def sectionOffsets
    (header : TraceHeader)
    (sect : TraceSection) : List Nat :=
  (streamIndices header.gridSize
    (header.blockSize.fdiv sect.warpDiv)).map
    (streamOffset sect (header.blockSize.fdiv sect.warpDiv))

/-
  A compact file that the compact parser fails on with an
  exception other than a short read: the reader has no class;
  or the section table is complete but divides by zero, or
  leads to a first used slot whose row the class rejects.
-/
def CompactFatal
    (reader : Reader)
    (file : ResultFile)
    (header : TraceHeader) : Prop :=
  match reader.srLatency with
  | none => True
  | some type =>
      TableComplete file header ∧
        ∃ sect, readSection file 0 = .ok sect ∧
          (sect.warpDiv = 0 ∨
            type.names.length ≠ 3 ∧
              ∃ offset,
                (sectionOffsets header sect).find?
                    (fun o => ¬UnusedSlot file o) =
                  some offset ∧
                SlotInFile file offset)

/-
  A file that the generated reader fails on, other than by an
  exception that skips the file, or decodes without a map
  `sr_latency`.
-/
def GeneratedFatal
    (reader : Reader)
    (file : ResultFile) : Prop :=
  match reader.parse file with
  | .ok records => records "sr_latency" = none
  | .error err => PyErr.skipsFile err = false

/- A file with a header that one of the decoders fails on. -/
def Fatal (reader : Reader) (file : ResultFile) : Prop :=
  ∃ header, readHeader file = .ok header ∧
    if header.numProbes = 1 ∨ header.numProbes = 2 then
      CompactFatal reader file header
    else
      GeneratedFatal reader file

------------------------------------------------------------
-- Short Reads
------------------------------------------------------------

/- Unpacking raises nothing but `struct.error`. -/
theorem structUnpack_error
    {format : List Code}
    {payload : List UInt8}
    {err : PyErr}
    (hError : structUnpack format payload = .error err) :
    err = .structError := by
  unfold structUnpack at hError
  split at hError
  · cases hError
  · exact (Except.error.inj hError).symm

/- Nor does what makes a tuple of the unpacked values. -/
theorem bind_structUnpack_error
    {α : Type}
    {format : List Code}
    {payload : List UInt8}
    {make : List Int → Except PyErr α}
    {err : PyErr}
    (hMake : ∀ e, make (values format payload) ≠ .error e)
    (hError :
      (structUnpack format payload >>= make) = .error err) :
    err = .structError := by
  cases hUnpack : structUnpack format payload with
  | error e =>
      rw [hUnpack, Raising.error_bind] at hError
      rw [← Except.error.inj hError]
      exact structUnpack_error hUnpack
  | ok found =>
      rw [hUnpack, Raising.ok_bind] at hError
      unfold structUnpack at hUnpack
      split at hUnpack
      · rename_i hSome
        rcases unpack_eq_some_iff.mp hSome with ⟨-, hValues⟩
        rw [← Except.ok.inj hUnpack, ← hValues] at hError
        exact absurd hError (hMake err)
      · cases hUnpack

/- The header raises nothing but `struct.error`. -/
theorem readHeader_error
    {file : ResultFile}
    {err : PyErr}
    (hError : readHeader file = .error err) :
    err = .structError := by
  unfold readHeader at hError
  refine bind_structUnpack_error ?_ hError
  intro e hMake
  simp only [List.replicate, values,
    TraceHeader.ofValues] at hMake
  cases hMake

/- A section raises nothing but `struct.error`. -/
theorem readSection_error
    {file : ResultFile}
    {i : Nat}
    {err : PyErr}
    (hError : readSection file i = .error err) :
    err = .structError := by
  unfold readSection at hError
  refine bind_structUnpack_error ?_ hError
  intro e hMake
  simp only [values, TraceSection.ofValues] at hMake
  cases hMake

/- An incomplete table raises `struct.error`. -/
theorem parseCompact_of_not_complete
    {reader : Reader}
    {type : RecordType}
    {file : ResultFile}
    {header : TraceHeader}
    (hType : reader.srLatency = some type)
    (hHeader : readHeader file = .ok header)
    (hTable : ¬TableComplete file header) :
    parseCompactSrLatencySection reader file 0 =
      .error .structError := by
  have hReader : reader.srLatencyType = .ok type := by
    unfold Reader.srLatencyType
    rw [hType]
  have hRead :
      (List.range header.numProbes.toNat).mapM
          (readSection file) =
        .error .structError := by
    cases hMap :
        (List.range header.numProbes.toNat).mapM
          (readSection file) with
    | ok sections =>
        exact absurd (Raising.forall_of_mapM_ok hMap) hTable
    | error err =>
        rcases Raising.exists_error_of_mapM hMap with
          ⟨i, -, hI⟩
        rw [readSection_error hI]
  unfold parseCompactSrLatencySection
  rw [hReader, Raising.ok_bind, hHeader, Raising.ok_bind,
    hRead, Raising.error_bind]

------------------------------------------------------------
-- Rows The Class Rejects
------------------------------------------------------------

/- An unused slot is decoded whatever the class. -/
theorem compactRow_unused
    (type : RecordType)
    {file : ResultFile}
    {offset : Nat}
    (hUnused : UnusedSlot file offset) :
    compactRow type file offset = .ok none := by
  rw [compactRow_in_file type hUnused.1, if_pos hUnused.2]

/- A used slot is a row that another class rejects. -/
theorem compactRow_typeError
    {type : RecordType}
    (hArity : type.names.length ≠ 3)
    {file : ResultFile}
    {offset : Nat}
    (hFits : SlotInFile file offset)
    (hUsed : rowAt file offset ≠ zeroRow) :
    compactRow type file offset = .error .typeError := by
  have hCall :
      type.call (rowAt file offset) = .error .typeError := by
    unfold RecordType.call RecordType.make
    rw [dif_neg]
    rw [length_rowAt]
    exact hArity.symm
  rw [compactRow_in_file type hFits, if_neg hUsed, hCall]
  rfl

/- With the class of the map, only short reads fail. -/
theorem compactRow_error
    {type : RecordType}
    (hArity : type.names.length = 3)
    {file : ResultFile}
    {offset : Nat}
    {err : PyErr}
    (hError : compactRow type file offset = .error err) :
    ∃ text, err = .valueError text := by
  by_cases hFits : SlotInFile file offset
  · rw [compactRow_of_le hArity hFits] at hError
    cases hError
  · rcases compactRow_of_lt type (Nat.lt_of_not_le hFits)
      with ⟨text, hText⟩
    rw [hText] at hError
    exact ⟨text, (Except.error.inj hError).symm⟩

/- The loop over the streams, by the offsets of the streams. -/
theorem mapM_streams
    (type : RecordType)
    (file : ResultFile)
    (header : TraceHeader)
    (sect : TraceSection) :
    (streamIndices header.gridSize
        (header.blockSize.fdiv sect.warpDiv)).mapM
        (fun stream =>
          compactRow type file
            (streamOffset sect
              (header.blockSize.fdiv sect.warpDiv) stream)) =
      (sectionOffsets header sect).mapM
        (compactRow type file) := by
  unfold sectionOffsets
  rw [List.mapM_map]
  rfl

/-
  The loop over the streams raises something other than
  `ValueError` exactly when the class rejects a row before
  the file ends.
-/
theorem mapM_compactRow_fatal_iff
    (type : RecordType)
    (file : ResultFile)
    (offsets : List Nat) :
    (∃ err,
      offsets.mapM (compactRow type file) = .error err ∧
        PyErr.skipsFile err = false) ↔
      type.names.length ≠ 3 ∧
        ∃ offset,
          offsets.find? (fun o => ¬UnusedSlot file o) =
            some offset ∧
          SlotInFile file offset := by
  by_cases hArity : type.names.length = 3
  · constructor
    · rintro ⟨err, hError, hFatal⟩
      rcases Raising.exists_error_of_mapM hError with
        ⟨offset, -, hOffset⟩
      rcases compactRow_error hArity hOffset with
        ⟨text, hText⟩
      rw [hText] at hFatal
      cases hFatal
    · rintro ⟨hNe, -⟩
      exact absurd hArity hNe
  · have hOk :
        ∀ o, (decide ¬UnusedSlot file o) = false →
          ∃ row, compactRow type file o = .ok row := by
      intro o hUnused
      have hSlot : UnusedSlot file o := by
        simpa using hUnused
      exact ⟨none, compactRow_unused type hSlot⟩
    cases hFind :
        offsets.find? (fun o => ¬UnusedSlot file o) with
    | none =>
        rcases Raising.mapM_ok_of_find?_eq_none hOk hFind with
          ⟨rows, hRows⟩
        rw [hRows]
        simp
    | some offset =>
        have hFound := List.find?_some hFind
        have hUsed : ¬UnusedSlot file offset :=
          of_decide_eq_true hFound
        by_cases hFits : SlotInFile file offset
        · have hRow :
              rowAt file offset ≠ zeroRow :=
            fun hZero => hUsed ⟨hFits, hZero⟩
          rw [Raising.mapM_error_of_find?_eq_some hOk hFind
            (compactRow_typeError hArity hFits hRow)]
          simp [hArity, hFits, PyErr.skipsFile]
        · rcases
            compactRow_of_lt type (Nat.lt_of_not_le hFits)
            with ⟨text, hText⟩
          rw [Raising.mapM_error_of_find?_eq_some hOk hFind
            hText]
          constructor
          · rintro ⟨err, hError, hFatal⟩
            rw [← Except.error.inj hError] at hFatal
            cases hFatal
          · rintro ⟨-, other, hOther, hIn⟩
            rw [← Option.some.inj hOther] at hIn
            exact absurd hIn hFits

------------------------------------------------------------
-- When Decoding Is Fatal
------------------------------------------------------------

/- When the compact parser fails for good. -/
theorem compactFatal_iff
    (reader : Reader)
    {file : ResultFile}
    {header : TraceHeader}
    (hHeader : readHeader file = .ok header)
    (hPos : 0 < header.numProbes.toNat) :
    CompactFatal reader file header ↔
      ∃ err,
        parseCompactSrLatencySection reader file 0 =
          .error err ∧
        PyErr.skipsFile err = false := by
  unfold CompactFatal
  cases hType : reader.srLatency with
  | none =>
      have hReader :
          reader.srLatencyType = .error .attributeError := by
        unfold Reader.srLatencyType
        rw [hType]
      unfold parseCompactSrLatencySection
      rw [hReader, Raising.error_bind]
      simp [PyErr.skipsFile]
  | some type =>
      by_cases hTable : TableComplete file header
      · rcases hTable 0 (List.mem_range.mpr hPos) with
          ⟨sect, hSect⟩
        rw [parseCompact_eq hType hHeader hTable hPos hSect,
          mapM_streams]
        by_cases hDiv : sect.warpDiv = 0
        · rw [if_pos hDiv]
          constructor
          · intro _
            exact ⟨_, rfl, rfl⟩
          · intro _
            exact ⟨hTable, sect, hSect, Or.inl hDiv⟩
        · have hLoop :=
            mapM_compactRow_fatal_iff type file
              (sectionOffsets header sect)
          rw [if_neg hDiv]
          constructor
          · rintro ⟨-, other, hOther, hCase⟩
            rw [hSect] at hOther
            rw [← Except.ok.inj hOther] at hCase
            rcases hCase with hZero | hRows
            · exact absurd hZero hDiv
            · rcases hLoop.mpr hRows with
                ⟨err, hError, hFatal⟩
              rw [hError]
              exact ⟨err, rfl, hFatal⟩
          · rintro ⟨err, hError, hFatal⟩
            refine ⟨hTable, sect, hSect, Or.inr ?_⟩
            apply hLoop.mp
            cases hRows :
                (sectionOffsets header sect).mapM
                  (compactRow type file) with
            | ok rows =>
                rw [hRows] at hError
                cases hError
            | error e =>
                rw [hRows] at hError
                rw [Except.error.inj hError]
                exact ⟨err, rfl, hFatal⟩
      · rw [parseCompact_of_not_complete hType hHeader hTable]
        constructor
        · rintro ⟨hComplete, -⟩
          exact absurd hComplete hTable
        · rintro ⟨err, hError, hFatal⟩
          rw [← Except.error.inj hError] at hFatal
          cases hFatal

/- When the generated reader fails for good. -/
theorem generatedFatal_iff
    (reader : Reader)
    (file : ResultFile) :
    GeneratedFatal reader file ↔
      ∃ err,
        parseGeneratedSrLatency reader file = .error err ∧
        PyErr.skipsFile err = false := by
  unfold GeneratedFatal parseGeneratedSrLatency
  cases reader.parse file with
  | ok records =>
      cases hMap : records "sr_latency" with
      | none =>
          simp [hMap, PyErr.skipsFile]
      | some blocks =>
          simp [hMap]
  | error err =>
      cases err <;> simp [PyErr.skipsFile]

/- A file is fatal exactly when decoding it is. -/
theorem fatal_iff
    (reader : Reader)
    (file : ResultFile) :
    Fatal reader file ↔
      ∃ err,
        parseSrLatencyRecords reader file = .error err ∧
        PyErr.skipsFile err = false := by
  unfold Fatal parseSrLatencyRecords
  cases hHeader : readHeader file with
  | error err =>
      rw [readHeader_error hHeader, Raising.error_bind]
      simp [PyErr.skipsFile]
  | ok header =>
      rw [Raising.ok_bind]
      by_cases hProbes :
          header.numProbes = 1 ∨ header.numProbes = 2
      · have hPos : 0 < header.numProbes.toNat := by omega
        have hCompact :=
          compactFatal_iff reader hHeader hPos
        simp only [Except.ok.injEq, exists_eq_left',
          if_pos hProbes]
        exact hCompact
      · simp only [Except.ok.injEq, exists_eq_left',
          if_neg hProbes]
        exact generatedFatal_iff reader file

------------------------------------------------------------
-- The Records Of A File
------------------------------------------------------------

instance decidableReturns {ε α : Type} (x : Except ε α) :
    Decidable (∃ a, x = .ok a) :=
  match x with
  | .ok a => isTrue ⟨a, rfl⟩
  | .error _ => isFalse (fun h => nomatch h)

instance (file : ResultFile) (header : TraceHeader) :
    Decidable (TableComplete file header) :=
  inferInstanceAs
    (Decidable (∀ i ∈ List.range header.numProbes.toNat,
      ∃ entry, readSection file i = .ok entry))

/-
  The records of a compact file: the used first slots, if the
  section table and all first slots are in the file.
-/
def compactRecords
    (reader : Reader)
    (file : ResultFile)
    (header : TraceHeader) : List Record :=
  match reader.srLatency, readSection file 0 with
  | some type, .ok sect =>
      let offsets := sectionOffsets header sect
      if TableComplete file header ∧
          ∀ offset ∈ offsets, SlotInFile file offset then
        ((offsets.map (rowAt file)).filter
          (· ≠ zeroRow)).filterMap type.make
      else
        []
  | _, _ => []

/- The records the generated reader has for a file. -/
def generatedRecords
    (reader : Reader)
    (file : ResultFile) : List Record :=
  match reader.parse file with
  | .ok records =>
      ((records "sr_latency").getD []).flatten.flatten
  | .error _ => []

/- The records of a file; a malformed file has none. -/
def fileRecords
    (reader : Reader)
    (file : ResultFile) : List Record :=
  match readHeader file with
  | .error _ => []
  | .ok header =>
      if header.numProbes = 1 ∨ header.numProbes = 2 then
        compactRecords reader file header
      else
        generatedRecords reader file

/-
  Where all first slots are in the file and the class rejects
  none of them, the loop yields their records.
-/
theorem mapM_compactRow_of_slots
    (type : RecordType)
    {file : ResultFile}
    {offsets : List Nat}
    (hSlots : ∀ offset ∈ offsets, SlotInFile file offset)
    (hFatal :
      ¬∃ err,
        offsets.mapM (compactRow type file) = .error err ∧
          PyErr.skipsFile err = false) :
    offsets.mapM (compactRow type file) =
      .ok
        (offsets.map
          (fun offset =>
            if rowAt file offset = zeroRow then none
            else type.make (rowAt file offset))) := by
  apply Raising.mapM_ok
  intro offset hMem
  by_cases hArity : type.names.length = 3
  · exact compactRow_of_le hArity (hSlots offset hMem)
  · have hUnused : UnusedSlot file offset := by
      by_contra hUsed
      apply hFatal
      rw [mapM_compactRow_fatal_iff]
      cases hFind :
          offsets.find? (fun o => ¬UnusedSlot file o) with
      | none =>
          rw [List.find?_eq_none] at hFind
          exact absurd (decide_eq_true hUsed)
            (hFind offset hMem)
      | some first =>
          have hFirst := List.mem_of_find?_eq_some hFind
          exact ⟨hArity, first, rfl, hSlots first hFirst⟩
    rw [compactRow_unused type hUnused, if_pos hUnused.2]

/- The records of a compact file that is not fatal. -/
theorem compactRecords_eq
    {reader : Reader}
    {file : ResultFile}
    {header : TraceHeader}
    (hHeader : readHeader file = .ok header)
    (hPos : 0 < header.numProbes.toNat)
    (hFatal : ¬CompactFatal reader file header) :
    compactRecords reader file header =
      (parseCompactSrLatencySection reader file
        0).toOption.getD [] := by
  have hEscape := hFatal
  rw [compactFatal_iff reader hHeader hPos] at hEscape
  unfold CompactFatal at hFatal
  unfold compactRecords
  cases hType : reader.srLatency with
  | none =>
      rw [hType] at hFatal
      exact absurd trivial hFatal
  | some type =>
      rw [hType] at hFatal
      by_cases hTable : TableComplete file header
      · rcases hTable 0 (List.mem_range.mpr hPos) with
          ⟨sect, hSect⟩
        have hDiv : sect.warpDiv ≠ 0 := by
          intro hZero
          exact hFatal ⟨hTable, sect, hSect, Or.inl hZero⟩
        have hParse :=
          parseCompact_eq hType hHeader hTable hPos hSect
        rw [if_neg hDiv, mapM_streams] at hParse
        rw [hParse] at hEscape ⊢
        simp only [hSect]
        by_cases hSlots :
            ∀ offset ∈ sectionOffsets header sect,
              SlotInFile file offset
        · have hRows :=
            mapM_compactRow_of_slots type hSlots
              (by
                rintro ⟨err, hError, hErr⟩
                rw [hError] at hEscape
                exact hEscape ⟨err, rfl, hErr⟩)
          rw [if_pos ⟨hTable, hSlots⟩, hRows,
            filterMap_filter_ne_zeroRow]
          rfl
        · rw [if_neg (fun hBoth => hSlots hBoth.2)]
          cases hRows :
              (sectionOffsets header sect).mapM
                (compactRow type file) with
          | error err =>
              rfl
          | ok rows =>
              exfalso
              apply hSlots
              intro offset hMem
              by_contra hOut
              rcases compactRow_of_lt type
                (Nat.lt_of_not_le hOut) with ⟨text, hText⟩
              rcases Raising.forall_of_mapM_ok hRows offset
                hMem with ⟨row, hRow⟩
              rw [hText] at hRow
              cases hRow
      · rw [parseCompact_of_not_complete hType hHeader hTable]
        cases readSection file 0 with
        | error err =>
            rfl
        | ok sect =>
            simp only [hTable, false_and, if_false]
            rfl

/- The records of a file that is not fatal. -/
theorem fileRecords_eq
    {reader : Reader}
    {file : ResultFile}
    (hFatal : ¬Fatal reader file) :
    fileRecords reader file =
      (parseSrLatencyRecords reader file).toOption.getD [] := by
  unfold fileRecords parseSrLatencyRecords
  unfold Fatal at hFatal
  cases hHeader : readHeader file with
  | error err =>
      rfl
  | ok header =>
      rw [Raising.ok_bind]
      simp only [hHeader, Except.ok.injEq, exists_eq_left']
        at hFatal
      by_cases hProbes :
          header.numProbes = 1 ∨ header.numProbes = 2
      · have hPos : 0 < header.numProbes.toNat := by omega
        rw [if_pos hProbes] at hFatal
        simp only [if_pos hProbes]
        exact compactRecords_eq hHeader hPos hFatal
      · simp only [if_neg hProbes]
        unfold generatedRecords parseGeneratedSrLatency
        cases reader.parse file with
        | ok records =>
            cases hMap : records "sr_latency" with
            | none =>
                simp only [hMap]
                rfl
            | some blocks =>
                simp only [hMap]
                rfl
        | error err =>
            cases err <;> rfl

end Latency

end FabricPerf
