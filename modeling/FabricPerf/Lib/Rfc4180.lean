import FabricPerf.Lib.Scanner
import Mathlib.Tactic

/-
  A reader of comma-separated values after RFC 4180.

  A record is one or more fields with commas between them; a
  field is written plainly or between quotes, where a quote
  is doubled.  A record ends at a line feed, which may follow
  a carriage return.

  Main declarations:
    * `Rfc4180.State.step`, `Rfc4180.read`
    * `Rfc4180.Encodes`, `Rfc4180.line`
    * `Rfc4180.read_flatMap_line`
    * `Rfc4180.Complete.append_line`
-/

------------------------------------------------------------
-- The Reader
------------------------------------------------------------

namespace Rfc4180

/- Where the reader is. -/
inductive Phase where
| recordStart
| fieldStart
| unquoted
| quoted
| quoteInQuoted
| afterReturn
deriving DecidableEq, Repr

/- The text of the field, and what was read before it. -/
structure State where
  phase : Phase
  field : Text
  record : List Text
  records : List (List Text)
deriving DecidableEq, Repr

namespace State

/- Nothing has been read. -/
def start : State where
  phase := .recordStart
  field := []
  record := []
  records := []

/- A character of the field. -/
def push (s : State) (phase : Phase) (c : Char) : State :=
  { s with phase := phase, field := s.field ++ [c] }

/- The field is complete. -/
def endField (s : State) : State :=
  { s with
    phase := .fieldStart
    field := []
    record := s.record ++ [s.field] }

/- The field and the record are complete. -/
def endRecord (s : State) : State where
  phase := .recordStart
  field := []
  record := []
  records := s.records ++ [s.record ++ [s.field]]

/- A character that ends the field. -/
def separate (s : State) (c : Char) : Option State :=
  if c = ',' then
    some s.endField
  else if c = '\n' then
    some s.endRecord
  else if c = '\r' then
    some { s with phase := .afterReturn }
  else
    none

/- Read one character. -/
def step (s : State) (c : Char) : Option State :=
  match s.phase with
  | .recordStart | .fieldStart =>
      if c = '"' then
        some { s with phase := .quoted }
      else
        (s.separate c).or (some (s.push .unquoted c))
  | .unquoted =>
      if c = '"' then
        none
      else
        (s.separate c).or (some (s.push .unquoted c))
  | .quoted =>
      if c = '"' then
        some { s with phase := .quoteInQuoted }
      else
        some (s.push .quoted c)
  | .quoteInQuoted =>
      if c = '"' then
        some (s.push .quoted c)
      else
        s.separate c
  | .afterReturn =>
      if c = '\n' then some s.endRecord else none

/- Read a text. -/
def run (s : State) (text : Text) : Option State :=
  text.foldlM step s

/- The records at the end; the last may lack its line end. -/
def finish (s : State) : Option (List (List Text)) :=
  match s.phase with
  | .recordStart => some s.records
  | .fieldStart | .unquoted | .quoteInQuoted =>
      some s.endRecord.records
  | .quoted | .afterReturn => none

end State

/- The records of a text, if it is well formed. -/
def read (text : Text) : Option (List (List Text)) :=
  (State.start.run text).bind State.finish

------------------------------------------------------------
-- Runs
------------------------------------------------------------

namespace State

/- Reading nothing. -/
@[simp] theorem run_nil (s : State) : s.run [] = some s := rfl

/- Reading a first character. -/
theorem run_cons (s : State) (c : Char) (text : Text) :
    s.run (c :: text) =
      (s.step c).bind (fun t => t.run text) := by
  unfold run
  rw [List.foldlM_cons]
  rfl

/- Reading one text after another. -/
theorem run_append (s : State) (text rest : Text) :
    s.run (text ++ rest) =
      (s.run text).bind (fun t => t.run rest) := by
  unfold run
  rw [List.foldlM_append]
  rfl

end State

------------------------------------------------------------
-- Fields
------------------------------------------------------------

/- Characters a plain field does not hold. -/
def isSpecial (c : Char) : Bool :=
  c == ',' || c == '"' || c == '\n' || c == '\r'

/- A field between quotes, its own quotes doubled. -/
def quote (field : Text) : Text :=
  '"' ::
    field.flatMap (fun c => if c = '"' then ['"', '"'] else [c])
    ++ ['"']

/- The ways to write a field. -/
inductive Encodes (field : Text) : Text → Prop where
| plain (hPlain : ∀ c ∈ field, isSpecial c = false) :
    Encodes field field
| quoted : Encodes field (quote field)

/- A field may begin here. -/
def Phase.startsField : Phase → Prop
| .recordStart | .fieldStart => True
| _ => False

/- A separator would end the field here. -/
def Phase.endsField : Phase → Prop
| .quoted | .afterReturn => False
| _ => True

namespace State

/- A plain character neither separates nor quotes. -/
theorem step_plain
    {s : State}
    {c : Char}
    (hPhase : s.phase.startsField ∨ s.phase = .unquoted)
    (hPlain : isSpecial c = false) :
    s.step c = some (s.push .unquoted c) := by
  simp only [isSpecial, Bool.or_eq_false_iff, beq_eq_false_iff_ne]
    at hPlain
  rcases hPlain with ⟨⟨⟨hComma, hQuote⟩, hFeed⟩, hReturn⟩
  rcases s with ⟨phase, field, record, records⟩
  cases phase <;>
    simp_all [step, separate, Phase.startsField]

/- Plain characters are appended to the field. -/
theorem run_plain
    {s : State}
    {text : Text}
    (hPhase : s.phase = .unquoted)
    (hPlain : ∀ c ∈ text, isSpecial c = false) :
    s.run text =
      some { s with field := s.field ++ text } := by
  induction text generalizing s with
  | nil =>
      simp
  | cons c rest ih =>
      have hStep :=
        step_plain (Or.inr hPhase) (hPlain c List.mem_cons_self)
      have hRest :=
        ih (s := s.push .unquoted c) rfl
          (fun d hMem => hPlain d (List.mem_cons_of_mem _ hMem))
      rw [run_cons, hStep, Option.bind_some, hRest]
      simp [push, hPhase]

/- Inside quotes every character is read back. -/
theorem run_doubled
    {s : State}
    (text : Text)
    (hPhase : s.phase = .quoted) :
    s.run
        (text.flatMap
          (fun c => if c = '"' then ['"', '"'] else [c])) =
      some { s with field := s.field ++ text } := by
  induction text generalizing s with
  | nil =>
      simp
  | cons c rest ih =>
      have hOne :
          s.run (if c = '"' then ['"', '"'] else [c]) =
            some (s.push .quoted c) := by
        split
        case isTrue hQuote =>
            simp [run_cons, step, hPhase, push, hQuote]
        case isFalse hQuote =>
            simp [run_cons, step, hPhase, hQuote]
      rw [List.flatMap_cons, run_append, hOne,
        Option.bind_some, ih (s := s.push .quoted c) rfl]
      simp [push, hPhase]

/- However it is written, a field is read back. -/
theorem run_encoded
    {s : State}
    {field text : Text}
    (hStart : s.phase.startsField)
    (hEmpty : s.field = [])
    (hText : Encodes field text) :
    ∃ phase : Phase,
      phase.endsField ∧
        s.run text =
          some { s with phase := phase, field := field } := by
  cases hText with
  | plain hPlain =>
      cases field with
      | nil =>
          refine ⟨s.phase, ?_, ?_⟩
          · cases hPhase : s.phase <;>
              simp_all [Phase.startsField, Phase.endsField]
          · rw [run_nil, ← hEmpty]
      | cons c rest =>
          have hStep :=
            step_plain (Or.inl hStart)
              (hPlain c List.mem_cons_self)
          have hRest :=
            run_plain (s := s.push .unquoted c) rfl
              (fun d hMem =>
                hPlain d (List.mem_cons_of_mem _ hMem))
          refine ⟨.unquoted, trivial, ?_⟩
          rw [run_cons, hStep, Option.bind_some, hRest]
          simp [push, hEmpty]
  | quoted =>
      have hOpen :
          s.step '"' = some { s with phase := .quoted } := by
        unfold step
        cases hPhase : s.phase <;>
          simp_all [Phase.startsField]
      have hInside :=
        run_doubled (s := { s with phase := .quoted }) field rfl
      refine ⟨.quoteInQuoted, trivial, ?_⟩
      unfold quote
      rw [List.cons_append, run_cons, hOpen, Option.bind_some,
        run_append, hInside, Option.bind_some]
      simp [run_cons, step, hEmpty]

/- A separator after a complete field. -/
theorem step_separator
    {s : State}
    {c : Char}
    (hEnds : s.phase.endsField)
    (hQuote : c ≠ '"')
    {t : State}
    (hSeparate : s.separate c = some t) :
    s.step c = some t := by
  unfold step
  cases hPhase : s.phase <;>
    simp_all [Phase.endsField]

end State

------------------------------------------------------------
-- Records
------------------------------------------------------------

/- Texts with commas between them. -/
def joinFields : List Text → Text
| [] => []
| [text] => text
| text :: rest => text ++ ',' :: joinFields rest

/- A comma stands before every text but the first. -/
theorem joinFields_cons (text : Text) (rest : List Text) :
    joinFields (text :: rest) =
      text ++ rest.flatMap (fun t => ',' :: t) := by
  induction rest generalizing text with
  | nil =>
      simp [joinFields]
  | cons next rest ih =>
      have hStep :
          joinFields (text :: next :: rest) =
            text ++ ',' :: joinFields (next :: rest) := rfl
      rw [hStep, ih next]
      simp

/- A record on a line of its own. -/
def line (texts : List Text) : Text :=
  joinFields texts ++ ['\n']

namespace State

/- A line is read as one record with the encoded fields. -/
theorem run_line
    {s : State}
    {fields texts : List Text}
    (hStart : s.phase.startsField)
    (hEmpty : s.field = [])
    (hNonempty : fields ≠ [])
    (hTexts : List.Forall₂ Encodes fields texts) :
    s.run (line texts) =
      some
        { phase := .recordStart
          field := []
          record := []
          records := s.records ++ [s.record ++ fields] } := by
  induction hTexts generalizing s with
  | nil =>
      exact absurd rfl hNonempty
  | @cons field text fields texts hText hRest ih =>
      rcases run_encoded hStart hEmpty hText with
        ⟨phase, hEnds, hRun⟩
      cases hRest with
      | nil =>
          have hFeed :=
            step_separator
              (s := { s with phase := phase, field := field })
              (c := '\n') hEnds (by decide) rfl
          unfold line joinFields
          rw [run_append, hRun, Option.bind_some, run_cons,
            hFeed]
          rfl
      | @cons next nextText fields texts hNext hMore =>
          have hComma :=
            step_separator
              (s := { s with phase := phase, field := field })
              (c := ',') hEnds (by decide) rfl
          have hLine :
              line (text :: nextText :: texts) =
                text ++ ',' :: line (nextText :: texts) := by
            simp [line, joinFields]
          have hBegins :
              (endField
                { s with
                  phase := phase
                  field := field }).phase.startsField :=
            trivial
          have hOthers :=
            ih hBegins rfl (List.cons_ne_nil _ _)
          rw [hLine, run_append, hRun, Option.bind_some,
            run_cons, hComma, Option.bind_some, hOthers]
          simp [endField]

/- Lines are read as their records, in order. -/
theorem run_lines
    {s : State}
    {α : Type}
    (fields : α → List Text)
    (texts : α → List Text)
    (rows : List α)
    (hRows :
      ∀ row ∈ rows, fields row ≠ [] ∧
        List.Forall₂ Encodes (fields row) (texts row))
    (hStart : s.phase = .recordStart)
    (hEmpty : s.field = [])
    (hRecord : s.record = []) :
    s.run (rows.flatMap (fun row => line (texts row))) =
      some
        { s with records := s.records ++ rows.map fields } := by
  induction rows generalizing s with
  | nil =>
      simp
  | cons row rest ih =>
      rcases hRows row List.mem_cons_self with
        ⟨hNonempty, hTexts⟩
      have hBegins : s.phase.startsField := by
        rw [hStart]
        trivial
      rw [List.flatMap_cons, run_append,
        run_line hBegins hEmpty hNonempty hTexts,
        Option.bind_some,
        ih (fun other hMem =>
          hRows other (List.mem_cons_of_mem _ hMem)) rfl rfl rfl]
      simp [hStart, hEmpty, hRecord]

end State

/-
  The round trip: lines whose texts encode fields are read
  as exactly these fields, record by record.
-/
theorem read_flatMap_line
    {α : Type}
    (fields : α → List Text)
    (texts : α → List Text)
    (rows : List α)
    (hRows :
      ∀ row ∈ rows, fields row ≠ [] ∧
        List.Forall₂ Encodes (fields row) (texts row)) :
    read (rows.flatMap (fun row => line (texts row))) =
      some (rows.map fields) := by
  unfold read
  rw [State.run_lines fields texts rows hRows rfl rfl rfl]
  simp [State.start, State.finish]

------------------------------------------------------------
-- Appended Lines
------------------------------------------------------------

/- The text consists of whole lines with these records. -/
def Complete (text : Text) (records : List (List Text)) : Prop :=
  State.start.run text =
    some { State.start with records := records }

/- Nothing has been written. -/
theorem complete_nil : Complete [] [] := rfl

namespace Complete

variable {text : Text} {records : List (List Text)}

/- Whole lines are read as their records. -/
theorem read_eq (hComplete : Complete text records) :
    read text = some records := by
  unfold read
  rw [hComplete]
  rfl

/- The records are those of the text. -/
theorem unique
    {others : List (List Text)}
    (hComplete : Complete text records)
    (hOther : Complete text others) :
    records = others := by
  have hSame := hComplete.symm.trans hOther
  simpa using hSame

/- A line appended to whole lines is one more record. -/
theorem append_line
    {fields texts : List Text}
    (hComplete : Complete text records)
    (hNonempty : fields ≠ [])
    (hTexts : List.Forall₂ Encodes fields texts) :
    Complete (text ++ line texts) (records ++ [fields]) := by
  have hLine :=
    State.run_line
      (s := { State.start with records := records })
      trivial rfl hNonempty hTexts
  unfold Complete
  rw [State.run_append, hComplete, Option.bind_some, hLine]
  rfl

end Complete

end Rfc4180
