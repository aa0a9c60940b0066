import FabricPerf.Latency.Fatal
import FabricPerf.Latency.Trace

/-
  When bad result files leave `read_trace` standing.

  The loop over the files ends early with a documented error
  or with an exception no handler expects, or goes through
  all files; `Survives` follows it in terms of the files'
  records.  Where it goes through, the malformed files have
  left no trace but their number.

  Main declarations:
    * `Latency.Documented`
    * `Latency.Survives`
    * `Latency.read_trace_survives_iff`
-/

------------------------------------------------------------
-- What The Records Of A File Do
------------------------------------------------------------

namespace FabricPerf

namespace Latency

open Analysis

/- The results `read_trace` documents beside its statistics. -/
def Documented (err : PyErr) : Prop :=
  ∃ text,
    err = .fileNotFoundError text ∨ err = .valueError text

/- A record has the fields that the loop reads. -/
def HasFields (channelField : String) (record : Record) :
    Prop :=
  "latency" ∈ record.type.names ∧
    "step" ∈ record.type.names ∧
      channelField ∈ record.type.names

/- A record is not an unused slot. -/
def written (channelField : String) (record : Record) : Bool :=
  isUnwrittenLatencyRecord record channelField = .ok false

/-
  The records of a file end the analysis with a documented
  error: the first record has no usable fields, or another
  channel field than the samples before.
-/
def Stops
    (traceName : String)
    (field : Option String)
    (records : List Record) : Prop :=
  ∃ first ∈ records.head?,
    match channelFieldFor first traceName with
    | .error _ => True
    | .ok channelField => ∃ old ∈ field, old ≠ channelField

/- All records of a file have the fields of the first. -/
def Readable
    (traceName : String)
    (records : List Record) : Prop :=
  ∀ first ∈ records.head?,
    ∀ channelField,
      channelFieldFor first traceName = .ok channelField →
        ∀ record ∈ records, HasFields channelField record

/- The channel field of the samples after a file. -/
def nextField
    (traceName : String)
    (field : Option String)
    (records : List Record) : Option String :=
  match records with
  | [] => field
  | first :: _ =>
      match channelFieldFor first traceName with
      | .error _ => field
      | .ok channelField =>
          if records.any (written channelField) then
            some channelField
          else
            field

/-
  Every file up to the first one that stops the analysis is
  not fatal, and its records are readable if it is not the
  one that stops.
-/
def Survives (reader : Reader) (traceName : String) :
    Option String → List ResultFile → Prop
| _, [] => True
| field, file :: rest =>
    ¬Fatal reader file ∧
      (Stops traceName field (fileRecords reader file) ∨
        Readable traceName (fileRecords reader file) ∧
          Survives reader traceName
            (nextField traceName field
              (fileRecords reader file)) rest)

------------------------------------------------------------
-- One Record
------------------------------------------------------------

/- Reading a field that a record has. -/
theorem getAttr_of_mem
    {record : Record}
    {name : String}
    (hName : name ∈ record.type.names) :
    ∃ value, record.getAttr name = .ok value := by
  rcases Record.exists_attr?_iff.mpr hName with ⟨value, hValue⟩
  exact ⟨value, by rw [Record.getAttr, hValue]⟩

/- Reading a field that a record does not have. -/
theorem getAttr_of_not_mem
    {record : Record}
    {name : String}
    (hName : name ∉ record.type.names) :
    record.getAttr name = .error .attributeError := by
  cases hValue : record.attr? name with
  | none =>
      rw [Record.getAttr, hValue]
  | some value =>
      exact absurd
        (Record.exists_attr?_iff.mp ⟨value, hValue⟩) hName

/- A record without the fields raises `AttributeError`. -/
theorem readRecord_error
    (dir : TraceDir)
    {channelField : String}
    {record : Record}
    (hFields : ¬HasFields channelField record)
    (tally : Tally) :
    readRecord dir channelField tally record =
      .error .attributeError := by
  unfold readRecord isUnwrittenLatencyRecord
    splitLatencyChannel
  by_cases hLatency : "latency" ∈ record.type.names
  · rcases getAttr_of_mem hLatency with ⟨latency, hL⟩
    by_cases hStep : "step" ∈ record.type.names
    · rcases getAttr_of_mem hStep with ⟨step, hS⟩
      have hChannel :
          channelField ∉ record.type.names :=
        fun hIn => hFields ⟨hLatency, hStep, hIn⟩
      have hC := getAttr_of_not_mem hChannel
      simp only [hL, hS, hC, Raising.ok_bind,
        Raising.error_bind]
      by_cases hZero : latency ≠ 0
      · simp [hZero]
      · by_cases hFirst : step ≠ 0
        · simp [hZero, hFirst]
        · simp [hZero, hFirst]
    · have hS := getAttr_of_not_mem hStep
      simp only [hL, hS, Raising.ok_bind, Raising.error_bind]
      by_cases hZero : latency ≠ 0
      · simp [hZero]
      · simp [hZero]
  · have hL := getAttr_of_not_mem hLatency
    simp only [hL, Raising.error_bind]

/- A record with the fields is read. -/
theorem readRecord_ok
    (dir : TraceDir)
    {channelField : String}
    {record : Record}
    (hFields : HasFields channelField record)
    (tally : Tally) :
    ∃ next,
      readRecord dir channelField tally record = .ok next ∧
        next.stats.map TraceStats.channelField =
          if written channelField record then
            some
              ((tally.stats.map
                TraceStats.channelField).getD channelField)
          else
            tally.stats.map TraceStats.channelField := by
  rcases hFields with ⟨hLatency, hStep, hChannel⟩
  rcases getAttr_of_mem hLatency with ⟨latency, hL⟩
  rcases getAttr_of_mem hStep with ⟨step, hS⟩
  rcases getAttr_of_mem hChannel with ⟨channel, hC⟩
  have hField :
      (tally.stats.getD
        (TraceStats.new dir.name dir.rank
          channelField)).channelField =
        (tally.stats.map TraceStats.channelField).getD
          channelField := by
    cases tally.stats with
    | none =>
        rfl
    | some stats =>
        rfl
  have hInvalid :
      ∃ invalid,
        isInvalidLatencyRecord record = .ok invalid := by
    unfold isInvalidLatencyRecord
    rw [hL, Raising.ok_bind]
    split
    · exact ⟨true, rfl⟩
    · split
      · exact ⟨_, rfl⟩
      · exact ⟨_, rfl⟩
  rcases hInvalid with ⟨invalid, hI⟩
  unfold written readRecord splitLatencyChannel
  cases hUnwritten :
      isUnwrittenLatencyRecord record channelField with
  | error err =>
      unfold isUnwrittenLatencyRecord at hUnwritten
      rw [hL, Raising.ok_bind] at hUnwritten
      split at hUnwritten
      · cases hUnwritten
      · rw [hS, Raising.ok_bind] at hUnwritten
        split at hUnwritten
        · cases hUnwritten
        · rw [hC, Raising.ok_bind] at hUnwritten
          cases hUnwritten
  | ok unwritten =>
      cases unwritten with
      | true =>
          exact ⟨tally, rfl, by simp⟩
      | false =>
          simp only [Raising.ok_bind, hS, hC, hL, hI,
            Bool.false_eq_true, if_false, Raising.pure_eq_ok,
            decide_true, if_true, ← hField]
          cases invalid with
          | true =>
              exact ⟨_, rfl, rfl⟩
          | false =>
              exact ⟨_, rfl, rfl⟩

------------------------------------------------------------
-- The Records Of One File
------------------------------------------------------------

/- The channel field of the samples so far. -/
def fieldOf (stats : Option TraceStats) : Option String :=
  stats.map TraceStats.channelField

/- Records with the fields are all read. -/
theorem foldlM_readRecord
    (dir : TraceDir)
    {channelField : String}
    {records : List Record}
    (hFields :
      ∀ record ∈ records, HasFields channelField record)
    (tally : Tally)
    (hField : ∀ old ∈ fieldOf tally.stats, old = channelField) :
    ∃ next,
      records.foldlM (readRecord dir channelField) tally =
          .ok next ∧
        fieldOf next.stats =
          if records.any (written channelField) then
            some channelField
          else
            fieldOf tally.stats := by
  induction records generalizing tally with
  | nil =>
      exact ⟨tally, rfl, rfl⟩
  | cons record rest ih =>
      rcases
        readRecord_ok dir
          (hFields record List.mem_cons_self) tally with
        ⟨mid, hMid, hMidField⟩
      have hSame :
          (fieldOf tally.stats).getD channelField =
            channelField := by
        cases hOld : fieldOf tally.stats with
        | none =>
            rfl
        | some old =>
            exact hField old hOld
      change fieldOf mid.stats = _ at hMidField
      change fieldOf mid.stats =
        if written channelField record then
          some ((fieldOf tally.stats).getD channelField)
        else fieldOf tally.stats at hMidField
      rw [hSame] at hMidField
      have hNext :
          ∀ old ∈ fieldOf mid.stats, old = channelField := by
        intro old hOld
        rw [hMidField] at hOld
        split at hOld
        · exact (Option.some.inj hOld).symm
        · exact hField old hOld
      rcases
        ih
          (fun other hMem =>
            hFields other (List.mem_cons_of_mem _ hMem))
          mid hNext with ⟨next, hFold, hNextField⟩
      refine ⟨next, ?_, ?_⟩
      · rw [List.foldlM_cons, hMid, Raising.ok_bind, hFold]
      · rw [hNextField, hMidField, List.any_cons]
        cases written channelField record with
        | true =>
            simp
        | false =>
            simp

/- Finishing a file keeps the channel field. -/
theorem fieldOf_finish (tally : Tally) :
    fieldOf tally.finish = fieldOf tally.stats := by
  unfold Tally.finish
  cases tally.stats with
  | none =>
      rfl
  | some stats =>
      simp only
      split
      · rfl
      · rfl

/- The channel field raises nothing but `ValueError`. -/
theorem channelFieldFor_error
    {record : Record}
    {traceName : String}
    {err : PyErr}
    (hError : channelFieldFor record traceName = .error err) :
    Documented err := by
  unfold channelFieldFor at hError
  simp only at hError
  split at hError
  · exact ⟨_, Or.inr (Except.error.inj hError).symm⟩
  · split at hError
    · cases hError
    · split at hError
      · cases hError
      · exact ⟨_, Or.inr (Except.error.inj hError).symm⟩

/- A channel field that has not changed passes. -/
theorem checkChannelField_ok
    (dir : TraceDir)
    {stats : Option TraceStats}
    {channelField : String}
    (hField : ∀ old ∈ fieldOf stats, old = channelField) :
    checkChannelField dir stats channelField = .ok () := by
  cases stats with
  | none =>
      rfl
  | some old =>
      simp only [checkChannelField,
        hField old.channelField rfl, if_true,
        Raising.pure_eq_ok]

/- A channel field that has changed is an error. -/
theorem checkChannelField_error
    (dir : TraceDir)
    {stats : Option TraceStats}
    {channelField : String}
    (hField : ∃ old ∈ fieldOf stats, old ≠ channelField) :
    ∃ err,
      checkChannelField dir stats channelField = .error err ∧
        Documented err := by
  rcases hField with ⟨old, hOld, hNe⟩
  cases stats with
  | none =>
      cases hOld
  | some found =>
      have hFound : found.channelField = old :=
        Option.some.inj hOld
      rw [← hFound] at hNe
      simp only [checkChannelField, if_neg hNe]
      exact ⟨_, rfl, _, Or.inr rfl⟩

/- The records of a file with samples, step by step. -/
theorem readRecords_cons
    (dir : TraceDir)
    (stats : Option TraceStats)
    (head : Record)
    (rest : List Record) :
    readRecords dir stats (head :: rest) =
      (do
        let channelField ← channelFieldFor head dir.name
        checkChannelField dir stats channelField
        let tally ←
          (head :: rest).foldlM (readRecord dir channelField)
            { stats := stats, fileCounts := Dict.empty }
        return tally.finish) := rfl

/- The records of a file that stops the analysis. -/
theorem readRecords_of_stops
    {dir : TraceDir}
    {stats : Option TraceStats}
    {records : List Record}
    (hStops : Stops dir.name (fieldOf stats) records) :
    ∃ err,
      readRecords dir stats records = .error err ∧
        Documented err := by
  rcases hStops with ⟨first, hFirst, hCase⟩
  cases records with
  | nil =>
      cases hFirst
  | cons head rest =>
      have hHead : head = first := Option.some.inj hFirst
      rw [← hHead] at hCase
      rw [readRecords_cons]
      cases hField : channelFieldFor head dir.name with
      | error err =>
          exact ⟨err, rfl, channelFieldFor_error hField⟩
      | ok channelField =>
          rw [hField] at hCase
          rcases checkChannelField_error dir hCase
            with ⟨err, hError, hDocumented⟩
          rw [Raising.ok_bind, hError]
          exact ⟨err, rfl, hDocumented⟩

/- A file that does not stop keeps the channel field. -/
theorem field_of_not_stops
    {traceName : String}
    {field : Option String}
    {head : Record}
    {rest : List Record}
    (hStops : ¬Stops traceName field (head :: rest)) :
    ∃ channelField,
      channelFieldFor head traceName = .ok channelField ∧
        ∀ old ∈ field, old = channelField := by
  cases hField : channelFieldFor head traceName with
  | error err =>
      exfalso
      apply hStops
      refine ⟨head, rfl, ?_⟩
      rw [hField]
      trivial
  | ok channelField =>
      refine ⟨channelField, rfl, ?_⟩
      intro old hOld
      by_contra hNe
      apply hStops
      refine ⟨head, rfl, ?_⟩
      rw [hField]
      exact ⟨old, hOld, hNe⟩

/- The records of a file that are not readable. -/
theorem readRecords_of_not_readable
    {dir : TraceDir}
    {stats : Option TraceStats}
    {records : List Record}
    (hStops : ¬Stops dir.name (fieldOf stats) records)
    (hReadable : ¬Readable dir.name records) :
    readRecords dir stats records =
      .error .attributeError := by
  unfold Readable at hReadable
  simp only [not_forall] at hReadable
  rcases hReadable with
    ⟨first, hFirst, channelField, hField, record, hMem,
      hRecord⟩
  cases records with
  | nil =>
      cases hFirst
  | cons head rest =>
      have hHead : head = first := Option.some.inj hFirst
      rcases field_of_not_stops hStops with
        ⟨found, hFound, hOld⟩
      rw [← hHead, hFound] at hField
      rw [← Except.ok.inj hField] at hRecord
      have hLoop :
          (head :: rest).foldlM (readRecord dir found)
              { stats := stats, fileCounts := Dict.empty } =
            .error .attributeError := by
        apply Raising.foldlM_error _ _ ⟨record, hMem, hRecord⟩
        · intro tally other hOther
          rcases readRecord_ok dir hOther tally with
            ⟨next, hNext, -⟩
          exact ⟨next, hNext⟩
        · intro tally other hOther
          exact readRecord_error dir hOther tally
      rw [readRecords_cons, hFound, Raising.ok_bind,
        checkChannelField_ok dir hOld, Raising.ok_bind, hLoop,
        Raising.error_bind]

/- The records of any other file are read. -/
theorem readRecords_of_readable
    {dir : TraceDir}
    {stats : Option TraceStats}
    {records : List Record}
    (hStops : ¬Stops dir.name (fieldOf stats) records)
    (hReadable : Readable dir.name records) :
    ∃ next,
      readRecords dir stats records = .ok next ∧
        fieldOf next =
          nextField dir.name (fieldOf stats) records := by
  cases records with
  | nil =>
      exact ⟨stats, rfl, rfl⟩
  | cons head rest =>
      rcases field_of_not_stops hStops with
        ⟨channelField, hField, hOld⟩
      rcases
        foldlM_readRecord dir
          (hReadable head rfl channelField hField)
          { stats := stats, fileCounts := Dict.empty }
          hOld with ⟨tally, hFold, hTally⟩
      refine ⟨tally.finish, ?_, ?_⟩
      · rw [readRecords_cons, hField, Raising.ok_bind,
          checkChannelField_ok dir hOld, Raising.ok_bind, hFold,
          Raising.ok_bind]
        rfl
      · rw [fieldOf_finish, hTally]
        simp only [nextField, hField]

------------------------------------------------------------
-- The Loop Over The Files
------------------------------------------------------------

/- A fatal file ends the analysis without a documented error. -/
theorem readFile_of_fatal
    {reader : Reader}
    (dir : TraceDir)
    {file : ResultFile}
    (hFatal : Fatal reader file)
    (progress : Progress) :
    ∃ err,
      readFile reader dir progress file = .error err ∧
        ¬Documented err := by
  rcases (fatal_iff reader file).mp hFatal with
    ⟨err, hError, hSkips⟩
  refine ⟨err, ?_, ?_⟩
  · unfold readFile
    simp only [hError, hSkips, Bool.false_eq_true, if_false]
    rfl
  · rintro ⟨text, hFound | hValue⟩
    · rw [hFound] at hSkips
      cases hSkips
    · rw [hValue] at hSkips
      cases hSkips

/-
  A file that is not fatal is skipped, or its records are
  read.
-/
theorem readFile_of_not_fatal
    {reader : Reader}
    {file : ResultFile}
    (hFatal : ¬Fatal reader file)
    (dir : TraceDir)
    (progress : Progress) :
    (fileRecords reader file = [] ∧
      readFile reader dir progress file =
        .ok
          { progress with
            skippedMalformed :=
              progress.skippedMalformed + 1 }) ∨
    readFile reader dir progress file =
      (readRecords dir progress.stats
        (fileRecords reader file)).map
        (fun stats => { progress with stats := stats }) := by
  have hRecords := fileRecords_eq hFatal
  cases hParse : parseSrLatencyRecords reader file with
  | error err =>
      left
      have hSkips : PyErr.skipsFile err = true := by
        by_contra hNot
        apply hFatal
        rw [fatal_iff]
        exact ⟨err, hParse, by simpa using hNot⟩
      rw [hParse] at hRecords
      constructor
      · exact hRecords
      · unfold readFile
        simp only [hParse, hSkips, if_true]
        rfl
  | ok records =>
      right
      rw [hParse] at hRecords
      have hSame : fileRecords reader file = records :=
        hRecords
      unfold readFile
      simp only [hParse, hSame]
      cases readRecords dir progress.stats records with
      | error err =>
          rfl
      | ok stats =>
          rfl

/- The loop survives exactly as its files say. -/
theorem foldlM_readFile_survives_iff
    (reader : Reader)
    (dir : TraceDir)
    (files : List ResultFile)
    (progress : Progress) :
    (∀ err,
      files.foldlM (readFile reader dir) progress =
          .error err →
        Documented err) ↔
      Survives reader dir.name (fieldOf progress.stats)
        files := by
  induction files generalizing progress with
  | nil =>
      constructor
      · intro _
        trivial
      · intro _ err hError
        cases hError
  | cons file rest ih =>
      rw [List.foldlM_cons]
      unfold Survives
      by_cases hFatal : Fatal reader file
      · rcases
          readFile_of_fatal dir hFatal progress with
          ⟨err, hError, hNot⟩
        rw [hError, Raising.error_bind]
        constructor
        · intro hAll
          exact absurd (hAll err rfl) hNot
        · rintro ⟨hSafe, -⟩
          exact absurd hFatal hSafe
      · rcases readFile_of_not_fatal hFatal dir progress with
          ⟨hNone, hSkip⟩ | hRead
        · rw [hSkip, Raising.ok_bind, ih, hNone]
          simp [hFatal, Stops, Readable, nextField]
        · rw [hRead]
          by_cases hStops :
              Stops dir.name (fieldOf progress.stats)
                (fileRecords reader file)
          · rcases readRecords_of_stops hStops with
              ⟨err, hError, hDocumented⟩
            rw [hError]
            constructor
            · intro _
              exact ⟨hFatal, Or.inl hStops⟩
            · intro _ other hOther
              rw [← Except.error.inj hOther]
              exact hDocumented
          · by_cases hReadable :
                Readable dir.name (fileRecords reader file)
            · rcases
                readRecords_of_readable hStops hReadable with
                ⟨next, hNext, hField⟩
              rw [hNext, ← hField]
              simp only [Except.map, Raising.ok_bind, ih]
              simp [hFatal, hStops, hReadable]
            · rw [readRecords_of_not_readable hStops
                hReadable]
              constructor
              · intro hAll
                rcases hAll _ rfl with ⟨text, hF | hV⟩
                · cases hF
                · cases hV
              · rintro ⟨-, hStop | hRest⟩
                · exact absurd hStop hStops
                · exact absurd hRest.1 hReadable

------------------------------------------------------------
-- Leaving Out The Malformed Files
------------------------------------------------------------

/- Decoding a file raises nothing. -/
def decodable (reader : Reader) (file : ResultFile) : Bool :=
  match parseSrLatencyRecords reader file with
  | .ok _ => true
  | .error _ => false

/-
  A turn of the loop either counts an undecodable file or
  does not depend on the count.
-/
theorem readFile_eq_ok
    {reader : Reader}
    {dir : TraceDir}
    {progress mid : Progress}
    {file : ResultFile}
    (hRead : readFile reader dir progress file = .ok mid) :
    (decodable reader file = false ∧
      mid =
        { progress with
          skippedMalformed :=
            progress.skippedMalformed + 1 }) ∨
    (decodable reader file = true ∧
      mid.skippedMalformed = progress.skippedMalformed ∧
        ∀ k,
          readFile reader dir
              { progress with skippedMalformed := k } file =
            .ok { mid with skippedMalformed := k }) := by
  unfold readFile at hRead ⊢
  unfold decodable
  cases hParse : parseSrLatencyRecords reader file with
  | error err =>
      left
      simp only [hParse] at hRead
      split at hRead
      · exact ⟨rfl, (Except.ok.inj hRead).symm⟩
      · cases hRead
  | ok records =>
      right
      simp only [hParse] at hRead
      rcases Raising.bind_eq_ok_iff.mp hRead with
        ⟨stats, hStats, hMid⟩
      rw [← Except.ok.inj hMid]
      constructor
      · rfl
      · constructor
        · rfl
        · intro k
          simp only [hStats, Raising.ok_bind]
          rfl

/- The loop over all files is the loop over the decodable. -/
theorem foldlM_filter_decodable
    {reader : Reader}
    {dir : TraceDir}
    {files : List ResultFile}
    {progress next : Progress}
    (hFold :
      files.foldlM (readFile reader dir) progress =
        .ok next)
    (k : Nat) :
    (files.filter (decodable reader)).foldlM
          (readFile reader dir)
          { progress with skippedMalformed := k } =
        .ok { next with skippedMalformed := k } ∧
      next.skippedMalformed =
        progress.skippedMalformed +
          (files.filter
            (fun file => !decodable reader file)).length := by
  induction files generalizing progress with
  | nil =>
      rw [← Except.ok.inj hFold]
      exact ⟨rfl, rfl⟩
  | cons file rest ih =>
      rw [List.foldlM_cons] at hFold
      rcases Raising.bind_eq_ok_iff.mp hFold with
        ⟨mid, hMid, hRest⟩
      rcases ih hRest with ⟨hFilter, hCount⟩
      rcases readFile_eq_ok hMid with
        ⟨hBad, hSkip⟩ | ⟨hGood, hSame, hRead⟩
      · rw [hSkip] at hFilter hCount
        rw [List.filter_cons_of_neg (by simp [hBad]),
          List.filter_cons_of_pos (by simp [hBad])]
        constructor
        · exact hFilter
        · rw [hCount, List.length_cons]
          simp only
          omega
      · rw [List.filter_cons_of_pos hGood,
          List.filter_cons_of_neg (by simp [hGood]),
          List.foldlM_cons, hRead k, Raising.ok_bind]
        constructor
        · exact hFilter
        · rw [hCount, hSame]

/- Malformed files leave nothing but their number. -/
theorem readTrace_filter_decodable
    {reader : Reader}
    {dir : TraceDir}
    {files : List ResultFile}
    {stats : TraceStats}
    (hRead : readTrace reader dir files = .ok stats) :
    ∃ clean,
      readTrace reader dir (files.filter (decodable reader)) =
          .ok clean ∧
        stats =
          { clean with
            skippedMalformed :=
              (files.filter
                (fun file =>
                  !decodable reader file)).length } := by
  unfold readTrace at hRead
  simp only at hRead
  split at hRead
  · cases hRead
  · rcases Raising.bind_eq_ok_iff.mp hRead with
      ⟨next, hFold, hStats⟩
    rcases foldlM_filter_decodable hFold 0 with
      ⟨hFilter, hCount⟩
    cases hFound : next.stats with
    | none =>
        rw [hFound] at hStats
        cases hStats
    | some found =>
        rw [hFound] at hStats
        have hSome : files.filter (decodable reader) ≠ [] := by
          intro hEmpty
          rw [hEmpty] at hFilter
          have hStart := Except.ok.inj hFilter
          have hNone :=
            congrArg Progress.stats hStart
          rw [hFound] at hNone
          cases hNone
        refine
          ⟨{ found with skippedMalformed := 0 }, ?_, ?_⟩
        · unfold readTrace
          simp only [if_neg hSome, hFilter, Raising.ok_bind,
            hFound]
          rfl
        · rw [← Except.ok.inj hStats, hCount]
          simp

------------------------------------------------------------
-- The Whole Analysis
------------------------------------------------------------

/- The analysis raises what its loop raises, or a document. -/
theorem readTrace_documented_iff
    (reader : Reader)
    (dir : TraceDir)
    (files : List ResultFile) :
    (∀ err,
      readTrace reader dir files = .error err →
        Documented err) ↔
      Survives reader dir.name none files := by
  have hLoop :=
    foldlM_readFile_survives_iff reader dir files
      { stats := none, skippedMalformed := 0 }
  change _ ↔ Survives reader dir.name none files at hLoop
  rw [← hLoop]
  unfold readTrace
  simp only
  split
  · rename_i hEmpty
    rw [hEmpty]
    constructor
    · intro _ err hError
      cases hError
    · intro _ err hError
      exact ⟨_, Or.inl (Except.error.inj hError).symm⟩
  · cases hFold :
        files.foldlM (readFile reader dir)
          { stats := none, skippedMalformed := 0 } with
    | error err =>
        rw [Raising.error_bind]
        simp only [Except.error.injEq]
    | ok next =>
        rw [Raising.ok_bind]
        constructor
        · intro _ err hError
          cases hError
        · intro _ err hError
          cases hStats : next.stats with
          | none =>
              rw [hStats] at hError
              exact ⟨_, Or.inr (Except.error.inj hError).symm⟩
          | some stats =>
              rw [hStats] at hError
              cases hError

/-
  The analysis raises nothing but its documented errors, and
  what it returns is what the decodable files alone give,
  exactly when its files let it survive.
-/
theorem read_trace_survives_iff
    (reader : Reader)
    (dir : TraceDir)
    (files : List ResultFile) :
    ((∀ err,
        readTrace reader dir files = .error err →
          Documented err) ∧
      ∀ stats,
        readTrace reader dir files = .ok stats →
          ∃ clean,
            readTrace reader dir
                (files.filter (decodable reader)) =
              .ok clean ∧
            stats =
              { clean with
                skippedMalformed :=
                  (files.filter
                    (fun file =>
                      !decodable reader file)).length }) ↔
      Survives reader dir.name none files := by
  rw [← readTrace_documented_iff]
  constructor
  · intro hBoth
    exact hBoth.1
  · intro hDocumented
    constructor
    · exact hDocumented
    · intro stats hRead
      exact readTrace_filter_decodable hRead

/- A compact file whose section divides by zero. -/
def zeroWarpDiv : ResultFile where
  path := "result/0.bin"
  contents :=
    [1, 1, 1, 32, 1, 1, 0, 1].flatMap (fun b => [b, 0, 0, 0]) ++
      [64, 0, 0, 0, 0, 0, 0, 0, 48, 0, 0, 0, 0, 0, 0, 0]
  short := by decide +kernel

/- The header of a file of three maps, without its maps. -/
def headerOnly : ResultFile where
  path := "result/1.bin"
  contents :=
    [1, 1, 1, 32, 1, 1, 0, 3].flatMap (fun b => [b, 0, 0, 0])
  short := by decide +kernel

/-
  One file divides by zero; the other makes the generated
  reader raise `IndexError`, and its handler `NameError`.
-/
theorem not_read_trace_survives :
    readTrace localReader ⟨"trace", "trace/rank0", 0⟩
        [zeroWarpDiv] = .error .zeroDivisionError ∧
      readTrace localReader ⟨"trace", "trace/rank0", 0⟩
          [headerOnly] = .error .nameError ∧
        ¬Documented .zeroDivisionError ∧
          ¬Documented .nameError := by
  have hZero :
      parseSrLatencyRecords localReader zeroWarpDiv =
        .error .zeroDivisionError := by
    decide +kernel
  have hName :
      parseSrLatencyRecords localReader headerOnly =
        .error .nameError := by
    decide +kernel
  constructor
  · simp [readTrace, readFile, hZero, PyErr.skipsFile]
  constructor
  · simp [readTrace, readFile, hName, PyErr.skipsFile]
  · simp [Documented]

end Latency

end FabricPerf
