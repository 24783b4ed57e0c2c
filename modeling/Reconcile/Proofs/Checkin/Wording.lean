import Reconcile.Proofs.Checkin.Reporting

namespace Reconcile

variable {attempt : CheckinAttempt} {scope : MessageScope}

namespace ValidationMessage

/-- What one line of a message tells. -/
inductive Line where
  | notEvaluated
  | heading (server : Server)
  | missing (names : List String)
  | failures
deriving DecidableEq, Repr, Inhabited

namespace Line

def text : Line → String
  | notEvaluated => notEvaluatedLine
  | heading server => server.presentable
  | missing names => notesLine names
  | failures => failuresLine

/-- Whether the line is about missing notes. -/
def isMissing : Line → Bool
  | missing _ => true
  | _ => false

/-- Whether the line is a sentence. Others name a server, by a text that may be empty. -/
def isSentence : Line → Bool
  | heading _ => false
  | _ => true

theorem isMissing_iff {line : Line} : line.isMissing = true ↔ ∃ names, line = missing names := by
  cases line <;> simp [isMissing]

theorem text_ne_empty {line : Line} (hsentence : line.isSentence = true) : line.text ≠ "" := by
  cases line with
  | heading => cases hsentence
  | notEvaluated => simp [text, notEvaluatedLine]
  | failures => simp [text, failuresLine]
  | missing names =>
    rw [text]
    unfold notesLine
    split <;> simp [toString]

end Line

/-- The problems of one server that are to be told. -/
def problems (attempt : CheckinAttempt) (scope : MessageScope) (data : ServerAttempt) : List Line :=
  (if scope.includesErrors ∧ data.missing ≠ [] then [.missing data.missing] else []) ++
    (if scope.includesWarnings ∧ attempt.evaluated ∧ data.recorded ≠ [] then [.failures] else [])

/-- The lines about one server: its problems, under its name if there are several servers. -/
def serverLines (attempt : CheckinAttempt) (scope : MessageScope) (entry : Server × ServerAttempt) :
    List Line :=
  let told := problems attempt scope entry.2
  if told = [] then []
  else (if 1 < attempt.servers.length then [.heading entry.1] else []) ++ told

/-- The lines of the message of an attempt. -/
def lines (attempt : CheckinAttempt) (scope : MessageScope) : List Line :=
  (if scope.includesWarnings ∧ ¬attempt.evaluated ∧ attempt.evaluates then [.notEvaluated] else []) ++
    attempt.servers.flatMap (serverLines attempt scope)

/-- The message that consists of the given lines. -/
def ofLines (told : List Line) : ValidationMessage :=
  { text := "\n".intercalate (told.map Line.text)
    severity := if told.any Line.isMissing then .error else .warning }

/-- The sentence about missing notes; none if there is no first name where one is taken. -/
def notesSentence? (names : List String) : Option String :=
  if 1 < names.length then
    let listed := "', '".intercalate names
    some s!"Checkin notes '{listed}' are required to commit"
  else
    names[0]?.map fun name => s!"Checkin note '{name}' is required to commit"

/-- Goes on with a text. -/
def write (draft : ValidationMessage) (text : String) : ValidationMessage :=
  { draft with text := draft.text ++ text }

/-- Goes on in a new line, where something stands before. -/
def writeBreak (draft : ValidationMessage) : ValidationMessage :=
  if draft.text.isEmpty then draft else draft.write "\n"

/-- Goes on with what there is to tell about one server. -/
def addServer? (headed tellsErrors tellsWarnings : Bool) (draft : ValidationMessage)
    (entry : Server × ServerAttempt) : Option ValidationMessage := do
  let tellsNotes := tellsErrors && entry.2.hasMissingNotes
  let tellsFailures := tellsWarnings && !entry.2.recorded.isEmpty
  if !tellsNotes && !tellsFailures then
    return draft
  let mut draft := draft.writeBreak
  if headed then
    draft := (draft.write entry.1.presentable).write "\n"
  if tellsNotes then
    draft := { draft.write (← notesSentence? entry.2.missing) with severity := .error }
  if tellsFailures then
    if tellsNotes then
      draft := draft.write "\n"
    draft := draft.write failuresLine
  return draft

/-- What is told after all is written: nothing, if nothing was written. -/
def finished? (draft : ValidationMessage) : Option ValidationMessage :=
  if draft.text.isEmpty then none else some draft

/-- What is written for an attempt; none if a name was missing. Without an evaluation, no failures are
told after the first line. -/
def draft? (attempt : CheckinAttempt) (scope : MessageScope) : Option ValidationMessage := do
  let mut tellsWarnings := scope.includesWarnings
  let mut text := ""
  if !attempt.evaluated && tellsWarnings then
    if attempt.evaluates then
      text := notEvaluatedLine
    tellsWarnings := false
  let headed := attempt.servers.length > 1
  attempt.servers.foldlM (addServer? headed scope.includesErrors tellsWarnings)
    { text, severity := .warning }

theorem notesSentence?_eq {names : List String} (hnames : names ≠ []) :
    notesSentence? names = some (notesLine names) := by
  match names with
  | [name] => rfl
  | first :: second :: rest => simp [notesSentence?, notesLine]

/-- Lines with a sentence among them make up some text. -/
theorem text_ofLines_ne_empty {told : List Line} {line : Line} (hmem : line ∈ told)
    (hsentence : line.isSentence = true) : (ofLines told).text ≠ "" := by
  have hline := Line.text_ne_empty hsentence
  rw [ofLines]
  induction told with
  | nil => cases hmem
  | cons first rest ih =>
    cases rest with
    | nil =>
      cases List.mem_singleton.mp hmem
      simpa using hline
    | cons second rest => simp

/-- Lines that end where a line may be started: nothing is told, or some sentence is. -/
def Shown (told : List Line) : Prop :=
  told ≠ [] → ∃ line ∈ told, line.isSentence = true

theorem Shown.text_eq_empty_iff {told : List Line} (hshown : Shown told) :
    (ofLines told).text = "" ↔ told = [] := by
  constructor
  · intro hempty
    by_contra htold
    obtain ⟨line, hmem, hsentence⟩ := hshown htold
    exact text_ofLines_ne_empty hmem hsentence hempty
  · rintro rfl
    simp [ofLines]

/-- The message that consists of the given lines, where the next line starts. -/
def opening (told : List Line) : ValidationMessage :=
  if told = [] then ofLines [] else (ofLines told).write "\n"

theorem writeBreak_ofLines {told : List Line} (hshown : Shown told) :
    (ofLines told).writeBreak = opening told := by
  rw [writeBreak, opening]
  simp only [String.isEmpty_iff, hshown.text_eq_empty_iff]
  split
  · next htold => rw [htold]
  · rfl

theorem write_break_ofLines {told : List Line} (htold : told ≠ []) :
    (ofLines told).write "\n" = opening told := by
  rw [opening, if_neg htold]

theorem ofLines_concat (told : List Line) (line : Line) :
    ofLines (told ++ [line]) =
      { text := (opening told).text ++ line.text
        severity := if line.isMissing then .error else (opening told).severity } := by
  by_cases htold : told = []
  · simp [htold, opening, ofLines]
  · cases hmissing : line.isMissing <;>
      simp [htold, opening, write, ofLines, hmissing, String.intercalate_append_of_ne_nil]

/-- Writing the heading of a server adds its line. -/
theorem write_heading_opening (told : List Line) (server : Server) :
    ((opening told).write server.presentable).write "\n" = opening (told ++ [.heading server]) := by
  have hended : told ++ [Line.heading server] ≠ [] := by simp
  rw [← write_break_ofLines hended, ofLines_concat]
  rfl

theorem write_missing_opening (told : List Line) (names : List String) :
    { (opening told).write (notesLine names) with severity := .error } =
      ofLines (told ++ [.missing names]) := by
  rw [ofLines_concat]
  rfl

theorem write_failures_opening (told : List Line) :
    (opening told).write failuresLine = ofLines (told ++ [.failures]) := by
  rw [ofLines_concat]
  rfl

/-- The condition as it is tested says what it is meant to say. -/
theorem tellsFailures_iff {data : ServerAttempt} :
    scope.includesWarnings ∧ attempt.evaluated ∧ data.recorded ≠ [] ↔
      (scope.includesWarnings && attempt.evaluated && !data.recorded.isEmpty) = true := by
  simp [and_assoc]

/-- What is written for one server are its lines, after what has been written. -/
theorem addServer?_ofLines {told : List Line} (hshown : Shown told) (entry : Server × ServerAttempt) :
    addServer? (attempt.servers.length > 1) scope.includesErrors
        (scope.includesWarnings && attempt.evaluated) (ofLines told) entry =
      some (ofLines (told ++ serverLines attempt scope entry)) := by
  obtain ⟨server, data⟩ := entry
  have hnotes : scope.includesErrors ∧ data.missing ≠ [] ↔
      (scope.includesErrors && data.hasMissingNotes) = true := by
    simp [ServerAttempt.hasMissingNotes]
  have hsentence : (scope.includesErrors && data.hasMissingNotes) = true →
      notesSentence? data.missing = some (notesLine data.missing) :=
    fun htells => notesSentence?_eq (hnotes.mpr htells).2
  simp only [addServer?, serverLines, problems, hnotes, tellsFailures_iff, writeBreak_ofLines hshown]
  generalize (scope.includesErrors && data.hasMissingNotes) = tellsNotes at *
  generalize (scope.includesWarnings && attempt.evaluated && !data.recorded.isEmpty) = tellsFailures at *
  cases tellsNotes <;> cases tellsFailures <;> by_cases hheaded : 1 < attempt.servers.length <;>
    simp [hheaded, hsentence, write_heading_opening, write_missing_opening, write_failures_opening,
      write_break_ofLines]

theorem isSentence_of_mem_problems {data : ServerAttempt} {line : Line}
    (hmem : line ∈ problems attempt scope data) : line.isSentence = true := by
  simp only [problems, List.mem_append, List.mem_ite_nil_right, List.mem_singleton] at hmem
  rcases hmem with ⟨-, rfl⟩ | ⟨-, rfl⟩ <;> rfl

/-- The lines of a server end with a sentence, if there are any. -/
theorem Shown.append_serverLines {told : List Line} (hshown : Shown told)
    (entry : Server × ServerAttempt) : Shown (told ++ serverLines attempt scope entry) := by
  intro hne
  rw [serverLines] at hne ⊢
  cases hproblems : problems attempt scope entry.2 with
  | nil =>
    simp only [hproblems, ↓reduceIte, List.append_nil] at hne ⊢
    exact hshown hne
  | cons first rest =>
    have hsentence : first.isSentence = true :=
      isSentence_of_mem_problems (by rw [hproblems]; exact List.mem_cons_self)
    exact ⟨first, by simp, hsentence⟩

theorem Shown.append_flatMap_serverLines {told : List Line} (hshown : Shown told)
    (servers : List (Server × ServerAttempt)) :
    Shown (told ++ servers.flatMap (serverLines attempt scope)) := by
  induction servers generalizing told with
  | nil => simpa using hshown
  | cons entry servers ih =>
    rw [List.flatMap_cons, ← List.append_assoc]
    exact ih (hshown.append_serverLines entry)

theorem shown_notEvaluated :
    Shown (if scope.includesWarnings ∧ ¬attempt.evaluated ∧ attempt.evaluates then [.notEvaluated]
      else []) := by
  split
  · exact fun _ => ⟨.notEvaluated, by simp, rfl⟩
  · exact fun hne => absurd rfl hne

theorem shown_lines : Shown (lines attempt scope) :=
  shown_notEvaluated.append_flatMap_serverLines attempt.servers

/-- The servers add their lines one behind the other, by induction over them. -/
theorem foldlM_addServer?_ofLines (servers : List (Server × ServerAttempt)) {told : List Line}
    (hshown : Shown told) :
    servers.foldlM (addServer? (attempt.servers.length > 1) scope.includesErrors
        (scope.includesWarnings && attempt.evaluated)) (ofLines told) =
      some (ofLines (told ++ servers.flatMap (serverLines attempt scope))) := by
  induction servers generalizing told with
  | nil => simp
  | cons entry servers ih =>
    rw [List.foldlM_cons, addServer?_ofLines hshown, Option.bind_eq_bind, Option.bind_some,
      ih (hshown.append_serverLines entry), List.flatMap_cons, List.append_assoc]

/-- Nothing is missing while the message of an attempt is written, and its lines are what is written. -/
theorem draft?_eq_ofLines (attempt : CheckinAttempt) (scope : MessageScope) :
    draft? attempt scope = some (ofLines (lines attempt scope)) := by
  rw [lines, ← foldlM_addServer?_ofLines attempt.servers shown_notEvaluated, draft?]
  cases attempt.evaluated <;> cases scope.includesWarnings <;> cases attempt.evaluates <;>
    simp [ofLines, Line.text, Line.isMissing]

/-- What is asked about one server, be it anything or not. -/
def reportOf (attempt : CheckinAttempt) (scope : MessageScope) (entry : Server × ServerAttempt) :
    Report :=
  { server := entry.1
    missing := if scope.includesErrors then entry.2.missing else []
    hasFailures := scope.includesWarnings && attempt.evaluated && !entry.2.recorded.isEmpty }

/-- The lines of a server are those of its report, as text. -/
theorem map_text_serverLines (entry : Server × ServerAttempt) :
    (serverLines attempt scope entry).map Line.text =
      if (reportOf attempt scope entry).isEmpty then []
      else (reportOf attempt scope entry).lines (attempt.servers.length > 1) := by
  rw [serverLines, problems, reportOf]
  simp only [tellsFailures_iff]
  cases (scope.includesWarnings && attempt.evaluated && !entry.2.recorded.isEmpty) <;>
    cases scope.includesErrors <;> cases entry.2.missing <;>
    by_cases hheaded : 1 < attempt.servers.length <;>
    simp [hheaded, Line.text, Report.isEmpty, Report.lines]

/-- The lines of all servers are those of the reports, as text. -/
theorem map_text_lines :
    (lines attempt scope).map Line.text =
      (if tellsNotEvaluated attempt scope then [notEvaluatedLine] else []) ++
        (reports attempt scope).flatMap (Report.lines (attempt.servers.length > 1)) := by
  have hfirst : (if scope.includesWarnings ∧ ¬attempt.evaluated ∧ attempt.evaluates then
      [Line.notEvaluated] else []).map Line.text =
        if tellsNotEvaluated attempt scope then [notEvaluatedLine] else [] := by
    simp [tellsNotEvaluated, apply_ite, Line.text, and_assoc]
  have hservers (servers : List (Server × ServerAttempt)) :
      (servers.flatMap (serverLines attempt scope)).map Line.text =
        ((servers.map (reportOf attempt scope)).filter (!·.isEmpty)).flatMap
          (Report.lines (attempt.servers.length > 1)) := by
    induction servers with
    | nil => rfl
    | cons entry servers ih =>
      rw [List.flatMap_cons, List.map_append, map_text_serverLines, ih, List.map_cons, List.filter_cons]
      cases (reportOf attempt scope entry).isEmpty <;> simp
  rw [lines, List.map_append, hfirst, hservers]
  rfl

theorem missing_mem_serverLines_iff {entry : Server × ServerAttempt} {names : List String} :
    Line.missing names ∈ serverLines attempt scope entry ↔
      scope.includesErrors = true ∧ entry.2.missing = names ∧ names ≠ [] := by
  have hproblems : Line.missing names ∈ serverLines attempt scope entry ↔
      Line.missing names ∈ problems attempt scope entry.2 := by
    rw [serverLines]
    split
    · next hnone => simp [hnone]
    · simp
  rw [hproblems]
  simp only [problems, List.mem_append, List.mem_ite_nil_right, List.mem_singleton, Line.missing.injEq,
    reduceCtorEq, and_false, or_false]
  grind

/-- A line about missing notes is told if errors are asked for and some server misses just these. -/
theorem missing_mem_lines_iff {names : List String} :
    Line.missing names ∈ lines attempt scope ↔
      scope.includesErrors = true ∧ names ≠ [] ∧
        ∃ entry ∈ attempt.servers, entry.2.missing = names := by
  have hfirst : Line.missing names ∉ if scope.includesWarnings ∧ ¬attempt.evaluated ∧ attempt.evaluates
      then [Line.notEvaluated] else [] := by
    simp
  rw [lines, List.mem_append, or_iff_right hfirst, List.mem_flatMap]
  simp only [missing_mem_serverLines_iff]
  grind

theorem any_isMissing_lines :
    (lines attempt scope).any Line.isMissing = (reports attempt scope).any (!·.missing.isEmpty) := by
  rw [Bool.eq_iff_iff, CheckinAttempt.any_missing_reports_iff, List.any_eq_true]
  constructor
  · rintro ⟨line, hmem, hmissing⟩
    obtain ⟨names, rfl⟩ := Line.isMissing_iff.mp hmissing
    obtain ⟨herrors, hnames, entry, hentry, rfl⟩ := missing_mem_lines_iff.mp hmem
    exact ⟨herrors, entry, hentry, by simpa [ServerAttempt.hasMissingNotes] using hnames⟩
  · rintro ⟨herrors, entry, hentry, hmissing⟩
    have hnames : entry.2.missing ≠ [] := by simpa [ServerAttempt.hasMissingNotes] using hmissing
    exact ⟨_, missing_mem_lines_iff.mpr ⟨herrors, hnames, entry, hentry, rfl⟩, rfl⟩

end ValidationMessage

namespace CheckinAttempt

open ValidationMessage

/-- There is a message exactly if there are lines, and it is made up of them. -/
theorem message?_eq_ofLines (attempt : CheckinAttempt) (scope : MessageScope) :
    attempt.message? scope =
      if lines attempt scope = [] then none else some (ofLines (lines attempt scope)) := by
  rw [message?, ← map_text_lines, ← any_isMissing_lines]
  simp [ofLines]

/-- After a validation, what is missing is what is missing in the notes as they stand. -/
theorem exists_missing_validateNotes_iff {p : List String → Prop} :
    (∃ entry ∈ attempt.validateNotes.servers, p entry.2.missing) ↔
      ∃ entry ∈ attempt.servers, p (CheckinNote.missingNames entry.2.notes) := by
  simp [validateNotes, ServerAttempt.missing]

/-- Writing a message piece by piece never lacks a name and gives the message of the attempt. That is
made of the lines about its problems, one below the other, and there is none if there is no line. It is
an error exactly if some line is about missing notes; right after a validation, these are the required
notes left blank. -/
theorem message?_worded_line_by_line (attempt : CheckinAttempt) (scope : MessageScope) :
    (draft? attempt scope).map finished? = some (attempt.message? scope) ∧
    attempt.message? scope =
      (if lines attempt scope = [] then none
      else some
        { text := "\n".intercalate ((lines attempt scope).map Line.text)
          severity := if (lines attempt scope).any Line.isMissing then .error else .warning }) ∧
    ∀ names, Line.missing names ∈ lines attempt.validateNotes scope ↔
      scope.includesErrors = true ∧ names ≠ [] ∧
        ∃ entry ∈ attempt.servers, CheckinNote.missingNames entry.2.notes = names := by
  have hmessage := message?_eq_ofLines attempt scope
  refine ⟨?_, hmessage, fun names => ?_⟩
  · rw [draft?_eq_ofLines, hmessage]
    simp [finished?, shown_lines.text_eq_empty_iff]
  · rw [missing_mem_lines_iff, exists_missing_validateNotes_iff (p := (· = names))]

/-- Both servers have policy failures, the first one a missing note as well. -/
theorem message?_worded_line_by_line_echoed :
    let attempt := ((CheckinStep.evaluate (m := StateM Unit) echoing .never).run echoedStart |>.run ()).1
    attempt.message? .both = some
      { text := "http://a\nCheckin note 'Reviewer' is required to commit\n" ++
          "Checkin policy warnings found\nhttp://b\nCheckin policy warnings found"
        severity := .error } := by
  intro attempt
  obtain ⟨-, hmessage, -⟩ := message?_worded_line_by_line attempt .both
  have hlines : lines attempt .both =
      [.heading (.ofUri "http://a"), .missing ["Reviewer"], .failures, .heading (.ofUri "http://b"),
        .failures] := by
    decide +kernel
  rw [hmessage, hlines]
  decide +kernel

end CheckinAttempt

end Reconcile
