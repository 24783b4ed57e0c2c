import Reconcile.CommandLine.Checkin
import Reconcile.Files.Tree
import Reconcile.Proofs.Checkin.Filling
import Reconcile.Proofs.Checkin.Reporting
import Reconcile.Proofs.Policy.Installed

namespace Reconcile

variable {σ α β : Type}

namespace CommandM

/-- In this world, a command ends with a value, whatever was shown before. -/
def EndsWith (command : CommandM (StateM σ) α) (world : σ) (a : α) : Prop :=
  ∀ output, ((command.run.run output).run world).1.1 = .ok a

namespace EndsWith

variable {command : CommandM (StateM σ) α} {world : σ} {a : α} {b : β}

theorem of_pure : EndsWith (pure a : CommandM (StateM σ) α) world a :=
  fun _ => rfl

/-- Commands that end end one behind the other. -/
theorem bind {next : α → CommandM (StateM σ) β} (hcommand : EndsWith command world a)
    (hnext : ∀ after, EndsWith (next a) after b) : EndsWith (command >>= next) world b := by
  intro output
  have hhere := hcommand output
  change ((ExceptT.bindCont next ((command.run.run output).run world).1.1).run
    ((command.run.run output).run world).1.2 |>.run ((command.run.run output).run world).2).1.1 = _
  rw [hhere]
  exact hnext _ _

theorem of_outside {action : StateM σ α} (haction : (action.run world).1 = a) :
    EndsWith (outside action) world a := by
  intro output
  exact congrArg Except.ok haction

/-- A result that is there does not fail the command. -/
theorem of_orFail {ε : Type} {causes : ε → List String} {result : Except ε α}
    (hresult : result = .ok a) : EndsWith (orFail causes result) world a := by
  rw [hresult]
  exact of_pure

theorem of_modify {f : Output → Output} :
    EndsWith (modify f : CommandM (StateM σ) Unit) world () :=
  fun _ => rfl

theorem ite {p : Prop} [Decidable p] {yes no : CommandM (StateM σ) α} (hyes : EndsWith yes world a)
    (hno : EndsWith no world a) : EndsWith (if p then yes else no) world a := by
  split
  · exact hyes
  · exact hno

/-- A loop whose body always ends and goes on ends. -/
theorem forIn {γ : Type} {l : List γ} {body : γ → PUnit → CommandM (StateM σ) (ForInStep PUnit)}
    (hbody : ∀ c after, EndsWith (body c ⟨⟩) after (.yield ⟨⟩)) :
    EndsWith (forIn l ⟨⟩ body) world ⟨⟩ := by
  induction l generalizing world with
  | nil => exact of_pure
  | cons c l ih =>
    rw [List.forIn_cons]
    exact bind (hbody c world) fun after => ih

end EndsWith

end CommandM

namespace CheckinOptions

/-- The value of the last note that was given under a name, which stands before the first equals sign
and is trimmed. -/
def noteValue? (options : CheckinOptions) (name : String) : Option String :=
  (((options.notes.filterMap (Text.cutAt? '=')).filter (Text.trimmed ·.1 == name)).getLast?).map (·.2)

/-- A note that was read has its name before the first equals sign, without blanks around it. -/
theorem cutAt?_of_readNote {argument : String} {note : String × String}
    (hread : readNote argument = .ok note) :
    ∃ name, Text.cutAt? '=' argument = some (name, note.2) ∧ note.1 = Text.trimmed name := by
  rw [readNote] at hread
  split at hread
  · cases hread
  case h_2 name value hcut =>
    split at hread
    · cases hread
    · cases hread
      exact ⟨name, hcut, rfl⟩

/-- The notes that were read are the arguments cut at their first equals sign. -/
theorem eq_map_cutAt?_of_readNote {arguments : List String} {notes : List (String × String)}
    (hread : List.Forall₂ (fun argument note => readNote argument = .ok note) arguments notes) :
    notes = (arguments.filterMap (Text.cutAt? '=')).map fun entry =>
      (Text.trimmed entry.1, entry.2) := by
  induction hread with
  | nil => rfl
  | cons hread _ ih =>
    obtain ⟨name, hcut, hname⟩ := cutAt?_of_readNote hread
    rw [List.filterMap_cons_some hcut, List.map_cons, ← ih, ← hname]

/-- The last text given for a name is the one that counts. -/
theorem lastValue?_of_readNote {options : CheckinOptions} {notes : List (String × String)}
    (hnotes : options.notes.mapM readNote = .ok notes) (name : String) :
    CheckinNote.lastValue? notes name = options.noteValue? name := by
  rw [CheckinNote.lastValue?, eq_map_cutAt?_of_readNote (forall₂_of_mapM_eq_ok hnotes),
    List.filter_map, List.getLast?_map, Option.map_map]
  rfl

end CheckinOptions

namespace CheckinAttempt

/-- Filling in notes changes notes and nothing else. -/
theorem servers_fillNotes (attempt : CheckinAttempt) (values : List (String × String)) :
    (attempt.fillNotes values).servers = attempt.servers.map fun entry =>
      (entry.1, { entry.2 with notes := CheckinNote.setAll values entry.2.notes }) := by
  induction values generalizing attempt with
  | nil => simp [fillNotes, CheckinNote.setAll]
  | cons entry values ih =>
    change ((attempt.setNoteEverywhere entry.1 entry.2).fillNotes values).servers = _
    rw [ih, setNoteEverywhere, List.map_map]
    rfl

/-- Once a check-in is prepared, a note is missing as the values left it, and an evaluation makes no
difference to that. -/
theorem exists_missing_prepared_iff (attempt : CheckinAttempt) (values : List (String × String))
    (message : String) (items : List WorkItem) (action : WorkItemAction) (registry : PolicyRegistry Id)
    (reason : Option String) :
    (∃ entry ∈ ({ (attempt.prepared values message items action).evaluatedBy registry with
        overrideReason := reason } : CheckinAttempt).servers, entry.2.hasMissingNotes = true) ↔
      ∃ entry ∈ attempt.servers,
        CheckinNote.missingNames (CheckinNote.setAll values entry.2.notes) ≠ [] := by
  simp [evaluatedBy, prepared, selectEverywhere, validateNotes, servers_fillNotes,
    ServerAttempt.hasMissingNotes, ServerAttempt.missing]

end CheckinAttempt

/-- A report blocks the check-in exactly if a note is missing. -/
theorem CheckinReport.isBlocked_report_iff (attempt : CheckinAttempt) :
    attempt.report.isBlocked = true ↔ ∃ entry ∈ attempt.servers, entry.2.hasMissingNotes = true := by
  have herror : (∃ message, attempt.message? .both = some message ∧ message.severity = .error) ↔
      ∃ entry ∈ attempt.servers, entry.2.hasMissingNotes = true := by
    simp [CheckinAttempt.exists_error_iff, MessageScope.includesErrors]
  rw [← herror, isBlocked, Option.any_eq_true]
  simp [CheckinAttempt.report, ValidationMessage.blocks]

/-- What a snapshot answers to queries. -/
def Snapshot.answers (snapshot : Snapshot) : Answers :=
  ⟨snapshot.noteDefinitions, snapshot.annotations⟩

namespace Command

variable {files : FileAccess (StateM σ)} {config : Config} {options : CheckinOptions} {world : σ}
  {snapshot : Snapshot} {notes : List (String × String)} {items : List WorkItem}
  {start : CheckinAttempt}

/-- A start from a snapshot has the servers that the files belong to, with the notes that the snapshot
defines for each of them. -/
theorem exists_filled_of_discoverCheckin {paths : List LocalPath}
    (hstart : discoverCheckin config snapshot paths = .ok start) :
    ∃ declared : List (Server × List NoteDefinition),
      List.Forall₂ (fun group entry => entry.1 = group.server ∧
        snapshot.noteDefinitions group.server group.projects = .ok entry.2)
          (Discovery.serverFiles config.allWorkspaces paths) declared ∧
      start.Filled declared fun _ => [] := by
  have hrun : (startCheckin (m := StateM Unit) snapshot.queries .never config.allWorkspaces paths
      config.policies).run.run () = (.ok start, ()) :=
    Prod.ext ((Discovery.endsAs_startCheckin snapshot.answers.give_queries Cancellation.never_never
      config.allWorkspaces paths config.policies ()).trans hstart) rfl
  obtain ⟨declared, hdeclare, hfilled⟩ := CheckinAttempt.exists_filled_of_startCheckin hrun
  refine ⟨declared, hdeclare.imp fun group entry hentry => ?_, hfilled⟩
  obtain ⟨hserver, _, _, hanswer⟩ := hentry
  exact ⟨hserver, congrArg Prod.fst hanswer⟩

theorem evaluateCheckin_eq (attempt : CheckinAttempt) :
    evaluateCheckin attempt = .ok (attempt.evaluatedBy (.builtins Glob.fits .never)) := by
  rw [evaluateCheckin, attempt.evaluate_builtins Glob.fits]
  rfl

/-- With a snapshot and arguments that can be read, the command ends with the code that its report
    calls for. -/
theorem endsWith_runCheckin (hload : ((Snapshot.load files options.snapshot).run world).1 = .ok snapshot)
    (hnotes : options.notes.mapM CheckinOptions.readNote = .ok notes)
    (hitems : options.workItems.mapM CheckinOptions.readWorkItem = .ok items)
    (hstart : discoverCheckin config snapshot options.files = .ok start) :
    CommandM.EndsWith (runCheckin files config options) world <|
      let evaluated := (start.prepared notes options.message items options.action).evaluatedBy
        (.builtins Glob.fits .never)
      let report := { evaluated with overrideReason := options.overrideReason }.report
      if report.isBlocked then .failure else .success := by
  refine .bind (.of_outside hload) fun _ => .bind (.of_orFail rfl) fun _ => ?_
  refine .bind (.of_orFail hnotes) fun _ => .bind (.of_orFail hitems) fun _ => ?_
  refine .bind (.of_orFail hstart) fun _ => .bind (.forIn fun note _ => ?_) fun _ => ?_
  · exact .ite (.bind .of_modify fun _ => .of_pure) .of_pure
  · refine .bind (.of_orFail (evaluateCheckin_eq _)) fun _ => ?_
    exact .ite (.bind .of_modify fun _ => .of_pure) (.bind .of_modify fun _ => .of_pure)

/-- The snapshot of a check-in loads, its notes and work items can be read, and the servers that its
files belong to give their notes. -/
structure Starts (files : FileAccess (StateM σ)) (config : Config) (options : CheckinOptions)
    (world : σ) (snapshot : Snapshot) : Prop where
  load : ((Snapshot.load files options.snapshot).run world).1 = .ok snapshot
  notes : ∃ notes, options.notes.mapM CheckinOptions.readNote = .ok notes
  workItems : ∃ items, options.workItems.mapM CheckinOptions.readWorkItem = .ok items
  start : ∃ start, discoverCheckin config snapshot options.files = .ok start

/-- A server of the files requires a note, by some definition that holds for them, for which nothing but
blanks was given at last. -/
def LacksNote (workspaces : List Workspace) (options : CheckinOptions) (snapshot : Snapshot) : Prop :=
  ∃ group ∈ Discovery.serverFiles workspaces options.files, ∃ definitions,
    snapshot.noteDefinitions group.server group.projects = .ok definitions ∧
      ∃ definition ∈ definitions, definition.required = true ∧
        (options.noteValue? definition.name).all Text.isBlankText = true

/-- A note is missing after filling in exactly if some required field was given no text. -/
theorem exists_missing_iff
    (hnotes : options.notes.mapM CheckinOptions.readNote = .ok notes)
    (hstart : discoverCheckin config snapshot options.files = .ok start) :
    (∃ entry ∈ start.servers,
      CheckinNote.missingNames (CheckinNote.setAll notes entry.2.notes) ≠ []) ↔
        LacksNote config.allWorkspaces options snapshot := by
  obtain ⟨declared, hdeclared, hfilled⟩ := exists_filled_of_discoverCheckin hstart
  have hentry {definitions : List NoteDefinition} :
      CheckinNote.missingNames (CheckinNote.setAll notes (CheckinNote.ofDefinitions definitions)) ≠ [] ↔
        ∃ definition ∈ definitions, definition.required = true ∧
          (options.noteValue? definition.name).all Text.isBlankText = true := by
    simp only [CheckinNote.missingNames_ne_nil_iff, CheckinOptions.lastValue?_of_readNote hnotes]
  constructor
  · rintro ⟨now, hnow, hmissing⟩
    obtain ⟨entry, hmem, -, hmade⟩ := exists_of_mem_of_forall₂ hfilled hnow
    obtain ⟨group, hgroup, -, hanswer⟩ := exists_of_mem_of_forall₂ hdeclared hmem
    rw [hmade] at hmissing
    exact ⟨group, hgroup, entry.2, hanswer, hentry.mp hmissing⟩
  · rintro ⟨group, hgroup, definitions, hanswer, hlacks⟩
    obtain ⟨entry, hmem, -, hanswer'⟩ := exists_of_mem_of_forall₂ hdeclared.flip hgroup
    cases hanswer.symm.trans hanswer'
    obtain ⟨now, hnow, -, hmade⟩ := exists_of_mem_of_forall₂ hfilled.flip hmem
    refine ⟨now, hnow, ?_⟩
    rw [hmade]
    exact hentry.mpr hlacks

/-- A check-in that starts ends with a code, and badly exactly for want of a note. -/
theorem exists_code_of_starts (hstarts : Starts files config options world snapshot) :
    ∃ code, CommandM.EndsWith (runCheckin files config options) world code ∧
      (code = .failure ↔ LacksNote config.allWorkspaces options snapshot) := by
  obtain ⟨hload, ⟨notes, hnotes⟩, ⟨items, hitems⟩, ⟨start, hstart⟩⟩ := hstarts
  refine ⟨_, endsWith_runCheckin hload hnotes hitems hstart, ?_⟩
  have hprepared := start.exists_missing_prepared_iff notes options.message items options.action
    (.builtins Glob.fits .never) options.overrideReason
  rw [← exists_missing_iff hnotes hstart, ← hprepared, ← CheckinReport.isBlocked_report_iff]
  dsimp only
  split
  case isTrue hblocked => exact iff_of_true rfl hblocked
  case isFalse hready => exact iff_of_false nofun hready

/-- A check-in that starts is blocked exactly if a server requires a note for which no text was given. So
it makes no difference to the end of the command what policies and annotations the snapshot has, what is
said about work items, the message and an override, and how the command reports. -/
theorem runCheckin_fails_iff (hstarts : Starts files config options world snapshot) :
    ∃ code, (∀ output, (((runCheckin files config options).run.run output).run world).1.1 = .ok code) ∧
      (code = .failure ↔ LacksNote config.allWorkspaces options snapshot) ∧
      ∀ (files' : FileAccess (StateM σ)) (config' : Config) (options' : CheckinOptions) (world' : σ)
        (snapshot' : Snapshot), Starts files' config' options' world' snapshot' →
          config'.allWorkspaces = config.allWorkspaces → options'.files = options.files →
          options'.notes = options.notes → snapshot'.noteDefinitions = snapshot.noteDefinitions →
          ∀ output, (((runCheckin files' config' options').run.run output).run world').1.1 = .ok code := by
  obtain ⟨code, hcode, hfails⟩ := exists_code_of_starts hstarts
  refine ⟨code, hcode, hfails, fun files' config' options' world' snapshot' hstarts' hworkspaces hfiles
    hnotes hdefinitions => ?_⟩
  obtain ⟨code', hcode', hfails'⟩ := exists_code_of_starts hstarts'
  have hsame : LacksNote config'.allWorkspaces options' snapshot' ↔
      LacksNote config.allWorkspaces options snapshot := by
    simp only [LacksNote, CheckinOptions.noteValue?, hworkspaces, hfiles, hnotes, hdefinitions]
  have hcodes : code' = code := by
    have hiff : code' = .failure ↔ code = .failure := hfails'.trans (hsame.trans hfails.symm)
    cases code <;> cases code' <;> simp_all
  exact hcodes ▸ hcode'

/-- The note that a server requires is given twice, at last without a text. The check-in is blocked, also
where it has a message, a work item and a reason for an override. -/
theorem runCheckin_fails_iff_blank :
    let required : NoteDefinition := { name := "Reviewer", required := true }
    let snapshot : Snapshot := { servers := [("http://a", { notes := [⟨none, required⟩] })] }
    let definition : Json := .ofMembers [("name", .ofString "Reviewer"), ("required", .bool true)]
    let recorded : Json := .ofMembers
      [("servers", .ofMembers [("http://a", .ofMembers [("note_definitions", .array [definition])])])]
    let tree : FileTree := ⟨[(["s.json"], .file recorded.pretty.toUTF8 true)]⟩
    let config : Config :=
      { workspaces := [{ name := "main", server := "http://a/", folders := [⟨"$/P", ⟨"/p"⟩⟩] }] }
    let options : CheckinOptions :=
      { snapshot := ⟨"s.json"⟩, notes := ["Reviewer=Ann", " Reviewer = "], files := [⟨"/p/x"⟩] }
    let options' : CheckinOptions :=
      { options with message := "done", workItems := ["7:Title"], overrideReason := some "hot", json := true }
    Starts FileTree.access config options tree snapshot ∧
      Starts FileTree.access config options' tree snapshot ∧
      (((runCheckin FileTree.access config options).run.run {}).run tree).1.1 = .ok .failure ∧
      (((runCheckin FileTree.access config options').run.run {}).run tree).1.1 = .ok .failure := by
  intro required snapshot definition recorded tree config options options'
  have hload : ((Snapshot.load FileTree.access ⟨"s.json"⟩).run tree).1 = .ok snapshot := by
    decide +kernel
  have hstarts : Starts FileTree.access config options tree snapshot :=
    ⟨hload, exists_ok_of_toBool (by decide +kernel), exists_ok_of_toBool (by decide +kernel),
      exists_ok_of_toBool (by decide +kernel)⟩
  have hstarts' : Starts FileTree.access config options' tree snapshot :=
    ⟨hload, hstarts.notes, exists_ok_of_toBool (by decide +kernel), hstarts.start⟩
  have hlacks : LacksNote config.allWorkspaces options snapshot := by
    exact ⟨⟨.ofUri "http://a/", [⟨⟨"/p/x"⟩, "$/P/x"⟩]⟩, by decide +kernel, [required],
      by decide +kernel, required, List.mem_singleton_self _, rfl, by decide +kernel⟩
  obtain ⟨code, hcode, hfails, hsame⟩ := runCheckin_fails_iff hstarts
  cases hfails.mpr hlacks
  exact ⟨hstarts, hstarts', hcode {}, hsame _ _ _ _ _ hstarts' rfl rfl rfl rfl {}⟩

end Command

end Reconcile
