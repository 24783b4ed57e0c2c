import Reconcile.Proofs.Checkin.NoteFields
import Reconcile.Proofs.Checkin.Reachable

namespace Reconcile

variable {σ : Type} {m : Type → Type}

namespace CheckinStep

/-- The values that steps write into notes of a server, by the name of the note. -/
def written (server : Server) (steps : List (CheckinStep m)) : List (String × String) :=
  steps.filterMap fun
    | setNote other name value => if server = other then some (name, value) else none
    | _ => none

/-- The writes of a step come before those of the later steps. -/
theorem setAll_written_cons (server : Server) (step : CheckinStep m) (steps : List (CheckinStep m))
    (notes : List CheckinNote) :
    CheckinNote.setAll (written server (step :: steps)) notes =
      CheckinNote.setAll (written server steps) (step.notesAfter server notes) := by
  cases step with
  | setNote other name value =>
    by_cases hserver : server = other
    · simp [written, notesAfter, hserver, CheckinNote.setAll]
    · simp [written, notesAfter, hserver]
  | _ => simp [written, notesAfter]

/-- Over a run, servers stay in place and their notes have what was written into them. -/
theorem forall₂_foldlM_run (steps : List (CheckinStep (StateM σ))) (attempt : CheckinAttempt)
    (world : σ) :
    List.Forall₂ (fun before after => after.1 = before.1 ∧
      after.2.notes = CheckinNote.setAll (written before.1 steps) before.2.notes)
        attempt.servers ((steps.foldlM CheckinStep.run attempt).run world).1.servers := by
  induction steps generalizing attempt world with
  | nil => exact List.forall₂_same.mpr fun _ _ => ⟨rfl, rfl⟩
  | cons step steps ih =>
    rw [List.foldlM_cons, run_bind]
    refine forall₂_trans (step.moves_run attempt world) (ih _ _) ?_
    -- The step writes first, and the rest of the run writes over it.
    rintro before middle after hmoves ⟨hserver, hnotes⟩
    refine ⟨hserver.trans hmoves.server, ?_⟩
    rw [hnotes, hmoves.notes, hmoves.server, setAll_written_cons]

/-- Nothing but a validation changes what counts as missing. -/
theorem missingNotes_run {step : CheckinStep (StateM σ)} (hstep : step ≠ .validateNotes)
    (attempt : CheckinAttempt) (world : σ) (server : Server) :
    ((step.run attempt).run world).1.missingNotes server = attempt.missingNotes server := by
  have hservers : List.Forall₂ (fun before after => after.1 = before.1 ∧
      after.2.missingNotes = before.2.missingNotes)
        attempt.servers ((step.run attempt).run world).1.servers := by
    refine (step.moves_run attempt world).imp fun before after hmoves => ⟨hmoves.server, ?_⟩
    rw [hmoves.missingNotes]
    cases step with
    | validateNotes => exact absurd rfl hstep
    | _ => rfl
  have hrel := lookup_rel (R := fun before after : ServerAttempt =>
    after.missingNotes = before.missingNotes) hservers server
  simp only [CheckinAttempt.missingNotes, CheckinAttempt.server?]
  generalize attempt.servers.lookup server = before at hrel ⊢
  generalize ((step.run attempt).run world).1.servers.lookup server = after at hrel ⊢
  cases hrel with
  | none => rfl
  | some hmissing => simp [ServerAttempt.missing, hmissing]

end CheckinStep

namespace CheckinAttempt

variable {attempt : CheckinAttempt} {server : Server} {data : ServerAttempt} {name value : String}

/-- What is kept by each step is kept by a run of steps. -/
theorem Sound.foldlM_run (hsound : attempt.Sound) (steps : List (CheckinStep (StateM σ)))
    (world : σ) : ((steps.foldlM CheckinStep.run attempt).run world).1.Sound := by
  induction steps generalizing attempt world with
  | nil => exact hsound
  | cons step steps ih =>
    rw [List.foldlM_cons, run_bind]
    exact ih (hsound.step step world) _

/-- Where keys differ, no other entry has the key of one. -/
theorem not_mem_of_nodup_map {α β : Type} {f : α → β} {before after : List α} {a : α}
    (hnodup : ((before ++ a :: after).map f).Nodup) : f a ∉ before.map f ∧ f a ∉ after.map f := by
  rw [List.map_append, List.map_cons, List.nodup_middle, List.nodup_cons, List.mem_append,
    not_or] at hnodup
  exact hnodup.1

/-- A change that does nothing to the data of a server does nothing to the attempt. -/
theorem modifyServer_eq_self {f : ServerAttempt → ServerAttempt}
    (hf : ∀ data, (server, data) ∈ attempt.servers → f data = data) :
    attempt.modifyServer server f = attempt := by
  have hservers : (attempt.servers.map fun entry =>
      if entry.1 = server then (entry.1, f entry.2) else entry) = attempt.servers := by
    refine (List.map_congr_left fun entry hentry => ?_).trans (List.map_id _)
    split
    case isTrue heq => rw [hf entry.2 (heq ▸ hentry), id]
    case isFalse => rfl
  rw [modifyServer, hservers]

/-- In a sound attempt a server stands once, so a change to it is a change at one place. -/
theorem Sound.modifyServer_eq (hsound : attempt.Sound) {first rest : List (Server × ServerAttempt)}
    (hservers : attempt.servers = first ++ (server, data) :: rest) (f : ServerAttempt → ServerAttempt) :
    attempt.modifyServer server f =
      { attempt with servers := first ++ (server, f data) :: rest } := by
  obtain ⟨hfirst, hrest⟩ := not_mem_of_nodup_map (hservers ▸ hsound.nodup)
  have hothers (others : List (Server × ServerAttempt)) (hnone : server ∉ others.map (·.1)) :
      (others.map fun entry => if entry.1 = server then (entry.1, f entry.2) else entry) = others := by
    refine (List.map_congr_left fun entry hentry => ?_).trans (List.map_id _)
    exact if_neg fun heq => hnone (List.mem_map.mpr ⟨entry, hentry, heq⟩)
  rw [modifyServer, hservers, List.map_append, List.map_cons, hothers first hfirst,
    hothers rest hrest, if_pos rfl]

/-- A note can be written if its server is there and has one of that name. -/
theorem Sound.hasNote_iff (hsound : attempt.Sound) :
    attempt.hasNote server name = true ↔
      ∃ data, (server, data) ∈ attempt.servers ∧ name ∈ data.notes.map (·.name) := by
  simp [hasNote, hsound.mem_servers_iff, Option.any_eq_true]

/-- Where the names of the notes differ, writing changes no more than the note that it is about. -/
theorem Sound.setNote_eq (hsound : attempt.Sound)
    (hnodup : ∀ entry ∈ attempt.servers, (entry.2.notes.map (·.name)).Nodup)
    (hnote : attempt.hasNote server name = true) (value : String) :
    ∃ first data rest early note late,
      attempt.servers = first ++ (server, data) :: rest ∧
      data.notes = early ++ note :: late ∧ note.name = name ∧
      attempt.setNote server name value = { attempt with
        servers := first ++ (server, { data with
          notes := early ++ { note with value := some value } :: late }) :: rest } := by
  obtain ⟨data, hmem, hname⟩ := hsound.hasNote_iff.mp hnote
  obtain ⟨first, rest, hservers⟩ := List.append_of_mem hmem
  obtain ⟨note, hmemNote, rfl⟩ := List.mem_map.mp hname
  obtain ⟨early, late, hnotes⟩ := List.append_of_mem hmemNote
  have hearly := (not_mem_of_nodup_map (hnotes ▸ hnodup _ hmem)).1
  refine ⟨first, data, rest, early, note, late, hservers, hnotes, rfl, ?_⟩
  rw [setNote, hsound.modifyServer_eq hservers, hnotes,
    CheckinNote.setFirst_append_cons hearly]

/-- Writing into a note that is not there leaves the attempt alone. -/
theorem Sound.setNote_eq_self (hsound : attempt.Sound)
    (hnote : attempt.hasNote server name = false) (value : String) :
    attempt.setNote server name value = attempt := by
  refine modifyServer_eq_self fun data hmem => ?_
  have hname : name ∉ data.notes.map (·.name) := fun hname => by
    rw [hsound.hasNote_iff.mpr ⟨data, hmem, hname⟩] at hnote
    cases hnote
  rw [CheckinNote.setFirst_eq_self hname]

/-- A validation notes the names that are missing right then. -/
theorem Sound.missingNotes_validateNotes (hsound : attempt.Sound)
    (hmem : (server, data) ∈ attempt.servers) :
    attempt.validateNotes.missingNotes server = CheckinNote.missingNames data.notes := by
  have hvalidated : attempt.validateNotes.Sound := hsound.step (.validateNotes (m := StateM Unit)) ()
  have hmem' : (server, { data with missingNotes := some (CheckinNote.missingNames data.notes) }) ∈
      attempt.validateNotes.servers := List.mem_map.mpr ⟨_, hmem, rfl⟩
  rw [missingNotes, hvalidated.mem_servers_iff.mp hmem']
  rfl

end CheckinAttempt

/-- The servers that the files of a check-in belong to, in the order of their visit, each with the note
definitions that it answered. -/
def Queries.Declare (queries : Queries (StateM σ)) (workspaces : List Workspace)
    (files : List LocalPath) (declared : List (Server × List NoteDefinition)) : Prop :=
  List.Forall₂ (fun group entry => entry.1 = group.server ∧ ∃ before after,
    (queries.noteDefinitions group.server group.projects).run before = (.ok entry.2, after))
      (Discovery.serverFiles workspaces files) declared

namespace CheckinAttempt

variable {queries : Queries (StateM σ)} {cancellation : Cancellation (StateM σ)}
  {workspaces : List Workspace} {files : List LocalPath} {defaults : Compatibility}
  {world world' : σ} {start attempt : CheckinAttempt} {declared : List (Server × List NoteDefinition)}
  {values : Server → List (String × String)} {server : Server} {name : String}

/-- The servers of an attempt are those that declared notes, in their order, and the notes of each are
made out of what it declared, with the values written into them. -/
def Filled (attempt : CheckinAttempt) (declared : List (Server × List NoteDefinition))
    (values : Server → List (String × String)) : Prop :=
  List.Forall₂ (fun entry now => now.1 = entry.1 ∧
    now.2.notes = CheckinNote.setAll (values entry.1) (CheckinNote.ofDefinitions entry.2))
      declared attempt.servers

/-- A start makes the notes of each server out of the definitions that the server answered. -/
theorem exists_filled_of_startCheckin
    (hstart : (startCheckin queries cancellation workspaces files defaults).run.run world =
      (.ok start, world')) :
    ∃ declared, queries.Declare workspaces files declared ∧ start.Filled declared fun _ => [] := by
  rw [startCheckin] at hstart
  obtain ⟨discovery, _, hdiscover, hstart⟩ := exists_of_bind_ok hstart
  cases hstart
  refine exists_between_of_forall₂ (List.forall₂_map_right_iff.mpr ?_)
  rw [ofDiscovery, List.forall₂_map_right_iff]
  refine (Discovery.forall₂_of_discover hdiscover).imp fun group discovered hdiscovered => ?_
  obtain ⟨problem, _, _, hdiscovered⟩ := hdiscovered
  obtain ⟨definitions, _, _, _, _, _, _, hnotes, -, hfound, -⟩ :=
    Discovery.exists_of_discoverServer hdiscovered
  cases hfound
  exact ⟨(group.server, definitions), ⟨rfl, _, _, hnotes⟩, rfl, rfl⟩

theorem nodup_of_declare (hdeclare : queries.Declare workspaces files declared) :
    (declared.map (·.1)).Nodup := by
  have hservers : declared.map (·.1) = (Discovery.serverFiles workspaces files).map (·.server) :=
    map_eq_of_forall₂ hdeclare fun _ _ hentry => hentry.1
  exact hservers ▸ Discovery.nodup_server_serverFiles workspaces files

/-- The notes after a run are those of the start with everything written that the run wrote, in
    order. -/
theorem Filled.foldlM_run (hfilled : start.Filled declared fun _ => [])
    (steps : List (CheckinStep (StateM σ))) (later : σ) :
    ((steps.foldlM CheckinStep.run start).run later).1.Filled declared
      fun server => CheckinStep.written server steps := by
  refine forall₂_trans hfilled (CheckinStep.forall₂_foldlM_run steps start later) ?_
  rintro entry before after ⟨hserver, hnotes⟩ ⟨hserver', hnotes'⟩
  refine ⟨hserver'.trans hserver, ?_⟩
  rw [hnotes', hnotes, hserver]
  rfl

/-- The names of the notes and their order are settled by what the servers declare. -/
theorem Filled.map_names (hfilled : attempt.Filled declared values) :
    (attempt.servers.map fun entry => (entry.1, entry.2.notes.map (·.name))) =
      declared.map fun entry => (entry.1, (CheckinNote.ofDefinitions entry.2).map (·.name)) := by
  refine map_eq_of_forall₂ hfilled fun entry now hnow => ?_
  rw [hnow.1, hnow.2, CheckinNote.map_name_setAll]

theorem Filled.nodup_names (hfilled : attempt.Filled declared values) :
    ∀ entry ∈ attempt.servers, (entry.2.notes.map (·.name)).Nodup := by
  intro now hnow
  obtain ⟨entry, -, -, hnotes⟩ := exists_of_mem_of_forall₂ hfilled hnow
  rw [hnotes, CheckinNote.map_name_setAll]
  exact CheckinNote.nodup_ofDefinitions entry.2

/-- A note of a name can be written exactly if a definition of that name was declared. -/
theorem Filled.hasNote_iff (hfilled : attempt.Filled declared values) (hsound : attempt.Sound) :
    attempt.hasNote server name = true ↔ ∃ definitions, (server, definitions) ∈ declared ∧
      ∃ definition ∈ definitions, definition.name = name := by
  have hlists : attempt.hasNote server name = true ↔
      ∃ names, (server, names) ∈ (attempt.servers.map fun entry =>
        (entry.1, entry.2.notes.map (·.name))) ∧ name ∈ names := by
    rw [hsound.hasNote_iff]
    constructor
    · rintro ⟨data, hmem, hname⟩
      exact ⟨_, List.mem_map.mpr ⟨_, hmem, rfl⟩, hname⟩
    · rintro ⟨_, hnames, hname⟩
      obtain ⟨⟨_, data⟩, hmem, heq⟩ := List.mem_map.mp hnames
      cases heq
      exact ⟨data, hmem, hname⟩
  rw [hlists, hfilled.map_names]
  constructor
  · rintro ⟨_, hnames, hname⟩
    obtain ⟨⟨_, definitions⟩, hmem, heq⟩ := List.mem_map.mp hnames
    cases heq
    exact ⟨definitions, hmem, List.mem_map.mp (CheckinNote.mem_names_ofDefinitions_iff.mp hname)⟩
  · rintro ⟨definitions, hmem, hname⟩
    exact ⟨_, List.mem_map.mpr ⟨_, hmem, rfl⟩,
      CheckinNote.mem_names_ofDefinitions_iff.mpr (List.mem_map.mpr hname)⟩

/-- What a validation finds missing are the required fields whose last value is blank, or that have
    none. -/
theorem Filled.missingNotes_validateNotes (hfilled : attempt.Filled declared values)
    (hsound : attempt.Sound) {definitions : List NoteDefinition}
    (hmem : (server, definitions) ∈ declared) :
    attempt.validateNotes.missingNotes server =
      ((CheckinNote.ofDefinitions definitions).filter fun note => note.required &&
        (CheckinNote.lastValue? (values server) note.name).all Text.isBlankText).map (·.name) := by
  obtain ⟨⟨_, data⟩, hdata, hserver, hnotes⟩ := exists_of_mem_of_forall₂ hfilled.flip hmem
  cases hserver
  rw [hsound.missingNotes_validateNotes hdata, hnotes,
    CheckinNote.missingNames_setAll (CheckinNote.nodup_ofDefinitions _)
      fun _ => CheckinNote.value_of_mem_ofDefinitions]

/-- Servers declare notes, and an attempt keeps them whatever is done with it: the names in their order,
each once. Writing succeeds exactly for a note that its server declares, and changes that note only. A
validation finds exactly the required notes whose last value is blank or absent, and nothing but a
validation changes what was found. -/
theorem notes_over_steps (queries : Queries (StateM σ)) (cancellation : Cancellation (StateM σ))
    (workspaces : List Workspace) (files : List LocalPath) (defaults : Compatibility)
    (world world' : σ) (start : CheckinAttempt)
    (hstart : (startCheckin queries cancellation workspaces files defaults).run.run world =
      (.ok start, world')) :
    ∃ declared, queries.Declare workspaces files declared ∧ (declared.map (·.1)).Nodup ∧
      ∀ {τ : Type} (steps : List (CheckinStep (StateM τ))) (later : τ),
        let attempt := ((steps.foldlM CheckinStep.run start).run later).1
        (attempt.servers.map fun entry => (entry.1, entry.2.notes.map (·.name))) =
          (declared.map fun entry => (entry.1, (CheckinNote.ofDefinitions entry.2).map (·.name))) ∧
        (∀ entry ∈ attempt.servers, (entry.2.notes.map (·.name)).Nodup) ∧
        (∀ server name, attempt.hasNote server name = true ↔
          ∃ definitions, (server, definitions) ∈ declared ∧
            ∃ definition ∈ definitions, definition.name = name) ∧
        (∀ server name value, attempt.hasNote server name = true →
          ∃ first data rest early note late,
            attempt.servers = first ++ (server, data) :: rest ∧
            data.notes = early ++ note :: late ∧ note.name = name ∧
            attempt.setNote server name value = { attempt with
              servers := first ++ (server, { data with
                notes := early ++ { note with value := some value } :: late }) :: rest }) ∧
        (∀ server name value, attempt.hasNote server name = false →
          attempt.setNote server name value = attempt) ∧
        (∀ server definitions, (server, definitions) ∈ declared →
          attempt.validateNotes.missingNotes server =
              (((CheckinNote.ofDefinitions definitions).filter fun note => note.required &&
                (CheckinNote.lastValue? (CheckinStep.written server steps) note.name).all
                  Text.isBlankText).map (·.name)) ∧
            (attempt.validateNotes.missingNotes server).Nodup) ∧
        ∀ step : CheckinStep (StateM τ), step ≠ .validateNotes → ∀ world server,
          ((step.run attempt).run world).1.missingNotes server = attempt.missingNotes server := by
  obtain ⟨declared, hdeclare, hmade⟩ := exists_filled_of_startCheckin hstart
  refine ⟨declared, hdeclare, nodup_of_declare hdeclare, fun {τ} steps later => ?_⟩
  intro attempt
  have hsound : attempt.Sound := (sound_of_startCheckin hstart).foldlM_run steps later
  have hfilled : attempt.Filled declared fun server => CheckinStep.written server steps :=
    hmade.foldlM_run steps later
  refine ⟨hfilled.map_names, hfilled.nodup_names, fun server name => hfilled.hasNote_iff hsound,
    fun server name value hnote => hsound.setNote_eq hfilled.nodup_names hnote value,
    fun server name value hnote => hsound.setNote_eq_self hnote value,
    fun server definitions hdeclared => ?_,
    fun step hstep world server => CheckinStep.missingNotes_run hstep attempt world server⟩
  have hmissing := hfilled.missingNotes_validateNotes hsound hdeclared
  refine ⟨hmissing, ?_⟩
  rw [hmissing]
  exact (CheckinNote.nodup_ofDefinitions definitions).sublist (List.filter_sublist.map _)

/-- The required note of one server is written twice, the second time with a blank, and the other server
has no such note. The validation finds it missing, whatever is written before the next one. -/
theorem notes_over_steps_echoed :
    let here : Server := .ofUri "http://a"
    let there : Server := .ofUri "http://b"
    let steps : List (CheckinStep (StateM Unit)) :=
      [.setNote here "Reviewer" "Ann", .setNote there "Reviewer" "Bob", .setNote here "Reviewer" " \t",
        .validateNotes]
    let attempt := ((steps.foldlM CheckinStep.run echoedStart).run ()).1
    attempt.setNote there "Reviewer" "Bob" = attempt ∧
      (attempt.setNote here "Reviewer" "Ann").missingNotes here = ["Reviewer"] ∧
      ∃ definitions : List NoteDefinition,
        (∃ definition ∈ definitions, definition.name = "Reviewer") ∧
        ["Reviewer"] = ((CheckinNote.ofDefinitions definitions).filter fun note => note.required &&
          (CheckinNote.lastValue? (CheckinStep.written here steps) note.name).all
            Text.isBlankText).map (·.name) := by
  intro here there steps attempt
  obtain ⟨declared, -, -, hsteps⟩ := notes_over_steps _ _ _ _ _ _ _ _ startCheckin_echoed
  obtain ⟨-, -, hdeclares, -, hself, hmissing, hkept⟩ := hsteps steps ()
  have hhere : attempt.hasNote here "Reviewer" = true := by decide +kernel
  have hthere : attempt.hasNote there "Reviewer" = false := by decide +kernel
  have hfound : attempt.missingNotes here = ["Reviewer"] := by decide +kernel
  have hvalidated : attempt.validateNotes.missingNotes here = ["Reviewer"] := by decide +kernel
  obtain ⟨definitions, hdeclared, hname⟩ := (hdeclares here "Reviewer").mp hhere
  refine ⟨hself there "Reviewer" "Bob" hthere, ?_, definitions, hname, ?_⟩
  · exact (hkept (.setNote here "Reviewer" "Ann") nofun () here).trans hfound
  · exact hvalidated.symm.trans (hmissing here definitions hdeclared).1

end CheckinAttempt

end Reconcile
