import Reconcile.Proofs.Checkin.Recorded
import Reconcile.Proofs.ServerPath

namespace Reconcile

namespace Discovery

variable {σ α β : Type} {table : ProjectTable} {project : ServerPath} {projects : List ServerPath}
  {values values' : List (ServerPath × String)}

/-- Values whose names of projects agree as far as the projects in question go. -/
structure SameValue (projects : List ServerPath) (a b : ServerPath × String) : Prop where
  value : b.2 = a.2
  project : ∀ project ∈ projects, a.1 = project ↔ b.1 = project

/-- Two steps that cannot be told apart on a table of these projects. -/
def EqualOn (projects : List ServerPath) (step step' : LoadM (StateM σ) α) : Prop :=
  ∀ table, table.map (·.1) = projects → step.run.run table = step'.run.run table

/-- Steps that come to the same on tables of these projects do so one behind the other. -/
theorem EqualOn.bind {step step' : LoadM (StateM σ) α}
    {next next' : α → LoadM (StateM σ) β} (hsettles : Settles step) (hstep : EqualOn projects step step')
    (hnext : ∀ a, EqualOn projects (next a) (next' a)) :
    EqualOn projects (step >>= next) (step' >>= next') := by
  intro table htable
  obtain ⟨result, after, hrun, hkeys, -⟩ := hsettles table
  have hrun' := (hstep table htable).symm.trans hrun
  cases result with
  | ok a => rw [run_bind_of_ok hrun, run_bind_of_ok hrun', hnext a after (hkeys.trans htable)]
  | error problem => rw [run_bind_of_error hrun, run_bind_of_error hrun']

/-- A value whose project is spelled otherwise belongs to no project of the table, neither before
    nor after. -/
theorem SameValue.eq_or_notMem {a b : ServerPath × String}
    (hsame : SameValue projects a b) : b = a ∨ a.1 ∉ projects ∧ b.1 ∉ projects := by
  by_cases hknown : a.1 ∈ projects
  · exact Or.inl (Prod.ext ((hsame.project _ hknown).mp rfl) hsame.value)
  · refine Or.inr ⟨hknown, fun hknown' => hknown ?_⟩
    rwa [(hsame.project _ hknown').mpr rfl]

theorem lookup_eq_none (htable : table.map (·.1) = projects)
    (hproject : project ∉ projects) : table.lookup project = none := by
  rw [List.lookup_eq_none_iff]
  intro entry hentry
  have hmem := List.mem_map_of_mem (f := (·.1)) hentry
  simpa using ne_of_mem_of_not_mem (htable ▸ hmem) hproject |>.symm

/-- Values outside the table are passed over, so their spelling is no matter. -/
theorem equalOn_applyOverrides (hvalues : List.Forall₂ (SameValue projects) values values')
    (found : Bool × Bool) : EqualOn projects
      (applyOverrides found values : LoadM (StateM σ) _) (applyOverrides found values') := by
  induction hvalues generalizing found with
  | nil => exact fun _ _ => rfl
  | @cons entry entry' values values' hentry _ ih =>
    obtain ⟨project, value⟩ := entry
    obtain ⟨project', value'⟩ := entry'
    intro table htable
    -- Either both are for the same project, or the table has neither and both are passed over.
    rcases hentry.eq_or_notMem with heq | ⟨hunknown, hunknown'⟩
    · obtain ⟨rfl, rfl⟩ := Prod.mk.inj heq
      rw [run_applyOverrides_cons, run_applyOverrides_cons]
      split
      · exact ih found table htable
      · cases Compatibility.ofAnnotation value' with
        | error error => rfl
        | ok flags => exact ih _ _ ((ProjectTable.keys_modify _).trans htable)
    · rw [run_applyOverrides_cons, run_applyOverrides_cons, lookup_eq_none htable hunknown,
        lookup_eq_none htable hunknown']
      exact ih found table htable

/-- Values outside the table are passed over, so their spelling is no matter. -/
theorem equalOn_addDescriptors (honours : Compatibility → Bool)
    (read : String → Except AnnotationError (List PolicyDescriptor))
    (hvalues : List.Forall₂ (SameValue projects) values values') : EqualOn projects
      (addDescriptors honours read values : LoadM (StateM σ) _)
        (addDescriptors honours read values') := by
  induction hvalues with
  | nil => exact fun _ _ => rfl
  | @cons entry entry' values values' hentry _ ih =>
    obtain ⟨project, value⟩ := entry
    obtain ⟨project', value'⟩ := entry'
    intro table htable
    rcases hentry.eq_or_notMem with heq | ⟨hunknown, hunknown'⟩
    · obtain ⟨rfl, rfl⟩ := Prod.mk.inj heq
      rw [run_addDescriptors_cons, run_addDescriptors_cons]
      split
      · cases read value' with
        | error error => rfl
        | ok descriptors => exact ih _ ((ProjectTable.keys_modify _).trans htable)
      · exact ih table htable
    · rw [run_addDescriptors_cons, run_addDescriptors_cons, lookup_eq_none htable hunknown,
        lookup_eq_none htable hunknown']
      exact ih table htable

end Discovery

/-- An annotation on an item whose name differs from that of `a` at most in case. -/
structure RecordedAnnotation.Respelled (a b : RecordedAnnotation) : Prop where
  kind : b.kind = a.kind
  value : b.content.value = a.content.value
  item : Text.equalIgnoringCase a.content.item b.content.item = true

/-- The team projects of both items are the same as far as `projects` go. -/
def RecordedAnnotation.SameProject (projects : List ServerPath) (a b : RecordedAnnotation) : Prop :=
  ∀ project ∈ projects, a.content.item.project = project ↔ b.content.item.project = project

/-- Records with the same notes, and with annotations that correspond one by one. -/
structure ServerRecord.Related (R : RecordedAnnotation → RecordedAnnotation → Prop)
    (a b : ServerRecord) : Prop where
  notes : b.notes = a.notes
  annotations : List.Forall₂ R a.annotations b.annotations

/-- Records of the same servers, with annotations that correspond one by one. -/
def Snapshot.Related (R : RecordedAnnotation → RecordedAnnotation → Prop) (a b : Snapshot) : Prop :=
  List.Forall₂ (fun entry entry' => entry'.1 = entry.1 ∧ entry.2.Related R entry'.2)
    a.servers b.servers

variable {R S T : RecordedAnnotation → RecordedAnnotation → Prop} {snapshot respelled : Snapshot}
  {record record' : ServerRecord} {server : Server} {projects : List ServerPath}

theorem Snapshot.Related.and (hR : snapshot.Related R respelled) (hS : snapshot.Related S respelled)
    (hT : ∀ a b, R a b → S a b → T a b) : snapshot.Related T respelled := by
  refine List.Forall₂.mp (fun _ _ hentry hentry' => ?_) hR hS
  refine ⟨hentry.1, hentry.2.notes, ?_⟩
  exact List.Forall₂.mp (fun _ _ => hT _ _) hentry.2.annotations hentry'.2.annotations

/-- Related snapshots record the same servers, and miss the others for the same reason. -/
theorem Snapshot.Related.record_cases (hrelated : snapshot.Related R respelled) (server : Server) :
    (∃ error, snapshot.record server = .error error ∧ respelled.record server = .error error) ∨
      ∃ record record', snapshot.record server = .ok record ∧
        respelled.record server = .ok record' ∧ record.Related R record' := by
  have huri := lookup_rel hrelated server.uri
  have hpresentable := lookup_rel hrelated server.presentable
  rw [Snapshot.record, Snapshot.record]
  generalize snapshot.servers.lookup server.uri = found, respelled.servers.lookup server.uri = found'
    at huri
  generalize snapshot.servers.lookup server.presentable = other,
    respelled.servers.lookup server.presentable = other' at hpresentable
  cases huri with
  | some hrecord => exact Or.inr ⟨_, _, rfl, rfl, hrecord⟩
  | none =>
    cases hpresentable with
    | some hrecord => exact Or.inr ⟨_, _, rfl, rfl, hrecord⟩
    | none => exact Or.inl ⟨_, rfl, rfl⟩

/-- A query reaches items without regard to case, so it reaches related annotations. -/
theorem ServerRecord.Related.reached (hrelated : record.Related R record')
    (hitem : ∀ a b, R a b → Text.equalIgnoringCase a.content.item b.content.item = true)
    (projects : List ServerPath) : List.Forall₂ R (record.reached projects) (record'.reached projects) := by
  induction projects with
  | nil => exact .nil
  | cons project projects ih =>
    rw [ServerRecord.reached, ServerRecord.reached, List.flatMap_cons, List.flatMap_cons]
    refine List.rel_append (List.rel_filter ?_ hrelated.annotations) ih
    intro a b hab
    dsimp only
    rw [ServerPath.isUnder_congr (hitem a b hab)]

/-- Related records answer with values that differ at most in projects nobody discovered. -/
theorem ServerRecord.Related.values (hrelated : record.Related
      (fun a b => a.Respelled b ∧ a.SameProject projects b) record') (kind : AnnotationKind) :
    List.Forall₂ (Discovery.SameValue projects) (record.values kind projects)
      (record'.values kind projects) := by
  refine List.rel_filterMap ?_ (List.rel_filter ?_
    (hrelated.reached (fun _ _ hab => hab.1.item) projects))
  · rintro a b ⟨hspelling, hproject⟩
    simp only [hspelling.value, Annotation.keyed?]
    cases a.content.value with
    | none => exact .none
    | some value => exact .some ⟨rfl, hproject⟩
  · rintro a b ⟨hspelling, -⟩
    dsimp only
    rw [hspelling.kind]

namespace Discovery

variable {σ : Type} {group : ServerFiles} {defaults : Compatibility}
  {cancellation : Cancellation (StateM σ)}

/-- Loading comes to the same table and the same problem. -/
theorem equalOn_loadPolicies (hrecord : snapshot.record server = .ok record)
    (hrecord' : respelled.record server = .ok record')
    (hrelated : record.Related (fun a b => a.Respelled b ∧ a.SameProject projects b) record')
    (defaults : Compatibility) : EqualOn projects
      (loadPolicies snapshot.queries server projects defaults : LoadM (StateM σ) _)
        (loadPolicies respelled.queries server projects defaults) := by
  have hadd (kind honours honoured) : EqualOn projects
      (addRecorded record projects kind honours honoured : LoadM (StateM σ) Unit)
        (addRecorded record' projects kind honours honoured) := by
    cases honoured with
    | false => exact fun _ _ => rfl
    | true => exact equalOn_addDescriptors honours kind.read (hrelated.values kind)
  rw [loadPolicies_queries hrecord, loadPolicies_queries hrecord']
  exact .bind (settles_applyOverrides _ _) (equalOn_applyOverrides (hrelated.values _) _) fun _ =>
    .bind (settles_addRecorded _ _ _ _ _) (hadd _ _ _) fun _ => hadd _ _ _

/-- From a snapshot that has a record of the server, discovering it is nothing but looking at the flag
twice. -/
theorem exists_discoverServer_eq {definitions : List NoteDefinition}
    (hrecord : snapshot.record group.server = .ok record)
    (hnotes : snapshot.noteDefinitions group.server group.projects = .ok definitions)
    (defaults : Compatibility) (cancellation : Cancellation (StateM σ)) :
    ∃ (table : ProjectTable) (problem : Option String), table.map (·.1) = group.projects ∧
      discoverServer snapshot.queries cancellation defaults group = do
        cancellation.check .cancelled
        cancellation.check .cancelled
        return ({ server := group.server
                  notes := CheckinNote.ofDefinitions definitions
                  files := group.files.map (·.localPath)
                  serverPaths := group.files.map (·.serverPath)
                  projects := table }, problem) := by
  have hquery : snapshot.queries.noteDefinitions group.server group.projects =
      (pure (.ok definitions) : StateM σ _) := congrArg pure hnotes
  -- A problem met while loading is only noted: none of them is a cancellation.
  obtain ⟨result, table, hrun, hkeys, hresult⟩ := settles_loadPolicies (σ := σ) hrecord group.projects
    defaults (group.projects.map fun project => (project, { compatibility := defaults }))
  have hprojects : table.map (·.1) = group.projects := by simpa [Function.comp_def] using hkeys
  cases result with
  | ok =>
    refine ⟨table, none, hprojects, ?_⟩
    simp only [discoverServer, hquery, liftM_pure, pure_bind, hrun]
  | error problem =>
    cases problem with
    | remote error => exact absurd rfl (hresult error)
    | unreadable error =>
      let problem := LoadProblem.unreadable error
      refine ⟨table, some s!"{group.server.presentable}: {problem.message}", hprojects, ?_⟩
      simp only [discoverServer, hquery, liftM_pure, pure_bind, hrun]
      rfl

/-- Without note fields a server is not discovered. -/
theorem discoverServer_eq_throw {error : RemoteError}
    (hnotes : snapshot.noteDefinitions group.server group.projects = .error error) :
    discoverServer snapshot.queries cancellation defaults group = throw (.ofRemote error) := by
  have hquery : snapshot.queries.noteDefinitions group.server group.projects =
      (pure (.error error) : StateM σ _) := congrArg pure hnotes
  simp only [discoverServer, hquery, liftM_pure, pure_bind]
  rfl

end Discovery

/-- Both snapshots give the same note fields, or the same error if they have no record of the server. -/
theorem Snapshot.Related.noteDefinitions_cases (hrelated : snapshot.Related R respelled)
    (server : Server) (projects : List ServerPath) :
    (∃ error, snapshot.noteDefinitions server projects = .error error ∧
      respelled.noteDefinitions server projects = .error error) ∨
    ∃ definitions record record', snapshot.noteDefinitions server projects = .ok definitions ∧
      respelled.noteDefinitions server projects = .ok definitions ∧
      snapshot.record server = .ok record ∧ respelled.record server = .ok record' ∧
      record.Related R record' := by
  rw [Snapshot.noteDefinitions, Snapshot.noteDefinitions]
  rcases hrelated.record_cases server with ⟨error, herror, herror'⟩ | ⟨record, record', hok, hok', hrecord⟩
  · rw [herror, herror']
    exact Or.inl ⟨error, rfl, rfl⟩
  · rw [hok, hok']
    refine Or.inr ⟨_, record, record', rfl, ?_, rfl, rfl, hrecord⟩
    simp only [bind, Except.bind, hrecord.notes]
    rfl

/-- What is discovered of a server but for the policies of its projects. -/
def DiscoveredServer.outline (discovered : DiscoveredServer) : DiscoveredServer :=
  { discovered with projects := discovered.projects.map fun entry => (entry.1, default) }

theorem outline_projects_congr {table table' : ProjectTable}
    (hkeys : table'.map (·.1) = table.map (·.1)) :
    table'.map (fun entry => (entry.1, (default : ProjectPolicies))) =
      table.map fun entry => (entry.1, default) := by
  have hnames := congrArg (List.map fun project => (project, (default : ProjectPolicies))) hkeys
  simpa [Function.comp_def] using hnames

/-- What is discovered but for the policies. -/
def Discovery.outline (discovery : Discovery) : List DiscoveredServer :=
  discovery.servers.map (·.outline)

namespace Discovery

variable {σ : Type} {group : ServerFiles} {defaults : Compatibility}
  {cancellation : Cancellation (StateM σ)} {workspaces : List Workspace} {files : List LocalPath}

/-- But for the policies of its projects a server is discovered alike. -/
theorem map_outline_discoverServer (hrelated : snapshot.Related R respelled) (group : ServerFiles) :
    (·.1.outline) <$> discoverServer respelled.queries cancellation defaults group =
      (·.1.outline) <$> discoverServer snapshot.queries cancellation defaults group := by
  rcases hrelated.noteDefinitions_cases group.server group.projects with
    ⟨error, herror, herror'⟩ | ⟨definitions, record, record', hnotes, hnotes', hrecord, hrecord', -⟩
  · rw [discoverServer_eq_throw herror, discoverServer_eq_throw herror']
  · obtain ⟨table, problem, hkeys, heq⟩ := exists_discoverServer_eq hrecord hnotes defaults cancellation
    obtain ⟨table', problem', hkeys', heq'⟩ :=
      exists_discoverServer_eq hrecord' hnotes' defaults cancellation
    have htables := outline_projects_congr (hkeys'.trans hkeys.symm)
    rw [heq, heq']
    simp only [map_bind, map_pure, DiscoveredServer.outline, htables]

/-- The induction is over the groups, each of which is discovered alike but for its policies. -/
theorem map_outline_discoverServers (hrelated : snapshot.Related R respelled)
    (groups : List ServerFiles) :
    List.map (·.1.outline) <$> discoverServers respelled.queries cancellation defaults groups =
      List.map (·.1.outline) <$> discoverServers snapshot.queries cancellation defaults groups := by
  induction groups with
  | nil => rfl
  | cons group groups ih =>
    have hcons (queries : Queries (StateM σ)) :
        List.map (·.1.outline) <$> discoverServers queries cancellation defaults (group :: groups) = do
          let first ← (·.1.outline) <$> discoverServer queries cancellation defaults group
          let rest ← List.map (·.1.outline) <$> discoverServers queries cancellation defaults groups
          return first :: rest := by
      simp only [discoverServers, map_bind, bind_map_left, map_pure, List.map_cons]
    rw [hcons, hcons, map_outline_discoverServer hrelated, ih]

/-- Whatever the spelling of annotations, servers, notes, files and team projects are discovered
    alike. -/
theorem map_outline_discover (hrelated : snapshot.Related R respelled)
    (cancellation : Cancellation (StateM σ)) (workspaces : List Workspace) (files : List LocalPath)
    (defaults : Compatibility) :
    outline <$> discover respelled.queries cancellation workspaces files defaults =
      outline <$> discover snapshot.queries cancellation workspaces files defaults := by
  have hdiscover (queries : Queries (StateM σ)) :
      outline <$> discover queries cancellation workspaces files defaults = (do
        if (serverFiles workspaces files).isEmpty then throw .noMappings
        cancellation.check .cancelled
        List.map (·.1.outline) <$>
          discoverServers queries cancellation defaults (serverFiles workspaces files)) := by
    rw [discover]
    dsimp only
    split
    · rfl
    · have hservers (found : List (DiscoveredServer × Option String)) :
          (ofServers found).outline = found.map (·.1.outline) := List.map_map ..
      simp only [map_bind, map_pure, hservers]
      rfl
  rw [hdiscover, hdiscover, map_outline_discoverServers hrelated]

/-- Spellings that keep every discovered project discover the same server. -/
theorem discoverServer_congr (hrelated : snapshot.Related
      (fun a b => a.Respelled b ∧ a.SameProject group.projects b) respelled) :
    discoverServer respelled.queries cancellation defaults group =
      discoverServer snapshot.queries cancellation defaults group := by
  rcases hrelated.noteDefinitions_cases group.server group.projects with
    ⟨error, herror, herror'⟩ |
      ⟨definitions, record, record', hnotes, hnotes', hrecord, hrecord', hrecords⟩
  · rw [discoverServer_eq_throw herror, discoverServer_eq_throw herror']
  · have hload := equalOn_loadPolicies (σ := σ) hrecord hrecord' hrecords defaults
      (group.projects.map fun project => (project, { compatibility := defaults }))
        (by simp [Function.comp_def])
    have hquery : (respelled.queries.noteDefinitions group.server group.projects : StateM σ _) =
        snapshot.queries.noteDefinitions group.server group.projects :=
      congrArg pure (hnotes'.trans hnotes.symm)
    simp only [discoverServer, hquery, hload]

theorem discoverServers_congr {groups : List ServerFiles}
    (hrelated : ∀ group ∈ groups, snapshot.Related
      (fun a b => a.Respelled b ∧ a.SameProject group.projects b) respelled) :
    discoverServers respelled.queries cancellation defaults groups =
      discoverServers snapshot.queries cancellation defaults groups := by
  induction groups with
  | nil => rfl
  | cons group groups ih =>
    obtain ⟨hgroup, hgroups⟩ := List.forall_mem_cons.mp hrelated
    rw [discoverServers, discoverServers, discoverServer_congr hgroup, ih hgroups]

/-- Spellings that keep every discovered project make no difference to a discovery. -/
theorem discover_congr (hrelated : ∀ group ∈ serverFiles workspaces files, snapshot.Related
      (fun a b => a.Respelled b ∧ a.SameProject group.projects b) respelled) :
    discover respelled.queries cancellation workspaces files defaults =
      discover snapshot.queries cancellation workspaces files defaults := by
  rw [discover, discover, discoverServers_congr hrelated]

/-- Whatever the case of the items of annotations, a discovery ends alike, and finds the same servers
with the same notes, files and projects. It finds the same flags and policies, too, if no item is moved
into a discovered project or out of one: the names of projects are compared with regard to case. -/
theorem discover_respelled (hspelling : snapshot.Related RecordedAnnotation.Respelled respelled)
    (cancellation : Cancellation (StateM σ)) (workspaces : List Workspace) (files : List LocalPath)
    (defaults : Compatibility) (world : σ) :
    let ending := (discover snapshot.queries cancellation workspaces files defaults).run.run world
    let ending' := (discover respelled.queries cancellation workspaces files defaults).run.run world
    let projects := (serverFiles workspaces files).flatMap (·.projects)
    ending'.1.map outline = ending.1.map outline ∧ ending'.2 = ending.2 ∧
      (snapshot.Related (fun a b => a.SameProject projects b) respelled → ending' = ending) := by
  intro ending ending' projects
  have hends := congrArg (fun step => step.run.run world)
    (map_outline_discover hspelling cancellation workspaces files defaults)
  simp only [run_map] at hends
  obtain ⟨houtline, hworld⟩ := Prod.mk.inj hends
  refine ⟨houtline, hworld, fun hprojects => ?_⟩
  have hgroups (group) (hgroup : group ∈ serverFiles workspaces files) : snapshot.Related
      (fun a b => a.Respelled b ∧ a.SameProject group.projects b) respelled :=
    hspelling.and hprojects fun a b hab hsame =>
      ⟨hab, fun project hproject => hsame project (List.mem_flatMap.mpr ⟨group, hgroup, hproject⟩)⟩
  simp only [ending, ending', discover_congr hgroups]

/-- A discovery for a file of a project, from a snapshot that has a policy on `item`. -/
def discoverAttached (item : ServerPath) : Except CheckinError Discovery × Unit :=
  (discover (m := StateM Unit) (attaching item).queries .never
    [⟨"main", "alice", .ofUri "http://a", [⟨"$/Proj", ⟨"/a"⟩⟩]⟩] [⟨"/a/x"⟩] {}).run.run ()

/-- Below a project, the case of an item does not matter. -/
theorem discover_respelled_below_project :
    (attaching "$/Proj/src").Related RecordedAnnotation.Respelled (attaching "$/Proj/SRC") ∧
      discoverAttached "$/Proj/SRC" = discoverAttached "$/Proj/src" := by
  have hspelling : (attaching "$/Proj/src").Related RecordedAnnotation.Respelled
      (attaching "$/Proj/SRC") :=
    .cons ⟨rfl, rfl, .cons ⟨rfl, rfl, by decide +kernel⟩ .nil⟩ .nil
  have hproject : ServerPath.project "$/Proj/src" = ServerPath.project "$/Proj/SRC" := by
    decide +kernel
  have hprojects (projects : List ServerPath) : (attaching "$/Proj/src").Related
      (fun a b => a.SameProject projects b) (attaching "$/Proj/SRC") := by
    refine .cons ⟨rfl, rfl, .cons (fun project _ => ?_) .nil⟩ .nil
    exact Eq.congr_left hproject
  obtain ⟨-, -, hends⟩ := discover_respelled hspelling .never
    [⟨"main", "alice", .ofUri "http://a", [⟨"$/Proj", ⟨"/a"⟩⟩]⟩] [⟨"/a/x"⟩] {} ()
  exact ⟨hspelling, hends (hprojects _)⟩

/-- What is attached to a project under another spelling is given in answer to a query for the project,
and is lost then. -/
theorem discover_loses_respelled :
    (attaching "$/Proj").Related RecordedAnnotation.Respelled (attaching "$/proj") ∧
      ∃ found lost : Discovery,
        discoverAttached "$/Proj" = (.ok found, ()) ∧ discoverAttached "$/proj" = (.ok lost, ()) ∧
        found.servers.map (·.projects) =
          [[("$/Proj", { compatibility := {}, policies := [attached] })]] ∧
        lost.servers.map (·.projects) = [[("$/Proj", { compatibility := {}, policies := [] })]] := by
  let discovery (policies : List PolicyDescriptor) : Discovery :=
    { servers := [
        { server := .ofUri "http://a", notes := [], files := [⟨"/a/x"⟩], serverPaths := ["$/Proj/x"]
          projects := [("$/Proj", { compatibility := {}, policies })] }]
      loadError := none }
  refine ⟨.cons ⟨rfl, rfl, .cons ⟨rfl, rfl, by decide +kernel⟩ .nil⟩ .nil, discovery [attached],
    discovery [], ?_, ?_, rfl, rfl⟩
  · exact eq_ok_of_toOption (by decide +kernel)
  · exact eq_ok_of_toOption (by decide +kernel)

end Discovery

end Reconcile
