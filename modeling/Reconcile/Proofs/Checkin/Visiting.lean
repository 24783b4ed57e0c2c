import Reconcile.Proofs.Checkin.Answered
import Reconcile.Proofs.Checkin.Recorded

namespace Reconcile

/-- No query for annotations is answered as cancelled. -/
def Answers.Uncancelled (answers : Answers) : Prop :=
  ∀ server kind project, answers.annotations server kind project ≠ .error .cancelled

namespace Discovery

variable {σ α β : Type} {answers answers' : Answers} {server : Server} {projects : List ServerPath}
  {defaults : Compatibility} {group : ServerFiles}

/-- A step of loading that ends with a problem of a query has it from an answer of the server. -/
def Blames (answers : Answers) (server : Server) (step : LoadM Id α) : Prop :=
  ∀ table error, (step.run.run table).run.1 = .error (.remote error) →
    ∃ kind project, answers.annotations server kind project = .error error

namespace Blames

variable {step : LoadM Id α}

theorem of_pure {a : α} : Blames answers server (pure a : LoadM Id α) :=
  fun _ _ herror => by cases herror

/-- A step that asks nobody cannot be blamed on a server. -/
theorem of_settles {asking : LoadM (StateM Unit) α} (hsettles : Settles asking)
    (hstep : LoadsAs asking step) : Blames answers server step := by
  intro table error herror
  obtain ⟨result, after, hrun, -, hresult⟩ := hsettles table
  have hsame := hstep table ()
  rw [hrun] at hsame
  rw [← hsame] at herror
  exact absurd herror (hresult error)

/-- A problem of a sequence of steps is a problem of one of them. -/
theorem bind {next : α → LoadM Id β} (hstep : Blames answers server step)
    (hnext : ∀ a, Blames answers server (next a)) : Blames answers server (step >>= next) := by
  intro table error herror
  have hhere := hstep table error
  change (let ending := (step.run.run table).run
    ((ExceptT.bindCont next ending.1).run ending.2).run).1 = _ at herror
  generalize (step.run.run table).run = ending at hhere herror
  obtain ⟨result, after⟩ := ending
  cases result with
  | ok a => exact hnext a after error herror
  | error problem => exact hhere (by cases herror; rfl)

theorem ite {p : Prop} [Decidable p] {yes no : LoadM Id α} (hyes : Blames answers server yes)
    (hno : Blames answers server no) : Blames answers server (if p then yes else no) := by
  split
  · exact hyes
  · exact hno

/-- A query that fails is one that the server answered so. -/
theorem query_bind {kind : AnnotationKind} {project : ServerPath}
    {next : List Annotation → LoadM Id α} (hnext : ∀ annotations, Blames answers server (next annotations)) :
    Blames answers server (do
      match ← (answers.queries (m := Id)).annotations server kind project with
      | .error error => throw (.remote error)
      | .ok annotations => next annotations) := by
  intro table error herror
  have hquery : (answers.queries (m := Id)).annotations server kind project =
      pure (answers.annotations server kind project) := rfl
  rw [hquery] at herror
  cases hanswer : answers.annotations server kind project with
  | error problem =>
    rw [hanswer] at herror
    cases herror
    exact ⟨kind, project, hanswer⟩
  | ok annotations =>
    rw [hanswer] at herror
    exact hnext annotations table error herror

end Blames

/-- The error met while asking is the answer to one of the queries. -/
theorem blames_annotationValues (kind : AnnotationKind) (projects : List ServerPath) :
    Blames answers server (annotationValues answers.queries server kind projects) := by
  induction projects with
  | nil => exact .of_pure
  | cons project projects ih => exact .query_bind fun annotations => .bind ih fun _ => .of_pure

theorem blames_addDescriptors (honours : Compatibility → Bool)
    (read : String → Except AnnotationError (List PolicyDescriptor))
    (values : List (ServerPath × String)) :
    Blames answers server (addDescriptors honours read values) :=
  .of_settles (settles_addDescriptors honours read values) (loadsAs_addDescriptors honours read values)

theorem blames_addKind (projects : List ServerPath) (kind : AnnotationKind) (honoured : Bool) :
    Blames answers server (addKind answers.queries server projects kind honoured) :=
  .ite (.bind (blames_annotationValues kind projects) fun values => blames_addDescriptors _ _ values) .of_pure

/-- A remote problem in loading is an answer of the server. -/
theorem blames_loadPolicies (answers : Answers) (server : Server) (projects : List ServerPath)
    (defaults : Compatibility) :
    Blames answers server (loadPolicies answers.queries server projects defaults) := by
  rw [loadPolicies_eq_addKind]
  refine .bind (blames_annotationValues .overrides projects) fun overrides => ?_
  refine .bind (.of_settles (settles_applyOverrides _ _) (loadsAs_applyOverrides _ _)) fun honoured => ?_
  exact .bind (blames_addKind _ _ _) fun _ => blames_addKind _ _ _

/-- What loading the policies of a group ends with, and the table that it leaves. -/
def loading (answers : Answers) (defaults : Compatibility) (group : ServerFiles) :
    Except LoadProblem Unit × ProjectTable :=
  Id.run ((loadPolicies answers.queries group.server group.projects defaults).run.run
    (group.projects.map fun project => (project, { compatibility := defaults })))

/-- In every world, the policies are loaded as the answers alone would have it. -/
theorem run_loadPolicies {queries : Queries (StateM σ)} (hgive : queries.Give answers)
    (defaults : Compatibility) (group : ServerFiles) (world : σ) :
    (((loadPolicies queries group.server group.projects defaults).run.run
      (group.projects.map fun project => (project, { compatibility := defaults }))).run world).1 =
        loading answers defaults group :=
  loadsAs_loadPolicies hgive _ _ _ _ world

/-- The problem with the policies of a group, if loading them fails. -/
def problem? (answers : Answers) (defaults : Compatibility) (group : ServerFiles) :
    Option LoadProblem :=
  match (loading answers defaults group).1 with
  | .ok () => none
  | .error problem => some problem

/-- The line about a problem with the policies of a group. -/
def problemLine? (answers : Answers) (defaults : Compatibility) (group : ServerFiles) :
    Option String :=
  (problem? answers defaults group).map fun problem =>
    s!"{group.server.presentable}: {problem.message}"

/-- What discovering one server comes to. -/
def visit (answers : Answers) (defaults : Compatibility) (group : ServerFiles) :
    Except CheckinError (DiscoveredServer × Option String) := do
  match answers.noteDefinitions group.server group.projects with
  | .error error => throw (.ofRemote error)
  | .ok definitions =>
    return ({ server := group.server
              notes := CheckinNote.ofDefinitions definitions
              files := group.files.map (·.localPath)
              serverPaths := group.files.map (·.serverPath)
              projects := (loading answers defaults group).2 }, problemLine? answers defaults group)

/-- Wherever loading stops, it leaves an entry for each project. -/
theorem map_fst_loading (answers : Answers) (defaults : Compatibility) (group : ServerFiles) :
    (loading answers defaults group).2.map (·.1) = group.projects := by
  have hnodup : group.projects.Nodup := (pairwise_projects group).imp String.ne_of_lt
  have hleads := leads_loadPolicies (answers.queries (m := StateM Unit)) group.server defaults hnodup
    (group.projects.map fun project => (project, { compatibility := defaults })) ()
    ⟨by simp [Function.comp_def], by simp⟩
  have hending := run_loadPolicies (answers.give_queries (σ := Unit)) defaults group ()
  rw [← hending]
  exact hleads.keys

/-- Where no answer is a cancellation, no loading is cancelled. -/
theorem loading_ne_cancelled (hnever : answers.Uncancelled) (defaults : Compatibility)
    (group : ServerFiles) : (loading answers defaults group).1 ≠ .error (.remote .cancelled) := by
  intro hcancelled
  obtain ⟨kind, project, hanswer⟩ := blames_loadPolicies answers group.server group.projects defaults
    _ .cancelled hcancelled
  exact hnever _ _ _ hanswer

/-- On answers alone, discovering a server is visiting it. -/
theorem discoverServer_queries (hnever : answers.Uncancelled) (defaults : Compatibility)
    (group : ServerFiles) :
    (discoverServer (m := Id) answers.queries .never defaults group).run.run =
      visit answers defaults group := by
  have hcancelled := loading_ne_cancelled hnever defaults group
  have hnotes : (answers.queries (m := Id)).noteDefinitions group.server group.projects =
      pure (answers.noteDefinitions group.server group.projects) := rfl
  have hload : (loadPolicies answers.queries group.server group.projects defaults).run.run
      (group.projects.map fun project => (project, { compatibility := defaults })) =
        (pure (loading answers defaults group) : Id _) := rfl
  rw [discoverServer, visit, hnotes]
  cases answers.noteDefinitions group.server group.projects with
  | error error => rfl
  | ok definitions =>
    simp only [hload, problemLine?, problem?]
    generalize loading answers defaults group = ending at hcancelled ⊢
    obtain ⟨result, table⟩ := ending
    cases result with
    | ok => rfl
    | error problem =>
      -- Only a cancelled query is more than noted.
      cases problem with
      | unreadable error => rfl
      | remote error =>
        cases error with
        | cancelled => exact absurd rfl hcancelled
        | transport | server | unsupported => rfl

/-- Without a world, a sequence is run by running its steps. -/
theorem run_bind_pure {ε : Type} (step : ExceptT ε Id α) (next : α → ExceptT ε Id β) :
    (step >>= next).run.run = step.run.run >>= fun a => (next a).run.run := by
  change (ExceptT.bindCont next step.run.run).run = _
  cases step.run.run <;> rfl

/-- On answers alone, the servers are visited one after the other. -/
theorem discoverServers_queries (hnever : answers.Uncancelled) (defaults : Compatibility)
    (groups : List ServerFiles) :
    (discoverServers (m := Id) answers.queries .never defaults groups).run.run =
      groups.mapM (visit answers defaults) := by
  induction groups with
  | nil => rfl
  | cons group groups ih =>
    rw [discoverServers, List.mapM_cons, run_bind_pure, discoverServer_queries hnever]
    refine bind_congr fun discovered => ?_
    rw [run_bind_pure, ih]
    rfl

/-- On answers alone, a discovery visits the groups in order, unless there are none. -/
theorem discover_queries (hnever : answers.Uncancelled) (workspaces : List Workspace)
    (files : List LocalPath) (defaults : Compatibility) :
    (discover (m := Id) answers.queries .never workspaces files defaults).run.run =
      if (serverFiles workspaces files).isEmpty then .error .noMappings
      else ofServers <$> (serverFiles workspaces files).mapM (visit answers defaults) := by
  rw [discover]
  dsimp only
  split
  · rfl
  · have hservers := discoverServers_queries hnever defaults (serverFiles workspaces files)
    change ((discoverServers (m := Id) answers.queries .never defaults _ >>= fun found =>
      pure (ofServers found)).run.run) = _
    rw [run_bind_pure, hservers]
    rfl

end Discovery

end Reconcile
