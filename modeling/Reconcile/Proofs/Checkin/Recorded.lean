import Reconcile.Proofs.Checkin.Discovered
import Reconcile.Remote.Snapshot

namespace Reconcile

/-- The annotations of a server that one of its projects is asked for, once for each such project. -/
def ServerRecord.reached (record : ServerRecord) (projects : List ServerPath) :
    List RecordedAnnotation :=
  projects.flatMap fun project => record.annotations.filter (·.content.item.isUnder project)

/-- The value of an annotation, if it has one, with the team project of its item. -/
def Annotation.keyed? (entry : Annotation) : Option (ServerPath × String) :=
  entry.value.map fun value => (entry.item.project, value)

/-- The values of a kind that a server's projects are asked for. -/
def ServerRecord.values (record : ServerRecord) (kind : AnnotationKind)
    (projects : List ServerPath) : List (ServerPath × String) :=
  ((record.reached projects).filter (·.kind == kind)).filterMap (·.content.keyed?)

namespace Discovery

variable {σ α β : Type} {snapshot : Snapshot} {server : Server} {record : ServerRecord}

/-- A snapshot gives the recorded values at once. -/
theorem annotationValues_queries (hrecord : snapshot.record server = .ok record)
    (kind : AnnotationKind) (projects : List ServerPath) :
    annotationValues snapshot.queries server kind projects =
      (pure (record.values kind projects) : LoadM (StateM σ) _) := by
  induction projects with
  | nil => rfl
  | cons project projects ih =>
    have hquery : snapshot.queries.annotations server kind project = (pure <| .ok <|
        (record.annotations.filter fun recorded =>
          recorded.kind == kind && recorded.content.item.isUnder project).map (·.content) :
            StateM σ _) := by
      change pure (snapshot.annotations server kind project) = _
      rw [Snapshot.annotations, hrecord]
      rfl
    have hvalues : record.values kind (project :: projects) =
        ((record.annotations.filter fun recorded =>
          recorded.kind == kind && recorded.content.item.isUnder project).map (·.content)).filterMap
            Annotation.keyed? ++ record.values kind projects := by
      simp only [ServerRecord.values, ServerRecord.reached, List.flatMap_cons, List.filter_append,
        List.filterMap_append, List.filter_filter, List.filterMap_map, Function.comp_def]
    rw [annotationValues, ih, hquery, hvalues]
    simp only [liftM_pure, pure_bind]
    rfl

/-- Adds the descriptors that a record has in the values of a kind, if the kind is honoured at all. -/
def addRecorded (record : ServerRecord) (projects : List ServerPath) (kind : AnnotationKind)
    (honours : Compatibility → Bool) (honoured : Bool) : LoadM (StateM σ) Unit :=
  if honoured then addDescriptors honours kind.read (record.values kind projects) else pure ()

/-- From a snapshot, policies are loaded by going through the values in the record. -/
theorem loadPolicies_queries (hrecord : snapshot.record server = .ok record)
    (projects : List ServerPath) (defaults : Compatibility) :
    loadPolicies snapshot.queries server projects defaults = (do
      let honoured ← applyOverrides (defaults.teamExplorer, defaults.teamprise)
        (record.values .overrides projects)
      addRecorded record projects .statelessPolicies (·.teamExplorer) honoured.1
      addRecorded record projects .statefulPolicies (·.teamprise) honoured.2 :
        LoadM (StateM σ) Unit) := by
  simp only [loadPolicies_eq_addKind, addKind, annotationValues_queries hrecord, pure_bind]
  rfl

/-- Only a recorded server can be discovered. -/
theorem exists_record_of_discoverServer {cancellation : Cancellation (StateM σ)}
    {defaults : Compatibility} {group : ServerFiles} {found : DiscoveredServer × Option String}
    {world world' : σ}
    (hrun : (discoverServer snapshot.queries cancellation defaults group).run.run world =
      (.ok found, world')) :
    ∃ record, snapshot.record group.server = .ok record := by
  obtain ⟨definitions, _, _, _, _, _, _, hdefinitions, -, -⟩ := exists_of_discoverServer hrun
  have hanswer : snapshot.noteDefinitions group.server group.projects = .ok definitions :=
    congrArg Prod.fst hdefinitions
  rw [Snapshot.noteDefinitions] at hanswer
  obtain ⟨record, hrecord, -⟩ := bind_eq_ok_iff.mp hanswer
  exact ⟨record, hrecord⟩

/-- A step that asks nobody ends the same in every world and leaves the world alone. -/
def Settles (step : LoadM (StateM σ) α) : Prop :=
  ∀ table, ∃ result after, step.run.run table = (pure (result, after) : StateM σ _) ∧
    after.map (·.1) = table.map (·.1) ∧ ∀ error, result ≠ .error (.remote error)

section

variable {step : LoadM (StateM σ) α} {next : α → LoadM (StateM σ) β} {table after : ProjectTable}

/-- A step that settles with a value hands over its table. -/
theorem run_bind_of_ok {a : α} (hstep : step.run.run table = (pure (.ok a, after) : StateM σ _)) :
    (step >>= next).run.run table = (next a).run.run after := by
  funext world
  change (let ending := step.run.run table world
    (ExceptT.bindCont next ending.1.1).run ending.1.2 ending.2) = _
  rw [hstep]
  rfl

/-- A step that settles with a problem ends the loading. -/
theorem run_bind_of_error {problem : LoadProblem}
    (hstep : step.run.run table = (pure (.error problem, after) : StateM σ _)) :
    (step >>= next).run.run table = (pure (.error problem, after) : StateM σ _) := by
  funext world
  change (let ending := step.run.run table world
    (ExceptT.bindCont next ending.1.1).run ending.1.2 ending.2) = _
  rw [hstep]
  rfl

theorem Settles.of_pure {a : α} : Settles (pure a : LoadM (StateM σ) α) :=
  fun table => ⟨.ok a, table, rfl, rfl, nofun⟩

theorem Settles.bind (hstep : Settles step) (hnext : ∀ a, Settles (next a)) :
    Settles (step >>= next) := by
  intro table
  obtain ⟨result, middle, hrun, hmiddle, hresult⟩ := hstep table
  cases result with
  | ok a =>
    obtain ⟨result, after, hafter, hkeys, hresult⟩ := hnext a middle
    exact ⟨result, after, (run_bind_of_ok hrun).trans hafter, hkeys.trans hmiddle, hresult⟩
  | error problem =>
    refine ⟨.error problem, middle, run_bind_of_error hrun, hmiddle, fun error hproblem => ?_⟩
    cases hproblem
    exact hresult error rfl

end

theorem settles_applyOverrides (found : Bool × Bool) (values : List (ServerPath × String)) :
    Settles (applyOverrides found values : LoadM (StateM σ) _) := by
  induction values generalizing found with
  | nil => exact .of_pure
  | cons entry values ih =>
    obtain ⟨project, value⟩ := entry
    intro table
    rw [run_applyOverrides_cons]
    split
    · exact ih found table
    · cases Compatibility.ofAnnotation value with
      | error error => exact ⟨_, table, rfl, rfl, nofun⟩
      | ok flags =>
        obtain ⟨result, after, hrun, hkeys, hresult⟩ := ih _ (table.modify project _)
        exact ⟨result, after, hrun, hkeys.trans (ProjectTable.keys_modify _), hresult⟩

theorem settles_addDescriptors (honours : Compatibility → Bool)
    (read : String → Except AnnotationError (List PolicyDescriptor))
    (values : List (ServerPath × String)) :
    Settles (addDescriptors honours read values : LoadM (StateM σ) _) := by
  induction values with
  | nil => exact .of_pure
  | cons entry values ih =>
    obtain ⟨project, value⟩ := entry
    intro table
    rw [run_addDescriptors_cons]
    split
    · cases read value with
      | error error => exact ⟨_, table, rfl, rfl, nofun⟩
      | ok descriptors =>
        obtain ⟨result, after, hrun, hkeys, hresult⟩ := ih (table.modify project _)
        exact ⟨result, after, hrun, hkeys.trans (ProjectTable.keys_modify _), hresult⟩
    · exact ih table

theorem settles_addRecorded (record : ServerRecord) (projects : List ServerPath)
    (kind : AnnotationKind) (honours : Compatibility → Bool) (honoured : Bool) :
    Settles (addRecorded record projects kind honours honoured : LoadM (StateM σ) Unit) := by
  cases honoured with
  | false => exact .of_pure
  | true => exact settles_addDescriptors honours kind.read _

/-- Loading from a snapshot settles: it asks nothing of the world and changes nothing in it. -/
theorem settles_loadPolicies (hrecord : snapshot.record server = .ok record)
    (projects : List ServerPath) (defaults : Compatibility) :
    Settles (loadPolicies snapshot.queries server projects defaults : LoadM (StateM σ) _) := by
  rw [loadPolicies_queries hrecord]
  exact .bind (settles_applyOverrides _ _) fun _ =>
    .bind (settles_addRecorded _ _ _ _ _) fun _ => settles_addRecorded _ _ _ _ _

/-- A server with one annotation, which attaches a policy to an item. -/
def attaching (item : ServerPath) : Snapshot :=
  { servers := [("http://a", { annotations := [
      { kind := .statelessPolicies
        content := { item, value := some <|
          "<policy-definitions><policy-definition><policy-type id=\"on\" name=\"On\"/>" ++
            "</policy-definition></policy-definitions>" } }] })] }

/-- The descriptor of that policy. -/
def attached : PolicyDescriptor :=
  { policyType := { id := "on", name := "On" }, enabled := true, format := .stateless }

end Discovery

end Reconcile
