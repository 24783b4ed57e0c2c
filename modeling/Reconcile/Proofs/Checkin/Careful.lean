import Reconcile.Proofs.Checkin.Asked
import Reconcile.Proofs.Checkin.Loading

namespace Reconcile.Discovery

variable {σ α β : Type} {raised : σ → Bool} {world middle world' : σ} {server : Server}
  {asked more : List Asked}

/-- What a step of loading asks: this server only, no note fields, and nothing after a cancelled query,
which is the problem that the step ends with. The flag is not taken down. -/
structure Loads (raised : σ → Bool) (server : Server) (world : σ) (result : Except LoadProblem α)
    (asked : List Asked) (world' : σ) : Prop where
  here : ∀ query ∈ asked, query.server = server ∧ query.query.ending = .cancelled
  cancelled : Behind (fun query => query.query.failure? = some .cancelled)
    (fun _ rest => rest = [] ∧ result = .error (.remote .cancelled)) asked
  failed : ∀ error, result = .error (.remote error) →
    ∃ query ∈ asked, query.query.failure? = some error
  raised_iff : raised world' = true ↔ raised world = true ∨ ∃ query ∈ asked, query.raised = true

namespace Loads

/-- Nothing asked is nothing cancelled, unless the step ended with an error of the server. -/
theorem of_nil {result : Except LoadProblem α} (hresult : ∀ error, result ≠ .error (.remote error)) :
    Loads raised server world result [] world where
  here _ hquery := by cases hquery
  cancelled := .of_nil
  failed error herror := absurd herror (hresult error)
  raised_iff := by simp

/-- A problem stays the same problem whatever would have come after it. -/
theorem of_error {problem : LoadProblem}
    (hloads : Loads raised server world (.error problem : Except LoadProblem α) asked world') :
    Loads raised server world (.error problem : Except LoadProblem β) asked world' where
  here := hloads.here
  cancelled := hloads.cancelled.imp fun _ _ ⟨hrest, hproblem⟩ =>
    ⟨hrest, congrArg Except.error (Except.error.inj hproblem)⟩
  failed error herror := by
    cases herror
    exact hloads.failed error rfl
  raised_iff := hloads.raised_iff

/-- A single query, and the problem that comes of it if it fails. -/
theorem of_query {kind : AnnotationKind} {project : ServerPath}
    {answer : Except RemoteError (List Annotation)} {result : Except LoadProblem α}
    (hkept : raised world = true → raised world' = true)
    (hresult : ∀ error, answer = .error error ↔ result = .error (.remote error)) :
    Loads raised server world result
      [⟨server, .annotations kind project answer, raised world'⟩] world' where
  here query hquery := by
    obtain rfl := List.mem_singleton.mp hquery
    exact ⟨rfl, rfl⟩
  cancelled := .of_singleton fun hcancelled => by
    cases answer with
    | ok annotations => cases hcancelled
    | error error =>
      cases hcancelled
      exact ⟨rfl, (hresult _).mp rfl⟩
  failed error herror := by
    obtain rfl := (hresult error).mpr herror
    exact ⟨_, List.mem_cons_self, rfl⟩
  raised_iff := by simpa using hkept

/-- A step that ended well has met no cancelled query. -/
theorem not_cancelled {a : α} (hloads : Loads raised server world (.ok a) asked world') :
    ∀ query ∈ asked, query.query.failure? ≠ some .cancelled :=
  hloads.cancelled.not_isEnd fun _ _ hend => by cases hend.2

/-- The queries of a step that ended well stand in front of those of the next one. -/
theorem append {a : α} {result : Except LoadProblem β}
    (hstep : Loads raised server world (.ok a) asked middle)
    (hnext : Loads raised server middle result more world') :
    Loads raised server world result (asked ++ more) world' where
  here query hquery := (List.mem_append.mp hquery).elim (hstep.here query) (hnext.here query)
  cancelled := hnext.cancelled.append hstep.not_cancelled
  failed error hresult := by
    obtain ⟨query, hquery, herror⟩ := hnext.failed error hresult
    exact ⟨query, List.mem_append_right _ hquery, herror⟩
  raised_iff := by
    rw [hnext.raised_iff, hstep.raised_iff, or_assoc]
    simp only [List.mem_append, or_and_right, exists_or]

end Loads

/-- A step of loading does the same with a record as without, and what it asks is in order. -/
def Careful (raised : σ → Bool) (server : Server) (plain : LoadM (StateM σ) α)
    (recorded : LoadM (StateM (σ × List Asked)) α) : Prop :=
  ∀ table world, Shows (plain.run.run table) (recorded.run.run table) world
    fun ending asked world' => Loads raised server world ending.1 asked world'

namespace Careful

theorem of_pure {a : α} : Careful raised server (pure a) (pure a) :=
  fun _ _ => Shows.of_pure (.of_nil nofun)

theorem of_throw {error : AnnotationError} :
    Careful raised server (throw (.unreadable error) : LoadM (StateM σ) α) (throw (.unreadable error)) :=
  fun _ _ => Shows.of_pure (.of_nil nofun)

theorem of_get : Careful raised server get get :=
  fun _ _ => Shows.of_pure (.of_nil nofun)

theorem of_modify {f : ProjectTable → ProjectTable} :
    Careful raised server (modify f) (modify f) :=
  fun _ _ => Shows.of_pure (.of_nil nofun)

/-- Carefulness is kept along a sequence of steps: what comes after a problem is not asked. -/
theorem bind {step : LoadM (StateM σ) α} {step' : LoadM (StateM (σ × List Asked)) α}
    {next : α → LoadM (StateM σ) β} {next' : α → LoadM (StateM (σ × List Asked)) β}
    (hstep : Careful raised server step step')
    (hnext : ∀ a, Careful raised server (next a) (next' a)) :
    Careful raised server (step >>= next) (step' >>= next') := by
  intro table world
  refine Shows.step_bind ((hstep table world).imp fun ending asked middle hloads => ?_)
  obtain ⟨result, table'⟩ := ending
  cases result with
  | ok a => exact (hnext a table' middle).imp fun _ _ _ hrest => hloads.append hrest
  | error problem =>
    refine Shows.of_pure ?_
    rw [List.append_nil]
    exact hloads.of_error

/-- The condition does not depend on the record, so both runs take the same branch. -/
theorem ite {p : Prop} [Decidable p] {yes no : LoadM (StateM σ) α}
    {yes' no' : LoadM (StateM (σ × List Asked)) α} (hyes : Careful raised server yes yes')
    (hno : Careful raised server no no') :
    Careful raised server (if p then yes else no) (if p then yes' else no') := by
  split
  · exact hyes
  · exact hno

/-- A query that fails is the last one of its step. -/
theorem query_bind {queries : Queries (StateM σ)} (hkept : queries.KeepRaised raised)
    {kind : AnnotationKind} {project : ServerPath} {next : List Annotation → LoadM (StateM σ) α}
    {next' : List Annotation → LoadM (StateM (σ × List Asked)) α}
    (hnext : ∀ annotations, Careful raised server (next annotations) (next' annotations)) :
    Careful raised server
      (do match ← queries.annotations server kind project with
        | .error error => throw (.remote error)
        | .ok annotations => next annotations)
      (do match ← (queries.recorded raised).annotations server kind project with
        | .error error => throw (.remote error)
        | .ok annotations => next' annotations) := by
  intro table world
  refine Shows.load_bind (Shows.of_ask fun answer middle hanswer => ?_)
  have hflag : raised world = true → raised middle = true := fun hworld => by
    have hafter := hkept.annotations server kind project world hworld
    rwa [hanswer] at hafter
  cases answer with
  | error error =>
    refine Shows.of_pure (.of_query hflag fun other => ?_)
    simp
  | ok annotations =>
    have hquery : Loads raised server world (.ok ())
        [⟨server, .annotations kind project (.ok annotations), raised middle⟩] middle :=
      .of_query hflag fun _ => by simp
    exact (hnext annotations table middle).imp fun _ _ _ hrest => hquery.append hrest

end Careful

variable {queries : Queries (StateM σ)} {defaults : Compatibility}

/-- The projects are asked in order, and the induction over them stops with the first query that
    fails. -/
theorem careful_annotationValues (hkept : queries.KeepRaised raised) (kind : AnnotationKind)
    (projects : List ServerPath) :
    Careful raised server (annotationValues queries server kind projects)
      (annotationValues (queries.recorded raised) server kind projects) := by
  induction projects with
  | nil => exact .of_pure
  | cons project projects ih =>
    exact .query_bind hkept fun annotations => .bind ih fun rest => .of_pure

theorem careful_read (result : Except AnnotationError α) :
    Careful raised server (orUnreadable result) (orUnreadable result) := by
  cases result with
  | ok a => exact .of_pure
  | error error => exact .of_throw

/-- Overrides are applied without a query. -/
theorem careful_applyOverrides (found : Bool × Bool) (values : List (ServerPath × String)) :
    Careful raised server (applyOverrides found values) (applyOverrides found values) := by
  induction values generalizing found with
  | nil => exact .of_pure
  | cons entry values ih =>
    refine .bind .of_get fun table => ?_
    split
    · exact ih found
    · exact .bind (careful_read _) fun flags => .bind .of_modify fun _ => ih _

/-- Descriptors are added without a query. -/
theorem careful_addDescriptors (honours : Compatibility → Bool)
    (read : String → Except AnnotationError (List PolicyDescriptor))
    (values : List (ServerPath × String)) :
    Careful raised server (addDescriptors honours read values)
      (addDescriptors honours read values) := by
  induction values with
  | nil => exact .of_pure
  | cons entry values ih =>
    refine .bind .of_get fun table => ?_
    dsimp only
    split
    · exact ih
    · split
      · exact .bind (careful_read _) fun descriptors => .bind .of_modify fun _ => ih
      · exact ih

/-- A kind that nobody honours is not asked for; any other one is asked for with care. -/
theorem careful_addKind (hkept : queries.KeepRaised raised) (projects : List ServerPath)
    (kind : AnnotationKind) (honoured : Bool) :
    Careful raised server (addKind queries server projects kind honoured)
      (addKind (queries.recorded raised) server projects kind honoured) :=
  .ite (.bind (careful_annotationValues hkept kind projects) fun values =>
    careful_addDescriptors _ _ values) .of_pure

/-- The kinds are loaded one behind the other, so the whole of the loading is careful. -/
theorem careful_loadPolicies (hkept : queries.KeepRaised raised) (projects : List ServerPath) :
    Careful raised server (loadPolicies queries server projects defaults)
      (loadPolicies (queries.recorded raised) server projects defaults) := by
  rw [loadPolicies_eq_addKind, loadPolicies_eq_addKind]
  refine .bind (careful_annotationValues hkept .overrides projects) fun overrides => ?_
  refine .bind (careful_applyOverrides _ overrides) fun honoured => ?_
  exact .bind (careful_addKind hkept _ _ _) fun _ => careful_addKind hkept _ _ _

end Reconcile.Discovery
