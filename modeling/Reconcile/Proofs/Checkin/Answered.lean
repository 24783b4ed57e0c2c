import Reconcile.Checkin.Attempt
import Reconcile.Proofs.Checkin.Loading
import Reconcile.Proofs.Outcome

namespace Reconcile

/-- What servers answer to each query. -/
structure Answers where
  noteDefinitions : Server → List ServerPath → Except RemoteError (List NoteDefinition)
  annotations : Server → AnnotationKind → ServerPath → Except RemoteError (List Annotation)

/-- The queries to servers that do nothing but answer, in any monad. -/
def Answers.queries [Pure m] (answers : Answers) : Queries m where
  noteDefinitions server projects := pure (answers.noteDefinitions server projects)
  annotations server kind project := pure (answers.annotations server kind project)

variable {σ α β : Type}

/-- In every world an action gives what `plain` does, whatever becomes of the world. -/
def Gives (action : StateM σ α) (plain : Id α) : Prop :=
  ∀ world, (action.run world).1 = plain.run

/-- The servers give these answers in every world. -/
structure Queries.Give (queries : Queries (StateM σ)) (answers : Answers) : Prop where
  noteDefinitions : ∀ server projects,
    Gives (queries.noteDefinitions server projects) (answers.noteDefinitions server projects)
  annotations : ∀ server kind project,
    Gives (queries.annotations server kind project) (answers.annotations server kind project)

/-- The flag is not raised in any world. -/
def Cancellation.Never (cancellation : Cancellation (StateM σ)) : Prop :=
  Gives cancellation.isCancelled false

theorem Answers.give_queries (answers : Answers) :
    (answers.queries : Queries (StateM σ)).Give answers :=
  ⟨fun _ _ _ => rfl, fun _ _ _ _ => rfl⟩

theorem Cancellation.never_never : (Cancellation.never : Cancellation (StateM σ)).Never :=
  fun _ => rfl

namespace Gives

variable {step : StateM σ α} {plain : Id α}

theorem of_pure {a : α} : Gives (pure a : StateM σ α) (pure a) :=
  fun _ => rfl

/-- An action that gives its answer whatever the world is can be followed by another one. -/
theorem bind {next : α → StateM σ β} {next' : α → Id β} (hstep : Gives step plain)
    (hnext : ∀ a, Gives (next a) (next' a)) : Gives (step >>= next) (plain >>= next') := by
  intro world
  have hrest := hnext (step.run world).1 (step.run world).2
  rw [hstep world] at hrest
  change ((next (step.run world).1).run (step.run world).2).1 = (next' plain.run).run
  rw [hstep world, hrest]

end Gives

namespace Discovery

variable {ε : Type} {queries : Queries (StateM σ)} {answers : Answers}

/-- An operation that can fail gives what `plain` does, an error as well as a result. -/
def EndsAs (step : ExceptT ε (StateM σ) α) (plain : ExceptT ε Id α) : Prop :=
  Gives step.run plain.run

namespace EndsAs

variable {step : ExceptT ε (StateM σ) α} {plain : ExceptT ε Id α}

theorem of_pure {a : α} : EndsAs (pure a : ExceptT ε (StateM σ) α) (pure a) :=
  Gives.of_pure

theorem of_throw {error : ε} : EndsAs (throw error : ExceptT ε (StateM σ) α) (throw error) :=
  Gives.of_pure

theorem of_lift {action : StateM σ α} {answer : Id α} (hgives : Gives action answer) :
    EndsAs (liftM action : ExceptT ε (StateM σ) α) (liftM answer) :=
  Gives.bind hgives fun _ => Gives.of_pure

/-- Endings are put together from step to step, so a run ends as the plain one does. -/
theorem bind {next : α → ExceptT ε (StateM σ) β} {next' : α → ExceptT ε Id β}
    (hstep : EndsAs step plain) (hnext : ∀ a, EndsAs (next a) (next' a)) :
    EndsAs (step >>= next) (plain >>= next') := by
  change Gives (step.run >>= ExceptT.bindCont next) (plain.run >>= ExceptT.bindCont next')
  refine Gives.bind hstep fun result => ?_
  cases result with
  | ok a => exact hnext a
  | error error => exact Gives.of_pure

/-- A flag that nobody raises lets every check pass. -/
theorem check {cancellation : Cancellation (StateM σ)} (hflag : cancellation.Never) (error : ε) :
    EndsAs (cancellation.check error) (Cancellation.never.check error) := by
  refine bind (of_lift hflag) fun raised => ?_
  cases raised with
  | true => exact of_throw
  | false => exact of_pure

end EndsAs

/-- From any table, a step of loading gives what `plain` does, and leaves the same table. -/
def LoadsAs (step : LoadM (StateM σ) α) (plain : LoadM Id α) : Prop :=
  ∀ table, Gives (step.run.run table) (plain.run.run table)

namespace LoadsAs

variable {step : LoadM (StateM σ) α} {plain : LoadM Id α}

theorem of_pure {a : α} : LoadsAs (pure a : LoadM (StateM σ) α) (pure a) :=
  fun _ => Gives.of_pure

theorem of_throw {problem : LoadProblem} :
    LoadsAs (throw problem : LoadM (StateM σ) α) (throw problem) :=
  fun _ => Gives.of_pure

theorem of_get : LoadsAs (get : LoadM (StateM σ) ProjectTable) get :=
  fun _ => Gives.of_pure

theorem of_modify {f : ProjectTable → ProjectTable} :
    LoadsAs (modify f : LoadM (StateM σ) PUnit) (modify f) :=
  fun _ => Gives.of_pure

theorem of_lift {action : StateM σ α} {answer : Id α} (hgives : Gives action answer) :
    LoadsAs (liftM action : LoadM (StateM σ) α) (liftM answer) := by
  intro table world
  change ((Except.ok (action.run world).1 : Except LoadProblem α), table) = (Except.ok answer.run, table)
  rw [hgives world]

/-- Endings and tables are put together from step to step. -/
theorem bind {next : α → LoadM (StateM σ) β} {next' : α → LoadM Id β} (hstep : LoadsAs step plain)
    (hnext : ∀ a, LoadsAs (next a) (next' a)) : LoadsAs (step >>= next) (plain >>= next') := by
  intro table
  change Gives (step.run.run table >>= fun ending => (ExceptT.bindCont next ending.1).run ending.2)
    (plain.run.run table >>= fun ending => (ExceptT.bindCont next' ending.1).run ending.2)
  refine Gives.bind (hstep table) fun ending => ?_
  obtain ⟨result, table'⟩ := ending
  cases result with
  | ok a => exact hnext a table'
  | error problem => exact Gives.of_pure

/-- Both runs take the same branch, because the condition is no matter of the world. -/
theorem ite {p : Prop} [Decidable p] {yes no : LoadM (StateM σ) α} {yes' no' : LoadM Id α}
    (hyes : LoadsAs yes yes') (hno : LoadsAs no no') :
    LoadsAs (if p then yes else no) (if p then yes' else no') := by
  split
  · exact hyes
  · exact hno

end LoadsAs

/-- The induction is over the projects, which are asked one after the other. -/
theorem loadsAs_annotationValues (hgive : queries.Give answers) (server : Server)
    (kind : AnnotationKind) (projects : List ServerPath) :
    LoadsAs (annotationValues queries server kind projects)
      (annotationValues answers.queries server kind projects) := by
  induction projects with
  | nil => exact .of_pure
  | cons project projects ih =>
    refine .bind (.of_lift (hgive.annotations server kind project)) fun answer => ?_
    cases answer with
    | error error => exact .of_throw
    | ok annotations => exact .bind ih fun _ => .of_pure

theorem loadsAs_read (result : Except AnnotationError α) :
    LoadsAs (orUnreadable result : LoadM (StateM σ) α) (orUnreadable result) := by
  cases result with
  | ok a => exact .of_pure
  | error error => exact .of_throw

/-- Applying overrides asks nobody, so it ends alike in every world. -/
theorem loadsAs_applyOverrides (found : Bool × Bool) (values : List (ServerPath × String)) :
    LoadsAs (applyOverrides found values : LoadM (StateM σ) _) (applyOverrides found values) := by
  induction values generalizing found with
  | nil => exact .of_pure
  | cons entry values ih =>
    refine .bind .of_get fun table => ?_
    split
    · exact ih found
    · exact .bind (loadsAs_read _) fun flags => .bind .of_modify fun _ => ih _

/-- Adding descriptors asks nobody, so it ends alike in every world. -/
theorem loadsAs_addDescriptors (honours : Compatibility → Bool)
    (read : String → Except AnnotationError (List PolicyDescriptor))
    (values : List (ServerPath × String)) :
    LoadsAs (addDescriptors honours read values : LoadM (StateM σ) _)
      (addDescriptors honours read values) := by
  induction values with
  | nil => exact .of_pure
  | cons entry values ih =>
    refine .bind .of_get fun table => ?_
    dsimp only
    split
    · exact ih
    · split
      · exact .bind (loadsAs_read _) fun descriptors => .bind .of_modify fun _ => ih
      · exact ih

theorem loadsAs_addKind (hgive : queries.Give answers) (server : Server)
    (projects : List ServerPath) (kind : AnnotationKind) (honoured : Bool) :
    LoadsAs (addKind queries server projects kind honoured)
      (addKind answers.queries server projects kind honoured) :=
  .ite (.bind (loadsAs_annotationValues hgive server kind projects) fun values =>
    loadsAs_addDescriptors _ _ values) .of_pure

/-- Loading policies from servers that only answer comes to what the answers alone say. -/
theorem loadsAs_loadPolicies (hgive : queries.Give answers) (server : Server)
    (projects : List ServerPath) (defaults : Compatibility) :
    LoadsAs (loadPolicies queries server projects defaults)
      (loadPolicies answers.queries server projects defaults) := by
  rw [loadPolicies_eq_addKind, loadPolicies_eq_addKind]
  refine .bind (loadsAs_annotationValues hgive server .overrides projects) fun overrides => ?_
  refine .bind (loadsAs_applyOverrides _ overrides) fun honoured => ?_
  exact .bind (loadsAs_addKind hgive _ _ _ _) fun _ => loadsAs_addKind hgive _ _ _ _

variable {cancellation : Cancellation (StateM σ)}

/-- A server is discovered as from its answers alone. -/
theorem endsAs_discoverServer (hgive : queries.Give answers) (hflag : cancellation.Never)
    (defaults : Compatibility) (group : ServerFiles) :
    EndsAs (discoverServer queries cancellation defaults group)
      (discoverServer answers.queries .never defaults group) := by
  refine .bind (.of_lift (hgive.noteDefinitions _ _)) fun answer => ?_
  cases answer with
  | error error => exact .of_throw
  | ok definitions =>
    refine .bind .of_pure fun definitions => .bind (.check hflag _) fun _ => ?_
    refine .bind (.of_lift (loadsAs_loadPolicies hgive _ _ _ _)) fun ending => ?_
    obtain ⟨result, table⟩ := ending
    dsimp only
    split
    · exact .bind .of_pure fun _ => .bind (.check hflag _) fun _ => .of_pure
    · exact .of_throw
    · exact .bind .of_pure fun _ => .bind (.check hflag _) fun _ => .of_pure

theorem endsAs_discoverServers (hgive : queries.Give answers) (hflag : cancellation.Never)
    (defaults : Compatibility) (groups : List ServerFiles) :
    EndsAs (discoverServers queries cancellation defaults groups)
      (discoverServers answers.queries .never defaults groups) := by
  induction groups with
  | nil => exact .of_pure
  | cons group groups ih =>
    exact .bind (endsAs_discoverServer hgive hflag defaults group) fun _ => .bind ih fun _ => .of_pure

/-- In any world, a discovery ends as it does on the answers alone. -/
theorem endsAs_discover (hgive : queries.Give answers) (hflag : cancellation.Never)
    (workspaces : List Workspace) (files : List LocalPath) (defaults : Compatibility) :
    EndsAs (discover queries cancellation workspaces files defaults)
      (discover answers.queries .never workspaces files defaults) := by
  rw [discover, discover]
  dsimp only
  split
  · exact .of_throw
  · refine .bind (.check hflag _) fun _ => ?_
    exact .bind (endsAs_discoverServers hgive hflag defaults _) fun _ => .of_pure

/-- A check-in starts as from the answers alone. -/
theorem endsAs_startCheckin (hgive : queries.Give answers) (hflag : cancellation.Never)
    (workspaces : List Workspace) (files : List LocalPath) (defaults : Compatibility) :
    EndsAs (startCheckin queries cancellation workspaces files defaults)
      (startCheckin answers.queries .never workspaces files defaults) :=
  .bind (endsAs_discover hgive hflag workspaces files defaults) fun _ => .of_pure

end Discovery

end Reconcile
