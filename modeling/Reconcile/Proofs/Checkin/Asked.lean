import Reconcile.Checkin.Discovery
import Reconcile.Proofs.Outcome

namespace Reconcile

/-- A query with the answer that it got. -/
inductive Query where
  | notes (projects : List ServerPath) (answer : Except RemoteError (List NoteDefinition))
  | annotations (kind : AnnotationKind) (project : ServerPath)
      (answer : Except RemoteError (List Annotation))

def Query.failure? : Query → Option RemoteError
  | notes _ (.error error) | annotations _ _ (.error error) => some error
  | _ => none

/-- How a discovery ends after a query that leaves the flag raised. Only note fields are looked at before
the flag. -/
def Query.ending : Query → CheckinError
  | .notes _ (.error error) => .ofRemote error
  | _ => .cancelled

/-- A query that was cancelled ends the discovery as cancelled, whatever it asked for. -/
theorem Query.ending_of_failure? {query : Query} (hquery : query.failure? = some .cancelled) :
    query.ending = .cancelled := by
  obtain ⟨_, error | _⟩ | ⟨_, _, error | _⟩ := query <;> cases hquery <;> rfl

/-- A query made to a server. -/
structure Asked where
  server : Server
  query : Query
  /-- Whether the flag is raised once the answer is there. -/
  raised : Bool

/-- A query after which a discovery does not go on. -/
def Asked.Stops (asked : Asked) : Prop :=
  asked.raised = true ∨ asked.query.failure? = some .cancelled ∨
    ∃ projects error, asked.query = .notes projects (.error error)

namespace Queries

variable {σ α : Type}

/-- No query takes the flag down again. -/
structure KeepRaised (queries : Queries (StateM σ)) (raised : σ → Bool) : Prop where
  noteDefinitions : ∀ server projects world, raised world = true →
    raised ((queries.noteDefinitions server projects).run world).2 = true
  annotations : ∀ server kind project world, raised world = true →
    raised ((queries.annotations server kind project).run world).2 = true

/-- A single query, put on the record. -/
def ask (raised : σ → Bool) (server : Server) (action : StateM σ α) (query : α → Query) :
    StateM (σ × List Asked) α := fun (world, asked) =>
  let (answer, world) := action.run world
  (answer, world, asked ++ [⟨server, query answer, raised world⟩])

/-- The same queries with a record of them. -/
def recorded (queries : Queries (StateM σ)) (raised : σ → Bool) :
    Queries (StateM (σ × List Asked)) where
  noteDefinitions server projects :=
    ask raised server (queries.noteDefinitions server projects) (.notes projects)
  annotations server kind project :=
    ask raised server (queries.annotations server kind project) (.annotations kind project)

end Queries

namespace Discovery

variable {σ ε α β : Type} {raised : σ → Bool} {world : σ}

/-- From `world`, an action gives the same answer and world with a record as without, and `post` holds of
the answer, of the queries that were put on the record, and of the world left. -/
def Shows (plain : StateM σ α) (recorded : StateM (σ × List Asked) α) (world : σ)
    (post : α → List Asked → σ → Prop) : Prop :=
  ∀ asked, ∃ answer more world', plain.run world = (answer, world') ∧
    recorded.run (world, asked) = (answer, world', asked ++ more) ∧ post answer more world'

namespace Shows

/-- What a run shows may be weakened. -/
theorem imp {plain : StateM σ α} {recorded : StateM (σ × List Asked) α}
    {post post' : α → List Asked → σ → Prop} (hshows : Shows plain recorded world post)
    (hpost : ∀ answer more world', post answer more world' → post' answer more world') :
    Shows plain recorded world post' := by
  intro asked
  obtain ⟨answer, more, world', hplain, hrecorded, hanswer⟩ := hshows asked
  exact ⟨answer, more, world', hplain, hrecorded, hpost answer more world' hanswer⟩

theorem of_pure {a : α} {post : α → List Asked → σ → Prop} (hpost : post a [] world) :
    Shows (pure a) (pure a) world post := by
  intro asked
  exact ⟨a, [], world, rfl, by rw [List.append_nil]; rfl, hpost⟩

/-- Looking at the flag asks nothing. -/
theorem of_reading {post : Bool → List Asked → σ → Prop} (hpost : post (raised world) [] world) :
    Shows (Cancellation.reading raised).isCancelled
      (Cancellation.reading fun state : σ × List Asked => raised state.1).isCancelled world post := by
  intro asked
  exact ⟨raised world, [], world, rfl, by rw [List.append_nil]; rfl, hpost⟩

/-- A query is recorded with its answer and with the state of the flag that it leaves. -/
theorem of_ask {action : StateM σ α} {server : Server} {query : α → Query}
    {post : α → List Asked → σ → Prop}
    (hpost : ∀ answer world', action.run world = (answer, world') →
      post answer [⟨server, query answer, raised world'⟩] world') :
    Shows action (Queries.ask raised server action query) world post :=
  fun _ => ⟨_, _, _, rfl, rfl, hpost _ _ rfl⟩

/-- What is asked first stands first in the record. -/
theorem bind {step : StateM σ α} {step' : StateM (σ × List Asked) α} {next : α → StateM σ β}
    {next' : α → StateM (σ × List Asked) β} {post : β → List Asked → σ → Prop}
    (hstep : Shows step step' world fun a more middle =>
      Shows (next a) (next' a) middle fun b rest world' => post b (more ++ rest) world') :
    Shows (step >>= next) (step' >>= next') world post := by
  intro asked
  obtain ⟨a, more, middle, hplain, hrecorded, hnext⟩ := hstep asked
  obtain ⟨b, rest, world', hplain', hrecorded', hpost⟩ := hnext (asked ++ more)
  refine ⟨b, more ++ rest, world', ?_, ?_, hpost⟩
  · change (let ending := step.run world; (next ending.1).run ending.2) = _
    rw [hplain]
    exact hplain'
  · change (let ending := step'.run (world, asked); (next' ending.1).run ending.2) = _
    rw [hrecorded, ← List.append_assoc]
    exact hrecorded'

/-- After an error nothing follows. -/
theorem except_bind {step : ExceptT ε (StateM σ) α} {step' : ExceptT ε (StateM (σ × List Asked)) α}
    {next : α → ExceptT ε (StateM σ) β} {next' : α → ExceptT ε (StateM (σ × List Asked)) β}
    {post : Except ε β → List Asked → σ → Prop}
    (hstep : Shows step.run step'.run world fun result more middle => match result with
      | .error error => post (.error error) more middle
      | .ok a => Shows (next a).run (next' a).run middle fun b rest world' =>
          post b (more ++ rest) world') :
    Shows (step >>= next).run (step' >>= next').run world post := by
  change Shows (step.run >>= ExceptT.bindCont next) (step'.run >>= ExceptT.bindCont next') world post
  refine bind (hstep.imp fun result more middle hresult => ?_)
  cases result with
  | error error => exact of_pure (by rwa [List.append_nil])
  | ok a => exact hresult

/-- An action of the outside is followed by the rest, whose queries come behind its own. -/
theorem lift_bind {action : StateM σ α} {action' : StateM (σ × List Asked) α}
    {next : α → ExceptT ε (StateM σ) β} {next' : α → ExceptT ε (StateM (σ × List Asked)) β}
    {post : Except ε β → List Asked → σ → Prop}
    (haction : Shows action action' world fun a more middle =>
      Shows (next a).run (next' a).run middle fun b rest world' => post b (more ++ rest) world') :
    Shows (liftM action >>= next : ExceptT ε (StateM σ) β).run
      (liftM action' >>= next' : ExceptT ε (StateM (σ × List Asked)) β).run world post := by
  refine except_bind (bind (haction.imp fun a more middle hnext => of_pure ?_))
  rwa [List.append_nil]

/-- A step of loading is followed by the rest, unless it ended with a problem. -/
theorem step_bind {table : ProjectTable} {step : LoadM (StateM σ) α}
    {step' : LoadM (StateM (σ × List Asked)) α} {next : α → LoadM (StateM σ) β}
    {next' : α → LoadM (StateM (σ × List Asked)) β}
    {post : Except LoadProblem β × ProjectTable → List Asked → σ → Prop}
    (hstep : Shows (step.run.run table) (step'.run.run table) world fun ending more middle =>
      Shows ((ExceptT.bindCont next ending.1).run ending.2) ((ExceptT.bindCont next' ending.1).run ending.2)
        middle fun b rest world' => post b (more ++ rest) world') :
    Shows ((step >>= next).run.run table) ((step' >>= next').run.run table) world post :=
  bind hstep

/-- A call within loading leaves the table alone. -/
theorem load_bind {table : ProjectTable} {action : StateM σ α}
    {action' : StateM (σ × List Asked) α} {next : α → LoadM (StateM σ) β}
    {next' : α → LoadM (StateM (σ × List Asked)) β}
    {post : Except LoadProblem β × ProjectTable → List Asked → σ → Prop}
    (haction : Shows action action' world fun a more middle =>
      Shows ((next a).run.run table) ((next' a).run.run table) middle fun b rest world' =>
        post b (more ++ rest) world') :
    Shows ((liftM action >>= next : LoadM (StateM σ) β).run.run table)
      ((liftM action' >>= next' : LoadM (StateM (σ × List Asked)) β).run.run table) world post :=
  bind haction

/-- A raised flag ends the run with nothing asked; a lowered one lets it go on. -/
theorem check_bind {error : ε} {next : Unit → ExceptT ε (StateM σ) β}
    {next' : Unit → ExceptT ε (StateM (σ × List Asked)) β}
    {post : Except ε β → List Asked → σ → Prop}
    (hraised : raised world = true → post (.error error) [] world)
    (hlowered : raised world = false → Shows (next ()).run (next' ()).run world post) :
    Shows ((Cancellation.reading raised).check error >>= next).run
      ((Cancellation.reading fun state : σ × List Asked => raised state.1).check error >>=
        next').run world post := by
  refine except_bind (lift_bind (of_reading ?_))
  cases hflag : raised world with
  | true => exact of_pure (hraised hflag)
  | false => exact of_pure (hlowered hflag)

end Shows

end Discovery

end Reconcile
