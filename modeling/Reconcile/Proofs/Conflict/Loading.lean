import Reconcile.Proofs.Conflict.Record

namespace Reconcile

/-- A call that only finds something out for the contents to merge. -/
def Event.IsLoading : Event → Prop
  | .cancelled _ | .download .. | .read .. => True
  | _ => False

/-- A request to the server to settle a conflict. -/
def Event.IsReport : Event → Prop
  | .resolve .. => True
  | _ => False

theorem Event.IsLoading.not_isReport {event : Event} (hload : event.IsLoading) :
    ¬ event.IsReport := by
  cases event <;> simp_all [Event.IsLoading, Event.IsReport]

namespace ResolveM

variable {σ α β : Type} {outside : Collaborators (StateM σ)} {before after : Session × σ}
  {events : List Event}

/-- Looking at the flag is recorded, and a raised flag is an error. -/
theorem runs_checkCancelled {result : Except ResolveError Unit}
    (hrun : Runs (checkCancelled outside.recorded) before events result after) :
    ∃ world, after = (before.1, world) ∧
      (outside.cancellation.isCancelled.run before.2 = (true, world) ∧
          events = [.cancelled true] ∧ result = .error .cancelled ∨
        outside.cancellation.isCancelled.run before.2 = (false, world) ∧
          events = [.cancelled false] ∧ result = .ok ()) := by
  obtain ⟨raised, world, rest, hflag, rfl, hraised⟩ := runs_call_bind hrun
  cases raised with
  | true =>
    obtain ⟨rfl, rfl, rfl⟩ := runs_throw_iff.mp hraised
    exact ⟨world, rfl, Or.inl ⟨hflag, rfl, rfl⟩⟩
  | false =>
    obtain ⟨rfl, rfl, rfl⟩ := runs_pure_iff.mp hraised
    exact ⟨world, rfl, Or.inr ⟨hflag, rfl, rfl⟩⟩

/-- A conflict that is not registered has no owner; asking for it calls nobody. -/
theorem runs_owner {conflict : Conflict} {result : Except ResolveError Workspace}
    (hrun : Runs (owner conflict) before events result after) :
    events = [] ∧ after = before ∧
      (before.1.registry.workspaceOf? conflict.id = none ∧
          result = .error (.unknownConflict conflict.id) ∨
        ∃ workspace, before.1.registry.workspaceOf? conflict.id = some workspace ∧
          result = .ok workspace) := by
  unfold owner at hrun
  rw [runs_get_bind_iff] at hrun
  cases hworkspace : before.1.registry.workspaceOf? conflict.id with
  | none =>
    rw [hworkspace] at hrun
    obtain ⟨rfl, rfl, rfl⟩ := runs_throw_iff.mp hrun
    exact ⟨rfl, rfl, Or.inl ⟨rfl, rfl⟩⟩
  | some workspace =>
    rw [hworkspace] at hrun
    obtain ⟨rfl, rfl, rfl⟩ := runs_pure_iff.mp hrun
    exact ⟨rfl, rfl, Or.inr ⟨workspace, rfl, rfl⟩⟩

/-- Whatever needs the owner of a conflict fails at once for an unregistered conflict. -/
theorem runs_owner_bind {conflict : Conflict} {next : Workspace → ResolveM (Recorder σ) α}
    {result : Except ResolveError α}
    (hrun : Runs (owner conflict >>= next) before events result after) :
    (before.1.registry.workspaceOf? conflict.id = none ∧ events = [] ∧
        result = .error (.unknownConflict conflict.id) ∧ after = before) ∨
      ∃ workspace, before.1.registry.workspaceOf? conflict.id = some workspace ∧
        Runs (next workspace) before events result after := by
  obtain ⟨error, howner, rfl⟩ | ⟨workspace, middle, first, second, howner, hnext, rfl⟩ :=
    runs_bind_iff.mp hrun
  · obtain ⟨rfl, rfl, ⟨hnone, herror⟩ | ⟨workspace, -, hresult⟩⟩ := runs_owner howner
    · cases herror
      exact Or.inl ⟨hnone, rfl, rfl, rfl⟩
    · cases hresult
  · obtain ⟨rfl, rfl, ⟨-, herror⟩ | ⟨found, hsome, hresult⟩⟩ := runs_owner howner
    · cases herror
    · cases hresult
      exact Or.inr ⟨workspace, hsome, hnext⟩

/-- `step` leaves the session alone and makes none but `allowed` calls. -/
def Asks (allowed : Event → Prop) (step : ResolveM (Recorder σ) α) : Prop :=
  ∀ before events result after, Runs step before events result after →
    after.1 = before.1 ∧ ∀ event ∈ events, allowed event

section Asks

variable {allowed : Event → Prop}

theorem asks_pure (a : α) : Asks allowed (pure a : ResolveM (Recorder σ) α) := by
  intro before events result after hrun
  obtain ⟨rfl, -, rfl⟩ := runs_pure_iff.mp hrun
  simp

theorem asks_throw (error : ResolveError) :
    Asks allowed (throw error : ResolveM (Recorder σ) α) := by
  intro before events result after hrun
  obtain ⟨rfl, -, rfl⟩ := runs_throw_iff.mp hrun
  simp

/-- What a sequence of steps asks is asked by one of its steps. -/
theorem Asks.bind {step : ResolveM (Recorder σ) α} {next : α → ResolveM (Recorder σ) β}
    (hstep : Asks allowed step) (hnext : ∀ a, Asks allowed (next a)) :
    Asks allowed (step >>= next) := by
  intro before events result after hrun
  rw [runs_bind_iff] at hrun
  obtain ⟨error, hfailed, -⟩ | ⟨a, middle, first, second, hfirst, hsecond, rfl⟩ := hrun
  · exact hstep _ _ _ _ hfailed
  · obtain ⟨hmiddle, hallowed⟩ := hstep _ _ _ _ hfirst
    obtain ⟨hafter, hmore⟩ := hnext a _ _ _ _ hsecond
    refine ⟨hafter.trans hmiddle, fun event hevent => ?_⟩
    rcases List.mem_append.mp hevent with hevent | hevent
    · exact hallowed event hevent
    · exact hmore event hevent

theorem asks_call {action : StateM σ α} {event : α → Event} (hallowed : ∀ a, allowed (event a)) :
    Asks allowed (call (.ask action event)) := by
  intro before events result after hrun
  obtain ⟨answer, world, -, rfl, -, rfl⟩ := runs_call hrun
  exact ⟨rfl, by simpa using hallowed answer⟩

/-- A call that can fail asks the same whether it fails or not. -/
theorem asks_attempt {ε : Type} {action : StateM σ (Except ε α)} {event : Except ε α → Event}
    {toError : ε → ResolveError} (hallowed : ∀ answer, allowed (event answer)) :
    Asks allowed (attempt toError (.ask action event)) := by
  intro before events result after hrun
  obtain ⟨answer, world, -, rfl, -, rfl⟩ := runs_attempt hrun
  exact ⟨rfl, by simpa using hallowed answer⟩

end Asks

theorem asks_checkCancelled : Asks Event.IsLoading (checkCancelled outside.recorded) := by
  intro before events result after hrun
  obtain ⟨world, rfl, ⟨-, rfl, -⟩ | ⟨-, rfl, -⟩⟩ := runs_checkCancelled hrun <;>
    simp [Event.IsLoading]

theorem asks_download {workspace : Workspace} {path : LocalPath} {version itemId : Int} :
    Asks Event.IsLoading (download outside.recorded workspace path version itemId) := by
  refine asks_checkCancelled.bind fun _ => ?_
  refine Asks.bind (asks_attempt fun _ => trivial) fun _ => ?_
  exact asks_pure _

theorem asks_localContent {path : LocalPath} :
    Asks Event.IsLoading (localContent outside.recorded path) := by
  refine Asks.bind (asks_call fun _ => trivial) fun answer => ?_
  split
  · exact asks_pure _
  · exact asks_pure _
  · exact asks_throw _

/-- Loading what is yours and what is theirs asks for contents only. -/
theorem asks_bothSides {workspace : Workspace} {conflict : Conflict} {path : LocalPath} :
    Asks Event.IsLoading (bothSides outside.recorded workspace conflict path) := by
  unfold bothSides
  split
  · refine asks_download.bind fun yours => ?_
    exact asks_download.bind fun theirs => asks_pure _
  · refine asks_localContent.bind fun yours => ?_
    exact asks_download.bind fun theirs => asks_pure _

/-- Loading the contents to merge changes nothing, however it ends. -/
theorem asks_contents {workspace : Workspace} {conflict : Conflict} {path : LocalPath} :
    Asks Event.IsLoading (contents outside.recorded workspace conflict path) := by
  unfold contents
  split
  · refine asks_bothSides.bind fun sides => ?_
    refine asks_download.bind fun base => ?_
    exact asks_checkCancelled.bind fun _ => asks_pure _
  · exact asks_pure _

end ResolveM

end Reconcile
