import Reconcile.Proofs.Conflict.Actions

namespace Reconcile

namespace ConflictRegistry

theorem entry?_remove_self (registry : ConflictRegistry) (id : Int) :
    ConflictRegistry.entry? (registry.remove id) id = none := by
  simp [remove, entry?, List.find?_eq_none]

/-- Taking a number out leaves every other one. -/
theorem entry?_remove_of_ne (registry : ConflictRegistry) {id other : Int} (hne : other ≠ id) :
    ConflictRegistry.entry? (registry.remove id) other = registry.entry? other := by
  unfold entry? remove
  rw [List.find?_filter]
  congr 1
  funext entry
  by_cases hid : entry.conflict.id = other <;> simp [hid, hne]

/-- Only a registered conflict has a workspace. -/
theorem contains_of_workspaceOf? {registry : ConflictRegistry} {id : Int} {workspace : Workspace}
    (howner : registry.workspaceOf? id = some workspace) : registry.contains id = true := by
  obtain ⟨entry, hentry, -⟩ := Option.map_eq_some_iff.mp howner
  simp [contains, hentry]

/-- A number that is gone stays gone. -/
theorem contains_remove_eq_false {registry : ConflictRegistry} {other : Int} (id : Int)
    (hgone : registry.contains other = false) : (registry.remove id).contains other = false := by
  by_cases hid : other = id
  · subst other
    simp [contains, entry?_remove_self]
  · simpa [contains, entry?_remove_of_ne registry hid] using hgone

theorem remove_ne_of_contains {registry : ConflictRegistry} {id : Int}
    (hcontains : registry.contains id = true) : registry.remove id ≠ registry := by
  intro heq
  have hnone := registry.entry?_remove_self id
  rw [heq] at hnone
  simp [contains, hnone] at hcontains

end ConflictRegistry

namespace ResolveM

variable {σ : Type} {outside : Collaborators (StateM σ)} {before after : Session × σ}
  {events : List Event}

/-- What an action does to the registry: it takes out the conflict when it ends in a resolution, and
nothing otherwise. -/
def SettlesOnly (conflict : Conflict) (start : ConflictRegistry)
    (result : Except ResolveError Outcome) (finish : ConflictRegistry) : Prop :=
  result = .ok .resolved ∧ start.contains conflict.id = true ∧ finish = start.remove conflict.id ∨
    result ≠ .ok .resolved ∧ finish = start

/-- A merge takes its own conflict out of the registry if it resolves it, and does nothing else to
    it. -/
theorem MergeRun.settlesOnly {conflict : Conflict} {result : Except ResolveError Outcome}
    {finish : Session} (hmerge : MergeRun outside conflict before events result finish) :
    SettlesOnly conflict before.1.registry result finish.registry := by
  cases hmerge with
  | reported ending hstart _ _ hreport =>
    have hregistry := hreport.registry_eq
    cases ending with
    | ok _ =>
      exact Or.inl ⟨rfl, ConflictRegistry.contains_of_workspaceOf? hstart.owner, hregistry⟩
    | error error => exact Or.inr ⟨by simp [Except.map], hregistry⟩
  | _ => exact Or.inr ⟨by simp, rfl⟩

/-- A submission takes its own conflict out of the registry if it resolves it, and does nothing else
    to it. -/
theorem Submission.settlesOnly {conflict : Conflict} {resolution : Resolution} {path : LocalPath}
    {close : Session → Session} {result : Except ResolveError Outcome} {start finish : Session}
    (hclose : ∀ session, (close session).registry = session.registry)
    (hsubmit : Submission conflict resolution path close start events result finish) :
    SettlesOnly conflict start.registry result finish.registry := by
  cases hsubmit with
  | unknown => exact Or.inr ⟨by simp, rfl⟩
  | failed _ hreport => exact Or.inr ⟨by simp, hreport.registry_eq⟩
  | done howner hreport =>
    rw [hclose]
    exact Or.inl ⟨rfl, ConflictRegistry.contains_of_workspaceOf? howner, hreport.registry_eq⟩

/-- Every action takes out its own conflict exactly when it resolves it. -/
theorem runs_run_settlesOnly {action : ConflictAction} {conflict : Conflict}
    {result : Except ResolveError Outcome}
    (hrun : Runs (action.run outside.recorded conflict) before events result after) :
    SettlesOnly conflict before.1.registry result after.1.registry := by
  cases action with
  | acceptMerge => exact (runs_acceptMerge hrun).settlesOnly
  | acceptYours =>
    exact (runs_acceptYours hrun).settlesOnly fun session => session.noteSkipped_registry conflict
  | acceptTheirs => exact (runs_acceptTheirs hrun).settlesOnly fun _ => rfl
  | skip =>
    obtain ⟨-, rfl, hafter⟩ := runs_skip hrun
    rw [hafter, Session.noteSkipped_registry]
    exact Or.inr ⟨by simp, rfl⟩

/-- Only the server's own number of a registered conflict is ever sent to it. -/
theorem runs_run_request {action : ConflictAction} {conflict : Conflict}
    {result : Except ResolveError Outcome} {workspace : Workspace} {request : ResolveRequest}
    {answer : Except RemoteError ResolveResponse}
    (hrun : Runs (action.run outside.recorded conflict) before events result after)
    (hmem : .resolve workspace request answer ∈ events) :
    before.1.registry.contains conflict.id = true ∧ request.conflictId = conflict.id := by
  cases action with
  | acceptMerge =>
    obtain ⟨first, rest, hevents⟩ := List.append_of_mem hmem
    obtain ⟨_, _, _, _, _, _, _, hstart, -, -, rfl, -⟩ :=
      (runs_acceptMerge hrun).merged_of_report hevents
    exact ⟨ConflictRegistry.contains_of_workspaceOf? hstart.owner, rfl⟩
  | acceptYours =>
    obtain ⟨howner, rfl⟩ := (runs_acceptYours hrun).eq_requestFor hmem
    exact ⟨ConflictRegistry.contains_of_workspaceOf? howner, rfl⟩
  | acceptTheirs =>
    obtain ⟨howner, rfl⟩ := (runs_acceptTheirs hrun).eq_requestFor hmem
    exact ⟨ConflictRegistry.contains_of_workspaceOf? howner, rfl⟩
  | skip =>
    obtain ⟨rfl, -, -⟩ := runs_skip hrun
    simp at hmem

end ResolveM

/-- Something that is decided about a conflict. -/
structure Decision where
  action : ConflictAction
  conflict : Conflict
deriving DecidableEq, Repr, Inhabited

/-- A decision that was carried out. -/
structure Turn where
  decision : Decision
  before : Session
  events : List Event
  result : Except ResolveError Outcome
  after : Session

/-- Carries out decisions one after the other. The session and the world of a turn are those that the
turn before it has left. -/
def history {σ : Type} (outside : Collaborators (StateM σ)) :
    List Decision → Session → σ → List Turn
  | [], _, _ => []
  | decision :: decisions, session, world =>
    let ((result, after), events, world) :=
      (decision.action.run outside.recorded decision.conflict).run.run session world
    ⟨decision, session, events, result, after⟩ :: history outside decisions after world

section Runs

variable {σ : Type} {outside : Collaborators (StateM σ)}

/-- A run is its first turn, followed by the run from the session and the world that this turn
    leaves. -/
theorem history_cons (outside : Collaborators (StateM σ)) (decision : Decision)
    (decisions : List Decision) (session : Session) (world : σ) :
    ∃ turn world', turn.decision = decision ∧ turn.before = session ∧
      ResolveM.Runs (decision.action.run outside.recorded decision.conflict) (session, world)
        turn.events turn.result (turn.after, world') ∧
      history outside (decision :: decisions) session world =
        turn :: history outside decisions turn.after world' :=
  ⟨⟨decision, session, _, _, _⟩, _, rfl, rfl, rfl, rfl⟩

/-- Every turn of a run is a run of its action. -/
theorem exists_runs_of_mem_history (outside : Collaborators (StateM σ)) (decisions : List Decision)
    (session : Session) (world : σ) :
    ∀ turn ∈ history outside decisions session world, ∃ world world',
      ResolveM.Runs (turn.decision.action.run outside.recorded turn.decision.conflict)
        (turn.before, world) turn.events turn.result (turn.after, world') := by
  induction decisions generalizing session world with
  | nil => simp [history]
  | cons decision decisions ih =>
    obtain ⟨turn, world', rfl, rfl, hrun, hhistory⟩ :=
      history_cons outside decision decisions session world
    rw [hhistory]
    exact List.forall_mem_cons.mpr ⟨⟨world, world', hrun⟩, ih turn.after world'⟩

/-- Nothing that is not registered is registered later, and the server never hears of it. -/
theorem history_unregistered (decisions : List Decision) (session : Session) (world : σ) (id : Int)
    (hgone : session.registry.contains id = false) :
    ∀ turn ∈ history outside decisions session world, ∀ workspace request answer,
      .resolve workspace request answer ∈ turn.events → request.conflictId ≠ id := by
  induction decisions generalizing session world with
  | nil => simp [history]
  | cons decision decisions ih =>
    obtain ⟨turn, world', hdecision, hbefore, hrun, hhistory⟩ :=
      history_cons outside decision decisions session world
    rw [hhistory]
    intro later hlater workspace request answer hmem
    rcases List.mem_cons.mp hlater with rfl | hlater
    · obtain ⟨hcontains, hid⟩ := ResolveM.runs_run_request hrun hmem
      rintro rfl
      rw [hid, hcontains] at hgone
      cases hgone
    · refine ih turn.after world' ?_ later hlater workspace request answer hmem
      -- No turn adds an entry, so the id is still missing when the next one starts.
      obtain ⟨-, -, hafter⟩ | ⟨-, hafter⟩ := ResolveM.runs_run_settlesOnly hrun
      · rw [hafter]
        exact ConflictRegistry.contains_remove_eq_false _ hgone
      · rw [hafter]
        exact hgone

/-- What holds of one action holds of every turn, by induction over the decisions. -/
theorem history_settlesOnly (decisions : List Decision) (session : Session) (world : σ) :
    ∀ turn ∈ history outside decisions session world,
      ResolveM.SettlesOnly turn.decision.conflict turn.before.registry turn.result
        turn.after.registry := by
  intro turn hturn
  obtain ⟨start, finish, hrun⟩ := exists_runs_of_mem_history outside decisions session world turn hturn
  exact ResolveM.runs_run_settlesOnly hrun

/-- After a conflict is resolved, no later turn sends the server a request about it. -/
theorem history_silent_after_resolved (decisions : List Decision) (session : Session) (world : σ) :
    (history outside decisions session world).Pairwise fun earlier later =>
      earlier.result = .ok .resolved → ∀ workspace request answer,
        .resolve workspace request answer ∈ later.events →
          request.conflictId ≠ earlier.decision.conflict.id := by
  induction decisions generalizing session world with
  | nil => exact .nil
  | cons decision decisions ih =>
    obtain ⟨turn, world', rfl, rfl, hrun, hhistory⟩ :=
      history_cons outside decision decisions session world
    rw [hhistory]
    refine List.pairwise_cons.mpr ⟨fun later hlater hresolved => ?_, ih turn.after world'⟩
    obtain ⟨-, -, hafter⟩ | ⟨hresult, -⟩ := ResolveM.runs_run_settlesOnly hrun
    · refine history_unregistered decisions turn.after world' _ ?_ later hlater
      rw [hafter]
      simp [ConflictRegistry.contains, ConflictRegistry.entry?_remove_self]
    · exact absurd hresolved hresult

/-- Over any run and whatever the outside does, a turn changes the registry exactly if it resolves its
conflict; then the conflict leaves together with the workspace it came from, every other entry stays,
and no later turn of the run sends another request about it. -/
theorem registry_changes_by_resolving (outside : Collaborators (StateM σ))
    (decisions : List Decision) (session : Session) (world : σ) :
    (∀ turn ∈ history outside decisions session world,
      (turn.after.registry ≠ turn.before.registry ↔ turn.result = .ok .resolved) ∧
      (turn.result = .ok .resolved →
        turn.before.registry.contains turn.decision.conflict.id = true ∧
        turn.after.registry.entries = turn.before.registry.entries.filter
          (·.conflict.id != turn.decision.conflict.id)) ∧
      ∀ id, turn.after.registry.entry? id =
        if turn.result = .ok .resolved ∧ id = turn.decision.conflict.id then none
        else turn.before.registry.entry? id) ∧
    (history outside decisions session world).Pairwise fun earlier later =>
      earlier.result = .ok .resolved → ∀ workspace request answer,
        .resolve workspace request answer ∈ later.events →
          request.conflictId ≠ earlier.decision.conflict.id := by
  refine ⟨fun turn hturn => ?_, history_silent_after_resolved decisions session world⟩
  obtain ⟨hresult, hcontains, hafter⟩ | ⟨hresult, hafter⟩ :=
    history_settlesOnly decisions session world turn hturn
  · rw [hafter]
    refine ⟨?_, fun _ => ⟨hcontains, rfl⟩, fun id => ?_⟩
    · simpa [hresult] using ConflictRegistry.remove_ne_of_contains hcontains
    · by_cases hid : id = turn.decision.conflict.id
      · simp [hid, hresult, ConflictRegistry.entry?_remove_self]
      · simp [hid, ConflictRegistry.entry?_remove_of_ne]
  · simp [hafter, hresult]

/-- Of two decisions about one conflict only the first reaches the server. -/
theorem registry_changes_by_resolving_once :
    let workspace : Workspace := ⟨"main", "alice", .ofUri "http://server", []⟩
    let conflict : Conflict := { id := 7, sourceLocalItem := some "/w/a.txt" }
    let session : Session := { registry := .ofGroups [(workspace, [conflict, { id := 8 }])] }
    ∃ first second,
      history (.willing "" {}) [⟨.acceptTheirs, conflict⟩, ⟨.acceptYours, conflict⟩] session () =
        [first, second] ∧
      first.result = .ok .resolved ∧ first.after.registry ≠ first.before.registry ∧
      ∀ workspace request answer, .resolve workspace request answer ∈ second.events →
        request.conflictId ≠ 7 := by
  intro workspace conflict session
  obtain ⟨hexact, hsilent⟩ := registry_changes_by_resolving (.willing "" {})
    [⟨.acceptTheirs, conflict⟩, ⟨.acceptYours, conflict⟩] session ()
  refine ⟨_, _, rfl, rfl, ?_, ?_⟩
  · exact (hexact _ List.mem_cons_self).1.mpr rfl
  · exact (List.pairwise_cons.mp hsilent).1 _ List.mem_cons_self rfl

end Runs

end Reconcile
