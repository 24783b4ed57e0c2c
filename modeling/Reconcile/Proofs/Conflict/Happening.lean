import Reconcile.Proofs.Conflict.Forms
import Reconcile.Proofs.Conflict.Replay

namespace Reconcile

variable {σ α : Type}

/-- A call leads from a world to a world, with the answer that is recorded. -/
def Event.Happens (outside : Collaborators (StateM σ)) (world : σ) (event : Event) (world' : σ) :
    Prop :=
  match event with
  | .cancelled answer => outside.cancellation.isCancelled.run world = (answer, world')
  | .download workspace version itemId answer =>
    (outside.download workspace version itemId).run world = (answer, world')
  | .resolve workspace request answer =>
    (outside.resolve workspace request).run world = (answer, world')
  | .apply workspace operations mode ledger answer =>
    (outside.apply workspace operations mode ledger).run world = (answer, world')
  | .mergeName workspace conflict answer =>
    (outside.mergeName workspace conflict).run world = (answer, world')
  | .mergeContent conflict contents file name answer =>
    (outside.mergeContent conflict contents file name).run world = (answer, world')
  | .isPresent path answer => (outside.files.isPresent path).run world = (answer, world')
  | .isFile path answer => (outside.files.isFile path).run world = (answer, world')
  | .read path answer => (outside.files.read path).run world = (answer, world')
  | .write path content answer => (outside.files.write path content).run world = (answer, world')
  | .makeWritable path answer => (outside.files.makeWritable path).run world = (answer, world')
  | .createFolders path answer => (outside.files.createFolders path).run world = (answer, world')

/-- A call that happened can be made again from the same world. -/
theorem Event.Happens.replay_eq {outside : Collaborators (StateM σ)} {world world' : σ}
    {event : Event} (hhappens : event.Happens outside world world') :
    Event.replay outside world event = world' := by
  cases event <;> exact congrArg Prod.snd hhappens

/-- No call of a kind changes what `view` shows of the world. -/
def Collaborators.Leaves {β : Type} (outside : Collaborators (StateM σ)) (kind : Event → Prop)
    (view : σ → β) : Prop :=
  ∀ event world world', kind event → event.Happens outside world world' → view world' = view world

/-- Calls that were made one after the other lead from a world to a world. -/
inductive Happening (outside : Collaborators (StateM σ)) : σ → List Event → σ → Prop
  | nil (world : σ) : Happening outside world [] world
  | cons {world middle world' : σ} {event : Event} {events : List Event}
      (hevent : event.Happens outside world middle)
      (hevents : Happening outside middle events world') :
      Happening outside world (event :: events) world'

namespace Happening

variable {outside : Collaborators (StateM σ)} {world world' : σ} {event : Event}
  {first rest events : List Event}

/-- Records follow each other as the runs do. -/
theorem append {middle : σ} (hfirst : Happening outside world first middle)
    (hrest : Happening outside middle rest world') :
    Happening outside world (first ++ rest) world' := by
  induction hfirst with
  | nil => exact hrest
  | cons hevent _ ih => exact .cons hevent (ih hrest)

/-- Where calls are split there is a world between them. -/
theorem split (hevents : Happening outside world (first ++ rest) world') :
    ∃ middle, Happening outside world first middle ∧ Happening outside middle rest world' := by
  induction first generalizing world with
  | nil => exact ⟨world, .nil world, hevents⟩
  | cons event first ih =>
    cases hevents with
    | cons hevent hevents =>
      obtain ⟨middle, hfirst, hrest⟩ := ih hevents
      exact ⟨middle, .cons hevent hfirst, hrest⟩

/-- Every call in a record was made in some world. -/
theorem exists_happens_of_mem (hevents : Happening outside world events world')
    (hmem : event ∈ events) : ∃ start finish, event.Happens outside start finish := by
  obtain ⟨first, rest, rfl⟩ := List.append_of_mem hmem
  obtain ⟨start, -, hrest⟩ := hevents.split
  cases hrest with
  | @cons _ finish _ _ _ hevent _ => exact ⟨start, finish, hevent⟩

theorem worldAfter_eq (hevents : Happening outside world events world') :
    worldAfter outside world events = world' := by
  induction hevents with
  | nil => rfl
  | cons hevent _ ih => rwa [worldAfter, List.foldl_cons, hevent.replay_eq]

/-- What none of the calls changes is the same after them. -/
theorem view_eq {β : Type} {kind : Event → Prop} {view : σ → β}
    (hevents : Happening outside world events world') (hleaves : outside.Leaves kind view)
    (hkind : ∀ event ∈ events, kind event) : view world' = view world := by
  induction hevents with
  | nil => rfl
  | cons hevent _ ih =>
    obtain ⟨hhead, htail⟩ := List.forall_mem_cons.mp hkind
    exact (ih htail).trans (hleaves _ _ _ hhead hevent)

end Happening

namespace ResolveM

/-- Whatever a step records has happened. -/
def Truthful (outside : Collaborators (StateM σ)) (step : ResolveM (Recorder σ) α) : Prop :=
  ∀ before events result after, Runs step before events result after →
    Happening outside before.2 events after.2

/-- A call that is recorded with its answer has happened. -/
theorem truthful_call {outside : Collaborators (StateM σ)} {action : StateM σ α}
    {event : α → Event}
    (hevent : ∀ answer world world', action.run world = (answer, world') →
      (event answer).Happens outside world world') :
    Truthful outside (call (.ask action event)) := by
  intro before events result after hrun
  obtain ⟨answer, world, haction, rfl, -, rfl⟩ := runs_call hrun
  exact .cons (hevent answer before.2 world haction) (.nil world)

/-- Truth of the record is kept by everything a resolution is made of. -/
theorem truthful_forms (outside : Collaborators (StateM σ)) :
    Congruence outside outside.recorded fun _ step => Truthful outside step where
  of_pure _ := by
    intro before events result after hrun
    obtain ⟨rfl, -, rfl⟩ := runs_pure_iff.mp hrun
    exact .nil _
  of_throw _ := by
    intro before events result after hrun
    obtain ⟨rfl, -, rfl⟩ := runs_throw_iff.mp hrun
    exact .nil _
  of_get := by
    intro before events result after hrun
    obtain ⟨rfl, -, rfl⟩ := runs_get_iff.mp hrun
    exact .nil _
  of_modify _ := by
    intro before events result after hrun
    obtain ⟨rfl, -, rfl⟩ := runs_modify_iff.mp hrun
    exact .nil _
  bind hstep hnext := by
    intro before events result after hrun
    obtain ⟨error, hfailed, -⟩ | ⟨a, middle, first, second, hfirst, hsecond, rfl⟩ :=
      runs_bind_iff.mp hrun
    · exact hstep _ _ _ _ hfailed
    · exact (hstep _ _ _ _ hfirst).append (hnext a _ _ _ _ hsecond)
  isCancelled := truthful_call fun _ _ _ => id
  download _ _ _ := truthful_call fun _ _ _ => id
  resolve _ _ := truthful_call fun _ _ _ => id
  apply _ _ _ _ := truthful_call fun _ _ _ => id
  mergeName _ _ := truthful_call fun _ _ _ => id
  mergeContent _ _ _ _ := truthful_call fun _ _ _ => id
  isFile _ := truthful_call fun _ _ _ => id
  read _ := truthful_call fun _ _ _ => id
  makeWritable _ := truthful_call fun _ _ _ => id

/-- The record of an action tells what has happened. -/
theorem happening_of_runs {outside : Collaborators (StateM σ)} (action : ConflictAction)
    {conflict : Conflict} {before after : Session × σ} {events : List Event}
    {result : Except ResolveError Outcome}
    (hrun : Runs (action.run outside.recorded conflict) before events result after) :
    Happening outside before.2 events after.2 :=
  (truthful_forms outside).run action conflict _ _ _ _ hrun

end ResolveM

end Reconcile
