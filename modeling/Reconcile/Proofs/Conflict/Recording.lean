import Reconcile.Proofs.Conflict.Forms
import Reconcile.Proofs.Conflict.Record

namespace Reconcile.ResolveM

variable {σ α β : Type} {outside : Collaborators (StateM σ)}

/-- `plain` does what `recorded` does, without the record. -/
def Follows (plain : ResolveM (StateM σ) α) (recorded : ResolveM (Recorder σ) α) : Prop :=
  ∀ before events result after, Runs recorded before events result after →
    plain.run.run before.1 before.2 = ((result, after.1), after.2)

namespace Follows

theorem of_pure (a : α) : Follows (pure a : ResolveM (StateM σ) α) (pure a) := by
  intro before events result after hrun
  obtain ⟨-, rfl, rfl⟩ := runs_pure_iff.mp hrun
  rfl

theorem of_throw (error : ResolveError) :
    Follows (throw error : ResolveM (StateM σ) α) (throw error) := by
  intro before events result after hrun
  obtain ⟨-, rfl, rfl⟩ := runs_throw_iff.mp hrun
  rfl

theorem of_get : Follows (get : ResolveM (StateM σ) Session) get := by
  intro before events result after hrun
  obtain ⟨-, rfl, rfl⟩ := runs_get_iff.mp hrun
  rfl

theorem of_modify (f : Session → Session) :
    Follows (modify f : ResolveM (StateM σ) PUnit) (modify f) := by
  intro before events result after hrun
  obtain ⟨-, rfl, rfl⟩ := runs_modify_iff.mp hrun
  rfl

/-- A sequence of steps that follow one another follows. -/
theorem bind {step : ResolveM (StateM σ) α} {step' : ResolveM (Recorder σ) α}
    {next : α → ResolveM (StateM σ) β} {next' : α → ResolveM (Recorder σ) β}
    (hstep : Follows step step') (hnext : ∀ a, Follows (next a) (next' a)) :
    Follows (step >>= next) (step' >>= next') := by
  intro before events result after hrun
  change (let ending := step.run.run before.1 before.2
    (ExceptT.bindCont next ending.1.1).run ending.1.2 ending.2) = _
  obtain ⟨error, hfailed, rfl⟩ | ⟨a, middle, first, second, hfirst, hsecond, -⟩ :=
    runs_bind_iff.mp hrun
  · rw [hstep _ _ _ _ hfailed]
    rfl
  · rw [hstep _ _ _ _ hfirst]
    exact hnext a _ _ _ _ hsecond

theorem of_call (action : StateM σ α) (event : α → Event) :
    Follows (call action) (call (.ask action event)) := by
  intro before events result after hrun
  obtain ⟨answer, world, haction, -, rfl, rfl⟩ := runs_call hrun
  change (let ending := action.run before.2
    ((Except.ok (ε := ResolveError) ending.1, before.1), ending.2)) = _
  rw [haction]

end Follows

/-- The record changes nothing in any of the forms that a resolution is made of. -/
theorem follows_forms (outside : Collaborators (StateM σ)) :
    Congruence outside outside.recorded Follows where
  of_pure := .of_pure
  of_throw := .of_throw
  of_get := .of_get
  of_modify := .of_modify
  bind := .bind
  isCancelled := .of_call _ _
  download _ _ _ := .of_call _ _
  resolve _ _ := .of_call _ _
  apply _ _ _ _ := .of_call _ _
  mergeName _ _ := .of_call _ _
  mergeContent _ _ _ _ := .of_call _ _
  isFile _ := .of_call _ _
  read _ := .of_call _ _
  makeWritable _ := .of_call _ _

/-- With or without the record, an action has the same result and leaves the same session and world. -/
theorem follows_run (action : ConflictAction) (conflict : Conflict) :
    Follows (action.run outside conflict) (action.run outside.recorded conflict) :=
  (follows_forms outside).run action conflict

end Reconcile.ResolveM
