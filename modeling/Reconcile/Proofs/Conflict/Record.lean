import Reconcile.Conflict.Resolver

namespace Reconcile

/-- Collaborators with whom everything goes well: the user picks `merged` for every name, and the
server answers every request with `response`. -/
def Collaborators.willing {σ : Type} (merged : ServerPath) (response : ResolveResponse) :
    Collaborators (StateM σ) where
  download _ _ _ := pure (.ok none)
  resolve _ _ := pure (.ok response)
  apply _ _ _ _ := pure {}
  mergeName _ _ := pure (.ok (some merged))
  mergeContent _ _ _ _ := pure (.ok true)
  files :=
    { isPresent := fun _ => pure true
      isFile := fun _ => pure true
      read := fun _ => pure (.ok .empty)
      write := fun _ _ => pure (.ok ())
      makeWritable := fun _ => pure (.ok ())
      createFolders := fun _ => pure (.ok ()) }
  cancellation := .never

namespace ResolveM

variable {σ α β : Type}

/-- Running `step` on a session in a world records `events`, ends in `result`, and leaves the session
and world `after`. -/
def Runs (step : ResolveM (Recorder σ) α) (before : Session × σ) (events : List Event)
    (result : Except ResolveError α) (after : Session × σ) : Prop :=
  step.run.run before.1 before.2 = ((result, after.1), events, after.2)

variable {before after : Session × σ} {events : List Event}

/-- Every step has a run from every state. -/
theorem exists_runs (step : ResolveM (Recorder σ) α) (before : Session × σ) :
    ∃ events result after, Runs step before events result after :=
  ⟨_, _, (_, _), rfl⟩

/-- A step has one run from a state: the outside settles what it asks and what comes of it. -/
theorem Runs.unique {step : ResolveM (Recorder σ) α} {more : List Event}
    {result other : Except ResolveError α} {after' : Session × σ}
    (hrun : Runs step before events result after) (hother : Runs step before more other after') :
    events = more ∧ result = other ∧ after = after' := by
  obtain ⟨session, world⟩ := after
  obtain ⟨session', world'⟩ := after'
  have heq := hrun.symm.trans hother
  cases heq
  exact ⟨rfl, rfl, rfl⟩

/-- What runs in one way only runs in no other. -/
theorem Runs.iff_of_runs {step : ResolveM (Recorder σ) α} {more : List Event}
    {result other : Except ResolveError α} {after' : Session × σ}
    (hrun : Runs step before more other after') :
    Runs step before events result after ↔ events = more ∧ result = other ∧ after = after' := by
  constructor
  · intro hother
    exact hother.unique hrun
  · rintro ⟨rfl, rfl, rfl⟩
    exact hrun

theorem runs_pure_iff {a : α} {result : Except ResolveError α} :
    Runs (pure a) before events result after ↔ events = [] ∧ result = .ok a ∧ after = before :=
  Runs.iff_of_runs rfl

theorem runs_throw_iff {error : ResolveError} {result : Except ResolveError α} :
    Runs (throw error) before events result after ↔
      events = [] ∧ result = .error error ∧ after = before :=
  Runs.iff_of_runs rfl

/-- Looking at the session asks nothing and changes nothing. -/
theorem runs_get_iff {result : Except ResolveError Session} :
    Runs get before events result after ↔ events = [] ∧ result = .ok before.1 ∧ after = before :=
  Runs.iff_of_runs rfl

/-- Changing the session asks nothing. -/
theorem runs_modify_iff {f : Session → Session} {result : Except ResolveError PUnit} :
    Runs (modify f) before events result after ↔
      events = [] ∧ result = .ok ⟨⟩ ∧ after = (f before.1, before.2) :=
  Runs.iff_of_runs rfl

/-- A step that fails is the last one. -/
theorem runs_bind_of_error {step : ResolveM (Recorder σ) α}
    {next : α → ResolveM (Recorder σ) β} {error : ResolveError}
    (hstep : Runs step before events (.error error) after) :
    Runs (step >>= next) before events (.error error) after := by
  unfold Runs at hstep ⊢
  change (let ending := step.run.run before.1 before.2
    let more := (ExceptT.bindCont next ending.1.1).run ending.1.2 ending.2.2
    (more.1, ending.2.1 ++ more.2.1, more.2.2)) = _
  rw [hstep]
  change ((Except.error error, after.1), events ++ [], after.2) = _
  rw [List.append_nil]

/-- The record of a sequence is that of its steps, one behind the other. -/
theorem runs_bind_of_ok {step : ResolveM (Recorder σ) α} {next : α → ResolveM (Recorder σ) β}
    {a : α} {middle : Session × σ} {more : List Event} {result : Except ResolveError β}
    (hstep : Runs step before events (.ok a) middle)
    (hnext : Runs (next a) middle more result after) :
    Runs (step >>= next) before (events ++ more) result after := by
  unfold Runs at hstep hnext ⊢
  change (let ending := step.run.run before.1 before.2
    let more := (ExceptT.bindCont next ending.1.1).run ending.1.2 ending.2.2
    (more.1, ending.2.1 ++ more.2.1, more.2.2)) = _
  rw [hstep]
  change (let ending := (next a).run.run middle.1 middle.2
    (ending.1, events ++ ending.2.1, ending.2.2)) = _
  rw [hnext]

/-- A step with a continuation either fails in the step, or carries on from the place where the step
ended; the records are joined in that order. -/
theorem runs_bind_iff {step : ResolveM (Recorder σ) α} {next : α → ResolveM (Recorder σ) β}
    {result : Except ResolveError β} :
    Runs (step >>= next) before events result after ↔
      (∃ error, Runs step before events (.error error) after ∧ result = .error error) ∨
      ∃ a middle first second, Runs step before first (.ok a) middle ∧
        Runs (next a) middle second result after ∧ events = first ++ second := by
  constructor
  · intro hrun
    obtain ⟨first, given, middle, hstep⟩ := exists_runs step before
    cases given with
    | error error =>
      obtain ⟨rfl, rfl, rfl⟩ := hrun.unique (runs_bind_of_error hstep)
      exact Or.inl ⟨error, hstep, rfl⟩
    | ok a =>
      obtain ⟨second, ending, final, hnext⟩ := exists_runs (next a) middle
      obtain ⟨rfl, rfl, rfl⟩ := hrun.unique (runs_bind_of_ok hstep hnext)
      exact Or.inr ⟨a, middle, first, second, hstep, hnext, rfl⟩
  · rintro (⟨error, hstep, rfl⟩ | ⟨a, middle, first, second, hstep, hnext, rfl⟩)
    · exact runs_bind_of_error hstep
    · exact runs_bind_of_ok hstep hnext

/-- A sequence that ends well is made of steps that end well. -/
theorem exists_of_runs_bind_ok {step : ResolveM (Recorder σ) α}
    {next : α → ResolveM (Recorder σ) β} {b : β}
    (hrun : Runs (step >>= next) before events (.ok b) after) :
    ∃ a middle first second, Runs step before first (.ok a) middle ∧
      Runs (next a) middle second (.ok b) after ∧ events = first ++ second := by
  obtain ⟨error, -, hresult⟩ | hnext := runs_bind_iff.mp hrun
  · cases hresult
  · exact hnext

theorem runs_get_bind_iff {next : Session → ResolveM (Recorder σ) β}
    {result : Except ResolveError β} :
    Runs (get >>= next) before events result after ↔
      Runs (next before.1) before events result after := by
  rw [runs_bind_iff]
  constructor
  · rintro (⟨error, hget, -⟩ | ⟨session, middle, first, second, hget, hnext, rfl⟩)
    · cases (runs_get_iff.mp hget).2.1
    · obtain ⟨rfl, hsession, rfl⟩ := runs_get_iff.mp hget
      cases hsession
      exact hnext
  · intro hnext
    exact Or.inr ⟨_, before, [], events, rfl, hnext, rfl⟩

theorem runs_modify_bind_iff {f : Session → Session} {next : PUnit → ResolveM (Recorder σ) β}
    {result : Except ResolveError β} :
    Runs (modify f >>= next) before events result after ↔
      Runs (next ⟨⟩) (f before.1, before.2) events result after := by
  rw [runs_bind_iff]
  constructor
  · rintro (⟨error, hmodify, -⟩ | ⟨_, middle, first, second, hmodify, hnext, rfl⟩)
    · cases (runs_modify_iff.mp hmodify).2.1
    · obtain ⟨rfl, -, rfl⟩ := runs_modify_iff.mp hmodify
      exact hnext
  · intro hnext
    exact Or.inr ⟨⟨⟩, (f before.1, before.2), [], events, rfl, hnext, rfl⟩

/-- A call records itself and leaves the session alone. -/
theorem runs_call {action : StateM σ α} {event : α → Event} {result : Except ResolveError α}
    (hrun : Runs (call (.ask action event)) before events result after) :
    ∃ answer world, action.run before.2 = (answer, world) ∧ events = [event answer] ∧
      result = .ok answer ∧ after = (before.1, world) := by
  have hcall : Runs (call (.ask action event)) before [event (action.run before.2).1]
      (.ok (action.run before.2).1) (before.1, (action.run before.2).2) := rfl
  obtain ⟨rfl, rfl, rfl⟩ := hrun.unique hcall
  exact ⟨_, _, rfl, rfl, rfl, rfl⟩

/-- A call stands at the head of the record, and the rest is run with its answer. -/
theorem runs_call_bind {action : StateM σ α} {event : α → Event}
    {next : α → ResolveM (Recorder σ) β} {result : Except ResolveError β}
    (hrun : Runs (call (.ask action event) >>= next) before events result after) :
    ∃ answer world rest, action.run before.2 = (answer, world) ∧ events = event answer :: rest ∧
      Runs (next answer) (before.1, world) rest result after := by
  rw [runs_bind_iff] at hrun
  obtain ⟨error, hcall, -⟩ | ⟨a, middle, first, rest, hcall, hnext, rfl⟩ := hrun
  · obtain ⟨answer, world, -, -, hresult, -⟩ := runs_call hcall
    cases hresult
  · obtain ⟨answer, world, haction, rfl, hresult, rfl⟩ := runs_call hcall
    cases hresult
    exact ⟨a, world, rest, haction, rfl, hnext⟩

/-- A call that may fail ends as it was answered. -/
theorem runs_attempt {ε : Type} {action : StateM σ (Except ε α)}
    {event : Except ε α → Event} {toError : ε → ResolveError} {result : Except ResolveError α}
    (hrun : Runs (attempt toError (.ask action event)) before events result after) :
    ∃ answer world, action.run before.2 = (answer, world) ∧ events = [event answer] ∧
      result = answer.mapError toError ∧ after = (before.1, world) := by
  obtain ⟨answer, world, rest, haction, rfl, hanswer⟩ := runs_call_bind hrun
  cases answer with
  | ok a =>
    obtain ⟨rfl, rfl, rfl⟩ := runs_pure_iff.mp hanswer
    exact ⟨.ok a, world, haction, rfl, rfl, rfl⟩
  | error error =>
    obtain ⟨rfl, rfl, rfl⟩ := runs_throw_iff.mp hanswer
    exact ⟨.error error, world, haction, rfl, rfl, rfl⟩

/-- A call that fails ends the run with its error; one that does not goes on. -/
theorem runs_attempt_bind {ε : Type} {action : StateM σ (Except ε α)}
    {event : Except ε α → Event} {toError : ε → ResolveError}
    {next : α → ResolveM (Recorder σ) β} {result : Except ResolveError β}
    (hrun : Runs (attempt toError (.ask action event) >>= next) before events result after) :
    (∃ error world, action.run before.2 = (.error error, world) ∧
        events = [event (.error error)] ∧ result = .error (toError error) ∧
        after = (before.1, world)) ∨
      ∃ a world rest, action.run before.2 = (.ok a, world) ∧ events = event (.ok a) :: rest ∧
        Runs (next a) (before.1, world) rest result after := by
  rw [runs_bind_iff] at hrun
  obtain ⟨error, hcall, rfl⟩ | ⟨a, middle, first, rest, hcall, hnext, rfl⟩ := hrun
  · obtain ⟨answer, world, haction, rfl, hresult, rfl⟩ := runs_attempt hcall
    cases answer with
    | ok a => cases hresult
    | error reason =>
      cases hresult
      exact Or.inl ⟨reason, world, haction, rfl, rfl, rfl⟩
  · obtain ⟨answer, world, haction, rfl, hresult, rfl⟩ := runs_attempt hcall
    cases answer with
    | error reason => cases hresult
    | ok given =>
      cases hresult
      exact Or.inr ⟨a, world, rest, haction, rfl, hnext⟩

end ResolveM

end Reconcile
