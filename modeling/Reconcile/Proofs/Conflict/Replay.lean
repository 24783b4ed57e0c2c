import Reconcile.Proofs.Conflict.Loading
import Reconcile.Proofs.Outcome

namespace Reconcile

variable {σ α β : Type}

/-- The world after a call. -/
def Event.replay (outside : Collaborators (StateM σ)) (world : σ) : Event → σ
  | .cancelled _ => (outside.cancellation.isCancelled.run world).2
  | .download workspace version itemId _ =>
    ((outside.download workspace version itemId).run world).2
  | .resolve workspace request _ => ((outside.resolve workspace request).run world).2
  | .apply workspace operations mode ledger _ =>
    ((outside.apply workspace operations mode ledger).run world).2
  | .mergeName workspace conflict _ => ((outside.mergeName workspace conflict).run world).2
  | .mergeContent conflict contents file name _ =>
    ((outside.mergeContent conflict contents file name).run world).2
  | .isPresent path _ => ((outside.files.isPresent path).run world).2
  | .isFile path _ => ((outside.files.isFile path).run world).2
  | .read path _ => ((outside.files.read path).run world).2
  | .write path content _ => ((outside.files.write path content).run world).2
  | .makeWritable path _ => ((outside.files.makeWritable path).run world).2
  | .createFolders path _ => ((outside.files.createFolders path).run world).2

/-- The world after the calls in a record. -/
def worldAfter (outside : Collaborators (StateM σ)) (world : σ) (events : List Event) : σ :=
  events.foldl (Event.replay outside) world

/-- The flag that is looked at is a part of the world, and no call takes it down. -/
structure Collaborators.Flagged (outside : Collaborators (StateM σ)) (raised : σ → Bool) : Prop where
  reading : outside.cancellation = .reading raised
  kept : ∀ event world, raised world = true → raised (Event.replay outside world event) = true

/-- A call to the server. -/
def Event.IsRemote : Event → Prop
  | .download .. | .resolve .. => True
  | _ => False

/-- How a call to the server failed. -/
def Event.failure? : Event → Option RemoteError
  | .download _ _ _ (.error error) | .resolve _ _ (.error error) => some error
  | _ => none

/-- A call that was answered with a cancellation. -/
def Event.IsCancellation : Event → Prop
  | .download _ _ _ (.error .cancelled) | .resolve _ _ (.error .cancelled) => True
  | .mergeName _ _ (.error .cancelled) | .mergeContent _ _ _ _ (.error .cancelled) => True
  | _ => False

theorem Event.isRemote_of_failure? {event : Event} {error : RemoteError}
    (hevent : event.failure? = some error) : event.IsRemote := by
  cases event <;> simp_all [Event.failure?, Event.IsRemote]

theorem Event.isCancellation_of_failure? {event : Event}
    (hevent : event.failure? = some .cancelled) : event.IsCancellation := by
  cases event with
  | download _ _ _ answer | resolve _ _ answer =>
    cases answer with
    | ok => cases hevent
    | error error =>
      cases hevent
      trivial
  | _ => cases hevent

section

variable {outside : Collaborators (StateM σ)} {raised : σ → Bool} {world : σ}

/-- Making two records again leads through the world between them. -/
theorem worldAfter_append {first rest : List Event} :
    worldAfter outside world (first ++ rest) =
      worldAfter outside (worldAfter outside world first) rest :=
  List.foldl_append

/-- A raised flag stays raised through any calls. -/
theorem Collaborators.Flagged.worldAfter (hflagged : outside.Flagged raised) (events : List Event)
    (hraised : raised world = true) : raised (worldAfter outside world events) = true := by
  induction events generalizing world with
  | nil => exact hraised
  | cons event events ih => exact ih (hflagged.kept event world hraised)

end

namespace ResolveM

/-- What a step owes to the flag. The calls to the server are made while it is down, and one that is
cancelled is the last one and cancels the step. A step is cancelled for no other reasons than the flag and
the answers. -/
structure Heeds (outside : Collaborators (StateM σ)) (raised : σ → Bool) (world : σ)
    (events : List Event) (result : Except ResolveError α) (world' : σ) : Prop where
  world_eq : world' = worldAfter outside world events
  lowered : ∀ first event rest, events = first ++ event :: rest → event.IsRemote →
    raised (worldAfter outside world first) = false
  cancelled : Behind (fun event => event.failure? = some .cancelled)
    (fun _ rest => rest = [] ∧ result = .error .cancelled) events
  failed : result = .error .cancelled →
    raised world' = true ∨ ∃ event ∈ events, event.IsCancellation

variable {outside : Collaborators (StateM σ)} {raised : σ → Bool} {world middle world' : σ}
  {events more : List Event}

namespace Heeds

/-- Nothing asked heeds the flag, unless it ends as if cancelled. -/
theorem of_nil {result : Except ResolveError α} (hresult : result ≠ .error .cancelled) :
    Heeds outside raised world [] result world where
  world_eq := rfl
  lowered _ _ _ hsplit := by simp at hsplit
  cancelled := .of_nil
  failed hcancelled := absurd hcancelled hresult

/-- A single call heeds the flag if it is local, or was made with the flag down, and tells of its
    cancellation. -/
theorem of_single {event : Event} {result : Except ResolveError α}
    (hlowered : event.IsRemote → raised world = false)
    (hcancelled : event.failure? = some .cancelled → result = .error .cancelled)
    (hfailed : result = .error .cancelled →
      raised (Event.replay outside world event) = true ∨ event.IsCancellation) :
    Heeds outside raised world [event] result (Event.replay outside world event) where
  world_eq := rfl
  lowered first other rest hsplit hother := by
    cases first with
    | nil =>
      obtain ⟨rfl, -⟩ := List.cons.inj hsplit
      exact hlowered hother
    | cons head first => simp at hsplit
  cancelled := .of_singleton fun hfailure => ⟨rfl, hcancelled hfailure⟩
  failed hresult := (hfailed hresult).imp_right fun hevent => ⟨event, List.mem_cons_self, hevent⟩

/-- An error stays the same error whatever would have come after it. -/
theorem of_error {error : ResolveError}
    (hheeds : Heeds outside raised world events (.error error : Except ResolveError α) world') :
    Heeds outside raised world events (.error error : Except ResolveError β) world' where
  world_eq := hheeds.world_eq
  lowered := hheeds.lowered
  cancelled := hheeds.cancelled.imp fun _ _ ⟨hrest, herror⟩ =>
    ⟨hrest, congrArg Except.error (Except.error.inj herror)⟩
  failed herror := by
    cases herror
    exact hheeds.failed rfl

/-- The calls of a step that ended well stand in front of those of the next one. -/
theorem append {a : α} {result : Except ResolveError β}
    (hstep : Heeds outside raised world events (.ok a) middle)
    (hnext : Heeds outside raised middle more result world') :
    Heeds outside raised world (events ++ more) result world' where
  world_eq := by rw [worldAfter_append, ← hstep.world_eq, hnext.world_eq]
  lowered first event rest hsplit hremote := by
    obtain ⟨later, hevents, -⟩ | ⟨second, rfl, hmore⟩ := split_of_append_eq hsplit
    · exact hstep.lowered first event later hevents hremote
    · rw [worldAfter_append, ← hstep.world_eq]
      exact hnext.lowered second event rest hmore hremote
  cancelled := hnext.cancelled.append (hstep.cancelled.not_isEnd fun _ _ hend => by cases hend.2)
  failed hresult := by
    refine (hnext.failed hresult).imp_right fun ⟨event, hevent, hcancellation⟩ => ?_
    exact ⟨event, List.mem_append_right _ hevent, hcancellation⟩

end Heeds

/-- However a step goes, it heeds the flag. -/
def Heedful (outside : Collaborators (StateM σ)) (raised : σ → Bool)
    (step : ResolveM (Recorder σ) α) : Prop :=
  ∀ before events result after, Runs step before events result after →
    Heeds outside raised before.2 events result after.2

namespace Heedful

theorem of_pure {a : α} : Heedful outside raised (pure a) := by
  intro before events result after hrun
  obtain ⟨rfl, rfl, rfl⟩ := runs_pure_iff.mp hrun
  exact .of_nil nofun

theorem of_throw {error : ResolveError} (herror : error ≠ .cancelled) :
    Heedful outside raised (throw error : ResolveM (Recorder σ) α) := by
  intro before events result after hrun
  obtain ⟨rfl, rfl, rfl⟩ := runs_throw_iff.mp hrun
  exact .of_nil (by simpa using herror)

theorem of_get : Heedful outside raised get := by
  intro before events result after hrun
  obtain ⟨rfl, rfl, rfl⟩ := runs_get_iff.mp hrun
  exact .of_nil nofun

theorem of_modify {f : Session → Session} : Heedful outside raised (modify f) := by
  intro before events result after hrun
  obtain ⟨rfl, rfl, rfl⟩ := runs_modify_iff.mp hrun
  exact .of_nil nofun

/-- The flag is heeded along a sequence of steps. -/
theorem bind {step : ResolveM (Recorder σ) α} {next : α → ResolveM (Recorder σ) β}
    (hstep : Heedful outside raised step) (hnext : ∀ a, Heedful outside raised (next a)) :
    Heedful outside raised (step >>= next) := by
  intro before events result after hrun
  obtain ⟨error, hfailed, rfl⟩ | ⟨a, middle, first, second, hfirst, hsecond, rfl⟩ :=
    runs_bind_iff.mp hrun
  · exact (hstep _ _ _ _ hfailed).of_error
  · exact (hstep _ _ _ _ hfirst).append (hnext a _ _ _ _ hsecond)

/-- Both branches heed the flag, so the choice does. -/
theorem ite {p : Prop} [Decidable p] {yes no : ResolveM (Recorder σ) α}
    (hyes : Heedful outside raised yes) (hno : Heedful outside raised no) :
    Heedful outside raised (if p then yes else no) := by
  split
  · exact hyes
  · exact hno

/-- A call to anybody but the server. -/
theorem of_call {action : StateM σ α} {event : α → Event} (hlocal : ∀ answer, ¬ (event answer).IsRemote)
    (hreplay : ∀ answer world, Event.replay outside world (event answer) = (action.run world).2) :
    Heedful outside raised (call (.ask action event)) := by
  intro before events result after hrun
  obtain ⟨answer, world, haction, rfl, rfl, rfl⟩ := runs_call hrun
  have hworld : Event.replay outside before.2 (event answer) = world := by
    rw [hreplay, haction]
  subst hworld
  refine .of_single (fun hremote => absurd hremote (hlocal answer)) (fun hfailure => ?_) nofun
  exact absurd (Event.isRemote_of_failure? hfailure) (hlocal answer)

/-- A local call that can fail heeds the flag if it fails as cancelled only where it was. -/
theorem of_attempt {ε : Type} {toError : ε → ResolveError} {action : StateM σ (Except ε α)}
    {event : Except ε α → Event} (hlocal : ∀ answer, ¬ (event answer).IsRemote)
    (hcancelled : ∀ error, toError error = .cancelled → (event (.error error)).IsCancellation)
    (hreplay : ∀ answer world, Event.replay outside world (event answer) = (action.run world).2) :
    Heedful outside raised (attempt toError (.ask action event)) := by
  intro before events result after hrun
  obtain ⟨answer, world, haction, rfl, rfl, rfl⟩ := runs_attempt hrun
  have hworld : Event.replay outside before.2 (event answer) = world := by
    rw [hreplay, haction]
  subst hworld
  refine .of_single (fun hremote => absurd hremote (hlocal answer)) (fun hfailure => ?_) fun hresult => ?_
  · exact absurd (Event.isRemote_of_failure? hfailure) (hlocal answer)
  · cases answer with
    | ok a => cases hresult
    | error error => exact .inr (hcancelled error (by simpa [Except.mapError] using hresult))

end Heedful

/-- A look at the flag finds it as it is, and ends the step if it is up. -/
theorem heeds_of_checkCancelled (hflagged : outside.Flagged raised) {before after : Session × σ}
    {result : Except ResolveError Unit}
    (hrun : Runs (checkCancelled outside.recorded) before events result after) :
    Heeds outside raised before.2 events result after.2 ∧
      (result = .ok () → raised after.2 = false) := by
  obtain ⟨world, rfl, hlook⟩ := runs_checkCancelled hrun
  rw [hflagged.reading] at hlook
  obtain ⟨hanswer, rfl, rfl⟩ | ⟨hanswer, rfl, rfl⟩ := hlook
  all_goals
    obtain ⟨hflag, rfl⟩ := Prod.mk.inj hanswer
    have hworld (answer : Bool) : Event.replay outside before.2 (.cancelled answer) = before.2 := by
      rw [Event.replay, hflagged.reading]
      rfl
  · have hheeds : Heeds outside raised before.2 [.cancelled true]
        (.error .cancelled : Except ResolveError Unit) (Event.replay outside before.2 (.cancelled true)) :=
      .of_single nofun nofun fun _ => .inl (by rwa [hworld])
    rw [hworld] at hheeds
    exact ⟨hheeds, nofun⟩
  · have hheeds : Heeds outside raised before.2 [.cancelled false]
        (.ok () : Except ResolveError Unit) (Event.replay outside before.2 (.cancelled false)) :=
      .of_single nofun nofun nofun
    rw [hworld] at hheeds
    exact ⟨hheeds, fun _ => hflag⟩

theorem heedful_checkCancelled (hflagged : outside.Flagged raised) :
    Heedful outside raised (checkCancelled outside.recorded) :=
  fun _ _ _ _ hrun => (heeds_of_checkCancelled hflagged hrun).1

/-- A call to the server right after a look at the flag. -/
theorem heedful_checked (hflagged : outside.Flagged raised) {toError : RemoteError → ResolveError}
    {action : StateM σ (Except RemoteError α)} {event : Except RemoteError α → Event}
    {next : α → ResolveM (Recorder σ) β}
    (hcancelled : ∀ error, toError error = .cancelled ↔ error = .cancelled)
    (hfailure : ∀ answer, (event answer).failure? = some .cancelled ↔ answer = .error .cancelled)
    (hreplay : ∀ answer world, Event.replay outside world (event answer) = (action.run world).2)
    (hnext : ∀ a, Heedful outside raised (next a)) :
    Heedful outside raised (do
      checkCancelled outside.recorded
      let a ← attempt toError (.ask action event)
      next a) := by
  intro before events result after hrun
  obtain ⟨error, hcheck, rfl⟩ | ⟨_, checked, first, rest, hcheck, hask, rfl⟩ := runs_bind_iff.mp hrun
  · exact (heedful_checkCancelled hflagged _ _ _ _ hcheck).of_error
  obtain ⟨hlook, hlowered⟩ := heeds_of_checkCancelled hflagged hcheck
  refine hlook.append ?_
  -- Nothing happens between the look and the call, so the server is asked with the flag down.
  have hasked (answer : Except RemoteError α) : Heeds outside raised checked.2 [event answer]
      (answer.mapError toError) (Event.replay outside checked.2 (event answer)) := by
    refine .of_single (fun _ => hlowered rfl) (fun hevent => ?_) fun hresult => .inr ?_
    · obtain rfl := (hfailure answer).mp hevent
      exact congrArg Except.error ((hcancelled .cancelled).mpr rfl)
    · cases answer with
      | ok a => cases hresult
      | error error =>
        obtain rfl := (hcancelled error).mp (Except.error.inj hresult)
        exact Event.isCancellation_of_failure? ((hfailure _).mpr rfl)
  obtain ⟨error, world, haction, rfl, rfl, rfl⟩ | ⟨a, world, more, haction, rfl, hrest⟩ :=
    runs_attempt_bind hask
  · have hheeds := hasked (.error error)
    rw [hreplay, haction] at hheeds
    exact hheeds.of_error
  · have hheeds := hasked (.ok a)
    rw [hreplay, haction] at hheeds
    exact hheeds.append (hnext a _ _ _ _ hrest)

end ResolveM

end Reconcile
