import Reconcile.Checkin.Message
import Reconcile.Proofs.Checkin.Reachable

namespace Reconcile

/-- Two attempts show the same results of evaluations. -/
structure CheckinAttempt.SameResults (before after : CheckinAttempt) : Prop where
  failures (server : Server) : after.failures server = before.failures server
  allFailures : after.allFailures = before.allFailures
  hasPolicyFailures (server : Server) :
    after.hasPolicyFailures server = before.hasPolicyFailures server
  evaluated : after.evaluated = before.evaluated
  message? (scope : MessageScope) : after.message? scope = before.message? scope

/-- Two states of a server that differ at most in failures, and in those only as long as no evaluation
has finished. -/
structure ServerAttempt.Alike (evaluated : Bool) (before after : ServerAttempt) : Prop where
  missing : after.missing = before.missing
  evaluates : after.evaluates = before.evaluates
  recorded : evaluated = true → after.recorded = before.recorded

/-- Two attempts on the same servers that differ at most in failures which nothing shows. -/
structure CheckinAttempt.Alike (before after : CheckinAttempt) : Prop where
  evaluated : after.evaluated = before.evaluated
  servers : List.Forall₂ (fun a b => b.1 = a.1 ∧ a.2.Alike before.evaluated b.2)
    before.servers after.servers

namespace CheckinAttempt

variable {σ : Type} {attempt after : CheckinAttempt}

/-- A view that does not tell like data apart shows two like attempts the same. -/
theorem Alike.map_servers {α : Type} (halike : attempt.Alike after)
    (view : Server × ServerAttempt → α)
    (hview : ∀ server a b, a.Alike attempt.evaluated b → view (server, b) = view (server, a)) :
    after.servers.map view = attempt.servers.map view := by
  refine map_eq_of_forall₂ halike.servers ?_
  rintro ⟨server, a⟩ ⟨_, b⟩ ⟨rfl, hab⟩
  exact hview _ a b hab

theorem Alike.map_server? {α : Type} (halike : attempt.Alike after) (view : ServerAttempt → α)
    (hview : ∀ a b, a.Alike attempt.evaluated b → view b = view a) (server : Server) :
    (after.server? server).map view = (attempt.server? server).map view := by
  have hfound := lookup_rel halike.servers server
  rw [server?, server?]
  generalize attempt.servers.lookup server = found, after.servers.lookup server = found' at hfound ⊢
  cases hfound with
  | none => rfl
  | some hdata => exact congrArg some (hview _ _ hdata)

theorem Alike.failures (halike : attempt.Alike after) (server : Server) :
    after.failures server = attempt.failures server := by
  rw [CheckinAttempt.failures, CheckinAttempt.failures, halike.evaluated]
  split
  case isTrue htrue => rw [halike.map_server? _ fun _ _ hdata => hdata.recorded htrue]
  case isFalse => rfl

theorem Alike.allFailures (halike : attempt.Alike after) : after.allFailures = attempt.allFailures := by
  rw [CheckinAttempt.allFailures, CheckinAttempt.allFailures, halike.evaluated]
  split
  case isTrue htrue =>
    have hrecorded := halike.map_servers (·.2.recorded) fun _ _ _ hdata => hdata.recorded htrue
    simpa [List.flatMap_def] using congrArg List.flatten hrecorded
  case isFalse => rfl

theorem Alike.hasPolicyFailures (halike : attempt.Alike after) (server : Server) :
    after.hasPolicyFailures server = attempt.hasPolicyFailures server := by
  have hneeds := halike.map_server?
    (fun data => data.evaluates && (!attempt.evaluated || !data.recorded.isEmpty))
    (fun a b hdata => by
      cases htrue : attempt.evaluated with
      | false => simp [hdata.evaluates]
      | true => simp [hdata.evaluates, hdata.recorded htrue]) server
  have hany := congrArg (Option.any id) hneeds
  simpa [CheckinAttempt.hasPolicyFailures, halike.evaluated, Option.any_map, Function.comp_def]
    using hany

theorem Alike.reports (halike : attempt.Alike after) (scope : MessageScope) :
    ValidationMessage.reports after scope = ValidationMessage.reports attempt scope := by
  rw [ValidationMessage.reports, ValidationMessage.reports, halike.evaluated]
  refine congrArg (List.filter _) (halike.map_servers _ fun server a b hdata => ?_)
  cases htrue : attempt.evaluated with
  | false => simp [hdata.missing]
  | true => simp [hdata.missing, hdata.recorded htrue]

theorem Alike.message? (halike : attempt.Alike after) (scope : MessageScope) :
    after.message? scope = attempt.message? scope := by
  have hevaluates : after.evaluates = attempt.evaluates := by
    have hany := congrArg (List.any · id)
      (halike.map_servers (·.2.evaluates) fun _ _ _ hdata => hdata.evaluates)
    simpa [CheckinAttempt.evaluates, List.any_map, Function.comp_def] using hany
  have hlength := halike.servers.length_eq
  rw [CheckinAttempt.message?, CheckinAttempt.message?, ValidationMessage.tellsNotEvaluated,
    ValidationMessage.tellsNotEvaluated, halike.reports, halike.evaluated, hevaluates, hlength]

theorem Alike.sameResults (halike : attempt.Alike after) : attempt.SameResults after :=
  ⟨halike.failures, halike.allFailures, halike.hasPolicyFailures, halike.evaluated, halike.message?⟩

/-- What is recorded of the servers can be asked for one server at a time. -/
theorem Sound.map_recorded (hsound : attempt.Sound) :
    attempt.servers.map (·.2.recorded) = (attempt.servers.map (·.1)).map fun server =>
      ((attempt.server? server).map (·.recorded)).getD [] := by
  rw [List.map_map]
  refine List.map_congr_left fun entry hmem => ?_
  simp [hsound.mem_servers_iff.mp hmem]

/-- Once an evaluation has finished, results shown as before are failures recorded as before. -/
theorem Sound.map_recorded_eq (hsound : attempt.Sound) (hafter : after.Sound)
    (hkeys : after.servers.map (·.1) = attempt.servers.map (·.1)) (htrue : attempt.evaluated = true)
    (hsame : attempt.SameResults after) :
    after.servers.map (·.2.recorded) = attempt.servers.map (·.2.recorded) := by
  rw [hsound.map_recorded, hafter.map_recorded, hkeys]
  refine List.map_congr_left fun server _ => ?_
  simpa [CheckinAttempt.failures, htrue, hsame.evaluated.trans htrue] using hsame.failures server

variable {registry : PolicyRegistry (StateM σ)} {cancellation : Cancellation (StateM σ)}
  {world world' : σ}

/-- Before the first evaluation has finished, a server with new failures looks as it did. -/
theorem Renewed.alike {message : String} {before after : Server × ServerAttempt}
    (hrenewed : Renewed registry cancellation message before after) :
    after.1 = before.1 ∧ before.2.Alike false after.2 := by
  obtain ⟨failures, _, _, -, rfl⟩ := hrenewed
  exact ⟨rfl, rfl, rfl, nofun⟩

/-- In every attempt that comes about, an evaluation that ends early leaves the results shown as they
were exactly if no evaluation has finished yet, or every server it passed has the failures it had. In
any case it says as before whether an evaluation has finished, and leaves all but failures of servers
it passed. -/
theorem sameResults_of_evaluate_error_iff (hreachable : attempt.Reachable) {error : CheckinError}
    (hrun : (attempt.evaluate registry cancellation).run world = ((.error error, after), world')) :
    (attempt.SameResults after ↔ attempt.evaluated = false ∨
      after.servers.map (·.2.recorded) = attempt.servers.map (·.2.recorded)) ∧
    after = { attempt with servers := after.servers } ∧
    ∃ passed renewed rest, rest ≠ [] ∧ attempt.servers = passed ++ rest ∧
      after.servers = renewed ++ rest ∧
      List.Forall₂ (Renewed registry cancellation attempt.commitMessage) passed renewed := by
  have hsound := hreachable.sound
  have hafter := hsound.evaluate hrun
  obtain ⟨passed, renewed, rest, hservers, hrenewed, hended, heq⟩ := exists_of_evaluate hrun
  have hrest : rest ≠ [] := fun hnil => by simpa using hended.mpr hnil
  have hevaluated : after.evaluated = attempt.evaluated := by simp [heq, hrest]
  have halike : List.Forall₂ (fun a b => b.1 = a.1 ∧ a.2.Alike false b.2) attempt.servers
      after.servers := by
    rw [heq, hservers]
    exact List.rel_append (hrenewed.imp fun _ _ => Renewed.alike)
      (List.forall₂_same.mpr fun _ _ => ⟨rfl, rfl, rfl, fun _ => rfl⟩)
  refine ⟨⟨fun hsame => ?_, ?_⟩, by simp [heq, hrest], passed, renewed, rest, hrest, hservers,
    by rw [heq], hrenewed⟩
  · cases htrue : attempt.evaluated with
    | false => exact Or.inl rfl
    | true =>
      have hkeys := map_eq_of_forall₂ halike fun _ _ hentry => hentry.1
      exact Or.inr (hsound.map_recorded_eq hafter hkeys htrue hsame)
  · rintro (hfalse | hrecorded)
    · exact Alike.sameResults ⟨hevaluated, hfalse ▸ halike⟩
    · rw [← List.forall₂_eq_eq_eq, List.forall₂_map_left_iff, List.forall₂_map_right_iff] at hrecorded
      exact Alike.sameResults ⟨hevaluated, List.Forall₂.mp (fun _ _ hentry hrecorded =>
        ⟨hentry.1, hentry.2.missing, hentry.2.evaluates, fun _ => hrecorded⟩) halike hrecorded.flip⟩

/-- A flag that is raised after as many looks at it as the world counts. -/
def countdown : Cancellation (StateM Nat) :=
  ⟨fun looks => (looks == 0, looks - 1)⟩

/-- An attempt that was evaluated with one commit message and has another one since. -/
def reworded : CheckinAttempt :=
  let first : CheckinAttempt := { echoedStart with commitMessage := "old" }
  let evaluated := ((CheckinStep.evaluate (m := StateM Unit) echoing .never).run first |>.run ()).1
  { evaluated with commitMessage := "new" }

theorem reachable_reworded : reworded.Reachable :=
  .step (.step (.step reachable_echoedStart (.setMessage "old") ()) (.evaluate echoing .never) ())
    (.setMessage (m := StateM Unit) "new") ()

/-- The evaluation is cancelled at the second server. The first one then shows the failure for the new
commit message, and the second one still that for the old message. -/
theorem evaluate_error_mixes_results :
    let ending := ((reworded.evaluate echoing countdown).run 2).1
    let shown (attempt : CheckinAttempt) := attempt.allFailures.map (·.message)
    reworded.Reachable ∧ reworded.evaluated = true ∧ ending.1 = .error .cancelled ∧
      shown reworded = ["old", "old"] ∧ shown ending.2 = ["new", "old"] ∧
        ¬ reworded.SameResults ending.2 := by
  intro ending shown
  have hbefore : shown reworded = ["old", "old"] := by decide +kernel
  have hafter : shown ending.2 = ["new", "old"] := by decide +kernel
  refine ⟨reachable_reworded, by decide +kernel, by decide +kernel, hbefore, hafter, fun hsame => ?_⟩
  have hshown : shown ending.2 = shown reworded := by simp only [shown, hsame.allFailures]
  rw [hbefore, hafter] at hshown
  exact absurd hshown (by decide)

/-- Before any evaluation has finished, such an early end shows nothing. -/
theorem sameResults_of_evaluate_error_iff_echoed :
    let ending := ((echoedStart.evaluate echoing countdown).run 2).1
    ending.1 = .error .cancelled ∧ echoedStart.SameResults ending.2 := by
  intro ending
  have hresult : ending.1 = .error .cancelled := by decide +kernel
  have hrun : (echoedStart.evaluate echoing countdown).run 2 = ((.error .cancelled, ending.2), 0) :=
    Prod.ext (Prod.ext hresult rfl) (by decide +kernel)
  obtain ⟨hsame, -, -⟩ := sameResults_of_evaluate_error_iff reachable_echoedStart hrun
  exact ⟨hresult, hsame.mpr (Or.inl rfl)⟩

end CheckinAttempt

end Reconcile
