import Reconcile.Checkin.Attempt
import Reconcile.Proofs.Outcome

namespace Reconcile

variable {σ : Type} {world world' : σ} {registry : PolicyRegistry (StateM σ)}
  {cancellation : Cancellation (StateM σ)}

namespace Evaluation

variable {context : CheckinContext} {projects : ProjectTable} {failures : List PolicyFailure}

/-- Failures come from policies, so some project of a server with failures has a policy. -/
theorem exists_policies_of_runProjects
    (hrun : (runProjects registry cancellation context projects).run.run world =
      (.ok failures, world')) (hfailures : failures ≠ []) :
    ∃ entry ∈ projects, entry.2.policies ≠ [] := by
  induction projects generalizing failures world with
  | nil =>
    cases hrun
    exact absurd rfl hfailures
  | cons entry projects ih =>
    obtain ⟨project, data⟩ := entry
    rw [runProjects] at hrun
    obtain ⟨own, _, hown, hrun⟩ := exists_of_bind_ok hrun
    obtain ⟨others, _, hothers, hrun⟩ := exists_of_bind_ok hrun
    cases hrun
    by_cases hpolicies : data.policies = []
    · rw [hpolicies] at hown
      cases hown
      obtain ⟨other, hmem, hother⟩ := ih hothers (by simpa using hfailures)
      exact ⟨other, List.mem_cons_of_mem _ hmem, hother⟩
    · exact ⟨_, List.mem_cons_self, hpolicies⟩

theorem exists_policies_of_runServer
    (hrun : (runServer registry cancellation context projects).run.run world =
      (.ok failures, world')) (hfailures : failures ≠ []) :
    ∃ entry ∈ projects, entry.2.policies ≠ [] := by
  rw [runServer] at hrun
  obtain ⟨found, _, hfound, hrun⟩ := exists_of_bind_ok hrun
  obtain ⟨_, _, -, hrun⟩ := exists_of_bind_ok hrun
  cases hrun
  exact exists_policies_of_runProjects hfound hfailures

end Evaluation

namespace CheckinAttempt

variable {message : String} {servers after : List (Server × ServerAttempt)}
  {result : Except CheckinError Unit}

/-- What an evaluation makes of a server that it passes. -/
def Renewed (registry : PolicyRegistry (StateM σ)) (cancellation : Cancellation (StateM σ))
    (message : String) (before after : Server × ServerAttempt) : Prop :=
  ∃ failures world world',
    (Evaluation.runServer registry cancellation (before.2.context message) before.2.projects).run.run
      world = (.ok failures, world') ∧
    after = (before.1, { before.2 with failures := some failures })

/-- The servers are passed in order until one of them stops the evaluation. -/
theorem exists_of_evaluateServers
    (hrun : (evaluateServers registry cancellation message servers).run world =
      ((result, after), world')) :
    ∃ passed renewed rest, servers = passed ++ rest ∧ after = renewed ++ rest ∧
      List.Forall₂ (Renewed registry cancellation message) passed renewed ∧
      (result = .ok () ↔ rest = []) := by
  induction servers generalizing world world' result after with
  | nil =>
    cases hrun
    exact ⟨[], [], [], rfl, rfl, .nil, by simp⟩
  | cons entry servers ih =>
    obtain ⟨server, data⟩ := entry
    rw [evaluateServers, run_bind] at hrun
    cases hserver : (Evaluation.runServer registry cancellation (data.context message)
        data.projects).run.run world with
    | mk ending middle =>
      rw [hserver] at hrun
      cases ending with
      | error error =>
        cases hrun
        exact ⟨[], [], _, rfl, rfl, .nil, by simp⟩
      | ok failures =>
        -- The rest is evaluated in the world that this server left.
        dsimp only at hrun
        rw [run_bind] at hrun
        obtain ⟨⟨⟨ended, others⟩, final⟩, hothers⟩ :
            ∃ ending, (evaluateServers registry cancellation message servers).run middle = ending :=
          ⟨_, rfl⟩
        rw [hothers] at hrun
        obtain ⟨passed, renewed, rest, hservers, hafter, hrenewed, hresult⟩ := ih hothers
        cases hrun
        refine ⟨(server, data) :: passed, (server, { data with failures := some failures }) :: renewed,
          rest, by rw [hservers, List.cons_append], by rw [hafter, List.cons_append], ?_, hresult⟩
        exact .cons ⟨failures, world, middle, hserver, rfl⟩ hrenewed

/-- Apart from the servers, an evaluation only notes that it has finished, if it has. -/
theorem exists_of_evaluate {attempt after : CheckinAttempt}
    (hrun : (attempt.evaluate registry cancellation).run world = ((result, after), world')) :
    ∃ passed renewed rest, attempt.servers = passed ++ rest ∧
      List.Forall₂ (Renewed registry cancellation attempt.commitMessage) passed renewed ∧
      (result = .ok () ↔ rest = []) ∧
      after = { attempt with
        servers := renewed ++ rest, evaluated := attempt.evaluated || rest.isEmpty } := by
  rw [evaluate, run_bind] at hrun
  obtain ⟨⟨⟨ended, servers⟩, middle⟩, hservers⟩ :
      ∃ ending, (evaluateServers registry cancellation attempt.commitMessage
        attempt.servers).run world = ending := ⟨_, rfl⟩
  rw [hservers] at hrun
  obtain ⟨passed, renewed, rest, hbefore, rfl, hrenewed, hended⟩ :=
    exists_of_evaluateServers hservers
  refine ⟨passed, renewed, rest, hbefore, hrenewed, ?_⟩
  cases ended with
  | ok _ =>
    cases hrun
    obtain rfl : rest = [] := hended.mp rfl
    simp
  | error error =>
    cases hrun
    have hrest : rest ≠ [] := fun hnil => by simpa using hended.mpr hnil
    simp [hrest]

end CheckinAttempt

end Reconcile
