import Reconcile.Policy.Builtin
import Reconcile.Proofs.Checkin.Verdicts

namespace Reconcile

/-- A policy without configuration is cancelled only by its evaluation. -/
theorem CheckinPolicy.uncancelled_stateless {policyType : PolicyType} {evaluate : PolicyEvaluation Id}
    (hevaluate : ∀ context, Id.run (evaluate context) ≠ .error .cancelled) (format : DescriptorFormat)
    (context : CheckinContext) :
    (CheckinPolicy.stateless policyType evaluate).Uncancelled format context := by
  have hloaded : (CheckinPolicy.stateless policyType evaluate).loaded format = .ok evaluate := by
    cases format <;> rfl
  refine ⟨hloaded ▸ nofun, fun loaded heq => ?_⟩
  cases hloaded.symm.trans heq
  exact hevaluate context

namespace ForbiddenPaths

variable (fits : PathMatcher)

theorem readPatterns_ne_cancelled (configuration : String) :
    readPatterns configuration ≠ .error .cancelled := by
  rw [readPatterns]
  split
  · dsimp only
    split
    · exact nofun
    · exact nofun
  · exact nofun

/-- Every file is judged by itself. -/
theorem judge_never (patterns : List String) (files : List (LocalPath × Option ServerPath)) :
    (judge (m := Id) fits .never patterns files).run =
      pure (.ok (files.flatMap fun item => (verdict fits patterns item.1 item.2).toList)) := by
  induction files with
  | nil => rfl
  | cons item files ih =>
    change ((judge (m := Id) fits .never patterns files) >>= fun failures =>
      pure ((verdict fits patterns item.1 item.2).toList ++ failures)).run = _
    rw [ExceptT.run_bind, ih]
    rfl

theorem loaded_stateful (configuration : String) :
    (policy (m := Id) fits .never).loaded (.stateful configuration) =
      (readPatterns configuration).map (evaluate fits .never) :=
  rfl

theorem uncancelled_policy (format : DescriptorFormat) (context : CheckinContext) :
    (policy (m := Id) fits .never).Uncancelled format context := by
  have hevaluate (patterns : List String) :
      Id.run (evaluate (m := Id) fits .never patterns context) ≠ .error .cancelled := by
    rw [evaluate, judge_never]
    exact nofun
  cases format with
  | stateless =>
    refine ⟨nofun, fun loaded heq => ?_⟩
    cases heq
    exact hevaluate []
  | stateful configuration =>
    have hloaded := loaded_stateful fits configuration
    have hread := readPatterns_ne_cancelled configuration
    cases hpatterns : readPatterns configuration with
    | error error =>
      rw [hpatterns] at hloaded hread
      refine ⟨?_, fun loaded heq => ?_⟩
      · rw [hloaded]
        exact fun heq => hread (by cases heq; rfl)
      · cases hloaded.symm.trans heq
    | ok patterns =>
      rw [hpatterns] at hloaded
      refine ⟨hloaded ▸ nofun, fun loaded heq => ?_⟩
      cases hloaded.symm.trans heq
      exact hevaluate patterns

end ForbiddenPaths

theorem PolicyRegistry.uncancelled_builtins (fits : PathMatcher) (attempt : CheckinAttempt) :
    attempt.Uncancelled (.builtins fits .never) := by
  refine fun _ _ => uncancelled_of_forall (fun entry hentry format => ?_) _
  have hregistered : (PolicyRegistry.builtins (m := Id) fits .never).registrations =
      (builtinPolicies fits .never).map fun policy => (policy.policyType.id, policy) := rfl
  rw [hregistered] at hentry
  obtain ⟨policy, hpolicy, rfl⟩ := List.mem_map.mp hentry
  simp only [builtinPolicies, List.mem_cons, List.not_mem_nil, or_false] at hpolicy
  rcases hpolicy with rfl | rfl | rfl
  · refine CheckinPolicy.uncancelled_stateless ?_ format _
    exact fun _ => nofun
  · refine CheckinPolicy.uncancelled_stateless ?_ format _
    exact fun _ => nofun
  · exact ForbiddenPaths.uncancelled_policy fits format _

/-- While nobody cancels, an evaluation by the installed policies ends well. -/
theorem CheckinAttempt.evaluate_builtins (fits : PathMatcher) (attempt : CheckinAttempt) :
    Id.run (attempt.evaluate (.builtins fits .never) .never) =
      (.ok (), attempt.evaluatedBy (.builtins fits .never)) :=
  evaluate_eq (PolicyRegistry.uncancelled_builtins fits attempt)

section World

variable {σ : Type} {cancellation : Cancellation (StateM σ)} {fits : PathMatcher}

/-- A policy that computes its failures gives them in every world. -/
theorem CheckinPolicy.give_stateless (policyType : PolicyType)
    (verdict : CheckinContext → List PolicyFailure) :
    (CheckinPolicy.stateless policyType fun context => pure (.ok (verdict context)) :
      CheckinPolicy (StateM σ)).Give
        (CheckinPolicy.stateless policyType fun context => pure (.ok (verdict context))) where
  policyType := rfl
  evaluate _ _ := rfl
  configure _ _ := .ok fun _ _ => rfl

/-- The policy about paths asks the world for nothing but the flag. -/
theorem ForbiddenPaths.gives_evaluate (hflag : cancellation.Never) (patterns : List String)
    (context : CheckinContext) :
    Gives (evaluate fits cancellation patterns context) (evaluate fits .never patterns context) := by
  have hjudge (files : List (LocalPath × Option ServerPath)) :
      Discovery.EndsAs (judge fits cancellation patterns files) (judge fits .never patterns files) := by
    induction files with
    | nil => exact .of_pure
    | cons item files ih => exact .bind (.check hflag _) fun _ => .bind ih fun _ => .of_pure
  exact hjudge context.pairs

theorem ForbiddenPaths.give_policy (hflag : cancellation.Never) :
    (policy fits cancellation).Give (policy fits .never) where
  policyType := rfl
  evaluate context := gives_evaluate hflag [] context
  configure configuration world := by
    change EndsAlike _ ((readPatterns configuration).map (evaluate fits cancellation))
      ((readPatterns configuration).map (evaluate fits .never))
    cases readPatterns configuration with
    | error error => exact .error error
    | ok patterns => exact .ok (gives_evaluate hflag patterns)

/-- While nobody cancels, the installed policies say the same in every world. -/
theorem PolicyRegistry.give_builtins (fits : PathMatcher) (hflag : cancellation.Never) :
    (PolicyRegistry.builtins fits cancellation).Give (.builtins fits .never) := by
  refine .cons ⟨rfl, ?_⟩ (.cons ⟨rfl, ?_⟩ (.cons ⟨rfl, ?_⟩ .nil))
  · exact CheckinPolicy.give_stateless _ _
  · exact CheckinPolicy.give_stateless _ _
  · exact ForbiddenPaths.give_policy hflag

end World

end Reconcile
