import Reconcile.Proofs.Checkin.Answered
import Reconcile.Proofs.Checkin.Reachable

namespace Reconcile

/-- A lookup finds the first entry under a key. -/
theorem lookup_eq_head? {α β : Type} [BEq α] [LawfulBEq α] (l : List (α × β)) (key : α) :
    l.lookup key = ((l.filter (·.1 == key)).head?).map (·.2) := by
  induction l with
  | nil => rfl
  | cons entry l ih =>
    obtain ⟨other, value⟩ := entry
    by_cases hkey : other = key
    · simp [hkey]
    · simp [List.lookup_cons, hkey, beq_false_of_ne (Ne.symm hkey), ih]

namespace PolicyRegistry

variable {m : Type → Type}

/-- Whether the id of a descriptor is registered at least twice. -/
def isAmbiguous (registry : PolicyRegistry m) (descriptor : PolicyDescriptor) : Bool :=
  2 ≤ registry.ids.count descriptor.policyType.id

/-- An id is registered as often as it is listed. -/
theorem length_filter_registrations (registry : PolicyRegistry m) (id : String) :
    (registry.registrations.filter (·.1 == id)).length = registry.ids.count id := by
  rw [ids, List.count, List.countP_map, List.countP_eq_length_filter]
  rfl

/-- An id is looked up by its first registration, unless there is a second one. -/
theorem find_eq (registry : PolicyRegistry m) (id : String) :
    registry.find id =
      if 2 ≤ registry.ids.count id then .ambiguous
      else match registry.registrations.lookup id with
        | none => .notInstalled
        | some policy => .found policy := by
  rw [find, ← length_filter_registrations, lookup_eq_head?]
  generalize registry.registrations.filter (·.1 == id) = found
  match found with
  | [] => rfl
  | [_] => rfl
  | _ :: _ :: rest => rw [if_pos (by simp)]

end PolicyRegistry

/-- The failures that an answer of a policy adds: those that it reports, or one about an evaluation that
failed. -/
def PolicyType.failuresOf (policyType : PolicyType) :
    Except PolicyError (List PolicyFailure) → List PolicyFailure
  | .error error => [.evaluationFailed policyType error]
  | .ok failures => failures

namespace CheckinPolicy

/-- The evaluation for a descriptor: that of a fresh policy, or of one that loaded a configuration. -/
def loaded (policy : CheckinPolicy Id) : DescriptorFormat → Except PolicyError (PolicyEvaluation Id)
  | .stateless => .ok policy.evaluate
  | .stateful configuration => Id.run (policy.configure configuration)

/-- The failures that a policy adds for a descriptor. One whose configuration cannot be loaded adds just
that, and is not evaluated. -/
def verdict (policy : CheckinPolicy Id) (format : DescriptorFormat) (context : CheckinContext) :
    List PolicyFailure :=
  match policy.loaded format with
  | .error error => [.loadFailed policy.policyType error]
  | .ok evaluate => policy.policyType.failuresOf (Id.run (evaluate context))

/-- A policy does not say that it was cancelled when it is asked about a descriptor. -/
structure Uncancelled (policy : CheckinPolicy Id) (format : DescriptorFormat)
    (context : CheckinContext) : Prop where
  loaded : policy.loaded format ≠ .error .cancelled
  evaluate : ∀ evaluate, policy.loaded format = .ok evaluate →
    Id.run (evaluate context) ≠ .error .cancelled

end CheckinPolicy

namespace PolicyRegistry

/-- The failures that a descriptor adds whose id is not ambiguous. -/
def added (registry : PolicyRegistry Id) (nonInstalled : Bool) (context : CheckinContext)
    (descriptor : PolicyDescriptor) : List PolicyFailure :=
  match registry.registrations.lookup descriptor.policyType.id with
  | none => if nonInstalled then [.notInstalled descriptor] else []
  | some policy => policy.verdict descriptor.format context

/-- The failures of a project: what its descriptors add up to the first one whose id is ambiguous, which
adds a failure about that and is the last one. -/
def projectFailures (registry : PolicyRegistry Id) (context : CheckinContext)
    (project : ProjectPolicies) : List PolicyFailure :=
  (project.policies.takeWhile (!registry.isAmbiguous ·)).flatMap
      (registry.added project.compatibility.nonInstalled context) ++
    (project.policies.find? registry.isAmbiguous).toList.map (.duplicateId ·.policyType.id)

/-- No policy that is asked about a descriptor of the projects says that it was cancelled. -/
def Uncancelled (registry : PolicyRegistry Id) (context : CheckinContext) (projects : ProjectTable) :
    Prop :=
  ∀ entry ∈ projects, ∀ descriptor ∈ entry.2.policies, ∀ policy,
    registry.registrations.lookup descriptor.policyType.id = some policy →
      policy.Uncancelled descriptor.format context

/-- Policies that never cancel cancel no project. -/
theorem uncancelled_of_forall {registry : PolicyRegistry Id} {context : CheckinContext}
    (hpolicies : ∀ entry ∈ registry.registrations, ∀ format, entry.2.Uncancelled format context)
    (projects : ProjectTable) : registry.Uncancelled context projects := by
  intro _ _ descriptor _ policy hlookup
  obtain ⟨_, _, hregistrations, -⟩ := List.lookup_eq_some_iff.mp hlookup
  have hmem : (descriptor.policyType.id, policy) ∈ registry.registrations := by simp [hregistrations]
  exact hpolicies _ hmem descriptor.format

end PolicyRegistry

namespace Evaluation

section

variable {m : Type → Type} [Monad m]

/-- Takes over what a policy says about a check-in. -/
def heard (policyType : PolicyType) :
    Except PolicyError (List PolicyFailure) → ExceptT CheckinError m (List PolicyFailure)
  | .ok failures => pure failures
  | .error .cancelled => throw .cancelled
  | .error error => pure [.evaluationFailed policyType error]

/-- Goes on with what a policy made of a configuration. -/
def resumed (policyType : PolicyType) (context : CheckinContext) :
    Except PolicyError (PolicyEvaluation m) → ExceptT CheckinError m (List PolicyFailure)
  | .ok evaluate => do heard policyType (← evaluate context)
  | .error .cancelled => throw .cancelled
  | .error error => pure [.loadFailed policyType error]

/-- A policy without configuration is run as it is. -/
theorem runPolicy_stateless [LawfulMonad m] (policy : CheckinPolicy m) (context : CheckinContext) :
    runPolicy policy .stateless context = resumed policy.policyType context (.ok policy.evaluate) := by
  simp only [runPolicy, resumed, pure_bind]
  refine bind_congr fun answer => ?_
  obtain (_ | _) | _ := answer <;> rfl

/-- A policy with a configuration is run as it was configured. -/
theorem runPolicy_stateful (policy : CheckinPolicy m) (configuration : String)
    (context : CheckinContext) :
    runPolicy policy (.stateful configuration) context =
      (do resumed policy.policyType context (← policy.configure configuration)) := by
  refine bind_congr fun loading => ?_
  obtain (_ | _) | evaluate := loading
  · rfl
  · rfl
  · refine bind_congr fun answer => ?_
    obtain (_ | _) | _ := answer <;> rfl

end

variable {registry : PolicyRegistry Id} {context : CheckinContext}

/-- A policy that only answers is run to its verdict. -/
theorem runPolicy_eq {policy : CheckinPolicy Id} {format : DescriptorFormat}
    (hanswers : policy.Uncancelled format context) :
    runPolicy policy format context = pure (policy.verdict format context) := by
  have hresumed (loading : Except PolicyError (PolicyEvaluation Id))
      (hloading : policy.loaded format = loading) :
      resumed policy.policyType context loading = pure (policy.verdict format context) := by
    rw [CheckinPolicy.verdict, hloading]
    cases loading with
    | error error =>
      cases error with
      | cancelled => exact absurd hloading hanswers.loaded
      | failed reason => rfl
    | ok evaluate =>
      have hanswer := hanswers.evaluate evaluate hloading
      dsimp only [resumed]
      generalize evaluate context = answer at hanswer ⊢
      cases answer with
      | ok failures => rfl
      | error error =>
        cases error with
        | cancelled => exact absurd rfl hanswer
        | failed reason => rfl
  cases format with
  | stateless =>
    rw [runPolicy_stateless]
    exact hresumed _ rfl
  | stateful configuration =>
    rw [runPolicy_stateful]
    exact hresumed _ rfl

/-- The descriptors of a project are run one by one to the failures of the project. -/
theorem runDescriptors_eq {project : ProjectPolicies}
    (hanswers : ∀ descriptor ∈ project.policies, ∀ policy,
      registry.registrations.lookup descriptor.policyType.id = some policy →
        policy.Uncancelled descriptor.format context) :
    runDescriptors registry .never project.compatibility.nonInstalled context project.policies =
      pure (registry.projectFailures context project) := by
  obtain ⟨flags, descriptors⟩ := project
  induction descriptors with
  | nil => rfl
  | cons descriptor descriptors ih =>
    obtain ⟨hhere, hrest⟩ := List.forall_mem_cons.mp hanswers
    have hcheck : (Cancellation.never (m := Id)).check CheckinError.cancelled = pure () := rfl
    rw [runDescriptors, hcheck, pure_bind, PolicyRegistry.find_eq]
    cases hambiguous : registry.isAmbiguous descriptor with
    | true =>
      rw [if_pos (by simpa [PolicyRegistry.isAmbiguous] using hambiguous)]
      simp [PolicyRegistry.projectFailures, hambiguous]
    | false =>
      rw [if_neg (by simpa [PolicyRegistry.isAmbiguous] using hambiguous)]
      have hfailures : registry.projectFailures context ⟨flags, descriptor :: descriptors⟩ =
          registry.added flags.nonInstalled context descriptor ++
            registry.projectFailures context ⟨flags, descriptors⟩ := by
        simp [PolicyRegistry.projectFailures, hambiguous]
      rw [hfailures, PolicyRegistry.added]
      cases hlookup : registry.registrations.lookup descriptor.policyType.id with
      | none =>
        dsimp only
        rw [ih hrest, pure_bind]
      | some policy =>
        dsimp only
        rw [runPolicy_eq (hhere policy hlookup), pure_bind, ih hrest, pure_bind]

/-- The failures of the projects of a server stand one behind the other. -/
theorem runServer_eq {projects : ProjectTable} (hanswers : registry.Uncancelled context projects) :
    runServer registry .never context projects =
      pure (projects.flatMap fun entry => registry.projectFailures context entry.2) := by
  have hprojects : runProjects registry .never context projects =
      pure (projects.flatMap fun entry => registry.projectFailures context entry.2) := by
    induction projects with
    | nil => rfl
    | cons entry projects ih =>
      obtain ⟨hhere, hrest⟩ := List.forall_mem_cons.mp hanswers
      rw [runProjects, runDescriptors_eq hhere, ih hrest, List.flatMap_cons]
      rfl
  rw [runServer, hprojects]
  rfl

end Evaluation

namespace CheckinAttempt

/-- What an evaluation makes of an attempt, if no policy is cancelled. -/
def evaluatedBy (registry : PolicyRegistry Id) (attempt : CheckinAttempt) : CheckinAttempt :=
  { attempt with
    evaluated := true
    servers := attempt.servers.map fun (server, data) =>
      let context := data.context attempt.commitMessage
      let failures := data.projects.flatMap fun (_, project) => registry.projectFailures context project
      (server, { data with failures := some failures }) }

/-- No policy says that it was cancelled when it is asked about a server of the attempt. -/
def Uncancelled (registry : PolicyRegistry Id) (attempt : CheckinAttempt) : Prop :=
  ∀ entry ∈ attempt.servers,
    registry.Uncancelled (entry.2.context attempt.commitMessage) entry.2.projects

/-- An evaluation that nobody cancels ends well and stores the failures of every server. -/
theorem evaluate_eq {registry : PolicyRegistry Id} {attempt : CheckinAttempt}
    (hanswers : attempt.Uncancelled registry) :
    Id.run (attempt.evaluate registry .never) = (.ok (), attempt.evaluatedBy registry) := by
  have hservers (message : String) (servers : List (Server × ServerAttempt))
      (hanswers : ∀ entry ∈ servers, registry.Uncancelled (entry.2.context message) entry.2.projects) :
      evaluateServers registry .never message servers =
        (pure <| Prod.mk (.ok ()) <| servers.map fun (server, data) =>
          let context := data.context message
          let failures := data.projects.flatMap fun (_, project) =>
            registry.projectFailures context project
          (server, { data with failures := some failures }) : Id _) := by
    induction servers with
    | nil => rfl
    | cons entry servers ih =>
      obtain ⟨hhere, hrest⟩ := List.forall_mem_cons.mp hanswers
      rw [evaluateServers, Evaluation.runServer_eq hhere, ih hrest]
      rfl
  rw [evaluate, hservers _ _ hanswers]
  rfl

end CheckinAttempt

variable {σ : Type}

/-- In every world a policy says what `plain` says, also after it loaded a configuration. -/
structure CheckinPolicy.Give (policy : CheckinPolicy (StateM σ)) (plain : CheckinPolicy Id) : Prop where
  policyType : policy.policyType = plain.policyType
  evaluate : ∀ context, Gives (policy.evaluate context) (plain.evaluate context)
  configure : ∀ configuration world,
    EndsAlike (fun evaluate plain => ∀ context, Gives (evaluate context) (plain context))
      ((policy.configure configuration).run world).1 (Id.run (plain.configure configuration))

/-- The registered policies say what those of `plain` say, one for one. -/
def PolicyRegistry.Give (registry : PolicyRegistry (StateM σ)) (plain : PolicyRegistry Id) : Prop :=
  List.Forall₂ (fun entry other => other.1 = entry.1 ∧ entry.2.Give other.2) registry.registrations
    plain.registrations

namespace Evaluation

open Discovery (EndsAs)

variable {registry : PolicyRegistry (StateM σ)} {plain : PolicyRegistry Id}
  {cancellation : Cancellation (StateM σ)}

/-- A policy that only answers is run in every world as it is run in none. -/
theorem endsAs_runPolicy {policy : CheckinPolicy (StateM σ)} {plain : CheckinPolicy Id}
    (hgive : policy.Give plain) (format : DescriptorFormat) (context : CheckinContext) :
    EndsAs (runPolicy policy format context) (runPolicy plain format context) := by
  have hresumed (loading : Except PolicyError (PolicyEvaluation (StateM σ)))
      (loading' : Except PolicyError (PolicyEvaluation Id))
      (hloading : EndsAlike (fun evaluate plain => ∀ context, Gives (evaluate context) (plain context))
        loading loading') :
      EndsAs (resumed plain.policyType context loading) (resumed plain.policyType context loading') := by
    cases hloading with
    | error error =>
      cases error with
      | cancelled => exact .of_throw
      | failed reason => exact .of_pure
    | ok hevaluate =>
      refine .bind (.of_lift (hevaluate context)) fun answer => ?_
      cases answer with
      | ok failures => exact .of_pure
      | error error =>
        cases error with
        | cancelled => exact .of_throw
        | failed reason => exact .of_pure
  cases format with
  | stateless =>
    rw [runPolicy_stateless, runPolicy_stateless, hgive.policyType]
    exact hresumed _ _ (.ok hgive.evaluate)
  | stateful configuration =>
    rw [runPolicy_stateful, runPolicy_stateful, hgive.policyType]
    -- What was loaded differs in kind between the two, so it is compared in one world.
    intro world
    exact hresumed _ _ (hgive.configure configuration world) _

/-- The descriptors are run in every world as they are in none, by induction over them. -/
theorem endsAs_runDescriptors (hgive : registry.Give plain) (hflag : cancellation.Never)
    (nonInstalled : Bool) (context : CheckinContext) (descriptors : List PolicyDescriptor) :
    EndsAs (runDescriptors registry cancellation nonInstalled context descriptors)
      (runDescriptors plain .never nonInstalled context descriptors) := by
  have hids : plain.ids = registry.ids := map_eq_of_forall₂ hgive fun _ _ hentry => hentry.1
  induction descriptors with
  | nil => exact .of_pure
  | cons descriptor descriptors ih =>
    refine .bind (.check hflag _) fun _ => ?_
    have hlookup := lookup_rel hgive descriptor.policyType.id
    rw [PolicyRegistry.find_eq, PolicyRegistry.find_eq, hids]
    by_cases hcount : 2 ≤ registry.ids.count descriptor.policyType.id
    · rw [if_pos hcount, if_pos hcount]
      exact .of_pure
    · rw [if_neg hcount, if_neg hcount]
      generalize registry.registrations.lookup descriptor.policyType.id = found,
        plain.registrations.lookup descriptor.policyType.id = found' at hlookup
      cases hlookup with
      | none => exact .bind ih fun _ => .of_pure
      | some hpolicy =>
        exact .bind (endsAs_runPolicy hpolicy _ _) fun _ => .bind ih fun _ => .of_pure

theorem endsAs_runServer (hgive : registry.Give plain) (hflag : cancellation.Never)
    (context : CheckinContext) (projects : ProjectTable) :
    EndsAs (runServer registry cancellation context projects)
      (runServer plain .never context projects) := by
  have hprojects : EndsAs (runProjects registry cancellation context projects)
      (runProjects plain .never context projects) := by
    induction projects with
    | nil => exact .of_pure
    | cons entry projects ih =>
      exact .bind (endsAs_runDescriptors hgive hflag _ _ _) fun _ => .bind ih fun _ => .of_pure
  exact .bind hprojects fun _ => .bind (.check hflag _) fun _ => .of_pure

end Evaluation

namespace CheckinAttempt

variable {registry : PolicyRegistry (StateM σ)} {plain : PolicyRegistry Id}
  {cancellation : Cancellation (StateM σ)} {attempt : CheckinAttempt}

/-- An evaluation of policies that only answer is no matter of the world. -/
theorem gives_evaluate (hgive : registry.Give plain) (hflag : cancellation.Never)
    (attempt : CheckinAttempt) :
    Gives (attempt.evaluate registry cancellation) (attempt.evaluate plain .never) := by
  have hservers (message : String) (servers : List (Server × ServerAttempt)) :
      Gives (evaluateServers registry cancellation message servers)
        (evaluateServers plain .never message servers) := by
    induction servers with
    | nil => exact .of_pure
    | cons entry servers ih =>
      refine .bind (Evaluation.endsAs_runServer hgive hflag _ _) fun result => ?_
      cases result with
      | error error => exact .of_pure
      | ok failures => exact .bind ih fun _ => .of_pure
  exact .bind (hservers _ _) fun _ => .of_pure

/-- The projects of a server come in the order of their names, whatever was done with an attempt. -/
theorem Reachable.pairwise_projects (hreachable : attempt.Reachable) :
    ∀ entry ∈ attempt.servers, (entry.2.projects.map (·.1)).Pairwise (· < ·) := by
  induction hreachable with
  | start hstart =>
    rw [startCheckin] at hstart
    obtain ⟨discovery, _, hdiscover, hstart⟩ := exists_of_bind_ok hstart
    cases hstart
    obtain ⟨-, hcomplete⟩ := Discovery.complete_of_discover hdiscover
    intro entry hentry
    obtain ⟨_, hfound, rfl⟩ := List.mem_map.mp hentry
    obtain ⟨discovered, hmem, rfl⟩ := List.mem_map.mp hfound
    have hkeys := (hcomplete discovered hmem).projects.keys
    exact hkeys ▸ Discovery.pairwise_projects discovered.group
  | step _ step world ih =>
    intro entry hentry
    obtain ⟨before, hbefore, hmoves⟩ :=
      exists_of_mem_of_forall₂ (step.moves_run _ world) hentry
    rw [hmoves.projects]
    exact ih before hbefore

/-- Evaluating policies that only answer, none of them with a cancellation, and never cancelled from
outside, ends well. The failures recorded for a server are those of its projects, one project after the
other in the order of their names, each as it would be for the project alone. -/
theorem evaluate_concatenates_projects (hgive : registry.Give plain) (hflag : cancellation.Never)
    (hanswers : attempt.Uncancelled plain) (world : σ) :
    ((attempt.evaluate registry cancellation).run world).1 = (.ok (), attempt.evaluatedBy plain) ∧
      (attempt.Reachable → ∀ entry ∈ attempt.servers,
        (entry.2.projects.map (·.1)).Pairwise (· < ·)) := by
  have hevaluate := gives_evaluate hgive hflag attempt world
  rw [evaluate_eq hanswers] at hevaluate
  exact ⟨hevaluate, Reachable.pairwise_projects⟩

/-- A registry with a policy that reports, one that fails, and two of one id. None can be configured. -/
def assorted [Pure m] : PolicyRegistry m :=
  let policy (id : String) (answer : Except PolicyError (List PolicyFailure)) :
      String × CheckinPolicy m :=
    (id,
      { policyType := { id, name := id }
        evaluate := fun _ => pure answer
        configure := fun _ => pure (.error (.failed "no such setting")) })
  let warning : PolicyFailure := .reported { id := "warn", name := "warn" } "fix it" none
  { registrations :=
      [policy "warn" (.ok [warning]), policy "odd" (.error (.failed "odd")), policy "twin" (.ok []),
        policy "twin" (.ok [])] }

theorem give_assorted : (assorted : PolicyRegistry (StateM σ)).Give assorted := by
  refine .cons ⟨rfl, ?_⟩ (.cons ⟨rfl, ?_⟩ (.cons ⟨rfl, ?_⟩ (.cons ⟨rfl, ?_⟩ .nil)))
  all_goals exact ⟨rfl, fun _ _ => rfl, fun _ _ => .error _⟩

theorem uncancelled_assorted (attempt : CheckinAttempt) : attempt.Uncancelled assorted := by
  refine fun _ _ => PolicyRegistry.uncancelled_of_forall (fun entry hentry format => ?_) _
  simp only [assorted, List.mem_cons, List.not_mem_nil, or_false] at hentry
  refine ⟨?_, fun evaluate hevaluate => ?_⟩
  · rcases hentry with rfl | rfl | rfl | rfl <;> cases format <;> exact nofun
  · rcases hentry with rfl | rfl | rfl | rfl <;> cases format <;> cases hevaluate <;> exact nofun

/-- An ambiguous id ends its own project only, and a project says for itself whether it minds policies
that are not installed. -/
theorem evaluate_concatenates_projects_assorted :
    let descriptor (id : String) (format : DescriptorFormat) : PolicyDescriptor :=
      { policyType := { id, name := id }, enabled := true, format }
    let first : ProjectPolicies :=
      { compatibility := {}
        policies := [descriptor "gone" .stateless, descriptor "warn" .stateless,
          descriptor "twin" .stateless, descriptor "warn" .stateless] }
    let second : ProjectPolicies :=
      { compatibility := { nonInstalled := true }
        policies := [descriptor "gone" (.stateful "x"), descriptor "warn" (.stateful "x"),
          descriptor "odd" .stateless] }
    let attempt : CheckinAttempt :=
      { servers := [(.ofUri "http://a",
          { notes := [], files := [], serverPaths := [], projects := [("$/A", first), ("$/B", second)] })] }
    ∃ after, ((attempt.evaluate (m := StateM Unit) assorted .never).run ()).1 = (.ok (), after) ∧
      after.allFailures.map (·.kind) =
        [.reported, .duplicateId, .notInstalled false, .loadFailed, .evaluationFailed] := by
  intro descriptor first second attempt
  obtain ⟨hevaluate, -⟩ := evaluate_concatenates_projects (σ := Unit) give_assorted
    Cancellation.never_never (uncancelled_assorted attempt) ()
  exact ⟨_, hevaluate, by decide +kernel⟩

end CheckinAttempt

end Reconcile
