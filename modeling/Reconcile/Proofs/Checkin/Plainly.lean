import Reconcile.Proofs.Checkin.Answered
import Reconcile.Proofs.Checkin.Asked
import Reconcile.Proofs.Checkin.Recorded

namespace Reconcile

variable {σ α β : Type} {projects : List ServerPath}

/-- The table in which each project has these flags and policies. -/
def ProjectTable.of (projects : List ServerPath) (flags : ServerPath → Compatibility)
    (policies : ServerPath → List PolicyDescriptor) : ProjectTable :=
  projects.map fun project => (project, { compatibility := flags project, policies := policies project })

namespace ProjectTable

variable {flags flags' : ServerPath → Compatibility}
  {policies policies' : ServerPath → List PolicyDescriptor} {project : ServerPath}

/-- A table by project holds an entry for every project and for nothing else. -/
theorem lookup_of (projects : List ServerPath) (flags : ServerPath → Compatibility)
    (policies : ServerPath → List PolicyDescriptor) (project : ServerPath) :
    (of projects flags policies).lookup project =
      if project ∈ projects then some ⟨flags project, policies project⟩ else none := by
  induction projects with
  | nil => rfl
  | cons other projects ih =>
    rw [of, List.map_cons, List.lookup_cons]
    by_cases hproject : project = other
    · simp [hproject]
    · simpa [of, hproject, beq_false_of_ne hproject] using ih

/-- Changing one entry of a table by project is changing what it says of that project. -/
theorem modify_of {f : ProjectPolicies → ProjectPolicies}
    (hhere : f ⟨flags project, policies project⟩ = ⟨flags' project, policies' project⟩)
    (hothers : ∀ other, other ≠ project →
      flags' other = flags other ∧ policies' other = policies other) :
    (of projects flags policies).modify project f = of projects flags' policies' := by
  rw [modify, of, of, List.map_map]
  refine List.map_congr_left fun other _ => ?_
  by_cases hproject : other = project
  · subst hproject
    simp [hhere]
  · obtain ⟨hflags, hpolicies⟩ := hothers other hproject
    simp [hproject, hflags, hpolicies]

end ProjectTable

/-- Reads values in order, up to the first one that cannot be read, which is told as well. -/
def readInOrder (read : String → Except AnnotationError α) :
    List (ServerPath × String) → List (ServerPath × α) × Option AnnotationError
  | [] => ([], none)
  | (project, value) :: values =>
    match read value with
    | .error error => ([], some error)
    | .ok a =>
      let (found, unreadable) := readInOrder read values
      ((project, a) :: found, unreadable)

namespace Discovery

/-- The end of a step that reads values: the problem with the one that could not be read, if there is one. -/
def ended (unreadable : Option AnnotationError) (a : α) : Except LoadProblem α :=
  match unreadable with
  | none => .ok a
  | some error => .error (.unreadable error)

/-- The flags of a project: those that were found last for it, or else those that it had. -/
def flagsAfter (found : List (ServerPath × Compatibility)) (flags : ServerPath → Compatibility)
    (project : ServerPath) : Compatibility :=
  (found.reverse.lookup project).getD (flags project)

/-- The enabled ones of the descriptors that were found for a project, in order. -/
def enabledFor (found : List (ServerPath × List PolicyDescriptor)) (project : ServerPath) :
    List PolicyDescriptor :=
  (found.filter (·.1 == project)).flatMap fun entry => entry.2.filter (·.enabled)

/-- Flags that come later replace those that came before. -/
theorem flagsAfter_cons (project : ServerPath) (here : Compatibility)
    (found : List (ServerPath × Compatibility)) (flags : ServerPath → Compatibility) :
    flagsAfter ((project, here) :: found) flags =
      flagsAfter found fun other => if other = project then here else flags other := by
  funext other
  rw [flagsAfter, flagsAfter, List.reverse_cons, List.lookup_append]
  cases found.reverse.lookup other with
  | some flags => rfl
  | none =>
    by_cases hproject : other = project
    · simp [hproject]
    · simp [hproject, List.lookup_cons, beq_false_of_ne hproject]

/-- Of the descriptors of a project the enabled ones are kept, in order. -/
theorem enabledFor_cons (project : ServerPath) (descriptors : List PolicyDescriptor)
    (found : List (ServerPath × List PolicyDescriptor)) (other : ServerPath) :
    enabledFor ((project, descriptors) :: found) other =
      (if other = project then descriptors.filter (·.enabled) else []) ++ enabledFor found other := by
  by_cases hproject : other = project
  · simp [enabledFor, hproject]
  · simp [enabledFor, hproject, Ne.symm hproject]

/-- Overrides are read in order, and the last one of a project counts. The answer says what was known
before or is true of some flags that were read. -/
theorem run_applyOverrides (found : Bool × Bool) (values : List (ServerPath × String))
    (flags : ServerPath → Compatibility) (policies : ServerPath → List PolicyDescriptor) :
    let overrides := readInOrder Compatibility.ofAnnotation (values.filter (projects.contains ·.1))
    (applyOverrides found values : LoadM (StateM σ) _).run.run (.of projects flags policies) =
      (pure (ended overrides.2 (found.1 || overrides.1.any (·.2.teamExplorer),
          found.2 || overrides.1.any (·.2.teamprise)),
        .of projects (flagsAfter overrides.1 flags) policies) : StateM σ _) := by
  induction values generalizing found flags with
  | nil =>
    simp [readInOrder, applyOverrides, ended]
    rfl
  | cons entry values ih =>
    obtain ⟨project, value⟩ := entry
    rw [run_applyOverrides_cons, ProjectTable.lookup_of]
    by_cases hproject : project ∈ projects
    · have hknown : projects.contains project = true := by simpa using hproject
      rw [List.filter_cons_of_pos (by simpa using hproject), if_pos hproject, readInOrder]
      cases Compatibility.ofAnnotation value with
      | error error => rfl
      | ok here =>
        -- The flags are put in force, so the rest is read from a table that is told by other flags.
        have hmodify : (ProjectTable.of projects flags policies).modify project
            (fun data => { data with compatibility := here }) =
              .of projects (fun other => if other = project then here else flags other) policies :=
          ProjectTable.modify_of (by simp) fun other hother => by simp [hother]
        dsimp only
        rw [hmodify, if_neg (by simp), ih]
        simp [flagsAfter_cons, Bool.or_assoc]
    · rw [List.filter_cons_of_neg (by simpa using hproject), if_neg hproject]
      exact ih found flags

/-- The values of the projects whose flags honour their kind are read in order, and what they have is added
to the policies of their projects. -/
theorem run_addDescriptors (honours : Compatibility → Bool)
    (read : String → Except AnnotationError (List PolicyDescriptor)) (values : List (ServerPath × String))
    (flags : ServerPath → Compatibility) (policies : ServerPath → List PolicyDescriptor) :
    let descriptors := readInOrder read
      (values.filter fun entry => projects.contains entry.1 && honours (flags entry.1))
    (addDescriptors honours read values : LoadM (StateM σ) _).run.run (.of projects flags policies) =
      (pure (ended descriptors.2 (), .of projects flags fun project =>
        policies project ++ enabledFor descriptors.1 project) : StateM σ _) := by
  induction values generalizing policies with
  | nil =>
    simp [readInOrder, addDescriptors, ended, enabledFor]
  | cons entry values ih =>
    obtain ⟨project, value⟩ := entry
    have hhonours : (if project ∈ projects then
        some (ProjectPolicies.mk (flags project) (policies project)) else none).any
          (honours ·.compatibility) = (projects.contains project && honours (flags project)) := by
      by_cases hproject : project ∈ projects <;> simp [hproject]
    rw [run_addDescriptors_cons, ProjectTable.lookup_of, hhonours]
    by_cases hread : (projects.contains project && honours (flags project)) = true
    · rw [List.filter_cons_of_pos (by simpa using hread), if_pos hread, readInOrder]
      cases read value with
      | error error => simp [ended, enabledFor]
      | ok descriptors =>
        have hmodify : (ProjectTable.of projects flags policies).modify project
            (fun data => { data with policies := data.policies ++ descriptors.filter (·.enabled) }) =
              .of projects flags fun other => policies other ++
                if other = project then descriptors.filter (·.enabled) else [] :=
          ProjectTable.modify_of (by simp) fun other hother => by simp [hother]
        dsimp only
        rw [hmodify, ih]
        simp [enabledFor_cons]
    · rw [List.filter_cons_of_neg (by simpa using hread), if_neg hread]
      exact ih policies

end Discovery

/-- What the policies of a server are told from: its team projects, the flags of those without an override,
and the annotations of every kind that it has for each of them. -/
structure AnnotatedServer where
  server : Server
  projects : List ServerPath
  defaults : Compatibility
  annotations : AnnotationKind → ServerPath → List Annotation

namespace AnnotatedServer

open Discovery

variable (source : AnnotatedServer)

/-- The values of annotations of a kind, in the order of the queries, with the team projects of their
items. -/
def values (kind : AnnotationKind) : List (ServerPath × String) :=
  source.projects.flatMap fun project => (source.annotations kind project).filterMap Annotation.keyed?

/-- The flags in the overrides of known projects, up to the first override that cannot be read. -/
def overrides : List (ServerPath × Compatibility) × Option AnnotationError :=
  readInOrder Compatibility.ofAnnotation ((source.values .overrides).filter (source.projects.contains ·.1))

/-- The flags of a project in the end: those of its last override, or else the defaults. -/
def flags (project : ServerPath) : Compatibility :=
  flagsAfter source.overrides.1 (fun _ => source.defaults) project

/-- The descriptors of a kind for the known projects whose flags honour it, up to the first annotation that
cannot be read. -/
def descriptors (kind : AnnotationKind) :
    List (ServerPath × List PolicyDescriptor) × Option AnnotationError :=
  readInOrder kind.read ((source.values kind).filter fun entry =>
    source.projects.contains entry.1 && kind.honours (source.flags entry.1))

/-- The enabled descriptors of a kind for a project, in order. -/
def enabled (kind : AnnotationKind) (project : ServerPath) : List PolicyDescriptor :=
  enabledFor (source.descriptors kind).1 project

/-- The policies of the projects: first the flags, then the stateless descriptors and then the stateful
ones, up to the first annotation that cannot be read. -/
def loaded : Except LoadProblem Unit × ProjectTable :=
  match source.overrides.2 with
  | some error => (.error (.unreadable error), .of source.projects source.flags fun _ => [])
  | none =>
    match (source.descriptors .statelessPolicies).2 with
    | some error =>
      (.error (.unreadable error), .of source.projects source.flags (source.enabled .statelessPolicies))
    | none =>
      (ended (source.descriptors .statefulPolicies).2 (),
        .of source.projects source.flags fun project =>
          source.enabled .statelessPolicies project ++ source.enabled .statefulPolicies project)

/-- Why there is an end before annotations of a kind are read. -/
def stopBefore : AnnotationKind → Option AnnotationError
  | .overrides => none
  | .statelessPolicies => source.overrides.2
  | .statefulPolicies => source.overrides.2.or (source.descriptors .statelessPolicies).2

theorem stopBefore_eq_none_of_ok (hok : source.loaded.1 = .ok ()) (kind : AnnotationKind) :
    source.stopBefore kind = none := by
  rw [loaded] at hok
  cases hoverrides : source.overrides.2 with
  | some error => simp [hoverrides] at hok
  | none =>
    cases hstateless : (source.descriptors .statelessPolicies).2 with
    | some error => simp [hoverrides, hstateless] at hok
    | none => cases kind <;> simp [stopBefore, hoverrides, hstateless]

/-- The flags of a project are those in force when loading ends. -/
theorem compatibility_of_mem_loaded {entry : ServerPath × ProjectPolicies}
    (hentry : entry ∈ source.loaded.2) : entry.2.compatibility = source.flags entry.1 := by
  have hof {policies : ServerPath → List PolicyDescriptor}
      (hmem : entry ∈ ProjectTable.of source.projects source.flags policies) :
      entry.2.compatibility = source.flags entry.1 := by
    obtain ⟨project, -, rfl⟩ := List.mem_map.mp hmem
    rfl
  rw [loaded] at hentry
  split at hentry
  · exact hof hentry
  · split at hentry <;> exact hof hentry

/-- Whether some flags that loading comes across honour a kind. -/
def honoured (kind : AnnotationKind) : Bool :=
  kind.honours source.defaults || source.overrides.1.any (kind.honours ·.2)

/-- The flags in force are among those that loading comes across. -/
theorem honoured_of_honours {kind : AnnotationKind} {project : ServerPath}
    (hhonours : kind.honours (source.flags project) = true) : source.honoured kind = true := by
  rw [flags, flagsAfter] at hhonours
  cases hfound : source.overrides.1.reverse.lookup project with
  | none =>
    rw [hfound] at hhonours
    exact Bool.or_eq_true_iff.mpr (Or.inl hhonours)
  | some flags =>
    rw [hfound] at hhonours
    obtain ⟨before, after, hsplit, -⟩ := List.lookup_eq_some_iff.mp hfound
    have hmem : (project, flags) ∈ source.overrides.1 := List.mem_reverse.mp (by simp [hsplit])
    exact Bool.or_eq_true_iff.mpr (Or.inr (List.any_eq_true.mpr ⟨_, hmem, hhonours⟩))

/-- A kind that none of them honours has no descriptors for anybody. -/
theorem descriptors_eq_nil {kind : AnnotationKind} (hnone : source.honoured kind = false) :
    source.descriptors kind = ([], none) := by
  have hvalues : ((source.values kind).filter fun entry =>
      source.projects.contains entry.1 && kind.honours (source.flags entry.1)) = [] := by
    refine List.filter_eq_nil_iff.mpr fun entry _ hentry => ?_
    have hhonours := source.honoured_of_honours (Bool.and_eq_true_iff.mp hentry).2
    rw [hnone] at hhonours
    cases hhonours
  rw [descriptors, hvalues, readInOrder]

/-- The queries for annotations of a kind, with their answers. -/
def asks (kind : AnnotationKind) : List Asked :=
  source.projects.map fun project =>
    ⟨source.server, .annotations kind project (.ok (source.annotations kind project)), false⟩

/-- What is asked about a kind if loading gets to it. -/
def asksHonoured (kind : AnnotationKind) : List Asked :=
  if source.honoured kind then source.asks kind else []

/-- What loading asks. -/
def asked : List Asked :=
  source.asks .overrides ++
    if source.overrides.2.isSome then []
    else source.asksHonoured .statelessPolicies ++
      if (source.descriptors .statelessPolicies).2.isSome then []
      else source.asksHonoured .statefulPolicies

/-- A kind that is honoured is asked for, unless loading stops before it. -/
theorem asks_subset_asked {kind : AnnotationKind} (hstop : source.stopBefore kind = none)
    (hhonoured : source.honoured kind = true) : source.asks kind ⊆ source.asked := by
  rw [asked]
  cases kind with
  | overrides => exact List.subset_append_left _ _
  | statelessPolicies =>
    have hoverrides : source.overrides.2 = none := hstop
    simp [hoverrides, asksHonoured, hhonoured]
  | statefulPolicies =>
    obtain ⟨hoverrides, hstateless⟩ := Option.or_eq_none_iff.mp hstop
    simp [hoverrides, hstateless, asksHonoured, hhonoured]

end AnnotatedServer

/-- In every world, the queries for the annotations of the server are answered with those that it has. -/
def Queries.Annotate (queries : Queries (StateM σ)) (source : AnnotatedServer) : Prop :=
  ∀ kind project,
    Gives (queries.annotations source.server kind project) (pure (.ok (source.annotations kind project)))

namespace Discovery

/-- A flag that nobody raises. -/
def unraised (_ : σ) : Bool :=
  false

/-- From a table, a step comes to a result and leaves a table, and asks this; with a record as without. -/
def Comes (step : LoadM (StateM σ) α) (step' : LoadM (StateM (σ × List Asked)) α) (table : ProjectTable)
    (result : Except LoadProblem α) (after : ProjectTable) (asked : List Asked) : Prop :=
  ∀ world, Shows (step.run.run table) (step'.run.run table) world
    fun ending more _ => ending = (result, after) ∧ more = asked

namespace Comes

variable {step : LoadM (StateM σ) α} {step' : LoadM (StateM (σ × List Asked)) α}
  {next : α → LoadM (StateM σ) β} {next' : α → LoadM (StateM (σ × List Asked)) β}
  {table middle after : ProjectTable} {asked more : List Asked}

theorem of_settled {result : Except LoadProblem α}
    (hstep : step.run.run table = (pure (result, after) : StateM σ _))
    (hstep' : step'.run.run table = (pure (result, after) : StateM (σ × List Asked) _)) :
    Comes step step' table result after [] := by
  intro world
  rw [hstep, hstep']
  exact .of_pure ⟨rfl, rfl⟩

theorem of_pure {a : α} : Comes (pure a : LoadM (StateM σ) α) (pure a) table (.ok a) table [] :=
  of_settled rfl rfl

/-- A step that ends well leaves its table and its queries to the next one. -/
theorem bind_ok {a : α} {result : Except LoadProblem β}
    (hstep : Comes step step' table (.ok a) middle asked)
    (hnext : Comes (next a) (next' a) middle result after more) :
    Comes (step >>= next) (step' >>= next') table result after (asked ++ more) := by
  intro world
  refine Shows.step_bind ((hstep world).imp fun ending here world' hending => ?_)
  obtain ⟨rfl, rfl⟩ := hending
  exact (hnext world').imp fun _ _ _ hending => ⟨hending.1, congrArg _ hending.2⟩

/-- A problem ends the steps with what was asked so far. -/
theorem bind_error {problem : LoadProblem} (hstep : Comes step step' table (.error problem) after asked) :
    Comes (step >>= next) (step' >>= next') table (.error problem) after asked := by
  intro world
  refine Shows.step_bind ((hstep world).imp fun ending here world' hending => ?_)
  obtain ⟨rfl, rfl⟩ := hending
  exact .of_pure ⟨rfl, List.append_nil _⟩

end Comes

variable {queries : Queries (StateM σ)} {source : AnnotatedServer}

/-- Every project is asked about, in order, and the values come as they were answered. -/
theorem comes_annotationValues (hgive : queries.Annotate source) (kind : AnnotationKind)
    (table : ProjectTable) :
    Comes (annotationValues queries source.server kind source.projects)
      (annotationValues (queries.recorded unraised) source.server kind source.projects) table
      (.ok (source.values kind)) table (source.asks kind) := by
  rw [AnnotatedServer.values, AnnotatedServer.asks]
  induction source.projects with
  | nil => exact .of_pure
  | cons project projects ih =>
    intro world
    refine Shows.load_bind (Shows.of_ask fun answer world' hanswer => ?_)
    have hgiven : answer = .ok (source.annotations kind project) :=
      (congrArg Prod.fst hanswer).symm.trans (hgive kind project world)
    subst hgiven
    have hrest : Comes (do return (source.annotations kind project).filterMap Annotation.keyed? ++
          (← annotationValues queries source.server kind projects))
        (do return (source.annotations kind project).filterMap Annotation.keyed? ++
          (← annotationValues (queries.recorded unraised) source.server kind projects)) table
        (.ok <| (project :: projects).flatMap fun project =>
          (source.annotations kind project).filterMap Annotation.keyed?) table
        (projects.map fun project =>
          ⟨source.server, .annotations kind project (.ok (source.annotations kind project)), false⟩) := by
      rw [← List.append_nil (projects.map _)]
      exact ih.bind_ok .of_pure
    exact (hrest world').imp fun _ _ _ hending => ⟨hending.1, congrArg _ hending.2⟩

/-- The flags come to those in force, and what is honoured to what some project or the defaults
    honour. -/
theorem comes_applyOverrides (source : AnnotatedServer) :
    Comes (σ := σ) (applyOverrides (source.defaults.teamExplorer, source.defaults.teamprise)
        (source.values .overrides))
      (applyOverrides (source.defaults.teamExplorer, source.defaults.teamprise) (source.values .overrides))
      (.of source.projects (fun _ => source.defaults) fun _ => [])
      (ended source.overrides.2 (source.honoured .statelessPolicies, source.honoured .statefulPolicies))
      (.of source.projects source.flags fun _ => []) [] :=
  .of_settled (run_applyOverrides _ _ _ _) (run_applyOverrides _ _ _ _)

/-- The policies grow by the enabled descriptors of a kind, up to the first value that cannot be
    read. -/
theorem comes_addDescriptors (source : AnnotatedServer) (kind : AnnotationKind)
    (policies : ServerPath → List PolicyDescriptor) :
    Comes (σ := σ) (addDescriptors kind.honours kind.read (source.values kind))
      (addDescriptors kind.honours kind.read (source.values kind))
      (.of source.projects source.flags policies) (ended (source.descriptors kind).2 ())
      (.of source.projects source.flags fun project => policies project ++ source.enabled kind project) [] :=
  .of_settled (run_addDescriptors _ _ _ _ _) (run_addDescriptors _ _ _ _ _)

/-- A kind that nothing honours adds no descriptors, so not asking for it makes no difference. -/
theorem comes_addKind (hgive : queries.Annotate source) (kind : AnnotationKind)
    (policies : ServerPath → List PolicyDescriptor) :
    Comes (addKind queries source.server source.projects kind (source.honoured kind))
      (addKind (queries.recorded unraised) source.server source.projects kind (source.honoured kind))
      (.of source.projects source.flags policies) (ended (source.descriptors kind).2 ())
      (.of source.projects source.flags fun project => policies project ++ source.enabled kind project)
      (source.asksHonoured kind) := by
  rw [addKind, addKind, AnnotatedServer.asksHonoured]
  cases hhonoured : source.honoured kind with
  | false =>
    have hnone := source.descriptors_eq_nil hhonoured
    simp only [AnnotatedServer.enabled, hnone, enabledFor, ended]
    simpa using Comes.of_pure
  | true =>
    simpa using (comes_annotationValues hgive kind _).bind_ok (comes_addDescriptors source kind policies)

/-- Loading comes to what the annotations tell, and this is what it asks. -/
theorem comes_loadPolicies (hgive : queries.Annotate source) :
    Comes (loadPolicies queries source.server source.projects source.defaults)
      (loadPolicies (queries.recorded unraised) source.server source.projects source.defaults)
      (.of source.projects (fun _ => source.defaults) fun _ => []) source.loaded.1 source.loaded.2
      source.asked := by
  have hvalues := comes_annotationValues hgive .overrides
    (.of source.projects (fun _ => source.defaults) fun _ => [])
  have hflags := comes_applyOverrides (σ := σ) source
  have hstateless := comes_addKind hgive .statelessPolicies fun _ => []
  have hstateful := comes_addKind hgive .statefulPolicies (source.enabled .statelessPolicies)
  rw [loadPolicies_eq_addKind, loadPolicies_eq_addKind, AnnotatedServer.loaded, AnnotatedServer.asked]
  refine hvalues.bind_ok ?_
  -- Loading ends at the first part that meets an unreadable annotation, with what that part leaves.
  cases hoverrides : source.overrides.2 with
  | some error =>
    rw [hoverrides] at hflags
    exact hflags.bind_error
  | none =>
    rw [hoverrides] at hflags
    refine hflags.bind_ok ?_
    cases hread : (source.descriptors .statelessPolicies).2 with
    | some error =>
      rw [hread] at hstateless
      simpa using hstateless.bind_error
    | none =>
      rw [hread] at hstateless
      exact hstateless.bind_ok hstateful

/-- If a server answers, and by nothing but the query, loading its policies comes to what its annotations of
all kinds tell for all projects: with the same end, the same flags and the same policies. A kind that is
honoured by the flags that a project has in the end was asked for every project, unless an annotation of an
earlier kind had put an end to loading. -/
theorem loadPolicies_skips_nothing (hgive : queries.Annotate source) (world : σ) :
    ∃ world' asked,
      ((loadPolicies queries source.server source.projects source.defaults).run.run
        (source.projects.map fun project => (project, { compatibility := source.defaults }))).run world =
          (source.loaded, world') ∧
      ((loadPolicies (queries.recorded unraised) source.server source.projects source.defaults).run.run
        (source.projects.map fun project => (project, { compatibility := source.defaults }))).run
          (world, []) = (source.loaded, world', asked) ∧
      ∀ kind, source.loaded.1 = .ok () ∨ source.stopBefore kind = none →
        ∀ entry ∈ source.loaded.2, kind.honours entry.2.compatibility = true →
        ∀ project ∈ source.projects,
          ⟨source.server, .annotations kind project (.ok (source.annotations kind project)), false⟩ ∈
            asked := by
  obtain ⟨ending, asked, world', hplain, hrecorded, hending, rfl⟩ :=
    comes_loadPolicies hgive world []
  cases hending
  refine ⟨world', source.asked, hplain, hrecorded, ?_⟩
  intro kind hgoes entry hentry hhonours project hproject
  have hstop : source.stopBefore kind = none :=
    hgoes.elim (source.stopBefore_eq_none_of_ok · kind) id
  rw [source.compatibility_of_mem_loaded hentry] at hhonours
  exact source.asks_subset_asked hstop (source.honoured_of_honours hhonours)
    (List.mem_map.mpr ⟨project, hproject, rfl⟩)

/-- One project has its stateless definitions honoured by an override and no longer by the next one. They
are asked for, but nobody reads them; and the stateful ones are asked for also where they are not honoured. -/
theorem loadPolicies_skips_nothing_replaced :
    let first : Compatibility := ⟨true, false, false⟩
    let last : Compatibility := ⟨false, true, false⟩
    let source : AnnotatedServer :=
      { server := .ofUri "http://a"
        projects := ["$/A", "$/B"]
        defaults := ⟨false, false, false⟩
        annotations := fun
          | .overrides, "$/A" => [⟨"$/A", some first.toAnnotation⟩, ⟨"$/A/x", some last.toAnnotation⟩]
          | .statelessPolicies, project => [⟨project, some "unreadable"⟩]
          | _, _ => [] }
    let queries : Queries (StateM Unit) :=
      { noteDefinitions := fun _ _ => pure (.ok [])
        annotations := fun _ kind project => pure (.ok (source.annotations kind project)) }
    let table : ProjectTable :=
      [("$/A", { compatibility := last }), ("$/B", { compatibility := source.defaults })]
    queries.Annotate source ∧ ∃ asked,
      ((loadPolicies (queries.recorded unraised) source.server source.projects source.defaults).run.run
        (source.projects.map fun project => (project, { compatibility := source.defaults }))).run
          ((), []) = ((.ok (), table), ((), asked)) ∧
      ⟨source.server, .annotations .statefulPolicies "$/B" (.ok []), false⟩ ∈ asked := by
  intro first last source queries table
  have hgive : queries.Annotate source := fun _ _ _ => rfl
  have hloaded : source.loaded = (.ok (), table) := by decide +kernel
  obtain ⟨_, asked, -, hrecorded, hasked⟩ := loadPolicies_skips_nothing hgive ()
  have hended : source.loaded.1 = .ok () := by rw [hloaded]
  have hmem : ("$/A", { compatibility := last }) ∈ source.loaded.2 := by
    rw [hloaded]
    exact List.mem_cons_self
  refine ⟨hgive, asked, hloaded ▸ hrecorded, ?_⟩
  exact hasked .statefulPolicies (Or.inl hended) _ hmem rfl "$/B" (by decide)

end Discovery

end Reconcile
