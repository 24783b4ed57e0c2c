import Reconcile.Checkin.Discovery

namespace Reconcile

/-- A table of just these projects, each with data of which `P` holds. -/
structure ProjectTable.Holds (table : ProjectTable) (projects : List ServerPath)
    (P : ProjectPolicies → Prop) : Prop where
  keys : table.map (·.1) = projects
  data : ∀ entry ∈ table, P entry.2

namespace ProjectTable

variable {table : ProjectTable} {projects : List ServerPath} {project : ServerPath}
  {P Q : ProjectPolicies → Prop}

theorem Holds.imp (himp : ∀ data, P data → Q data) (hholds : table.Holds projects P) :
    table.Holds projects Q :=
  ⟨hholds.keys, fun entry hentry => himp _ (hholds.data entry hentry)⟩

@[simp] theorem keys_modify (f : ProjectPolicies → ProjectPolicies) :
    (table.modify project f).map (·.1) = table.map (·.1) := by
  rw [modify, List.map_map]
  refine List.map_congr_left fun entry _ => ?_
  by_cases hproject : entry.1 = project <;> simp [hproject]

/-- An invariant of all entries survives a change to one of them that keeps it. -/
theorem Holds.modify {f : ProjectPolicies → ProjectPolicies} (hholds : table.Holds projects P)
    (hf : ∀ data, (project, data) ∈ table → P data → P (f data)) :
    (table.modify project f).Holds projects P := by
  refine ⟨by rw [keys_modify, hholds.keys], fun entry hentry => ?_⟩
  obtain ⟨⟨key, data⟩, hmem, rfl⟩ := List.mem_map.mp hentry
  by_cases hproject : key = project
  · subst hproject
    simpa using hf data hmem (hholds.data _ hmem)
  · simpa [hproject] using hholds.data _ hmem

/-- In a table whose projects differ, looking up a project gives the only data there is for it. -/
theorem eq_of_lookup {data other : ProjectPolicies} (hnodup : (table.map (·.1)).Nodup)
    (hlookup : table.lookup project = some data) (hmem : (project, other) ∈ table) :
    other = data := by
  induction table with
  | nil => simp at hmem
  | cons entry table ih =>
    obtain ⟨key, value⟩ := entry
    obtain ⟨hkey, hnodup⟩ := List.nodup_cons.mp hnodup
    by_cases hproject : project = key
    · subst hproject
      obtain rfl : value = data := by simpa using hlookup
      rcases List.mem_cons.mp hmem with heq | hmem
      · cases heq
        rfl
      · exact absurd (List.mem_map_of_mem (f := (·.1)) hmem) hkey
    · have hlookup' : table.lookup project = some data := by
        simpa [List.lookup_cons, beq_false_of_ne hproject] using hlookup
      have hmem' : (project, other) ∈ table := by simpa [hproject] using hmem
      exact ih hnodup hlookup' hmem'

end ProjectTable

/-- The descriptors in the value of an annotation of a kind. -/
def AnnotationKind.read : AnnotationKind → String → Except AnnotationError (List PolicyDescriptor)
  | overrides => fun _ => .ok []
  | statelessPolicies => PolicyDescriptor.ofStatelessAnnotation
  | statefulPolicies => PolicyDescriptor.ofStatefulAnnotation

/-- The flag of a project that a kind of annotations needs; overrides need none. -/
def AnnotationKind.honours : AnnotationKind → Compatibility → Bool
  | overrides => fun _ => true
  | statelessPolicies => (·.teamExplorer)
  | statefulPolicies => (·.teamprise)

namespace Discovery

variable {σ α β : Type}

/-- Started on a table of which `before` holds, a step ends in a table of which `after` holds; what
holds may depend on the result, or on the problem that the step ended with. -/
def Leads (before : ProjectTable → Prop) (step : LoadM (StateM σ) α)
    (after : Except LoadProblem α → ProjectTable → Prop) : Prop :=
  ∀ table world, before table →
    after (step.run.run table world).1.1 (step.run.run table world).1.2

namespace Leads

variable {before : ProjectTable → Prop} {step : LoadM (StateM σ) α}
  {after : Except LoadProblem α → ProjectTable → Prop}

theorem of_pure {a : α} (hafter : ∀ table, before table → after (.ok a) table) :
    Leads before (pure a : LoadM (StateM σ) α) after :=
  fun table _ hbefore => hafter table hbefore

theorem of_throw {problem : LoadProblem}
    (hafter : ∀ table, before table → after (.error problem) table) :
    Leads before (throw problem : LoadM (StateM σ) α) after :=
  fun table _ hbefore => hafter table hbefore

/-- A query leaves the table alone, whatever the answer. -/
theorem of_query {action : StateM σ α} :
    Leads before (liftM action : LoadM (StateM σ) α) fun _ => before :=
  fun _ _ hbefore => hbefore

/-- A step that ends well hands its table to the next one; a problem is handed through with the
    table as it was then. -/
theorem bind (between : Except LoadProblem α → ProjectTable → Prop)
    {next : α → LoadM (StateM σ) β} {after : Except LoadProblem β → ProjectTable → Prop}
    (hstep : Leads before step between) (hnext : ∀ a, Leads (between (.ok a)) (next a) after)
    (hproblem : ∀ problem table, between (.error problem) table → after (.error problem) table) :
    Leads before (step >>= next) after := by
  intro table world hbefore
  have hbetween := hstep table world hbefore
  change let ending := step.run.run table world
    let final := (ExceptT.bindCont next ending.1.1).run ending.1.2 ending.2
    after final.1.1 final.1.2
  generalize step.run.run table world = ending at hbetween ⊢
  obtain ⟨⟨result, table'⟩, world'⟩ := ending
  cases result with
  | ok a => exact hnext a table' world' hbetween
  | error problem => exact hproblem problem table' hbetween

/-- The condition before a step may be strengthened, the one after it weakened. -/
theorem imp {before' : ProjectTable → Prop} {after' : Except LoadProblem α → ProjectTable → Prop}
    (hstep : Leads before step after) (hbefore : ∀ table, before' table → before table)
    (hafter : ∀ result table, after result table → after' result table) :
    Leads before' step after' :=
  fun table world h => hafter _ _ (hstep table world (hbefore table h))

end Leads

variable {projects : List ServerPath} {P : ProjectPolicies → Prop} {table : ProjectTable}
  {project : ServerPath} {value : String} {values : List (ServerPath × String)}

/-- Asking for values leaves the table alone, whatever the answer is. -/
theorem leads_annotationValues {before : ProjectTable → Prop} {queries : Queries (StateM σ)}
    {server : Server} {kind : AnnotationKind} {projects : List ServerPath} :
    Leads before (annotationValues queries server kind projects) fun _ => before := by
  induction projects with
  | nil => exact .of_pure fun _ hbefore => hbefore
  | cons project projects ih =>
    refine .bind _ .of_query (fun answer => ?_) fun _ _ hbefore => hbefore
    cases answer with
    | error error => exact .of_throw fun _ hbefore => hbefore
    | ok annotations =>
      exact .bind _ ih (fun _ => .of_pure fun _ hbefore => hbefore) fun _ _ hbefore => hbefore

theorem run_get_bind {next : ProjectTable → LoadM (StateM σ) β} :
    (get >>= next).run.run table = (next table).run.run table :=
  rfl

/-- A value for a project outside the table is passed over; any other one is read, and ends the
    loading if it cannot be. -/
theorem run_applyOverrides_cons (found : Bool × Bool) :
    (applyOverrides found ((project, value) :: values) : LoadM (StateM σ) _).run.run table =
      if (table.lookup project).isNone then (applyOverrides found values).run.run table
      else match Compatibility.ofAnnotation value with
        | .error error => (pure (.error (.unreadable error), table) : StateM σ _)
        | .ok flags =>
          (applyOverrides (found.1 || flags.teamExplorer, found.2 || flags.teamprise) values).run.run
            (table.modify project fun data => { data with compatibility := flags }) := by
  rw [applyOverrides, run_get_bind]
  split
  · rfl
  · cases Compatibility.ofAnnotation value <;> rfl

/-- A value is passed over if its project is not in the table or does not honour the kind, and is
    read otherwise. -/
theorem run_addDescriptors_cons (honours : Compatibility → Bool)
    (read : String → Except AnnotationError (List PolicyDescriptor)) :
    (addDescriptors honours read ((project, value) :: values) : LoadM (StateM σ) _).run.run table =
      if (table.lookup project).any (honours ·.compatibility) then
        match read value with
        | .error error => (pure (.error (.unreadable error), table) : StateM σ _)
        | .ok descriptors => (addDescriptors honours read values).run.run
          (table.modify project fun data =>
            { data with policies := data.policies ++ descriptors.filter (·.enabled) })
      else (addDescriptors honours read values).run.run table := by
  rw [addDescriptors, run_get_bind]
  cases table.lookup project with
  | none => rfl
  | some data =>
    rw [Option.any_some]
    dsimp only
    split
    · cases read value <;> rfl
    · rfl

/-- Overrides keep what every change of flags keeps. -/
theorem leads_applyOverrides_of_modify {kept : ProjectTable → Prop}
    (hflags : ∀ table project flags, kept table →
      kept (table.modify project fun data => { data with compatibility := flags }))
    (found : Bool × Bool) (values : List (ServerPath × String)) :
    Leads kept (applyOverrides found values : LoadM (StateM σ) (Bool × Bool)) fun _ => kept := by
  induction values generalizing found with
  | nil => exact .of_pure fun _ hkept => hkept
  | cons entry values ih =>
    obtain ⟨project, value⟩ := entry
    intro table world hkept
    rw [run_applyOverrides_cons]
    split
    · exact ih found table world hkept
    · cases Compatibility.ofAnnotation value with
      | error error => exact hkept
      | ok flags => exact ih _ _ world (hflags table project flags hkept)

/-- Adding descriptors keeps what holds of the values that are still to be read: one that is passed
over may be forgotten, and one whose descriptors are added is done with. -/
theorem leads_addDescriptors_of_modify {kept : List (ServerPath × String) → ProjectTable → Prop}
    {honours : Compatibility → Bool}
    {read : String → Except AnnotationError (List PolicyDescriptor)}
    (hpass : ∀ entry values table, kept (entry :: values) table → kept values table)
    (hadd : ∀ project value values table data descriptors, kept ((project, value) :: values) table →
      table.lookup project = some data → honours data.compatibility = true →
      read value = .ok descriptors → kept values (table.modify project fun data =>
        { data with policies := data.policies ++ descriptors.filter (·.enabled) }))
    (values : List (ServerPath × String)) :
    Leads (kept values) (addDescriptors honours read values : LoadM (StateM σ) Unit)
      fun _ => kept [] := by
  have hstop (values : List (ServerPath × String)) (table : ProjectTable)
      (hkept : kept values table) : kept [] table := by
    induction values with
    | nil => exact hkept
    | cons entry values ih => exact ih (hpass entry values table hkept)
  induction values with
  | nil => exact .of_pure fun _ hkept => hkept
  | cons entry values ih =>
    obtain ⟨project, value⟩ := entry
    intro table world hkept
    rw [run_addDescriptors_cons]
    split
    case isTrue hhonours =>
      obtain ⟨data, hlookup, hhonours⟩ := (Option.any_eq_true _ _).mp hhonours
      cases hread : read value with
      | error error => exact hstop _ table hkept
      | ok descriptors =>
        exact ih _ world (hadd project value values table data descriptors hkept hlookup hhonours hread)
    case isFalse => exact ih table world (hpass _ values table hkept)

/-- Overrides keep what does not depend on the flags of a project. -/
theorem leads_applyOverrides (hflags : ∀ data flags, P data → P { data with compatibility := flags })
    (found : Bool × Bool) (values : List (ServerPath × String)) :
    Leads (·.Holds projects P) (applyOverrides found values : LoadM (StateM σ) (Bool × Bool))
      fun _ table => table.Holds projects P :=
  leads_applyOverrides_of_modify
    (fun _ _ flags hholds => hholds.modify fun data _ => hflags data flags) found values

/-- Adding descriptors keeps what adding enabled ones that are honoured keeps. -/
theorem leads_addDescriptors {honours : Compatibility → Bool}
    {read : String → Except AnnotationError (List PolicyDescriptor)} (hnodup : projects.Nodup)
    (hadd : ∀ data value descriptors, P data → honours data.compatibility = true →
      read value = .ok descriptors →
        P { data with policies := data.policies ++ descriptors.filter (·.enabled) })
    (values : List (ServerPath × String)) :
    Leads (·.Holds projects P) (addDescriptors honours read values : LoadM (StateM σ) Unit)
      fun _ table => table.Holds projects P := by
  let kept (_ : List (ServerPath × String)) (table : ProjectTable) : Prop := table.Holds projects P
  have hpass (entry values table) (hholds : kept (entry :: values) table) : kept values table := hholds
  refine leads_addDescriptors_of_modify hpass ?_ values
  intro project value _ table data descriptors hholds hlookup hhonours hread
  refine hholds.modify fun other hmem hother => ?_
  obtain rfl := ProjectTable.eq_of_lookup (hholds.keys ▸ hnodup) hlookup hmem
  exact hadd other value descriptors hother hhonours hread

/-- Asks for the annotations of a kind and adds their descriptors, if the kind is honoured at all. -/
def addKind {m : Type → Type} [Monad m] (queries : Queries m) (server : Server)
    (projects : List ServerPath) (kind : AnnotationKind) (honoured : Bool) : LoadM m Unit :=
  if honoured then do
    let values ← annotationValues queries server kind projects
    addDescriptors kind.honours kind.read values
  else pure ()

/-- First come the overrides, and then the kinds of definitions one after the other. -/
theorem loadPolicies_eq_addKind {m : Type → Type} [Monad m] [LawfulMonad m] (queries : Queries m)
    (server : Server) (projects : List ServerPath) (defaults : Compatibility) :
    loadPolicies queries server projects defaults = (do
      let overrides ← annotationValues queries server .overrides projects
      let honoured ← applyOverrides (defaults.teamExplorer, defaults.teamprise) overrides
      addKind queries server projects .statelessPolicies honoured.1
      addKind queries server projects .statefulPolicies honoured.2) := by
  rw [loadPolicies]
  refine bind_congr fun overrides => bind_congr fun honoured => ?_
  obtain ⟨stateless, stateful⟩ := honoured
  cases stateless with
  | false =>
    simp only [addKind, Bool.false_eq_true, if_false, pure_bind]
    rfl
  | true =>
    simp only [addKind, if_true, bind_assoc]
    rfl

end Discovery

end Reconcile
