import Reconcile.Proofs.Checkin.Loading
import Reconcile.Proofs.Outcome

namespace Reconcile.Discovery

variable {σ α β : Type} {projects : List ServerPath}

/-- The policies of a project are enabled and honoured by its flags, the stateless ones first. -/
def Honoured (data : ProjectPolicies) : Prop :=
  ∃ stateless stateful, data.policies = stateless ++ stateful ∧
    (∀ descriptor ∈ stateless, descriptor.enabled = true ∧ descriptor.isStateful = false ∧
      data.compatibility.teamExplorer = true) ∧
    ∀ descriptor ∈ stateful, descriptor.enabled = true ∧ descriptor.isStateful = true ∧
      data.compatibility.teamprise = true

/-- The policies of a project are enabled, honoured by its flags and all stateless. -/
def HonouredStateless (data : ProjectPolicies) : Prop :=
  ∀ descriptor ∈ data.policies, descriptor.enabled = true ∧ descriptor.isStateful = false ∧
    data.compatibility.teamExplorer = true

theorem HonouredStateless.honoured {data : ProjectPolicies} (hdata : HonouredStateless data) :
    Honoured data :=
  ⟨data.policies, [], by simp, hdata, by simp⟩

/-- Enabled stateless descriptors are added only where the flags honour them. -/
theorem HonouredStateless.append {data : ProjectPolicies} {descriptors : List PolicyDescriptor}
    (hdata : HonouredStateless data) (hflag : data.compatibility.teamExplorer = true)
    (hstateless : ∀ descriptor ∈ descriptors, descriptor.isStateful = false) :
    HonouredStateless
      { data with policies := data.policies ++ descriptors.filter (·.enabled) } := by
  intro descriptor hmem
  rcases List.mem_append.mp hmem with hmem | hmem
  · exact hdata descriptor hmem
  · obtain ⟨hmem, henabled⟩ := List.mem_filter.mp hmem
    exact ⟨henabled, hstateless descriptor hmem, hflag⟩

/-- Enabled stateful descriptors are added only where the flags honour them, behind all stateless
    ones. -/
theorem Honoured.append {data : ProjectPolicies} {descriptors : List PolicyDescriptor}
    (hdata : Honoured data) (hflag : data.compatibility.teamprise = true)
    (hstateful : ∀ descriptor ∈ descriptors, descriptor.isStateful = true) :
    Honoured { data with policies := data.policies ++ descriptors.filter (·.enabled) } := by
  obtain ⟨stateless, stateful, hpolicies, hbefore, hafter⟩ := hdata
  refine ⟨stateless, stateful ++ descriptors.filter (·.enabled), by simp [hpolicies], hbefore,
    fun descriptor hmem => ?_⟩
  rcases List.mem_append.mp hmem with hmem | hmem
  · exact hafter descriptor hmem
  · obtain ⟨hmem, henabled⟩ := List.mem_filter.mp hmem
    exact ⟨henabled, hstateful descriptor hmem, hflag⟩

/-- Every policy of a project is enabled and of a kind that the project honours. -/
theorem Honoured.of_mem {data : ProjectPolicies} {descriptor : PolicyDescriptor}
    (hdata : Honoured data) (hmem : descriptor ∈ data.policies) :
    descriptor.enabled = true ∧
      (descriptor.isStateful = false ∧ data.compatibility.teamExplorer = true ∨
        descriptor.isStateful = true ∧ data.compatibility.teamprise = true) := by
  obtain ⟨stateless, stateful, hpolicies, hbefore, hafter⟩ := hdata
  rw [hpolicies] at hmem
  rcases List.mem_append.mp hmem with hmem | hmem
  · obtain ⟨henabled, hflag⟩ := hbefore descriptor hmem
    exact ⟨henabled, Or.inl hflag⟩
  · obtain ⟨henabled, hflag⟩ := hafter descriptor hmem
    exact ⟨henabled, Or.inr hflag⟩

/-- The stateless policies of a project stand before the stateful ones. -/
theorem Honoured.pairwise {data : ProjectPolicies} (hdata : Honoured data) :
    data.policies.Pairwise fun a b => a.isStateful = true → b.isStateful = true := by
  obtain ⟨stateless, stateful, hpolicies, hbefore, hafter⟩ := hdata
  rw [hpolicies]
  refine List.pairwise_append.mpr ⟨?_, ?_, fun a _ b hb _ => (hafter b hb).2.1⟩
  · refine List.pairwise_of_forall_mem_list fun a ha b _ hstateful => ?_
    simp [(hbefore a ha).2.1] at hstateful
  · exact List.pairwise_of_forall_mem_list fun a _ b hb _ => (hafter b hb).2.1

/-- A stateless annotation defines stateless policies only. -/
theorem isStateful_eq_false_of_read {value : String} {descriptors : List PolicyDescriptor}
    (hread : PolicyDescriptor.ofStatelessAnnotation value = .ok descriptors) :
    ∀ descriptor ∈ descriptors, descriptor.isStateful = false := by
  rw [PolicyDescriptor.ofStatelessAnnotation] at hread
  split at hread
  case h_1 root hroot =>
    refine forall_of_mapM_eq_ok (fun definition descriptor hdefinition => ?_) hread
    obtain ⟨entry, -, hentry⟩ := bind_eq_ok_iff.mp hdefinition
    cases hentry
    rfl
  case h_2 => cases hread

/-- A stateful annotation defines stateful policies only. -/
theorem isStateful_of_read {value : String} {descriptors : List PolicyDescriptor}
    (hread : PolicyDescriptor.ofStatefulAnnotation value = .ok descriptors) :
    ∀ descriptor ∈ descriptors, descriptor.isStateful = true := by
  rw [PolicyDescriptor.ofStatefulAnnotation] at hread
  split at hread
  case h_1 root hroot =>
    split at hread
    · cases hread
    · split at hread
      · refine forall_of_mapM_eq_ok (fun definition descriptor hdefinition => ?_) hread
        obtain ⟨entry, -, hentry⟩ := bind_eq_ok_iff.mp hdefinition
        cases hentry
        rfl
      · cases hread
  case h_2 => cases hread

/-- Wherever the loading of policies stops, what it leaves for each project is enabled and honoured. -/
theorem leads_loadPolicies (queries : Queries (StateM σ)) (server : Server)
    (defaults : Compatibility) (hnodup : projects.Nodup) :
    Leads (·.Holds projects fun data => data.policies = [])
      (loadPolicies queries server projects defaults) fun _ table =>
        table.Holds projects Honoured := by
  have hempty (table : ProjectTable) (hholds : table.Holds projects fun data => data.policies = []) :
      table.Holds projects HonouredStateless := by
    refine hholds.imp fun data hdata => ?_
    simp [HonouredStateless, hdata]
  have hhonoured (table : ProjectTable) (hholds : table.Holds projects HonouredStateless) :
      table.Holds projects Honoured :=
    hholds.imp fun _ hdata => hdata.honoured
  have hoverrides (found : Bool × Bool) (values : List (ServerPath × String)) :
      Leads (·.Holds projects fun data => data.policies = [])
        (applyOverrides found values : LoadM (StateM σ) (Bool × Bool)) fun _ table =>
          table.Holds projects HonouredStateless :=
    (leads_applyOverrides (fun _ _ hdata => hdata) found values).imp (fun _ h => h) fun _ => hempty
  have hstateless (honoured : Bool) : Leads (·.Holds projects HonouredStateless)
      (addKind queries server projects .statelessPolicies honoured) fun _ table =>
        table.Holds projects HonouredStateless := by
    rw [addKind]
    split
    · refine .bind _ leads_annotationValues (fun values => ?_) fun _ _ h => h
      exact leads_addDescriptors hnodup (fun _ _ _ hdata hflag hread =>
        hdata.append hflag (isStateful_eq_false_of_read hread)) values
    · exact .of_pure fun _ h => h
  have hstateful (honoured : Bool) : Leads (·.Holds projects HonouredStateless)
      (addKind queries server projects .statefulPolicies honoured) fun _ table =>
        table.Holds projects Honoured := by
    rw [addKind]
    split
    · refine .bind _ leads_annotationValues (fun values => ?_) fun _ => hhonoured
      exact (leads_addDescriptors hnodup (fun _ _ _ hdata hflag hread =>
        hdata.append hflag (isStateful_of_read hread)) values).imp hhonoured fun _ _ h => h
    · exact .of_pure hhonoured
  rw [loadPolicies_eq_addKind]
  -- Each `fun _ => hhonoured` is a stop at that step: what was added before it is all stateless.
  refine .bind (fun _ table => table.Holds projects fun data => data.policies = [])
    leads_annotationValues (fun overrides => ?_) fun _ table hholds =>
      hhonoured table (hempty table hholds)
  refine .bind _ (hoverrides _ _) (fun honoured => ?_) fun _ => hhonoured
  exact .bind _ (hstateless _) (fun _ => hstateful _) fun _ => hhonoured

end Reconcile.Discovery
