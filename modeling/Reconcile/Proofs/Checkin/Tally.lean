import Mathlib.Data.List.Flatten
import Mathlib.Data.List.Perm.Subperm
import Reconcile.Proofs.Checkin.Recorded
import Reconcile.Proofs.ServerPath

namespace Reconcile

/-- The enabled ones of descriptors that were read. -/
def PolicyDescriptor.enabledOf (answer : Except AnnotationError (List PolicyDescriptor)) :
    List PolicyDescriptor :=
  match answer with
  | .ok descriptors => descriptors.filter (·.enabled)
  | .error _ => []

/-- The enabled descriptors in a recorded annotation. -/
def RecordedAnnotation.enabledDescriptors (recorded : RecordedAnnotation) : List PolicyDescriptor :=
  match recorded.content.value with
  | none => []
  | some value => PolicyDescriptor.enabledOf (recorded.kind.read value)

/-- Only an annotation with a value has descriptors. -/
theorem RecordedAnnotation.enabledDescriptors_eq (recorded : RecordedAnnotation) :
    recorded.enabledDescriptors = recorded.content.keyed?.toList.flatMap fun entry =>
      PolicyDescriptor.enabledOf (recorded.kind.read entry.2) := by
  obtain ⟨kind, item, value⟩ := recorded
  cases value <;> simp [enabledDescriptors, Annotation.keyed?]

/-- The enabled descriptors that values of a kind have for a project. -/
def AnnotationKind.offered (kind : AnnotationKind) (values : List (ServerPath × String))
    (project : ServerPath) : List PolicyDescriptor :=
  (values.filter (·.1 == project)).flatMap fun entry => PolicyDescriptor.enabledOf (kind.read entry.2)

/-- The policies of each project, together with those that it can still get, are part of a budget. -/
def ProjectTable.Within (table : ProjectTable) (pending budget : ServerPath → List PolicyDescriptor) :
    Prop :=
  ∀ entry ∈ table, (entry.2.policies ++ pending entry.1).Sublist (budget entry.1)

namespace ProjectTable

variable {table : ProjectTable} {pending budget : ServerPath → List PolicyDescriptor}

/-- Less that is still to come keeps a table within its budget. -/
theorem Within.mono {less : ServerPath → List PolicyDescriptor} (hwithin : table.Within pending budget)
    (hless : ∀ project, (less project).Sublist (pending project)) : table.Within less budget :=
  fun entry hentry => ((List.Sublist.refl _).append (hless entry.1)).trans (hwithin entry hentry)

/-- An entry may take up what was still to come for it. -/
theorem Within.modify {project : ServerPath} {f : ProjectPolicies → ProjectPolicies}
    {pending' : ServerPath → List PolicyDescriptor} (hwithin : table.Within pending budget)
    (hf : ∀ data, ((f data).policies ++ pending' project).Sublist (data.policies ++ pending project))
    (hother : ∀ other, other ≠ project → pending' other = pending other) :
    (table.modify project f).Within pending' budget := by
  intro entry hentry
  obtain ⟨⟨key, data⟩, hmem, rfl⟩ := List.mem_map.mp hentry
  by_cases hproject : key = project
  · subst hproject
    simpa using (hf data).trans (hwithin _ hmem)
  · simpa [hproject, hother key hproject] using hwithin _ hmem

end ProjectTable

namespace Discovery

variable {σ : Type} {snapshot : Snapshot} {server : Server} {record : ServerRecord}
  {projects : List ServerPath}

/-- A value offers its enabled descriptors to its own project. -/
theorem offered_cons (kind : AnnotationKind) (project : ServerPath) (value : String)
    (values : List (ServerPath × String)) (other : ServerPath) :
    kind.offered ((project, value) :: values) other =
      (if other = project then PolicyDescriptor.enabledOf (kind.read value) else []) ++
        kind.offered values other := by
  by_cases hproject : other = project
  · simp [AnnotationKind.offered, hproject]
  · simp [AnnotationKind.offered, hproject, Ne.symm hproject]

/-- Reading values of a kind adds at most what they offer. -/
theorem leads_addDescriptors_within (kind : AnnotationKind) (honours : Compatibility → Bool)
    (values : List (ServerPath × String)) (rest budget : ServerPath → List PolicyDescriptor) :
    Leads (·.Within (fun project => kind.offered values project ++ rest project) budget)
      (addDescriptors honours kind.read values : LoadM (StateM σ) Unit)
        fun _ table => table.Within rest budget := by
  -- What was added and what is still offered stay within the budget together.
  let kept (values : List (ServerPath × String)) (table : ProjectTable) : Prop :=
    table.Within (fun project => kind.offered values project ++ rest project) budget
  have hpass (entry values table) (hwithin : kept (entry :: values) table) : kept values table := by
    obtain ⟨project, value⟩ := entry
    refine hwithin.mono fun other => List.Sublist.append ?_ (List.Sublist.refl _)
    rw [offered_cons]
    exact List.sublist_append_right _ _
  have hleads : Leads (kept values) (addDescriptors honours kind.read values : LoadM (StateM σ) Unit)
      fun _ => kept [] := by
    refine leads_addDescriptors_of_modify hpass ?_ values
    intro project value values table _ descriptors hwithin _ _ hread
    refine hwithin.modify (fun data => ?_) fun other hother => ?_
    · simp [offered_cons, hread, PolicyDescriptor.enabledOf]
    · simp [offered_cons, hother]
  exact hleads.imp (fun _ h => h) fun _ _ hwithin =>
    hwithin.mono fun _ => List.sublist_append_right _ _

/-- Loading a server's policies from a snapshot gives each project at most what the values for it
offer. -/
theorem leads_loadPolicies_within (hrecord : snapshot.record server = .ok record)
    (defaults : Compatibility) (projects : List ServerPath) :
    Leads (fun table => ∀ entry ∈ table, entry.2.policies = [])
      (loadPolicies snapshot.queries server projects defaults : LoadM (StateM σ) Unit)
      fun _ table => table.Within (fun _ => []) fun project =>
        AnnotationKind.statelessPolicies.offered (record.values .statelessPolicies projects) project ++
          AnnotationKind.statefulPolicies.offered (record.values .statefulPolicies projects)
            project := by
  let first := AnnotationKind.statelessPolicies.offered (record.values .statelessPolicies projects)
  let second := AnnotationKind.statefulPolicies.offered (record.values .statefulPolicies projects)
  let budget (project : ServerPath) : List PolicyDescriptor := first project ++ second project
  have hstart (table : ProjectTable) (hempty : ∀ entry ∈ table, entry.2.policies = []) :
      table.Within budget budget := by
    intro entry hentry
    rw [hempty entry hentry]
    exact List.Sublist.refl _
  have hstop {pending : ServerPath → List PolicyDescriptor} (table : ProjectTable)
      (hwithin : table.Within pending budget) : table.Within (fun _ => []) budget :=
    hwithin.mono fun _ => List.nil_sublist _
  have hadd (kind honours honoured) (rest : ServerPath → List PolicyDescriptor) :
      Leads (·.Within (fun project => kind.offered (record.values kind projects) project ++ rest project)
        budget) (addRecorded record projects kind honours honoured : LoadM (StateM σ) Unit)
        fun _ table => table.Within rest budget := by
    cases honoured with
    | false => exact .of_pure fun table hwithin => hwithin.mono fun _ => List.sublist_append_right _ _
    | true => exact leads_addDescriptors_within kind honours _ rest budget
  rw [loadPolicies_queries hrecord]
  refine .bind (fun _ table => table.Within budget budget) ?_ ?_ fun _ table => hstop table
  · refine (leads_applyOverrides_of_modify ?_ _ _).imp hstart fun _ _ h => h
    exact fun table project flags hwithin =>
      hwithin.modify (fun _ => List.Sublist.refl _) fun _ _ => rfl
  · refine fun honoured => .bind (fun _ table => table.Within second budget) (hadd _ _ _ second) ?_
      fun _ table => hstop table
    refine fun _ => (hadd .statefulPolicies _ _ fun _ => []).imp ?_ fun _ _ h => h
    exact fun table hwithin => by simpa using hwithin

/-- What is within a list stays so when both are put together by the same function. -/
theorem subperm_flatMap {α β : Type} {l l' : List α} (hsubperm : l.Subperm l') (f : α → List β) :
    (l.flatMap f).Subperm (l'.flatMap f) := by
  obtain ⟨middle, hperm, hsublist⟩ := hsubperm
  exact (hperm.flatMap_right f).symm.subperm.trans (hsublist.flatMap f).subperm

/-- Groups of which no two have an item in common are part of the items. -/
theorem flatMap_filter_subperm {α κ : Type} {inGroup : α → κ → Bool} {groups : List κ}
    {items : List α} (hone : ∀ item ∈ items,
      groups.Pairwise fun a b => inGroup item a = true → inGroup item b = false) :
    (groups.flatMap fun group => items.filter (inGroup · group)).Subperm items := by
  induction groups generalizing items with
  | nil => exact List.nil_subperm
  | cons group groups ih =>
    -- The other groups do not change when the first one is taken out of the items.
    have hothers : (groups.flatMap fun other => items.filter (inGroup · other)) =
        groups.flatMap fun other =>
          (items.filter (!inGroup · group)).filter (inGroup · other) := by
      refine List.flatMap_congr fun other hother => ?_
      rw [List.filter_filter]
      refine List.filter_congr fun item hitem => ?_
      have hdisjoint := (List.pairwise_cons.mp (hone item hitem)).1 other hother
      cases hgroup : inGroup item group with
      | false => simp
      | true => simp [hdisjoint hgroup]
    have hrest : (groups.flatMap fun other => (items.filter (!inGroup · group)).filter
        (inGroup · other)).Subperm (items.filter (!inGroup · group)) :=
      ih fun item hitem => (List.pairwise_cons.mp (hone item (List.mem_of_mem_filter hitem))).2
    rw [List.flatMap_cons, hothers]
    exact ((List.subperm_append_left _).mpr hrest).trans
      (List.filter_append_perm (inGroup · group) items).subperm

/-- What values offer to different projects is part of what is in them. -/
theorem flatMap_offered_subperm (kind : AnnotationKind) (values : List (ServerPath × String))
    (hnodup : projects.Nodup) :
    (projects.flatMap (kind.offered values)).Subperm
      (values.flatMap fun entry => PolicyDescriptor.enabledOf (kind.read entry.2)) := by
  have hgroups : (projects.flatMap fun project => values.filter (·.1 == project)).Subperm values := by
    refine flatMap_filter_subperm fun entry _ => hnodup.imp fun {project other} hne hproject => ?_
    rw [beq_iff_eq] at hproject
    simpa [hproject] using hne
  have hoffered := subperm_flatMap hgroups fun entry => PolicyDescriptor.enabledOf (kind.read entry.2)
  rwa [List.flatMap_assoc] at hoffered

/-- All values of a kind together offer what the annotations reached offer. -/
theorem flatMap_values (record : ServerRecord) (kind : AnnotationKind) (projects : List ServerPath) :
    (record.values kind projects).flatMap (fun entry => PolicyDescriptor.enabledOf (kind.read entry.2)) =
      ((record.reached projects).filter (·.kind == kind)).flatMap (·.enabledDescriptors) := by
  rw [ServerRecord.values, List.filterMap_eq_flatMap_toList, List.flatMap_assoc]
  refine List.flatMap_congr fun recorded hmem => ?_
  obtain rfl : recorded.kind = kind := by simpa using (List.mem_filter.mp hmem).2
  exact recorded.enabledDescriptors_eq.symm

/-- All policies of a server's projects are part of what the annotations in the answers offer. -/
theorem flatMap_policies_subperm {table : ProjectTable} (hkeys : table.map (·.1) = projects)
    (hnodup : projects.Nodup)
    (hwithin : table.Within (fun _ => []) fun project =>
      AnnotationKind.statelessPolicies.offered (record.values .statelessPolicies projects) project ++
        AnnotationKind.statefulPolicies.offered (record.values .statefulPolicies projects) project) :
    (table.flatMap (·.2.policies)).Subperm
      ((record.reached projects).flatMap (·.enabledDescriptors)) := by
  let reached := record.reached projects
  let offered (kind : AnnotationKind) := kind.offered (record.values kind projects)
  have hpolicies : (table.flatMap (·.2.policies)).Sublist
      (projects.flatMap fun project => offered .statelessPolicies project ++
        offered .statefulPolicies project) := by
    rw [← hkeys, List.flatMap_map]
    exact List.Sublist.flatMap_right table fun entry hentry => by simpa using hwithin entry hentry
  have hoffered (kind : AnnotationKind) : (projects.flatMap (offered kind)).Subperm
      ((reached.filter (·.kind == kind)).flatMap (·.enabledDescriptors)) := by
    rw [← flatMap_values]
    exact flatMap_offered_subperm kind _ hnodup
  have hkinds : (reached.filter (·.kind == .statelessPolicies) ++
      reached.filter (·.kind == .statefulPolicies)).Subperm reached := by
    have hapart (recorded : RecordedAnnotation) : [AnnotationKind.statelessPolicies,
        .statefulPolicies].Pairwise fun a b => (recorded.kind == a) = true → (recorded.kind == b) = false := by
      simp +contextual
    simpa using flatMap_filter_subperm fun recorded (_ : recorded ∈ reached) => hapart recorded
  have hsplit := (List.flatMap_append_perm projects (offered .statelessPolicies)
    (offered .statefulPolicies)).symm.subperm
  have hoffers := (hoffered .statelessPolicies).append (hoffered .statefulPolicies)
  rw [← List.flatMap_append] at hoffers
  exact hpolicies.subperm.trans (hsplit.trans (hoffers.trans (subperm_flatMap hkinds _)))

/-- If no project lies under another one, an item lies under at most one of them. -/
theorem reached_subperm (record : ServerRecord) (hnodup : projects.Nodup)
    (hapart : ∀ project ∈ projects, ∀ other ∈ projects,
      project.isUnder other = true → project = other) :
    (record.reached projects).Subperm record.annotations := by
  refine flatMap_filter_subperm fun recorded _ => ?_
  refine hnodup.imp_of_mem fun {project other} hproject hother hne hunder => ?_
  -- An item under two projects would put one of them under the other.
  by_contra hboth
  rw [Bool.not_eq_false] at hboth
  rcases ServerPath.isUnder_or_isUnder hunder hboth with habove | habove
  · exact hne (hapart project hproject other hother habove)
  · exact hne (hapart other hother project hproject habove).symm

variable {workspaces : List Workspace} {files : List LocalPath} {defaults : Compatibility}
  {cancellation : Cancellation (StateM σ)} {world world' : σ} {discovery : Discovery}

/-- What all projects of a server have is within what the annotations they reach offer, counted once
    for each project that reaches them. -/
theorem policies_subperm_of_discover
    (hrun : (discover snapshot.queries cancellation workspaces files defaults).run.run world =
      (.ok discovery, world')) :
    ∀ discovered ∈ discovery.servers, ∃ record, snapshot.record discovered.server = .ok record ∧
      (discovered.projects.flatMap (·.2.policies)).Subperm
        ((record.reached (discovered.projects.map (·.1))).flatMap (·.enabledDescriptors)) := by
  intro discovered hmem
  obtain ⟨group, -, problem, _, _, hserver⟩ :=
    exists_of_mem_of_forall₂ (forall₂_of_discover hrun) hmem
  obtain ⟨record, hrecord⟩ := exists_record_of_discoverServer hserver
  obtain ⟨hgroup, hcomplete⟩ := complete_of_discoverServer hserver
  have hkeys : discovered.projects.map (·.1) = group.projects := by
    rw [hcomplete.projects.keys]
    exact congrArg ServerFiles.projects hgroup
  have hnodup : group.projects.Nodup := (pairwise_projects group).imp String.ne_of_lt
  obtain ⟨_, _, noted, _, table, _, _, -, hload, hfound, -⟩ := exists_of_discoverServer hserver
  have hwithin := leads_loadPolicies_within hrecord defaults group.projects
    (group.projects.map fun project => (project, { compatibility := defaults })) noted (by simp)
  rw [hload] at hwithin
  obtain ⟨rfl, -⟩ := Prod.mk.inj hfound
  exact ⟨record, hrecord, hkeys ▸ flatMap_policies_subperm hkeys hnodup hwithin⟩

/-- The policies of a server from a snapshot have each descriptor at most as often as the answers to
its projects offer it, where an annotation is in the answer to every project that its item lies under.
If no project of the server lies under another one, each annotation counts once. -/
theorem discover_counts_annotations
    (hrun : (discover snapshot.queries cancellation workspaces files defaults).run.run world =
      (.ok discovery, world')) :
    ∀ discovered ∈ discovery.servers, ∃ record, snapshot.record discovered.server = .ok record ∧
      ∀ descriptor,
        (discovered.projects.flatMap (·.2.policies)).count descriptor ≤
          ((discovered.projects.flatMap fun project => record.annotations.filter
            (·.content.item.isUnder project.1)).flatMap (·.enabledDescriptors)).count descriptor ∧
        ((∀ project ∈ discovered.projects.map (·.1), ∀ other ∈ discovered.projects.map (·.1),
            project.isUnder other = true → project = other) →
          (discovered.projects.flatMap (·.2.policies)).count descriptor ≤
            (record.annotations.flatMap (·.enabledDescriptors)).count descriptor) := by
  intro discovered hmem
  obtain ⟨record, hrecord, hreached⟩ := policies_subperm_of_discover hrun discovered hmem
  have hnodup : (discovered.projects.map (·.1)).Nodup := by
    obtain ⟨-, hcomplete⟩ := complete_of_discover hrun
    rw [(hcomplete discovered hmem).projects.keys]
    exact (pairwise_projects discovered.group).imp String.ne_of_lt
  refine ⟨record, hrecord, fun descriptor => ⟨?_, fun hapart => ?_⟩⟩
  · have hcount := hreached.count_le descriptor
    rwa [ServerRecord.reached, List.flatMap_map] at hcount
  · have honce := subperm_flatMap (reached_subperm record hnodup hapart) (·.enabledDescriptors)
    exact (hreached.trans honce).count_le descriptor

/-- What is attached to one of two projects is there once. -/
theorem discover_counts_annotations_apart :
    ∃ (discovery : Discovery) (discovered : DiscoveredServer), discovery.servers = [discovered] ∧
      (discover (m := StateM Unit) (attaching "$/Proj").queries .never
        [⟨"main", "alice", .ofUri "http://a", [⟨"$/Proj", ⟨"/a"⟩⟩, ⟨"$/Other", ⟨"/b"⟩⟩]⟩]
        [⟨"/a/x"⟩, ⟨"/b/y"⟩] {}).run.run () = (.ok discovery, ()) ∧
      (discovered.projects.flatMap (·.2.policies)).count attached ≤ 1 := by
  let discovered : DiscoveredServer :=
    { server := .ofUri "http://a", notes := [], files := [⟨"/a/x"⟩, ⟨"/b/y"⟩]
      serverPaths := ["$/Proj/x", "$/Other/y"]
      projects := [("$/Other", { compatibility := {} }),
        ("$/Proj", { compatibility := {}, policies := [attached] })] }
  have hrun : (discover (m := StateM Unit) (attaching "$/Proj").queries .never
      [⟨"main", "alice", .ofUri "http://a", [⟨"$/Proj", ⟨"/a"⟩⟩, ⟨"$/Other", ⟨"/b"⟩⟩]⟩]
      [⟨"/a/x"⟩, ⟨"/b/y"⟩] {}).run.run () = (.ok ⟨[discovered], none⟩, ()) :=
    eq_ok_of_toOption (by decide +kernel)
  obtain ⟨record, hrecord, hcount⟩ :=
    discover_counts_annotations hrun discovered List.mem_cons_self
  have hannotations : (record.annotations.flatMap (·.enabledDescriptors)).count attached = 1 := by
    cases hrecord
    decide +kernel
  have honce := (hcount attached).2 (by decide +kernel)
  exact ⟨_, discovered, rfl, hrun, hannotations ▸ honce⟩

/-- Two projects whose names differ in case are both asked for what is attached to one of them, and that
one gets it twice. -/
theorem discover_counts_twice :
    ∃ (discovery : Discovery) (discovered : DiscoveredServer) (record : ServerRecord),
      (discover (m := StateM Unit) (attaching "$/Proj").queries .never
        [⟨"main", "alice", .ofUri "http://a", [⟨"$/Proj", ⟨"/a"⟩⟩, ⟨"$/proj", ⟨"/b"⟩⟩]⟩]
        [⟨"/a/x"⟩, ⟨"/b/y"⟩] {}).run.run () = (.ok discovery, ()) ∧
      discovery.servers = [discovered] ∧
      (attaching "$/Proj").record discovered.server = .ok record ∧
      (record.annotations.flatMap (·.enabledDescriptors)).count attached = 1 ∧
      (discovered.projects.flatMap (·.2.policies)).count attached = 2 := by
  let discovered : DiscoveredServer :=
    { server := .ofUri "http://a", notes := [], files := [⟨"/a/x"⟩, ⟨"/b/y"⟩]
      serverPaths := ["$/Proj/x", "$/proj/y"]
      projects := [("$/Proj", { compatibility := {}, policies := [attached, attached] }),
        ("$/proj", { compatibility := {} })] }
  refine ⟨⟨[discovered], none⟩, discovered, _, eq_ok_of_toOption (by decide +kernel), rfl, rfl, ?_, ?_⟩
  · decide +kernel
  · decide +kernel

end Discovery

end Reconcile
