import Reconcile.Proofs.Checkin.Plainly
import Reconcile.Proofs.Checkin.Tally
import Reconcile.Proofs.ServerPath.Order

namespace Reconcile

open Discovery

variable {σ α : Type} {values : List (ServerPath × String)} {project : ServerPath} {value : String}

/-- If no value failed to be read, each value was read. -/
theorem exists_mem_readInOrder {read : String → Except AnnotationError α}
    (hread : (readInOrder read values).2 = none) (hmem : (project, value) ∈ values) :
    ∃ a, read value = .ok a ∧ (project, a) ∈ (readInOrder read values).1 := by
  induction values with
  | nil => cases hmem
  | cons entry values ih =>
    obtain ⟨other, text⟩ := entry
    rw [readInOrder] at hread ⊢
    cases htext : read text with
    | error error =>
      rw [htext] at hread
      cases hread
    | ok a =>
      rw [htext] at hread
      rcases List.mem_cons.mp hmem with hhere | hthere
      · cases hhere
        exact ⟨a, htext, List.mem_cons_self⟩
      · obtain ⟨b, hb, hfound⟩ := ih hread hthere
        exact ⟨b, hb, List.mem_cons_of_mem _ hfound⟩

/-- What was read in order comes from one of the values. -/
theorem exists_of_mem_readInOrder {read : String → Except AnnotationError α} {a : α}
    (hmem : (project, a) ∈ (readInOrder read values).1) :
    ∃ value, (project, value) ∈ values ∧ read value = .ok a := by
  induction values with
  | nil => cases hmem
  | cons entry values ih =>
    obtain ⟨other, text⟩ := entry
    rw [readInOrder] at hmem
    cases htext : read text with
    | error error =>
      rw [htext] at hmem
      cases hmem
    | ok b =>
      rw [htext] at hmem
      rcases List.mem_cons.mp hmem with hhere | hthere
      · cases hhere
        exact ⟨text, List.mem_cons_self, htext⟩
      · obtain ⟨value, hvalue, hok⟩ := ih hthere
        exact ⟨value, List.mem_cons_of_mem _ hvalue, hok⟩

namespace AnnotatedServer

variable {source : AnnotatedServer} {table : ProjectTable} {kind : AnnotationKind}

/-- Where loading ends well, nothing was unreadable, and the table has what was found. -/
theorem of_loaded_eq_ok (hloaded : source.loaded = (.ok (), table)) :
    source.overrides.2 = none ∧ (source.descriptors .statelessPolicies).2 = none ∧
      (source.descriptors .statefulPolicies).2 = none ∧
      table = .of source.projects source.flags fun project =>
        source.enabled .statelessPolicies project ++ source.enabled .statefulPolicies project := by
  rw [loaded] at hloaded
  cases hoverrides : source.overrides.2 with
  | some error => simp [hoverrides] at hloaded
  | none =>
    cases hstateless : (source.descriptors .statelessPolicies).2 with
    | some error => simp [hoverrides, hstateless] at hloaded
    | none =>
      cases hstateful : (source.descriptors .statefulPolicies).2 with
      | some error => simp [hoverrides, hstateless, hstateful, ended] at hloaded
      | none =>
        simp only [hoverrides, hstateless] at hloaded
        exact ⟨rfl, rfl, rfl, (Prod.mk.inj hloaded).2.symm⟩

/-- An override for a known project puts flags in force that come from an override for it. -/
theorem exists_override (hread : source.overrides.2 = none) (hproject : project ∈ source.projects)
    (hvalue : (project, value) ∈ source.values .overrides) :
    ∃ last, (project, last) ∈ source.values .overrides ∧
      Compatibility.ofAnnotation last = .ok (source.flags project) := by
  have hknown : (project, value) ∈ (source.values .overrides).filter (source.projects.contains ·.1) :=
    List.mem_filter.mpr ⟨hvalue, by simpa using hproject⟩
  obtain ⟨flags, -, hfound⟩ := exists_mem_readInOrder hread hknown
  have hlookup : (source.overrides.1.reverse.lookup project).isSome = true := by
    rw [Option.isSome_iff_ne_none, Ne, List.lookup_eq_none_iff]
    exact fun hnone => by simpa using hnone _ (List.mem_reverse.mpr hfound)
  obtain ⟨flags, hflags⟩ := Option.isSome_iff_exists.mp hlookup
  obtain ⟨before, after, hsplit, -⟩ := List.lookup_eq_some_iff.mp hflags
  have hmem : (project, flags) ∈ source.overrides.1 := List.mem_reverse.mp (by simp [hsplit])
  obtain ⟨last, hlast, hok⟩ := exists_of_mem_readInOrder hmem
  refine ⟨last, (List.mem_filter.mp hlast).1, ?_⟩
  rw [hok, AnnotatedServer.flags, flagsAfter, hflags, Option.getD_some]

/-- The enabled descriptors of an honoured annotation for a known project are among those of the project. -/
theorem enabledOf_subset_enabled (hread : (source.descriptors kind).2 = none)
    (hproject : project ∈ source.projects) (hhonours : kind.honours (source.flags project) = true)
    (hvalue : (project, value) ∈ source.values kind) :
    PolicyDescriptor.enabledOf (kind.read value) ⊆ source.enabled kind project := by
  have hknown : (project, value) ∈ (source.values kind).filter fun entry =>
      source.projects.contains entry.1 && kind.honours (source.flags entry.1) :=
    List.mem_filter.mpr ⟨hvalue, by simp [hproject, hhonours]⟩
  obtain ⟨descriptors, hok, hfound⟩ := exists_mem_readInOrder hread hknown
  intro descriptor hdescriptor
  rw [hok, PolicyDescriptor.enabledOf] at hdescriptor
  exact List.mem_flatMap.mpr ⟨_, List.mem_filter.mpr ⟨hfound, beq_self_eq_true project⟩, hdescriptor⟩

end AnnotatedServer

/-- What the policies of some projects are told from, if the server is recorded. -/
def ServerRecord.annotated (record : ServerRecord) (server : Server) (projects : List ServerPath)
    (defaults : Compatibility) : AnnotatedServer where
  server := server
  projects := projects
  defaults := defaults
  annotations kind project := (record.annotations.filter fun recorded =>
    recorded.kind == kind && recorded.content.item.isUnder project).map (·.content)

variable {snapshot : Snapshot} {record : ServerRecord} {recorded : RecordedAnnotation}
  {projects : List ServerPath} {defaults : Compatibility} {server : Server}

/-- A value is answered for every project asked about that the item is under, and goes to the
    project of the item. -/
theorem ServerRecord.mem_values_annotated {kind : AnnotationKind} :
    (project, value) ∈ (record.annotated server projects defaults).values kind ↔
      ∃ other ∈ projects, ∃ recorded ∈ record.annotations, recorded.kind = kind ∧
        recorded.content.item.isUnder other = true ∧ recorded.content.value = some value ∧
        recorded.content.item.project = project := by
  simp [AnnotatedServer.values, annotated, Annotation.keyed?, and_assoc]

/-- Flags and policies that are attached to a project count for it: the policies if they are honoured there,
and of the overrides one that is put under the project. -/
structure ServerRecord.InForce (record : ServerRecord) (project : ServerPath) (data : ProjectPolicies) :
    Prop where
  policies : ∀ recorded ∈ record.annotations, recorded.content.item = project →
    recorded.kind.honours data.compatibility = true → recorded.enabledDescriptors ⊆ data.policies
  overrides : ∀ recorded ∈ record.annotations, recorded.content.item = project →
    recorded.kind = .overrides → recorded.content.value ≠ none →
      ∃ last ∈ record.annotations, last.kind = .overrides ∧ last.content.item.project = project ∧
        ∃ value, last.content.value = some value ∧
          Compatibility.ofAnnotation value = .ok data.compatibility

/-- A project that is its own project gets what is attached to it. -/
theorem ServerRecord.inForce_of_loaded {table : ProjectTable} {data : ProjectPolicies}
    (hloaded : (record.annotated server projects defaults).loaded = (.ok (), table))
    (hentry : (project, data) ∈ table) (hproject : project.project = project) :
    record.InForce project data := by
  obtain ⟨hoverrides, hstateless, hstateful, htable⟩ := AnnotatedServer.of_loaded_eq_ok hloaded
  rw [htable] at hentry
  obtain ⟨_, hknown, heq⟩ := List.mem_map.mp hentry
  cases heq
  -- The query for the project is answered with what is attached to it.
  have hvalue {recorded : RecordedAnnotation} {value : String} (hrecorded : recorded ∈ record.annotations)
      (hitem : recorded.content.item = project) (hsome : recorded.content.value = some value) :
      (project, value) ∈ (record.annotated server projects defaults).values recorded.kind := by
    refine mem_values_annotated.mpr ⟨project, hknown, recorded, hrecorded, rfl, ?_, hsome, ?_⟩
    · rw [hitem]
      exact project.isUnder_refl
    · rw [hitem, hproject]
  constructor
  · intro recorded hrecorded hitem hhonours
    unfold RecordedAnnotation.enabledDescriptors
    cases hsome : recorded.content.value with
    | none => exact List.nil_subset _
    | some value =>
      have hmem := hvalue hrecorded hitem hsome
      cases hkind : recorded.kind with
      | overrides => exact List.nil_subset _
      | statelessPolicies =>
        rw [hkind] at hmem hhonours
        exact List.subset_append_of_subset_left _
          (AnnotatedServer.enabledOf_subset_enabled hstateless hknown hhonours hmem)
      | statefulPolicies =>
        rw [hkind] at hmem hhonours
        exact List.subset_append_of_subset_right _
          (AnnotatedServer.enabledOf_subset_enabled hstateful hknown hhonours hmem)
  · intro recorded hrecorded hitem hkind hvalue'
    obtain ⟨value, hsome⟩ := Option.ne_none_iff_exists'.mp hvalue'
    have hmem := hvalue hrecorded hitem hsome
    rw [hkind] at hmem
    obtain ⟨last, hlast, hok⟩ := AnnotatedServer.exists_override hoverrides hknown hmem
    obtain ⟨_, -, found, hfound, hkind', -, hsome', hproject'⟩ := mem_values_annotated.mp hlast
    exact ⟨found, hfound, hkind', hproject', last, hsome', hok⟩

namespace Discovery

/-- A snapshot answers as its record says. -/
theorem annotate_queries (hrecord : snapshot.record server = .ok record) (projects : List ServerPath)
    (defaults : Compatibility) :
    (snapshot.queries : Queries (StateM σ)).Annotate (record.annotated server projects defaults) := by
  intro kind project world
  change snapshot.annotations server kind project = _
  rw [Snapshot.annotations, hrecord]
  rfl

/-- A server that is discovered without a problem has the table that loading its policies left. -/
theorem loaded_of_discoverServer {cancellation : Cancellation (StateM σ)} {group : ServerFiles}
    {discovered : DiscoveredServer} {world world' : σ}
    (hrun : (discoverServer snapshot.queries cancellation defaults group).run.run world =
      (.ok (discovered, none), world')) :
    ∃ record, snapshot.record group.server = .ok record ∧
      (record.annotated group.server group.projects defaults).loaded = (.ok (), discovered.projects) := by
  obtain ⟨record, hrecord⟩ := exists_record_of_discoverServer hrun
  obtain ⟨_, _, noted, _, _, _, _, -, hload, hfound, hloaded⟩ := exists_of_discoverServer hrun
  obtain ⟨rfl, rfl⟩ := Prod.mk.inj hfound
  obtain rfl := hloaded rfl
  obtain ⟨_, _, _, hplain, -, hending, -⟩ :=
    comes_loadPolicies (annotate_queries hrecord group.projects defaults) noted []
  refine ⟨record, hrecord, ?_⟩
  have hsame := hplain.symm.trans hload
  rw [hending] at hsame
  exact (Prod.mk.inj hsame).1

variable {queries : Queries (StateM σ)} {cancellation : Cancellation (StateM σ)}
  {workspaces : List Workspace} {files : List LocalPath} {discovery : Discovery} {world world' : σ}

/-- If no problem is told, every server was discovered without one. -/
theorem exists_discoverServer_of_discover
    (hrun : (discover queries cancellation workspaces files defaults).run.run world =
      (.ok discovery, world')) (hload : discovery.loadError = none) :
    ∀ discovered ∈ discovery.servers, ∃ group before after,
      (discoverServer queries cancellation defaults group).run.run before =
        (.ok (discovered, none), after) := by
  rw [discover] at hrun
  dsimp only at hrun
  split at hrun
  · obtain ⟨_, _, hthrow, -⟩ := exists_of_bind_ok hrun
    cases hthrow
  · obtain ⟨_, _, -, hrun⟩ := exists_of_bind_ok hrun
    obtain ⟨found, _, hservers, hrun⟩ := exists_of_bind_ok hrun
    cases hrun
    have hproblems : found.filterMap (·.2) = [] := by
      simpa [ofServers] using hload
    intro discovered hdiscovered
    obtain ⟨⟨_, problem⟩, hfound, rfl⟩ := List.mem_map.mp hdiscovered
    obtain rfl : problem = none := List.filterMap_eq_nil_iff.mp hproblems _ hfound
    obtain ⟨group, -, hgroup⟩ := exists_of_mem_of_forall₂ (forall₂_of_discoverServers hservers) hfound
    exact ⟨group, hgroup⟩

/-- A path is its team project, a slash and the part inside the project, or the project itself. Its project
is its own project, too, unless a second slash follows the root: then it is the root, and the project of that
is written without its slash. If policies are discovered without a problem, what is attached to a discovered
project other than the root is in force there. -/
theorem projects_keep_what_is_attached (path : ServerPath) (snapshot : Snapshot)
    (cancellation : Cancellation (StateM σ)) (workspaces : List Workspace) (files : List LocalPath)
    (defaults : Compatibility) (world : σ) :
    (path.project.project = path.project ↔ ¬ ServerPath.root ++ ['/'] <+: path.toList) ∧
      (ServerPath.root ++ ['/'] <+: path.toList → path.project = "$/" ∧ path.project.project = "$") ∧
      (ServerPath.root <+: path.toList → path = path.project ++ "/" ++ path.insideProject ∨
        path = path.project ∧ path.insideProject = "") ∧
      ∀ discovery world',
        (discover snapshot.queries cancellation workspaces files defaults).run.run world =
          (.ok discovery, world') → discovery.loadError = none →
        ∀ discovered ∈ discovery.servers, ∃ record, snapshot.record discovered.server = .ok record ∧
          ∀ project data, (project, data) ∈ discovered.projects → project ≠ "$/" →
            record.InForce project data := by
  refine ⟨?_, fun hroot => ?_, ServerPath.eq_project_append, ?_⟩
  · rw [ServerPath.project_project_iff, Ne, ServerPath.project_eq_root_iff]
  · have hproject := ServerPath.project_eq_root_iff.mpr hroot
    exact ⟨hproject, hproject ▸ ServerPath.project_root⟩
  · intro discovery world' hrun hload discovered hdiscovered
    obtain ⟨group, _, _, hserver⟩ := exists_discoverServer_of_discover hrun hload discovered hdiscovered
    obtain ⟨record, hrecord, hloaded⟩ := loaded_of_discoverServer hserver
    obtain ⟨rfl, hcomplete⟩ := complete_of_discoverServer hserver
    refine ⟨record, hrecord, fun project data hentry hroot => ?_⟩
    refine ServerRecord.inForce_of_loaded hloaded hentry ?_
    -- The projects of a server are the projects of its files.
    have hmem := List.mem_map_of_mem (f := (·.1)) hentry
    rw [hcomplete.projects.keys, mem_projects_iff] at hmem
    obtain ⟨item, -, hitem : item.serverPath.project = project⟩ := hmem
    rw [← hitem] at hroot ⊢
    exact ServerPath.project_project_iff.mpr hroot

/-- A second slash below a project is inside the project, which keeps its policy. -/
theorem project_keeps_what_is_attached :
    ServerPath.project (ServerPath.project "$/Proj//x") = ServerPath.project "$/Proj//x" ∧
      ("$/Proj//x" : ServerPath) = "$/Proj" ++ "/" ++ "/x" ∧
      ServerPath.project (ServerPath.project "$//x") = "$" ∧
      ∃ discovery discovered data,
        (discover (m := StateM Unit) (attaching "$/Proj").queries .never
          [⟨"main", "alice", .ofUri "http://a", [⟨"$/Proj//x", ⟨"/a"⟩⟩]⟩] [⟨"/a/f"⟩] {}).run.run () =
            (.ok discovery, ()) ∧
        discovery.servers = [discovered] ∧ discovered.projects = [("$/Proj", data)] ∧
        attached ∈ data.policies := by
  have hproject : ServerPath.project "$/Proj//x" = "$/Proj" := by decide +kernel
  have hinside : ServerPath.insideProject "$/Proj//x" = "/x" := by decide +kernel
  obtain ⟨hbelow, -, hsplit, hkept⟩ := projects_keep_what_is_attached "$/Proj//x" (attaching "$/Proj")
    .never [⟨"main", "alice", .ofUri "http://a", [⟨"$/Proj//x", ⟨"/a"⟩⟩]⟩] [⟨"/a/f"⟩] {} ()
  obtain ⟨-, hslashes, -⟩ := projects_keep_what_is_attached "$//x" (attaching "$/Proj") .never [] [] {} ()
  refine ⟨hbelow.mpr (by decide +kernel), ?_, (hslashes (by decide +kernel)).2, ?_⟩
  · obtain hsplit | ⟨-, hempty⟩ := hsplit (by decide +kernel)
    · rwa [hproject, hinside] at hsplit
    · rw [hinside] at hempty
      exact absurd hempty (by decide)
  · let data : ProjectPolicies := { compatibility := {}, policies := [attached] }
    let discovered : DiscoveredServer :=
      { server := .ofUri "http://a", notes := [], files := [⟨"/a/f"⟩], serverPaths := ["$/Proj//x/f"]
        projects := [("$/Proj", data)] }
    have hrun : (discover (m := StateM Unit) (attaching "$/Proj").queries .never
        [⟨"main", "alice", .ofUri "http://a", [⟨"$/Proj//x", ⟨"/a"⟩⟩]⟩] [⟨"/a/f"⟩] {}).run.run () =
          (.ok ⟨[discovered], none⟩, ()) :=
      eq_ok_of_toOption (by decide +kernel)
    obtain ⟨record, hrecord, hinForce⟩ := hkept _ _ hrun rfl discovered List.mem_cons_self
    cases hrecord
    have hpolicies := (hinForce "$/Proj" data List.mem_cons_self (by decide)).policies _
      List.mem_cons_self rfl rfl
    exact ⟨_, discovered, data, hrun, rfl, rfl, hpolicies (by decide +kernel)⟩

/-- A folder behind two slashes belongs to the root, whose own project is written without its slash. So
the policy that is attached to the root is given in answer to a query for it, and is lost then. -/
theorem root_loses_what_is_attached :
    ServerPath.project "$//x" = "$/" ∧
      ServerPath.project (ServerPath.project "$//x") ≠ ServerPath.project "$//x" ∧
      ∃ (discovery : Discovery) (record : ServerRecord),
        (discover (m := StateM Unit) (attaching "$/").queries .never
          [⟨"main", "alice", .ofUri "http://a", [⟨"$//x", ⟨"/a"⟩⟩]⟩] [⟨"/a/f"⟩] {}).run.run () =
            (.ok discovery, ()) ∧
        discovery.loadError = none ∧
        (attaching "$/").record (.ofUri "http://a") = .ok record ∧
        record.annotations.map (fun recorded => (recorded.content.item, recorded.enabledDescriptors)) =
          [("$/", [attached])] ∧
        discovery.servers.map (·.projects) = [[("$/", { compatibility := {}, policies := [] })]] := by
  let discovery : Discovery :=
    { servers := [
        { server := .ofUri "http://a", notes := [], files := [⟨"/a/f"⟩], serverPaths := ["$//x/f"]
          projects := [("$/", { compatibility := {}, policies := [] })] }]
      loadError := none }
  refine ⟨by decide +kernel, by decide +kernel, discovery, _, ?_, rfl, rfl, ?_, rfl⟩
  · exact eq_ok_of_toOption (by decide +kernel)
  · decide +kernel

end Discovery

end Reconcile
