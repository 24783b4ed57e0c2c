import Reconcile.Proofs.Checkin.Grouping
import Reconcile.Proofs.Checkin.Honoured
import Reconcile.Proofs.Outcome

namespace Reconcile

/-- The files of a discovered server with their server paths. -/
def DiscoveredServer.group (discovered : DiscoveredServer) : Discovery.ServerFiles :=
  ⟨discovered.server, discovered.files.zipWith MappedFile.mk discovered.serverPaths⟩

/-- The group keeps each file beside its server path. -/
theorem DiscoveredServer.map_group_files (discovered : DiscoveredServer) :
    discovered.group.files.map (fun item => (item.localPath, item.serverPath)) =
      discovered.files.zip discovered.serverPaths := by
  rw [group, List.map_zipWith]
  rfl

/-- A discovered server has a server path for each file, and honoured policies for each project that
one of its files belongs to. -/
structure DiscoveredServer.Complete (discovered : DiscoveredServer) : Prop where
  length_eq : discovered.files.length = discovered.serverPaths.length
  projects : discovered.projects.Holds discovered.group.projects Discovery.Honoured

theorem DiscoveredServer.Complete.map_localPath {discovered : DiscoveredServer}
    (hcomplete : discovered.Complete) :
    discovered.group.files.map (·.localPath) = discovered.files := by
  have hpairs := congrArg (List.map (·.1)) discovered.map_group_files
  rw [List.map_fst_zip (Nat.le_of_eq hcomplete.length_eq), List.map_map] at hpairs
  exact hpairs

theorem DiscoveredServer.Complete.map_serverPath {discovered : DiscoveredServer}
    (hcomplete : discovered.Complete) :
    discovered.group.files.map (·.serverPath) = discovered.serverPaths := by
  have hpairs := congrArg (List.map (·.2)) discovered.map_group_files
  rw [List.map_snd_zip (Nat.le_of_eq hcomplete.length_eq.symm), List.map_map] at hpairs
  exact hpairs

namespace Discovery

variable {σ α β : Type} {world world' : σ} {queries : Queries (StateM σ)}
  {cancellation : Cancellation (StateM σ)} {workspaces : List Workspace} {files : List LocalPath}
  {defaults : Compatibility}

/-- A server is discovered with the notes that it defined, with the files that it was asked about and
with the table that loading its policies left. There is no problem only if loading ended well. -/
theorem exists_of_discoverServer {group : ServerFiles} {found : DiscoveredServer × Option String}
    (hrun : (discoverServer queries cancellation defaults group).run.run world =
      (.ok found, world')) :
    ∃ definitions asked noted result table loaded problem,
      (queries.noteDefinitions group.server group.projects).run world = (.ok definitions, asked) ∧
      (loadPolicies queries group.server group.projects defaults).run.run
        (group.projects.map fun project => (project, { compatibility := defaults })) noted =
          ((result, table), loaded) ∧
      found =
        ({ server := group.server
           notes := CheckinNote.ofDefinitions definitions
           files := group.files.map (·.localPath)
           serverPaths := group.files.map (·.serverPath)
           projects := table }, problem) ∧
      (problem = none → result = .ok ()) := by
  rw [discoverServer] at hrun
  obtain ⟨answer, asked, hanswer, hasked⟩ := exists_of_bind_ok hrun
  cases answer with
  | error error =>
    obtain ⟨_, _, hthrow, -⟩ := exists_of_bind_ok hasked
    cases hthrow
  | ok given =>
    obtain ⟨definitions, _, hgiven, hnoted⟩ := exists_of_bind_ok hasked
    obtain ⟨_, noted, -, hchecked⟩ := exists_of_bind_ok hnoted
    obtain ⟨⟨result, table⟩, loaded, hload, hloaded⟩ := exists_of_bind_ok hchecked
    cases hgiven
    refine ⟨given, asked, noted, result, table, loaded, found.2, eq_of_lift_ok hanswer,
      eq_of_lift_ok hload, ?_⟩
    dsimp only at hloaded
    split at hloaded
    · obtain ⟨problem, _, -, hproblem⟩ := exists_of_bind_ok hloaded
      obtain ⟨_, _, -, hfound⟩ := exists_of_bind_ok hproblem
      cases hfound
      exact ⟨rfl, fun _ => rfl⟩
    · obtain ⟨_, _, hthrow, -⟩ := exists_of_bind_ok hloaded
      cases hthrow
    · obtain ⟨problem, _, hnoted, hproblem⟩ := exists_of_bind_ok hloaded
      obtain ⟨_, _, -, hfound⟩ := exists_of_bind_ok hproblem
      cases hnoted
      cases hfound
      exact ⟨rfl, fun hnone => absurd hnone (Option.some_ne_none _)⟩

/-- A server that was discovered holds the files and projects of its group. -/
theorem complete_of_discoverServer {group : ServerFiles} {found : DiscoveredServer × Option String}
    (hrun : (discoverServer queries cancellation defaults group).run.run world =
      (.ok found, world')) :
    found.1.group = group ∧ found.1.Complete := by
  obtain ⟨definitions, _, noted, result, table, loaded, problem, -, hload, rfl, -⟩ :=
    exists_of_discoverServer hrun
  have hnodup : group.projects.Nodup := (pairwise_projects group).imp String.ne_of_lt
  have hprojects : table.Holds group.projects Honoured := by
    have hleads := leads_loadPolicies queries group.server defaults hnodup
      (group.projects.map fun project => (project, { compatibility := defaults })) noted
        ⟨by simp [Function.comp_def], by simp⟩
    rwa [hload] at hleads
  refine ⟨by simp [DiscoveredServer.group], by simp, ?_⟩
  simpa [DiscoveredServer.group] using hprojects

/-- Every group was visited, in order, at some state of the world. -/
theorem forall₂_of_discoverServers {groups : List ServerFiles}
    {found : List (DiscoveredServer × Option String)}
    (hrun : (discoverServers queries cancellation defaults groups).run.run world =
      (.ok found, world')) :
    List.Forall₂ (fun group found => ∃ before after,
      (discoverServer queries cancellation defaults group).run.run before = (.ok found, after))
        groups found := by
  induction groups generalizing found world with
  | nil =>
    cases hrun
    exact .nil
  | cons group groups ih =>
    rw [discoverServers] at hrun
    obtain ⟨first, _, hfirst, hrun⟩ := exists_of_bind_ok hrun
    obtain ⟨rest, _, hrest, hrun⟩ := exists_of_bind_ok hrun
    cases hrun
    exact .cons ⟨_, _, hfirst⟩ (ih hrest)

/-- A discovery that ends well has visited every group of files, one after the other. -/
theorem forall₂_of_discover {discovery : Discovery}
    (hrun : (discover queries cancellation workspaces files defaults).run.run world =
      (.ok discovery, world')) :
    List.Forall₂ (fun group discovered => ∃ problem before after,
      (discoverServer queries cancellation defaults group).run.run before =
        (.ok (discovered, problem), after)) (serverFiles workspaces files) discovery.servers := by
  rw [discover] at hrun
  dsimp only at hrun
  split at hrun
  · obtain ⟨_, _, hthrow, -⟩ := exists_of_bind_ok hrun
    cases hthrow
  · obtain ⟨_, _, -, hrun⟩ := exists_of_bind_ok hrun
    obtain ⟨found, _, hservers, hrun⟩ := exists_of_bind_ok hrun
    cases hrun
    refine List.forall₂_map_right_iff.mpr ((forall₂_of_discoverServers hservers).imp ?_)
    rintro group ⟨discovered, problem⟩ ⟨before, after, hfound⟩
    exact ⟨problem, before, after, hfound⟩

/-- A discovery that ends well gives a complete server for each group of files, in their order. -/
theorem complete_of_discover {discovery : Discovery}
    (hrun : (discover queries cancellation workspaces files defaults).run.run world =
      (.ok discovery, world')) :
    discovery.servers.map (·.group) = serverFiles workspaces files ∧
      ∀ discovered ∈ discovery.servers, discovered.Complete := by
  have hvisited : List.Forall₂ (fun group discovered => discovered.group = group ∧ discovered.Complete)
      (serverFiles workspaces files) discovery.servers := by
    refine (forall₂_of_discover hrun).imp fun group discovered hdiscovered => ?_
    obtain ⟨problem, _, _, hdiscovered⟩ := hdiscovered
    exact complete_of_discoverServer hdiscovered
  refine ⟨?_, fun discovered hmem => ?_⟩
  · simpa using map_eq_of_forall₂ (f := id) hvisited fun _ _ hdiscovered => hdiscovered.1
  · obtain ⟨_, -, -, hcomplete⟩ := exists_of_mem_of_forall₂ hvisited hmem
    exact hcomplete

variable {servers : List DiscoveredServer} {discovered : DiscoveredServer}

/-- The groups hold the files that are assigned to a workspace, each as often as it was given. -/
theorem flatMap_group_files_perm (hgroups : servers.map (·.group) = serverFiles workspaces files) :
    (servers.flatMap (·.group.files)).Perm
      ((Workspace.partition workspaces files).flatMap (·.2)) := by
  simpa [← hgroups, List.flatMap_map] using serverFiles_items_perm workspaces files

/-- Local and server paths stay paired through the discovery. -/
theorem flatMap_zip_perm (hgroups : servers.map (·.group) = serverFiles workspaces files) :
    (servers.flatMap fun discovered => discovered.files.zip discovered.serverPaths).Perm
      ((Workspace.partition workspaces files).flatMap fun group =>
        group.2.map fun item => (item.localPath, item.serverPath)) := by
  simpa [List.map_flatMap, DiscoveredServer.map_group_files] using
    (flatMap_group_files_perm hgroups).map fun item => (item.localPath, item.serverPath)

/-- The servers hold the covered files and no others. -/
theorem flatMap_files_perm (hgroups : servers.map (·.group) = serverFiles workspaces files)
    (hcomplete : ∀ discovered ∈ servers, discovered.Complete) :
    (servers.flatMap (·.files)).Perm (files.filter (Workspace.covered workspaces)) := by
  have hfiles : servers.flatMap (·.files) =
      (servers.flatMap (·.group.files)).map (·.localPath) := by
    rw [List.map_flatMap]
    refine List.flatMap_congr fun discovered hmem => ?_
    exact ((hcomplete discovered hmem).map_localPath).symm
  rw [hfiles, ← Workspace.map_localPath_assigned]
  exact ((flatMap_group_files_perm hgroups).trans
    (Workspace.partition_items_perm workspaces files)).map _

/-- The servers come in their order. -/
theorem pairwise_before (hgroups : servers.map (·.group) = serverFiles workspaces files) :
    servers.Pairwise fun a b => a.server.before b.server = true := by
  have hpairwise := pairwise_serverFiles workspaces files
  rw [← hgroups] at hpairwise
  exact List.pairwise_map.mp hpairwise

theorem nodup_server (hgroups : servers.map (·.group) = serverFiles workspaces files) :
    (servers.map (·.server)).Nodup := by
  have hservers : servers.map (·.server) = (serverFiles workspaces files).map (·.server) := by
    rw [← hgroups, List.map_map]
    rfl
  exact hservers ▸ nodup_server_serverFiles workspaces files

/-- A file is with the server of the workspace that won it, under the path it has there. -/
theorem exists_winner_of_mem_zip {path : LocalPath} {serverPath : ServerPath}
    (hgroup : discovered.group ∈ serverFiles workspaces files)
    (hpair : (path, serverPath) ∈ discovered.files.zip discovered.serverPaths) :
    ∃ index workspace, Workspace.winner? workspaces path = some index ∧
      workspaces[index]? = some workspace ∧ workspace.server = discovered.server ∧
      workspace.toServer? path = some serverPath := by
  rw [← DiscoveredServer.map_group_files] at hpair
  obtain ⟨item, hitem, hpair⟩ := List.mem_map.mp hpair
  cases hpair
  obtain ⟨-, hwinner⟩ := owned?_eq_some_iff.mp (owned?_of_mem_serverFiles hgroup hitem)
  exact hwinner

/-- Servers without note fields that answer alike for all projects. -/
def alike (annotations : AnnotationKind → Except RemoteError (List Annotation)) :
    Queries (StateM σ) where
  noteDefinitions _ _ := pure (.ok [])
  annotations _ kind _ := pure (annotations kind)

/-- Whatever the servers answer, a discovery holds every covered file as often as it was given, beside
the server path that the partition assigns, under the server of the workspace that won it. Servers come
in order and with a file, each once, and have an entry for exactly the projects of their files. -/
theorem discover_groups_files (queries : Queries (StateM σ)) (cancellation : Cancellation (StateM σ))
    (workspaces : List Workspace) (files : List LocalPath) (defaults : Compatibility)
    (world world' : σ) (discovery : Discovery)
    (hrun : (discover queries cancellation workspaces files defaults).run.run world =
      (.ok discovery, world')) :
    (discovery.servers.flatMap fun discovered =>
      discovered.files.zip discovered.serverPaths).Perm
        ((Workspace.partition workspaces files).flatMap fun group =>
          group.2.map fun item => (item.localPath, item.serverPath)) ∧
    (discovery.servers.flatMap (·.files)).Perm (files.filter (Workspace.covered workspaces)) ∧
    (discovery.servers.Pairwise fun a b => a.server.presentable < b.server.presentable ∨
      a.server.presentable = b.server.presentable ∧ a.server.uri < b.server.uri) ∧
    (discovery.servers.map (·.server)).Nodup ∧
    ∀ discovered ∈ discovery.servers,
      discovered.files ≠ [] ∧ discovered.files.length = discovered.serverPaths.length ∧
      (∀ path serverPath, (path, serverPath) ∈ discovered.files.zip discovered.serverPaths →
        ∃ index workspace, Workspace.winner? workspaces path = some index ∧
          workspaces[index]? = some workspace ∧ workspace.server = discovered.server ∧
          workspace.toServer? path = some serverPath) ∧
      (discovered.projects.map (·.1)).Pairwise (· < ·) ∧
      ∀ project, project ∈ discovered.projects.map (·.1) ↔
        ∃ serverPath ∈ discovered.serverPaths, serverPath.project = project := by
  obtain ⟨hgroups, hcomplete⟩ := complete_of_discover hrun
  refine ⟨flatMap_zip_perm hgroups, flatMap_files_perm hgroups hcomplete,
    (pairwise_before hgroups).imp Server.before_iff.mp, nodup_server hgroups,
    fun discovered hmem => ?_⟩
  have hgroup : discovered.group ∈ serverFiles workspaces files :=
    hgroups ▸ List.mem_map_of_mem hmem
  have hhere := hcomplete discovered hmem
  refine ⟨?_, hhere.length_eq, fun path serverPath => exists_winner_of_mem_zip hgroup, ?_,
    fun project => ?_⟩
  · have hne := files_ne_nil_of_mem_serverFiles hgroup
    rw [← hhere.map_localPath]
    simpa using hne
  · rw [hhere.projects.keys]
    exact pairwise_projects discovered.group
  · rw [hhere.projects.keys, mem_projects_iff, ← hhere.map_serverPath]
    simp

/-- A file given twice is there twice, and one that no workspace covers is left out. -/
theorem discover_groups_files_two_servers :
    let workspaces : List Workspace :=
      [⟨"main", "alice", .ofUri "http://b", [⟨"$/P", ⟨"/p"⟩⟩]⟩,
        ⟨"sub", "alice", .ofUri "http://a", [⟨"$/Q", ⟨"/p/q"⟩⟩]⟩]
    ∃ discovery : Discovery,
      (discover (alike fun _ => .ok []) .never workspaces
        [⟨"/p/x"⟩, ⟨"/o"⟩, ⟨"/p/q/y"⟩, ⟨"/p/x"⟩] {}).run.run () = (.ok discovery, ()) ∧
      (discovery.servers.map (·.server.uri)) = ["http://a", "http://b"] ∧
      (discovery.servers.flatMap (·.files)).Perm [⟨"/p/x"⟩, ⟨"/p/q/y"⟩, ⟨"/p/x"⟩] := by
  intro workspaces
  let discovery : Discovery :=
    { servers :=
        [{ server := .ofUri "http://a", notes := [], files := [⟨"/p/q/y"⟩], serverPaths := ["$/Q/y"]
           projects := [("$/Q", { compatibility := {} })] },
          { server := .ofUri "http://b", notes := [], files := [⟨"/p/x"⟩, ⟨"/p/x"⟩]
            serverPaths := ["$/P/x", "$/P/x"], projects := [("$/P", { compatibility := {} })] }]
      loadError := none }
  have hrun : (discover (alike fun _ => .ok []) .never workspaces
      [⟨"/p/x"⟩, ⟨"/o"⟩, ⟨"/p/q/y"⟩, ⟨"/p/x"⟩] {}).run.run () = (.ok discovery, ()) :=
    eq_ok_of_toOption (by decide +kernel)
  refine ⟨discovery, hrun, by decide +kernel, ?_⟩
  exact (discover_groups_files _ _ _ _ _ _ _ _ hrun).2.1

/-- Whatever the servers answer and wherever a query fails, the policies of a discovered project are
enabled and honoured by the flags in force there, and the stateless ones come first. A project whose
flags honour nothing has no policies. -/
theorem discover_honours_flags (queries : Queries (StateM σ)) (cancellation : Cancellation (StateM σ))
    (workspaces : List Workspace) (files : List LocalPath) (defaults : Compatibility)
    (world world' : σ) (discovery : Discovery)
    (hrun : (discover queries cancellation workspaces files defaults).run.run world =
      (.ok discovery, world')) :
    ∀ discovered ∈ discovery.servers, ∀ project data, (project, data) ∈ discovered.projects →
      (∀ descriptor ∈ data.policies, descriptor.enabled = true) ∧
      (data.policies.Pairwise fun a b => a.isStateful = true → b.isStateful = true) ∧
      (∀ descriptor ∈ data.policies, descriptor.isStateful = false →
        data.compatibility.teamExplorer = true) ∧
      (∀ descriptor ∈ data.policies, descriptor.isStateful = true →
        data.compatibility.teamprise = true) ∧
      (data.compatibility.teamExplorer = false → data.compatibility.teamprise = false →
        data.policies = []) := by
  intro discovered hmem project data hdata
  obtain ⟨-, hcomplete⟩ := complete_of_discover hrun
  have hhonoured : Honoured data := (hcomplete discovered hmem).projects.data (project, data) hdata
  refine ⟨fun descriptor hd => (hhonoured.of_mem hd).1, hhonoured.pairwise, ?_, ?_, ?_⟩
  · intro descriptor hd hstateless
    simpa [hstateless] using (hhonoured.of_mem hd).2
  · intro descriptor hd hstateful
    simpa [hstateful] using (hhonoured.of_mem hd).2
  · intro hexplorer hteamprise
    refine List.eq_nil_iff_forall_not_mem.mpr fun descriptor hd => ?_
    simpa [hexplorer, hteamprise] using (hhonoured.of_mem hd).2

/-- What was read before a query failed stays. -/
theorem discover_honours_flags_after_failure :
    let workspaces : List Workspace := [⟨"main", "alice", .ofUri "http://b", [⟨"$/P", ⟨"/p"⟩⟩]⟩]
    let queries : Queries (StateM Unit) := alike fun
      | .overrides => .ok []
      | .statelessPolicies => .ok [⟨"$/P", some <|
          "<policy-definitions><policy-definition><policy-type id=\"on\" name=\"On\"/>" ++
            "</policy-definition></policy-definitions>"⟩]
      | .statefulPolicies => .error (.server "gone")
    ∃ discovery : Discovery,
      (discover queries .never workspaces [⟨"/p/x"⟩] {}).run.run () = (.ok discovery, ()) ∧
      discovery.loadError.isSome = true ∧
      ∃ discovered ∈ discovery.servers, ∃ data, ("$/P", data) ∈ discovered.projects ∧
        data.policies.map (·.policyType.id) = ["on"] ∧
        ∀ descriptor ∈ data.policies, descriptor.enabled = true := by
  intro workspaces queries
  let data : ProjectPolicies :=
    { compatibility := {}
      policies := [{ policyType := { id := "on", name := "On" }, enabled := true
                     format := .stateless }] }
  let discovered : DiscoveredServer :=
    { server := .ofUri "http://b", notes := [], files := [⟨"/p/x"⟩], serverPaths := ["$/P/x"]
      projects := [("$/P", data)] }
  let discovery : Discovery :=
    { servers := [discovered], loadError := some "http://b: server error: gone" }
  have hrun : (discover queries .never workspaces [⟨"/p/x"⟩] {}).run.run () =
      (.ok discovery, ()) :=
    eq_ok_of_toOption (by decide +kernel)
  have hdata : ("$/P", data) ∈ discovered.projects := List.mem_singleton_self _
  refine ⟨discovery, hrun, rfl, discovered, List.mem_singleton_self _, data, hdata, rfl, ?_⟩
  exact (discover_honours_flags _ _ _ _ _ _ _ _ hrun discovered (List.mem_singleton_self _) _ _
    hdata).1

end Discovery

end Reconcile
