import Reconcile.Checkin.Discovery
import Reconcile.Proofs.Workspace.Partition

namespace Reconcile.Discovery

variable {workspaces : List Workspace} {files : List LocalPath}

/-- A local file as a mapped file, with the server of the workspace that it belongs to. -/
def owned? (workspaces : List Workspace) (path : LocalPath) : Option (Server × MappedFile) := do
  let (index, item) ← Workspace.assign? workspaces path
  let workspace ← workspaces[index]?
  return (workspace.server, item)

/-- A file belongs to the server of the workspace that wins it. -/
theorem owned?_eq_some_iff {path : LocalPath} {server : Server} {item : MappedFile} :
    owned? workspaces path = some (server, item) ↔ item.localPath = path ∧
      ∃ index workspace, Workspace.winner? workspaces path = some index ∧
        workspaces[index]? = some workspace ∧ workspace.server = server ∧
        workspace.toServer? path = some item.serverPath := by
  simp only [owned?, Option.bind_eq_bind, Option.bind_eq_some_iff, Option.pure_def,
    Option.some.injEq, Prod.mk.injEq, Prod.exists, Workspace.assign?_eq_some_iff]
  constructor
  · rintro ⟨index, _, ⟨hwinner, hlocal, workspace, hget, hserver⟩, workspace', hget', rfl, rfl⟩
    obtain rfl : workspace = workspace' := Option.some.inj (hget.symm.trans hget')
    exact ⟨hlocal, index, workspace, hwinner, hget, rfl, hserver⟩
  · rintro ⟨hlocal, index, workspace, hwinner, hget, rfl, hserver⟩
    exact ⟨index, item, ⟨hwinner, hlocal, workspace, hget, hserver⟩, workspace, hget, rfl, rfl⟩

theorem map_snd_owned? (path : LocalPath) :
    (owned? workspaces path).map (·.2) = (Workspace.assign? workspaces path).map (·.2) := by
  cases hassign : Workspace.assign? workspaces path with
  | none => simp [owned?, hassign]
  | some entry =>
    obtain ⟨-, -, workspace, hget, -⟩ := Workspace.assign?_eq_some_iff.mp hassign
    simp [owned?, hassign, hget]

/-- The groups of a partition, each with the server of its workspace. -/
def ownedGroups (workspaces : List Workspace) (files : List LocalPath) :
    List (Server × List MappedFile) :=
  (Workspace.partition workspaces files).filterMap fun (index, items) =>
    workspaces[index]?.map fun workspace => (workspace.server, items)

/-- Sharing the files out loses none and invents none. -/
theorem ownedGroups_perm (workspaces : List Workspace) (files : List LocalPath) :
    ((ownedGroups workspaces files).flatMap fun group => group.2.map (group.1, ·)).Perm
      (files.filterMap (owned? workspaces)) := by
  have howned : files.filterMap (owned? workspaces) =
      (files.filterMap (Workspace.assign? workspaces)).filterMap fun entry =>
        workspaces[entry.1]?.map fun workspace => (workspace.server, entry.2) := by
    rw [List.filterMap_filterMap]
    refine List.filterMap_congr fun path _ => ?_
    rw [owned?]
    cases Workspace.assign? workspaces path with
    | none => rfl
    | some entry => cases hget : workspaces[entry.1]? <;> simp [hget]
  have hgroups : ((ownedGroups workspaces files).flatMap fun group => group.2.map (group.1, ·)) =
      ((Workspace.partition workspaces files).flatMap fun group =>
        group.2.map (group.1, ·)).filterMap fun entry =>
          workspaces[entry.1]?.map fun workspace => (workspace.server, entry.2) := by
    rw [ownedGroups, List.filterMap_eq_flatMap_toList, List.flatMap_assoc, List.filterMap_flatMap]
    refine List.flatMap_congr fun group _ => ?_
    cases hget : workspaces[group.1]? <;> simp [hget]
  rw [howned, hgroups]
  exact (Workspace.partition_perm workspaces files).filterMap _

/-- A group is made for a server that owns a file, out of all the files it owns. -/
theorem mem_serverFiles_iff {group : ServerFiles} :
    group ∈ serverFiles workspaces files ↔
      group.server ∈ (ownedGroups workspaces files).map (·.1) ∧
        group.files =
          (((ownedGroups workspaces files).filter (·.1 == group.server)).map (·.2)).flatten := by
  obtain ⟨server, items⟩ := group
  simp only [serverFiles, List.mem_map, Sorted.mem_ofList Server.isOrder_before, ownedGroups,
    ServerFiles.mk.injEq]
  constructor
  · rintro ⟨_, hmem, rfl, rfl⟩
    exact ⟨hmem, rfl⟩
  · rintro ⟨hmem, rfl⟩
    exact ⟨_, hmem, rfl, rfl⟩

/-- Every assigned file is in the group of its server, as often as it was given. -/
theorem serverFiles_perm (workspaces : List Workspace) (files : List LocalPath) :
    ((serverFiles workspaces files).flatMap fun group => group.files.map (group.server, ·)).Perm
      (files.filterMap (owned? workspaces)) := by
  have hgroup (server : Server) : ((((ownedGroups workspaces files).filter (·.1 == server)).map
      (·.2)).flatten).map (server, ·) = ((ownedGroups workspaces files).filter
        (·.1 == server)).flatMap fun group => group.2.map (group.1, ·) := by
    rw [List.map_flatten, List.map_map, List.flatMap]
    congr 1
    refine List.map_congr_left fun group hmem => ?_
    obtain ⟨-, hserver⟩ := List.mem_filter.mp hmem
    obtain rfl : group.1 = server := by simpa using hserver
    rfl
  have hgroups : ((serverFiles workspaces files).flatMap fun group =>
      group.files.map (group.server, ·)) =
        ((Sorted.ofList Server.before ((ownedGroups workspaces files).map (·.1))).flatMap
          fun server => (ownedGroups workspaces files).filter (·.1 == server)).flatMap
            fun group => group.2.map (group.1, ·) := by
    rw [List.flatMap_assoc]
    simp only [← hgroup]
    rw [serverFiles, List.flatMap_map]
    rfl
  rw [hgroups]
  exact ((Sorted.flatMap_ofList_filter_perm Server.isOrder_before _).flatMap_right _).trans
    (ownedGroups_perm workspaces files)

/-- The files of a group belong to its server. -/
theorem owned?_of_mem_serverFiles {group : ServerFiles} {item : MappedFile}
    (hgroup : group ∈ serverFiles workspaces files) (hitem : item ∈ group.files) :
    owned? workspaces item.localPath = some (group.server, item) := by
  have hmem : (group.server, item) ∈ files.filterMap (owned? workspaces) :=
    (serverFiles_perm workspaces files).mem_iff.mp
      (List.mem_flatMap.mpr ⟨group, hgroup, List.mem_map_of_mem hitem⟩)
  obtain ⟨path, -, howned⟩ := List.mem_filterMap.mp hmem
  obtain ⟨rfl, -⟩ := owned?_eq_some_iff.mp howned
  exact howned

theorem serverFiles_items_perm (workspaces : List Workspace) (files : List LocalPath) :
    ((serverFiles workspaces files).flatMap (·.files)).Perm
      ((Workspace.partition workspaces files).flatMap (·.2)) := by
  have hperm := (serverFiles_perm workspaces files).map (·.2)
  have hitems : (files.filterMap (owned? workspaces)).map (·.2) =
      files.filterMap fun path => (Workspace.assign? workspaces path).map (·.2) := by
    simp only [List.map_filterMap, map_snd_owned?]
  rw [hitems] at hperm
  refine .trans ?_ (Workspace.partition_items_perm workspaces files).symm
  simpa [List.map_flatMap, Function.comp_def] using hperm

/-- The groups come in the order of their servers. -/
theorem pairwise_serverFiles (workspaces : List Workspace) (files : List LocalPath) :
    (serverFiles workspaces files).Pairwise fun a b => a.server.before b.server = true := by
  rw [serverFiles]
  exact List.pairwise_map.mpr (Sorted.pairwise_ofList Server.isOrder_before)

/-- No server is visited twice. -/
theorem nodup_server_serverFiles (workspaces : List Workspace) (files : List LocalPath) :
    ((serverFiles workspaces files).map (·.server)).Nodup := by
  refine List.pairwise_map.mpr ((pairwise_serverFiles workspaces files).imp fun {a b} hbefore heq => ?_)
  rw [heq, Server.isOrder_before.irrefl] at hbefore
  cases hbefore

theorem files_ne_nil_of_mem_serverFiles {group : ServerFiles}
    (hgroup : group ∈ serverFiles workspaces files) : group.files ≠ [] := by
  obtain ⟨hserver, hfiles⟩ := mem_serverFiles_iff.mp hgroup
  obtain ⟨owned, howned, hserver⟩ := List.mem_map.mp hserver
  obtain ⟨⟨index, items⟩, hitems, hget⟩ := List.mem_filterMap.mp howned
  obtain ⟨workspace, -, rfl⟩ := Option.map_eq_some_iff.mp hget
  obtain ⟨item, hitem⟩ := List.exists_mem_of_ne_nil _ (Workspace.mem_partition_iff.mp hitems).1
  rw [hfiles]
  have hmem : (workspace.server, items) ∈
      (ownedGroups workspaces files).filter (·.1 == group.server) :=
    List.mem_filter.mpr ⟨howned, by simpa using hserver⟩
  exact List.ne_nil_of_mem (List.mem_flatten_of_mem (List.mem_map_of_mem hmem) hitem)

/-- The team projects of a group are those that its files are in. -/
theorem mem_projects_iff {group : ServerFiles} {project : ServerPath} :
    project ∈ group.projects ↔ ∃ item ∈ group.files, item.serverPath.project = project := by
  rw [ServerFiles.projects, Sorted.mem_ofList Sorted.isOrder_decide, List.mem_map]

theorem pairwise_projects (group : ServerFiles) : group.projects.Pairwise (· < ·) := by
  have hsorted : group.projects.Pairwise fun a b => decide (a < b) = true :=
    Sorted.pairwise_ofList Sorted.isOrder_decide
  simpa using hsorted

end Reconcile.Discovery
