import Reconcile.Proofs.Sorted
import Reconcile.Workspace

namespace Reconcile.Workspace

variable {workspaces : List Workspace} {path : LocalPath} {index : Nat}

/-- Whether a folder of one of the workspaces covers a local path. -/
def covered (workspaces : List Workspace) (path : LocalPath) : Bool :=
  workspaces.any fun workspace => workspace.folders.any fun folder =>
    path.startsWith folder.localPath

/-- A workspace is a candidate with the depth to which it covers the path. -/
theorem mem_candidates_iff {depth : Nat} :
    (index, depth) ∈ candidates workspaces path ↔
      ∃ workspace, workspaces[index]? = some workspace ∧ workspace.coverage? path = some depth := by
  simp only [candidates, List.mem_filterMap, Option.map_eq_some_iff]
  constructor
  · rintro ⟨⟨workspace, index'⟩, hmem, depth', hdepth, heq⟩
    cases heq
    exact ⟨workspace, List.mem_zipIdx_iff_getElem?.mp hmem, hdepth⟩
  · rintro ⟨workspace, hget, hdepth⟩
    exact ⟨(workspace, index), List.mem_zipIdx_iff_getElem?.mpr hget, depth, hdepth, rfl⟩

theorem candidates_eq_nil_iff : candidates workspaces path = [] ↔ covered workspaces path = false := by
  rw [List.eq_nil_iff_forall_not_mem]
  simp only [covered, List.any_eq_false, Bool.not_eq_true]
  constructor
  · intro hnone workspace hmem folder hfolder
    obtain ⟨index, hget⟩ := List.mem_iff_getElem?.mp hmem
    by_contra hstarts
    have hlocal : workspace.localFolder? path ≠ none := fun hlocal =>
      hstarts (localFolder?_eq_none_iff.mp hlocal folder hfolder)
    obtain ⟨deepest, hdeepest⟩ := Option.ne_none_iff_exists'.mp hlocal
    exact hnone (index, deepest.localPath.depth) (mem_candidates_iff.mpr
      ⟨workspace, hget, by simp [coverage?, hdeepest]⟩)
  · rintro hnone ⟨index, depth⟩ hmem
    obtain ⟨workspace, hget, hcoverage⟩ := mem_candidates_iff.mp hmem
    have hlocal := localFolder?_eq_none_iff.mpr (hnone workspace (List.mem_of_getElem? hget))
    simp [coverage?, hlocal] at hcoverage

/-- The workspace that wins a path is there and one of its folders covers the path. -/
theorem exists_of_winner? (hwinner : winner? workspaces path = some index) :
    ∃ workspace folder, workspaces[index]? = some workspace ∧
      workspace.localFolder? path = some folder := by
  obtain ⟨⟨index', depth⟩, hdeepest, rfl⟩ := Option.map_eq_some_iff.mp hwinner
  obtain ⟨workspace, hget, hcoverage⟩ := mem_candidates_iff.mp (mem_of_deepest? hdeepest)
  obtain ⟨folder, hfolder, -⟩ := Option.map_eq_some_iff.mp hcoverage
  exact ⟨workspace, folder, hget, hfolder⟩

theorem winner?_eq_none_iff : winner? workspaces path = none ↔ covered workspaces path = false := by
  rw [winner?, Option.map_eq_none_iff, deepest?_eq_none_iff, candidates_eq_nil_iff]

/-- A path is assigned to the workspace that wins it, with the server path that it has there. -/
theorem assign?_eq_some_iff {item : MappedFile} :
    assign? workspaces path = some (index, item) ↔
      winner? workspaces path = some index ∧ item.localPath = path ∧
        ∃ workspace, workspaces[index]? = some workspace ∧
          workspace.toServer? path = some item.serverPath := by
  obtain ⟨localPath, serverPath⟩ := item
  simp only [assign?, Option.bind_eq_bind, Option.bind_eq_some_iff, Option.pure_def,
    Option.some.injEq, Prod.mk.injEq, MappedFile.mk.injEq]
  constructor
  · rintro ⟨_, hwinner, workspace, hget, _, hserver, rfl, rfl, rfl⟩
    exact ⟨hwinner, rfl, workspace, hget, hserver⟩
  · rintro ⟨hwinner, rfl, workspace, hget, hserver⟩
    exact ⟨index, hwinner, workspace, hget, serverPath, hserver, rfl, rfl, rfl⟩

/-- A path is assigned exactly if some workspace covers it. -/
theorem isSome_assign? : (assign? workspaces path).isSome = covered workspaces path := by
  cases hwinner : winner? workspaces path with
  | none => simp [assign?, hwinner, winner?_eq_none_iff.mp hwinner]
  | some index =>
    obtain ⟨workspace, folder, hget, hfolder⟩ := exists_of_winner? hwinner
    have hcovered : covered workspaces path = true := by
      by_contra hnone
      simp [winner?_eq_none_iff.mpr (by simpa using hnone)] at hwinner
    have hassign : assign? workspaces path = some (index, ⟨path, folder.toServer path⟩) :=
      assign?_eq_some_iff.mpr ⟨hwinner, rfl, workspace, hget, by simp [toServer?, hfolder]⟩
    rw [hassign, hcovered, Option.isSome_some]

/-- A group holds all paths of its workspace, in the given order, and is not empty. -/
theorem mem_partition_iff {paths : List LocalPath} {items : List MappedFile} :
    (index, items) ∈ partition workspaces paths ↔
      items ≠ [] ∧
        items = ((paths.filterMap (assign? workspaces)).filter (·.1 == index)).map (·.2) := by
  simp only [partition, List.mem_map, Sorted.mem_ofList Sorted.isOrder_decide, Prod.mk.injEq]
  constructor
  · rintro ⟨_, ⟨entry, hentry, rfl⟩, rfl, rfl⟩
    refine ⟨List.ne_nil_of_mem (a := entry.2) ?_, rfl⟩
    exact List.mem_map_of_mem (List.mem_filter.mpr ⟨hentry, by simp⟩)
  · rintro ⟨hne, rfl⟩
    obtain ⟨item, hitem⟩ := List.exists_mem_of_ne_nil _ hne
    obtain ⟨entry, hentry, -⟩ := List.mem_map.mp hitem
    obtain ⟨hentry, hindex⟩ := List.mem_filter.mp hentry
    exact ⟨index, ⟨entry, hentry, by simpa using hindex⟩, rfl, rfl⟩

/-- The groups of a partition hold every assigned file as often as it was given. -/
theorem partition_perm (workspaces : List Workspace) (paths : List LocalPath) :
    ((partition workspaces paths).flatMap fun group => group.2.map (group.1, ·)).Perm
      (paths.filterMap (assign? workspaces)) := by
  have hgroup (index : Nat) (assigned : List (Nat × MappedFile)) :
      ((assigned.filter (·.1 == index)).map (·.2)).map (index, ·) =
        assigned.filter (·.1 == index) := by
    rw [List.map_map]
    conv => rhs; rw [← List.map_id (assigned.filter (·.1 == index))]
    refine List.map_congr_left fun entry hentry => ?_
    obtain ⟨-, hindex⟩ := List.mem_filter.mp hentry
    obtain rfl : entry.1 = index := by simpa using hindex
    rfl
  simp only [partition, List.flatMap_map, hgroup]
  exact Sorted.flatMap_ofList_filter_perm Sorted.isOrder_decide _

/-- The groups hold what was assigned, each path as often as it was given. -/
theorem partition_items_perm (workspaces : List Workspace) (paths : List LocalPath) :
    ((partition workspaces paths).flatMap (·.2)).Perm
      (paths.filterMap fun path => (assign? workspaces path).map (·.2)) := by
  have hperm := (partition_perm workspaces paths).map (·.2)
  simpa [List.map_flatMap, List.map_filterMap, Function.comp_def] using hperm

/-- The paths that are assigned are the covered ones, in the given order. -/
theorem map_localPath_assigned (workspaces : List Workspace) (paths : List LocalPath) :
    (paths.filterMap fun path => (assign? workspaces path).map (·.2)).map (·.localPath) =
      paths.filter (covered workspaces) := by
  rw [List.map_filterMap, ← List.filterMap_eq_filter]
  refine List.filterMap_congr fun path _ => ?_
  rw [Option.map_map]
  cases hassign : assign? workspaces path with
  | none => simp [Option.guard, ← isSome_assign?, hassign]
  | some entry =>
    obtain ⟨-, hlocal, -⟩ := assign?_eq_some_iff.mp hassign
    simp [Option.guard, ← isSome_assign?, hassign, hlocal]

end Reconcile.Workspace
