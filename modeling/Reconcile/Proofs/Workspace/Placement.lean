import Reconcile.Proofs.Deepest
import Reconcile.Proofs.Workspace.Partition

namespace Reconcile.Workspace

variable {workspaces : List Workspace} {workspace : Workspace} {path : LocalPath} {index depth : Nat}
  {paths : List LocalPath} {items : List MappedFile}

/-- Some folder of the workspace covers the path at this depth, and none covers it at a greater one. -/
structure Reaches (workspace : Workspace) (path : LocalPath) (depth : Nat) : Prop where
  attained : ∃ folder ∈ workspace.folders,
    path.startsWith folder.localPath = true ∧ folder.localPath.depth = depth
  greatest : ∀ folder ∈ workspace.folders,
    path.startsWith folder.localPath = true → folder.localPath.depth ≤ depth

/-- The greatest depth at which a workspace covers a path is the depth of the folder that decides about
the path there. -/
theorem coverage?_eq_max? (workspace : Workspace) (path : LocalPath) :
    workspace.coverage? path = ((workspace.folders.filter fun folder =>
      path.startsWith folder.localPath).map (·.localPath.depth)).max? := by
  rw [coverage?]
  cases hlocal : workspace.localFolder? path with
  | none =>
    have hnone := localFolder?_eq_none_iff.mp hlocal
    rw [List.filter_eq_nil_iff.mpr (by simpa using hnone)]
    rfl
  | some folder =>
    rw [localFolder?] at hlocal
    rw [Option.map_some, eq_comm, List.max?_eq_some_iff]
    exact ⟨List.mem_map_of_mem (mem_of_deepest? hlocal),
      List.forall_mem_map.mpr (depth_le_of_deepest? hlocal)⟩

theorem coverage?_eq_some_iff :
    workspace.coverage? path = some depth ↔ workspace.Reaches path depth := by
  rw [coverage?_eq_max?, List.max?_eq_some_iff, List.forall_mem_map]
  constructor
  · rintro ⟨hattained, hgreatest⟩
    obtain ⟨folder, hmem, hdepth⟩ := List.mem_map.mp hattained
    obtain ⟨hfolder, hcovers⟩ := List.mem_filter.mp hmem
    exact ⟨⟨folder, hfolder, hcovers, hdepth⟩, fun other hother hcovers =>
      hgreatest other (List.mem_filter.mpr ⟨hother, hcovers⟩)⟩
  · rintro ⟨⟨folder, hfolder, hcovers, rfl⟩, hgreatest⟩
    refine ⟨List.mem_map_of_mem (List.mem_filter.mpr ⟨hfolder, hcovers⟩), fun other hother => ?_⟩
    obtain ⟨hother, hcovers⟩ := List.mem_filter.mp hother
    exact hgreatest other hother hcovers

/-- A workspace with a folder that covers a path reaches it to some depth. -/
theorem exists_reaches {folder : WorkingFolder} (hfolder : folder ∈ workspace.folders)
    (hcovers : path.startsWith folder.localPath = true) : ∃ depth, workspace.Reaches path depth := by
  cases hcoverage : workspace.coverage? path with
  | some depth => exact ⟨depth, coverage?_eq_some_iff.mp hcoverage⟩
  | none =>
    rw [coverage?, Option.map_eq_none_iff, localFolder?_eq_none_iff] at hcoverage
    rw [hcoverage folder hfolder] at hcovers
    cases hcovers

/-- No folder of any workspace covers the path deeper than this workspace does, and no workspace listed
after it reaches as deep. -/
def Owns (workspaces : List Workspace) (path : LocalPath) (index : Nat) : Prop :=
  ∃ workspace depth, workspaces[index]? = some workspace ∧ workspace.Reaches path depth ∧
    (∀ other ∈ workspaces, ∀ folder ∈ other.folders,
      path.startsWith folder.localPath = true → folder.localPath.depth ≤ depth) ∧
    ∀ later other, index < later → workspaces[later]? = some other → ¬ other.Reaches path depth

theorem Owns.unique {other : Nat} (hindex : Owns workspaces path index)
    (hother : Owns workspaces path other) : index = other := by
  obtain ⟨workspace, depth, hget, hreaches, hdeepest, hlast⟩ := hindex
  obtain ⟨workspace', depth', hget', hreaches', hdeepest', hlast'⟩ := hother
  have hdepth : depth = depth' := by
    obtain ⟨folder, hmem, hcovers, rfl⟩ := hreaches.attained
    obtain ⟨folder', hmem', hcovers', rfl⟩ := hreaches'.attained
    apply Nat.le_antisymm
    · exact hdeepest' workspace (List.mem_of_getElem? hget) folder hmem hcovers
    · exact hdeepest workspace' (List.mem_of_getElem? hget') folder' hmem' hcovers'
  subst hdepth
  rcases Nat.lt_trichotomy index other with hlt | heq | hgt
  · exact absurd hreaches' (hlast other workspace' hlt hget')
  · exact heq
  · exact absurd hreaches (hlast' index workspace hgt hget)

theorem pairwise_candidates (workspaces : List Workspace) (path : LocalPath) :
    (candidates workspaces path).Pairwise (·.1 < ·.1) := by
  apply Sorted.pairwise_filterMap_zipIdx
  rintro ⟨workspace, index⟩ candidate hcandidate
  obtain ⟨_, -, rfl⟩ := Option.map_eq_some_iff.mp hcandidate
  rfl

theorem owns_of_winner? (hwinner : winner? workspaces path = some index) :
    Owns workspaces path index := by
  obtain ⟨⟨index, depth⟩, hdeepest, rfl⟩ := Option.map_eq_some_iff.mp hwinner
  obtain ⟨workspace, hget, hcoverage⟩ := mem_candidates_iff.mp (mem_of_deepest? hdeepest)
  refine ⟨workspace, depth, hget, coverage?_eq_some_iff.mp hcoverage, ?_, ?_⟩
  · intro other hother folder hfolder hcovers
    obtain ⟨position, hposition⟩ := List.mem_iff_getElem?.mp hother
    obtain ⟨reached, hreached⟩ := exists_reaches hfolder hcovers
    have hcandidate : (position, reached) ∈ candidates workspaces path :=
      mem_candidates_iff.mpr ⟨other, hposition, coverage?_eq_some_iff.mpr hreached⟩
    exact Nat.le_trans (hreached.greatest folder hfolder hcovers)
      (depth_le_of_deepest? hdeepest _ hcandidate)
  · intro later other hlater hget' hreaches
    have hcandidate : (later, depth) ∈ candidates workspaces path :=
      mem_candidates_iff.mpr ⟨other, hget', coverage?_eq_some_iff.mpr hreaches⟩
    -- An equally deep candidate stands before the winner, and candidates stand in order.
    obtain ⟨before, after, hsplit, -, hafter⟩ := isLastDeepest_of_deepest? hdeepest
    have hordered := pairwise_candidates workspaces path
    rw [hsplit] at hcandidate hordered
    rcases List.mem_append.mp hcandidate with hmem | hmem
    · have hlt : later < index :=
        (List.pairwise_append.mp hordered).2.2 _ hmem _ List.mem_cons_self
      omega
    · rcases List.mem_cons.mp hmem with heq | hmem
      · cases heq
        omega
      · exact absurd (hafter _ hmem) (Nat.lt_irrefl depth)

theorem winner?_eq_some_iff : winner? workspaces path = some index ↔ Owns workspaces path index := by
  refine ⟨owns_of_winner?, fun howns => ?_⟩
  cases hwinner : winner? workspaces path with
  | some other => rw [(owns_of_winner? hwinner).unique howns]
  | none =>
    obtain ⟨workspace, depth, hget, hreaches, -⟩ := howns
    obtain ⟨folder, hfolder, hcovers, -⟩ := hreaches.attained
    have hnone := winner?_eq_none_iff.mp hwinner
    simp only [covered, List.any_eq_false, Bool.not_eq_true] at hnone
    rw [hnone workspace (List.mem_of_getElem? hget) folder hfolder] at hcovers
    cases hcovers

/-- A path belongs to a workspace exactly if some folder covers it. -/
theorem exists_winner?_iff : (∃ index, winner? workspaces path = some index) ↔
    ∃ workspace ∈ workspaces, ∃ folder ∈ workspace.folders,
      path.startsWith folder.localPath = true := by
  rw [← Option.isSome_iff_exists, ← Option.ne_none_iff_isSome, ne_eq, winner?_eq_none_iff,
    Bool.not_eq_false, covered]
  simp only [List.any_eq_true]

/-- A path that belongs to a workspace has a server path there: both searches agree. -/
theorem exists_assign?_of_winner? (hwinner : winner? workspaces path = some index) :
    ∃ item, assign? workspaces path = some (index, item) := by
  obtain ⟨workspace, folder, hget, hfolder⟩ := exists_of_winner? hwinner
  have hserver : workspace.toServer? path = some (folder.toServer path) := by
    rw [toServer?, hfolder, Option.map_some]
  exact ⟨⟨path, folder.toServer path⟩, assign?_eq_some_iff.mpr ⟨hwinner, rfl, workspace, hget, hserver⟩⟩

/-- Sharing out and picking a workspace can change places. -/
theorem filterMap_assign?_filter (workspaces : List Workspace) (paths : List LocalPath) (index : Nat) :
    (paths.filter (winner? workspaces · == some index)).filterMap (assign? workspaces) =
      (paths.filterMap (assign? workspaces)).filter (·.1 == index) := by
  induction paths with
  | nil => rfl
  | cons path paths ih =>
    cases hwinner : winner? workspaces path with
    | none =>
      have hassign : assign? workspaces path = none := by simp [assign?, hwinner]
      rw [List.filter_cons_of_neg (by simp [hwinner]), ih, List.filterMap_cons_none hassign]
    | some other =>
      obtain ⟨item, hassign⟩ := exists_assign?_of_winner? hwinner
      by_cases hother : other = index
      · rw [List.filter_cons_of_pos (by simp [hwinner, hother]), List.filterMap_cons_some hassign, ih,
          List.filterMap_cons_some hassign, List.filter_cons_of_pos (by simp [hother])]
      · rw [List.filter_cons_of_neg (by simp [hwinner, hother]), ih, List.filterMap_cons_some hassign,
          List.filter_cons_of_neg (by simp [hother])]

/-- A group holds the paths that belong to its workspace, in the given order, each with the server path
that it has there. -/
theorem mem_partition_iff_owned : (index, items) ∈ partition workspaces paths ↔ items ≠ [] ∧
    items.map (·.localPath) = paths.filter (winner? workspaces · == some index) ∧
    ∀ item ∈ items, ∃ workspace, workspaces[index]? = some workspace ∧
      workspace.toServer? item.localPath = some item.serverPath := by
  rw [mem_partition_iff, ← filterMap_assign?_filter]
  refine and_congr_right fun _ => ⟨?_, ?_⟩
  · rintro rfl
    constructor
    · rw [List.map_map, List.map_filterMap]
      refine (List.filterMap_congr fun path hpath => ?_).trans List.filterMap_some
      have hwinner : winner? workspaces path = some index := by
        simpa using (List.mem_filter.mp hpath).2
      obtain ⟨item, hassign⟩ := exists_assign?_of_winner? hwinner
      obtain ⟨-, hlocal, -⟩ := assign?_eq_some_iff.mp hassign
      simp [hassign, hlocal]
    · intro item hitem
      obtain ⟨⟨other, _⟩, hentry, rfl⟩ := List.mem_map.mp hitem
      obtain ⟨path, hpath, hassign⟩ := List.mem_filterMap.mp hentry
      have hwinner : winner? workspaces path = some index := by
        simpa using (List.mem_filter.mp hpath).2
      obtain ⟨hother, rfl, hserver⟩ := assign?_eq_some_iff.mp hassign
      rw [hwinner] at hother
      cases hother
      exact hserver
  · rintro ⟨hlocals, hservers⟩
    have hassign : ∀ item ∈ items, assign? workspaces item.localPath = some (index, item) := by
      intro item hitem
      have hmem : item.localPath ∈ paths.filter (winner? workspaces · == some index) :=
        hlocals ▸ List.mem_map_of_mem hitem
      have hwinner : winner? workspaces item.localPath = some index := by
        simpa using (List.mem_filter.mp hmem).2
      exact assign?_eq_some_iff.mpr ⟨hwinner, rfl, hservers item hitem⟩
    rw [← hlocals, List.filterMap_map, List.map_filterMap]
    refine ((List.filterMap_congr fun item hitem => ?_).trans List.filterMap_some).symm
    rw [Function.comp_apply, hassign item hitem, Option.map_some]

theorem pairwise_partition (workspaces : List Workspace) (paths : List LocalPath) :
    ((partition workspaces paths).map (·.1)).Pairwise (· < ·) := by
  have hindices : (partition workspaces paths).map (·.1) =
      Sorted.ofList (fun a b => decide (a < b)) ((paths.filterMap (assign? workspaces)).map (·.1)) := by
    rw [partition, List.map_map]
    exact List.map_id _
  rw [hindices]
  exact (Sorted.pairwise_ofList Sorted.isOrder_decide).imp of_decide_eq_true

/-- The groups of a partition hold every path that some folder covers as often as it is given, and no
other. They come in the order of the workspaces, and none is empty. The group of a workspace holds, in the
given order, the paths that belong to it, each with its server path there; and a path belongs to the last
of the workspaces that reach deepest. -/
theorem partition_places_each_path (workspaces : List Workspace) (paths : List LocalPath) :
    ((partition workspaces paths).flatMap (·.2.map (·.localPath))).Perm
      (paths.filter (covered workspaces)) ∧
    ((partition workspaces paths).map (·.1)).Pairwise (· < ·) ∧
    (∀ index items, (index, items) ∈ partition workspaces paths ↔ items ≠ [] ∧
      items.map (·.localPath) = paths.filter (winner? workspaces · == some index) ∧
      ∀ item ∈ items, ∃ workspace, workspaces[index]? = some workspace ∧
        workspace.toServer? item.localPath = some item.serverPath) ∧
    (∀ path, (∃ index, winner? workspaces path = some index) ↔
      ∃ workspace ∈ workspaces, ∃ folder ∈ workspace.folders,
        path.startsWith folder.localPath = true) ∧
    ∀ path index, winner? workspaces path = some index ↔ Owns workspaces path index := by
  refine ⟨?_, pairwise_partition workspaces paths, fun _ _ => mem_partition_iff_owned,
    fun _ => exists_winner?_iff, fun _ _ => winner?_eq_some_iff⟩
  have hperm := (partition_items_perm workspaces paths).map (·.localPath)
  rwa [List.map_flatMap, map_localPath_assigned] at hperm

/-- Two workspaces reach a path that is given twice equally deep, and the last one gets it both times. -/
theorem partition_places_each_path_tied :
    let server : Server := .ofUri "http://server"
    let workspaces : List Workspace :=
      [⟨"outer", "alice", server, [⟨"$/A", ⟨"/w"⟩⟩]⟩,
        ⟨"both", "alice", server, [⟨"$/B", ⟨"/w"⟩⟩, ⟨"$/B/b", ⟨"/w/b"⟩⟩]⟩,
        ⟨"inner", "alice", server, [⟨"$/C", ⟨"/w//b/."⟩⟩]⟩]
    let paths : List LocalPath := [⟨"/w/b/x"⟩, ⟨"/v/x"⟩, ⟨"/w/y"⟩, ⟨"/w/b/x"⟩]
    Owns workspaces ⟨"/w/b/x"⟩ 2 ∧ Owns workspaces ⟨"/w/y"⟩ 1 ∧
      (2, [⟨⟨"/w/b/x"⟩, "$/C/x"⟩, ⟨⟨"/w/b/x"⟩, "$/C/x"⟩]) ∈ partition workspaces paths ∧
      ¬ ∃ index, winner? workspaces ⟨"/v/x"⟩ = some index := by
  intro server workspaces paths
  obtain ⟨-, -, hgroups, hcovered, howns⟩ := partition_places_each_path workspaces paths
  have hinner : winner? workspaces ⟨"/w/b/x"⟩ = some 2 := by decide +kernel
  have hboth : winner? workspaces ⟨"/w/y"⟩ = some 1 := by decide +kernel
  refine ⟨(howns _ 2).mp hinner, (howns _ 1).mp hboth, (hgroups 2 _).mpr ⟨by simp, ?_, ?_⟩, ?_⟩
  · decide +kernel
  · simp only [List.mem_cons, List.not_mem_nil, or_false, or_self, forall_eq]
    exact ⟨_, rfl, by decide +kernel⟩
  · rw [hcovered]
    decide +kernel

end Reconcile.Workspace
