import Mathlib.Data.List.OfFn
import Reconcile.Proofs.Workspace.Partition
import Reconcile.Proofs.Workspace.RoundTrip

namespace Reconcile

/-- A name of a file or a folder, as it stands between two separators. -/
def LocalPath.IsName (name : OsText) : Prop :=
  name ≠ "" ∧ name ≠ "." ∧ name ≠ ".." ∧ LocalPath.slash ∉ name.bytes

instance (name : OsText) : Decidable (LocalPath.IsName name) :=
  inferInstanceAs (Decidable (_ ∧ _))

/-- What a workspace maps, wherever it is checked out. -/
structure Mapping (n : Nat) where
  name : String
  owner : String
  server : Server
  folder : Fin n → ServerPath

/-- The local folders of a checkout. None is the empty path, and none lies in another. -/
structure Layout (n : Nat) where
  root : Fin n → LocalPath
  nonempty : ∀ i, (root i).text ≠ "" := by decide
  apart : ∀ i j, i ≠ j → (root i).startsWith (root j) = false := by decide +kernel

/-- A file by the folder that it lies in and the names that lead to it from there. -/
structure PlacedFile (n : Nat) where
  folder : Fin n
  names : List OsText
  isName : ∀ name ∈ names, LocalPath.IsName name := by decide +kernel

variable {n : Nat}

/-- The local path of a file in a checkout. -/
def Layout.localPath (layout : Layout n) (file : PlacedFile n) : LocalPath :=
  file.names.foldl LocalPath.push (layout.root file.folder)

namespace Mapping

/-- The server path of a file. -/
def serverPath (mapping : Mapping n) (file : PlacedFile n) : ServerPath :=
  String.ofList ((mapping.folder file.folder).stem ++
    (file.names.map (·.shown)).flatMap ('/' :: ·))

/-- The workspace with its folders mapped to those of a layout. -/
def checkout (mapping : Mapping n) (layout : Layout n) : Workspace where
  name := mapping.name
  owner := mapping.owner
  server := mapping.server
  folders := List.ofFn fun i => ⟨mapping.folder i, layout.root i⟩

/-- Every workspace is a checkout if none of its local folders is the empty path and none lies in
another. -/
theorem exists_checkout (workspace : Workspace)
    (hnonempty : ∀ folder ∈ workspace.folders, folder.localPath.text ≠ "")
    (hapart : workspace.folders.Pairwise fun a b =>
      a.localPath.startsWith b.localPath = false ∧ b.localPath.startsWith a.localPath = false) :
    ∃ (mapping : Mapping workspace.folders.length) (layout : Layout workspace.folders.length),
      mapping.checkout layout = workspace := by
  obtain ⟨name, owner, server, folders⟩ := workspace
  rw [List.pairwise_iff_getElem] at hapart
  let layout : Layout folders.length :=
    { root := fun i => folders[i].localPath
      nonempty := fun i => hnonempty _ (List.getElem_mem i.isLt)
      apart := fun i j hne => by
        rcases Nat.lt_or_gt_of_ne (Fin.val_ne_of_ne hne) with hlt | hgt
        · exact (hapart i j i.isLt j.isLt hlt).1
        · exact (hapart j i j.isLt i.isLt hgt).2 }
  refine ⟨⟨name, owner, server, fun i => folders[i].serverPath⟩, layout, ?_⟩
  rw [checkout]
  congr
  exact List.ofFn_getElem

end Mapping

variable {file : PlacedFile n}

namespace Layout

/-- A file is found by the names below the root of its folder. -/
theorem components_localPath (layout : Layout n) (file : PlacedFile n) :
    (layout.localPath file).components =
      (layout.root file.folder).components ++ file.names.map .normal := by
  have hsteps : ∀ component ∈ file.names.map LocalPath.Component.normal, component.IsStep := by
    intro component hmem
    obtain ⟨name, hname, rfl⟩ := List.mem_map.mp hmem
    exact LocalPath.Component.isStep_normal_iff.mpr (file.isName name hname)
  have htexts : (file.names.map LocalPath.Component.normal).map (·.text) = file.names := by
    rw [List.map_map]
    exact List.map_id _
  have hpush := LocalPath.components_foldl_push_steps (layout.nonempty file.folder) hsteps
  rwa [htexts] at hpush

/-- No local folder covers a file but the one that it lies in. -/
theorem startsWith_root_iff (layout : Layout n) (file : PlacedFile n) (i : Fin n) :
    (layout.localPath file).startsWith (layout.root i) = true ↔ i = file.folder := by
  have hown : (layout.root file.folder).components <+: (layout.localPath file).components := by
    rw [layout.components_localPath]
    exact List.prefix_append _ _
  rw [LocalPath.startsWith_iff]
  refine ⟨fun hcovers => ?_, fun heq => heq ▸ hown⟩
  by_contra hne
  -- Of two folders above one path, one would lie in the other.
  rcases List.prefix_or_prefix_of_prefix hcovers hown with hnested | hnested
  · have hstarts := LocalPath.startsWith_iff.mpr hnested
    rw [layout.apart _ _ (Ne.symm hne)] at hstarts
    cases hstarts
  · have hstarts := LocalPath.startsWith_iff.mpr hnested
    rw [layout.apart _ _ hne] at hstarts
    cases hstarts

end Layout

namespace Mapping

/-- A file is covered by the folder that it lies in and by no other one. -/
theorem localFolder?_checkout (mapping : Mapping n) (layout : Layout n) (file : PlacedFile n) :
    (mapping.checkout layout).localFolder? (layout.localPath file) =
      some ⟨mapping.folder file.folder, layout.root file.folder⟩ := by
  rw [Workspace.localFolder?]
  apply deepest?_eq_some
  · rw [List.mem_filter]
    exact ⟨(List.mem_ofFn' _ _).mpr ⟨file.folder, rfl⟩, (layout.startsWith_root_iff file _).mpr rfl⟩
  · intro other hother hne
    obtain ⟨hmem, hcovers⟩ := List.mem_filter.mp hother
    obtain ⟨i, rfl⟩ := (List.mem_ofFn' _ _).mp hmem
    obtain rfl := (layout.startsWith_root_iff file i).mp hcovers
    exact absurd rfl hne

/-- The local path of a file is mapped to its server path, whatever the layout. -/
theorem toServer?_checkout (mapping : Mapping n) (layout : Layout n) (file : PlacedFile n) :
    (mapping.checkout layout).toServer? (layout.localPath file) = some (mapping.serverPath file) := by
  have hbelow : (layout.localPath file).below (layout.root file.folder) =
      file.names.map .normal := by
    rw [LocalPath.below, layout.components_localPath, LocalPath.depth, List.drop_left]
  rw [Workspace.toServer?, localFolder?_checkout, Option.map_some]
  congr 1
  apply String.toList_injective
  rw [WorkingFolder.toList_toServer, hbelow, List.map_map, serverPath, String.toList_ofList]
  rfl

end Mapping

namespace Workspace

variable {workspace : Workspace}

/-- The files that a workspace maps, each with its server path. -/
def mapped (workspace : Workspace) (paths : List LocalPath) : List MappedFile :=
  paths.filterMap fun path => (workspace.toServer? path).map (⟨path, ·⟩)

/-- A single workspace takes every file that it maps. -/
theorem assign?_singleton (workspace : Workspace) (path : LocalPath) :
    assign? [workspace] path = (workspace.toServer? path).map fun item => (0, ⟨path, item⟩) := by
  cases hfolder : workspace.localFolder? path with
  | none => simp [assign?, winner?, candidates, coverage?, toServer?, hfolder, deepest?]
  | some folder => simp [assign?, winner?, candidates, coverage?, toServer?, hfolder, deepest?]

/-- A single workspace gets all the files that it maps. -/
theorem partition_singleton (workspace : Workspace) (paths : List LocalPath) :
    partition [workspace] paths =
      if workspace.mapped paths = [] then [] else [(0, workspace.mapped paths)] := by
  have hassigned : paths.filterMap (assign? [workspace]) = (workspace.mapped paths).map (0, ·) := by
    rw [mapped, List.map_filterMap]
    refine List.filterMap_congr fun path _ => ?_
    rw [assign?_singleton, Option.map_map]
    rfl
  by_cases hnone : workspace.mapped paths = []
  · rw [partition, hassigned, if_pos hnone, hnone]
    rfl
  · have hindices : Sorted.ofList (fun a b => decide (a < b))
        (((workspace.mapped paths).map (0, ·)).map (·.1)) = [0] := by
      refine Sorted.ofList_eq_singleton Sorted.isOrder_decide (by simpa using hnone) ?_
      simp
    rw [partition, hassigned, if_neg hnone, hindices]
    simp [List.filter_map, Function.comp_def]

end Workspace

end Reconcile
