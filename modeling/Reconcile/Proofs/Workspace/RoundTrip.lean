import Mathlib.Data.List.Basic
import Reconcile.Proofs.LocalPath
import Reconcile.Proofs.ServerPath
import Reconcile.Workspace

namespace Reconcile

namespace WorkingFolder

variable {folder : WorkingFolder} {path : LocalPath}

/-- The server path is that of the folder, with a segment for each component below it. -/
theorem toList_toServer :
    (folder.toServer path).toList = folder.serverPath.stem ++
      ((path.below folder.localPath).map (·.text.shown)).flatMap ('/' :: ·) := by
  have hsteps (steps : List LocalPath.Component) (text : List Char) :
      steps.foldl (fun text component => text ++ '/' :: component.text.shown) text =
        text ++ (steps.map (·.text.shown)).flatMap ('/' :: ·) := by
    induction steps generalizing text with
    | nil => simp
    | cons component steps ih => simp [ih]
  rw [toServer, String.toList_ofList, hsteps]

theorem isUnder_toServer : (folder.toServer path).isUnder folder.serverPath = true := by
  rw [ServerPath.isUnder_iff, toList_toServer, Text.lowerAsciiText_append, ServerPath.folded]
  cases path.below folder.localPath with
  | nil => exact Or.inl (List.append_nil _)
  | cons component steps =>
    refine Or.inr ⟨Text.lowerAsciiText (component.text.shown ++
      (steps.map (·.text.shown)).flatMap ('/' :: ·)), ?_⟩
    rw [List.append_assoc]
    rfl

/-- Back and forth through one folder, a path keeps its components as they are shown. A folder without
any text is left out: below it a path could begin at the root, which no segment can express. -/
theorem components_toLocal_toServer (path : LocalPath) (hfolder : folder.localPath.text ≠ "") :
    (folder.toLocal (folder.toServer path)).components = folder.localPath.components ++
      (path.below folder.localPath).map .asShown := by
  have hsteps : ∀ component ∈ (path.below folder.localPath).map LocalPath.Component.asShown,
      component.IsStep := by
    intro component hmem
    obtain ⟨step, hstep, rfl⟩ := List.mem_map.mp hmem
    exact (LocalPath.isStep_of_mem_below hfolder hstep).asShown
  have hshown : ∀ piece ∈ (path.below folder.localPath).map (·.text.shown), '/' ∉ piece ∧ piece ≠ [] := by
    intro piece hpiece
    obtain ⟨component, hmem, rfl⟩ := List.mem_map.mp hpiece
    have hstep := LocalPath.isStep_of_mem_below hfolder hmem
    exact ⟨OsText.notMem_shown (by decide) hstep.1, hstep.shown_ne_nil⟩
  have hsegments : (([] :: (path.below folder.localPath).map (·.text.shown)).filter (· ≠ [])) =
      (path.below folder.localPath).map (·.text.shown) := by
    rw [List.filter_cons_of_neg (by simp), List.filter_eq_self]
    exact fun piece hpiece => by simpa using (hshown piece hpiece).2
  have htexts : ((path.below folder.localPath).map (·.text.shown)).map OsText.ofList =
      ((path.below folder.localPath).map LocalPath.Component.asShown).map (·.text) := by
    rw [List.map_map, List.map_map]
    exact List.map_congr_left fun component _ => component.text_asShown.symm
  rw [toLocal, toList_toServer, List.drop_left,
    Text.splitOn_flatMap_separator fun piece hpiece => (hshown piece hpiece).1, hsegments, htexts,
    LocalPath.components_foldl_push_steps hfolder hsteps]

end WorkingFolder

namespace Workspace

variable {workspace : Workspace} {path : LocalPath} {item : ServerPath} {folder : WorkingFolder}

/-- The folder that answers is one of the workspace and covers the path. -/
theorem mem_of_localFolder? (hfolder : workspace.localFolder? path = some folder) :
    folder ∈ workspace.folders ∧ path.startsWith folder.localPath = true := by
  rw [localFolder?] at hfolder
  exact List.mem_filter.mp (mem_of_deepest? hfolder)

/-- As soon as one folder covers an item some folder answers for it. -/
theorem exists_serverFolder? (hmem : folder ∈ workspace.folders)
    (hunder : item.isUnder folder.serverPath = true) :
    ∃ winner, workspace.serverFolder? item = some winner := by
  cases hwinner : workspace.serverFolder? item with
  | some winner => exact ⟨winner, rfl⟩
  | none =>
    have hnot := serverFolder?_eq_none_iff.mp hwinner folder hmem
    rw [hunder] at hnot
    cases hnot

/-- A folder answers for an item if no other one covers it with a name as long. -/
theorem serverFolder?_of_longest (hmem : folder ∈ workspace.folders)
    (hunder : item.isUnder folder.serverPath = true)
    (hlongest : ∀ other ∈ workspace.folders, other ≠ folder →
      item.isUnder other.serverPath = true →
        other.serverPath.stem.length < folder.serverPath.stem.length) :
    workspace.serverFolder? item = some folder := by
  rw [serverFolder?]
  refine deepest?_eq_some (List.mem_filter.mpr ⟨hmem, hunder⟩) fun other hother hne => ?_
  obtain ⟨hthere, hcovers⟩ := List.mem_filter.mp hother
  exact hlongest other hthere hne hcovers

/-- Where no folder lies under another one on the server, an item has one folder above it at most. -/
theorem eq_of_isUnder {a b : WorkingFolder}
    (hapart : ∀ a ∈ workspace.folders, ∀ b ∈ workspace.folders, a ≠ b →
      a.serverPath.isUnder b.serverPath = false)
    (ha : a ∈ workspace.folders) (hb : b ∈ workspace.folders)
    (hundera : item.isUnder a.serverPath = true) (hunderb : item.isUnder b.serverPath = true) :
    a = b := by
  by_contra hne
  rcases ServerPath.isUnder_or_isUnder hundera hunderb with hunder | hunder
  · rw [hapart a ha b hb hne] at hunder
    cases hunder
  · rw [hapart b hb a ha (Ne.symm hne)] at hunder
    cases hunder

/-- A server path that a local path is mapped to lies under the folder that mapped it, and has a local
path again. That one has the components of the first path as they are shown, if every other folder above
the server path has a shorter name than the folder that mapped it, and so it always does if no folder lies
under another one on the server. They are the components themselves exactly if those below the folder are
texts, since a byte that is none is lost on the way to the server. -/
theorem toLocal?_of_toServer?
    (hfolders : ∀ folder ∈ workspace.folders, folder.localPath.text ≠ "")
    (hitem : workspace.toServer? path = some item) :
    ∃ folder back, workspace.localFolder? path = some folder ∧
      item.isUnder folder.serverPath = true ∧ workspace.toLocal? item = some back ∧
      ((∀ other ∈ workspace.folders, other ≠ folder → item.isUnder other.serverPath = true →
          other.serverPath.stem.length < folder.serverPath.stem.length) ∨
        (∀ a ∈ workspace.folders, ∀ b ∈ workspace.folders, a ≠ b →
          a.serverPath.isUnder b.serverPath = false) →
        back.components =
            folder.localPath.components ++ (path.below folder.localPath).map .asShown ∧
          (back.components = path.components ↔
            ∀ component ∈ path.below folder.localPath, component.text.IsText)) := by
  rw [toServer?] at hitem
  obtain ⟨folder, hfolder, rfl⟩ := Option.map_eq_some_iff.mp hitem
  obtain ⟨hmem, hstarts⟩ := mem_of_localFolder? hfolder
  have hunder : (folder.toServer path).isUnder folder.serverPath = true := WorkingFolder.isUnder_toServer
  obtain ⟨winner, hwinner⟩ := exists_serverFolder? hmem hunder
  have hback : workspace.toLocal? (folder.toServer path) =
      some (winner.toLocal (folder.toServer path)) := by
    rw [toLocal?, hwinner, Option.map_some]
  refine ⟨folder, _, hfolder, hunder, hback, fun hcondition => ?_⟩
  have hlongest : ∀ other ∈ workspace.folders, other ≠ folder →
      (folder.toServer path).isUnder other.serverPath = true →
        other.serverPath.stem.length < folder.serverPath.stem.length := by
    rcases hcondition with hlongest | hapart
    · exact hlongest
    · intro other hother hne hcovers
      exact absurd (eq_of_isUnder hapart hother hmem hcovers hunder) hne
  have hfound := serverFolder?_of_longest hmem hunder hlongest
  rw [hwinner] at hfound
  cases hfound
  have hshown := WorkingFolder.components_toLocal_toServer path (hfolders folder hmem)
  refine ⟨hshown, ?_⟩
  have hsame : (path.below folder.localPath).map .asShown = path.below folder.localPath ↔
      ∀ component ∈ path.below folder.localPath, component.asShown = component := by
    simpa using List.map_eq_map_iff (f := LocalPath.Component.asShown) (g := id)
  rw [hshown, ← LocalPath.components_append_below hstarts, List.append_right_inj, hsame]
  simp only [LocalPath.Component.asShown_eq_iff]

/-- The root is mapped beside a project, and the local path goes up and has idle separators. -/
theorem toLocal?_of_toServer?_nested :
    let workspace : Workspace := ⟨"main", "alice", .ofUri "http://server",
      [⟨"$/", ⟨"/w"⟩⟩, ⟨"$/P//", ⟨"/w/p/."⟩⟩]⟩
    let path : LocalPath := ⟨"/w/p//../größe/./y/"⟩
    workspace.toServer? path = some "$/P/../größe/y" ∧
      ∃ back, workspace.toLocal? "$/P/../größe/y" = some back ∧ back.components = path.components := by
  intro workspace path
  have hitem : workspace.toServer? path = some "$/P/../größe/y" := by decide +kernel
  have hfolder : workspace.localFolder? path = some ⟨"$/P//", ⟨"/w/p/."⟩⟩ := by decide +kernel
  have hfolders : ∀ folder ∈ workspace.folders, folder.localPath.text ≠ "" := by decide
  obtain ⟨folder, back, hfound, -, hback, hsame⟩ := toLocal?_of_toServer? hfolders hitem
  rw [hfolder] at hfound
  cases hfound
  exact ⟨hitem, back, hback, (hsame (.inl (by decide +kernel))).2.mpr (by decide +kernel)⟩

/-- The only folder maps a file to a server path that leads to another file: the byte 255 is no text, and
another name takes its place. -/
theorem toLocal?_of_toServer?_loses_byte :
    let folder : WorkingFolder := ⟨"$/Proj", ⟨"/src"⟩⟩
    let workspace : Workspace := ⟨"main", "alice", .ofUri "http://server", [folder]⟩
    let path : LocalPath := ⟨⟨[0x2F, 0x73, 0x72, 0x63, 0x2F, 0xFF]⟩⟩
    folder.localPath.text ≠ "" ∧ path.components = [.root, .normal "src", .normal ⟨[0xFF]⟩] ∧
      workspace.localFolder? path = some folder ∧ workspace.toServer? path = some "$/Proj/\uFFFD" ∧
      workspace.toLocal? "$/Proj/\uFFFD" = some ⟨"/src/\uFFFD"⟩ ∧
      LocalPath.components ⟨"/src/\uFFFD"⟩ ≠ path.components := by
  decide +kernel

end Workspace

end Reconcile
