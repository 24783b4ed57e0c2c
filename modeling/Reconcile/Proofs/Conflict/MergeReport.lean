import Mathlib
import Reconcile.Proofs.Conflict.Actions

namespace Reconcile

/-- A conflict that can be merged needs a merge of names or of contents. -/
theorem Conflict.isNameConflict_or_isContentConflict {conflict : Conflict}
    (hmergeable : conflict.isMergeable = true) :
    conflict.isNameConflict = true ∨ conflict.isContentConflict = true := by
  simp only [Conflict.isMergeable, Bool.and_eq_true, Bool.or_eq_true] at hmergeable
  obtain ⟨-, hboth | hedited⟩ := hmergeable
  · have hbase : Conflict.renamesOrEdits conflict.baseChange = true := by
      simp only [Conflict.bothChanged, Bool.and_eq_true] at hboth
      exact hboth.2
    simp only [Conflict.renamesOrEdits, ChangeSet.containsAny, List.any_cons, List.any_nil,
      Bool.or_false, Bool.or_eq_true] at hbase
    rcases hbase with hrename | hedit
    · exact Or.inl (by simp [Conflict.isNameConflict, hrename])
    · exact Or.inr (by simp [Conflict.isContentConflict, hedit])
  · have hedit : conflict.baseChange.contains .edit = true := by
      simp only [Conflict.mergesEditedFile, Bool.and_eq_true] at hedited
      exact hedited.1.2
    exact Or.inr (by simp [Conflict.isContentConflict, hedit])

/-- A merge that someone made and that leaves nothing to do. -/
def Event.IsMerge : Event → Prop
  | .mergeName _ _ (.ok (some _)) | .mergeContent _ _ _ _ (.ok true) => True
  | _ => False

namespace ResolveM

variable {σ : Type} {outside : Collaborators (StateM σ)} {before after : Session × σ}
  {events : List Event}

/-- Where contents are in conflict, they were merged, and in a file. -/
theorem ContentMerge.sublist_of_isContentConflict {conflict : Conflict} {contents : MergeContents}
    {path name : LocalPath} (hmerge : ContentMerge conflict contents path name events (.ok true))
    (hcontent : conflict.isContentConflict = true) :
    conflict.itemType = .file ∧
      [.isFile path true, .mergeContent conflict contents path name (.ok true)].Sublist events := by
  cases hmerge with
  | unneeded hnone => simp [hcontent] at hnone
  | merged _ hfile => exact ⟨hfile, .cons_cons _ (.cons _ (.refl _))⟩

/-- Whenever a merge asks the server to settle a conflict, the contents in conflict were merged before
into a file that was there, and the names in conflict were merged into a name that the workspace of the
conflict maps and that the request carries. One of the two merges always took place. Resolutions without
a merge never send a name. -/
theorem reports_after_merging (outside : Collaborators (StateM σ)) (conflict : Conflict)
    (before after : Session × σ) (events : List Event) (result : Except ResolveError Outcome)
    (workspace : Workspace) (request : ResolveRequest)
    (answer : Except RemoteError ResolveResponse) :
    (∀ first rest, events = first ++ .resolve workspace request answer :: rest →
      Runs (acceptMerge outside.recorded conflict) before events result after →
        request.conflictId = conflict.id ∧ request.resolution = .acceptMerge ∧
        before.1.registry.workspaceOf? conflict.id = some workspace ∧
        (conflict.isContentConflict = true → conflict.itemType = .file ∧
          ∃ path contents name, conflict.sourceOrTarget.map LocalPath.ofWire = some path ∧
            [.isFile path true, .mergeContent conflict contents path name (.ok true)].Sublist
              first) ∧
        (conflict.isNameConflict = true → ∃ merged name,
          .mergeName workspace conflict (.ok (some merged)) ∈ first ∧
          workspace.toLocal? merged = some name ∧ request.newPath = some name.toWire) ∧
        (conflict.isNameConflict = false → request.newPath = none) ∧
        (conflict.isNameConflict = true ∨ conflict.isContentConflict = true) ∧
        ∃ event ∈ first, event.IsMerge) ∧
    (Runs (acceptYours outside.recorded conflict) before events result after →
      .resolve workspace request answer ∈ events → request.newPath = none) ∧
    (Runs (acceptTheirs outside.recorded conflict) before events result after →
      .resolve workspace request answer ∈ events → request.newPath = none) := by
  refine ⟨fun first rest hevents hrun => ?_, fun hrun hmem => ?_, fun hrun hmem => ?_⟩
  · obtain ⟨path, name, contents, loading, naming, merging, loaded, hstart, hname, hmerge, rfl,
      rfl⟩ := (runs_acceptMerge hrun).merged_of_report hevents
    have hcontent (hneeded : conflict.isContentConflict = true) : conflict.itemType = .file ∧
        [.isFile path true, .mergeContent conflict contents path name (.ok true)].Sublist
          (loading ++ (naming ++ (merging ++ [.cancelled false]))) := by
      obtain ⟨hfile, hsublist⟩ := hmerge.sublist_of_isContentConflict hneeded
      refine ⟨hfile, hsublist.trans ?_⟩
      exact ((List.sublist_append_left merging [.cancelled false]).trans
        (List.sublist_append_right naming _)).trans (List.sublist_append_right loading _)
    have hrenamed (hneeded : conflict.isNameConflict = true) : ∃ merged,
        .mergeName workspace conflict (.ok (some merged)) ∈
          loading ++ (naming ++ (merging ++ [.cancelled false])) ∧
        workspace.toLocal? merged = some name := by
      obtain ⟨merged, hmem, hmapped⟩ := hname.mem_of_isNameConflict hneeded
      exact ⟨merged, by simp [hmem], hmapped⟩
    have hneeded := Conflict.isNameConflict_or_isContentConflict hstart.mergeable
    refine ⟨rfl, rfl, hstart.owner, fun hneeded => ?_, fun hneeded => ?_, fun hnone => ?_, hneeded,
      ?_⟩
    · obtain ⟨hfile, hsublist⟩ := hcontent hneeded
      exact ⟨hfile, path, contents, name, hstart.path_eq, hsublist⟩
    · obtain ⟨merged, hmem, hmapped⟩ := hrenamed hneeded
      exact ⟨merged, name, hmem, hmapped, by simp [requestFor, hneeded]⟩
    · simp [requestFor, hnone]
    · rcases hneeded with hneeded | hneeded
      · obtain ⟨merged, hmem, -⟩ := hrenamed hneeded
        exact ⟨_, hmem, trivial⟩
      · obtain ⟨-, hsublist⟩ := hcontent hneeded
        exact ⟨.mergeContent conflict contents path name (.ok true),
          hsublist.subset (by simp), trivial⟩
  · obtain ⟨-, rfl⟩ := (runs_acceptYours hrun).eq_requestFor hmem
    rfl
  · obtain ⟨-, rfl⟩ := (runs_acceptTheirs hrun).eq_requestFor hmem
    rfl

/-- An edited file that was renamed on both sides is reported with both merges made. -/
theorem reports_after_merging_renamed_edit :
    let workspace : Workspace := ⟨"main", "alice", .ofUri "http://server", [⟨"$/P", ⟨"/w"⟩⟩]⟩
    let conflict : Conflict :=
      { id := 3, sourceLocalItem := some "/w/a.txt", yourChange := .ofList [.rename, .edit]
        baseChange := .ofList [.rename, .edit] }
    let session : Session := { registry := .ofGroups [(workspace, [conflict])] }
    ∃ first request after,
      Runs (acceptMerge (Collaborators.willing "$/P/b.txt" {}).recorded conflict) (session, ())
        (first ++ [.resolve workspace request (.ok {})]) (.ok .resolved) after ∧
      (∃ event ∈ first, event.IsMerge) ∧
      ∃ merged name, .mergeName workspace conflict (.ok (some merged)) ∈ first ∧
        workspace.toLocal? merged = some name ∧ request.newPath = some name.toWire := by
  intro workspace conflict session
  let request : ResolveRequest :=
    { conflictId := 3, resolution := .acceptMerge, newPath := some "\\w\\b.txt" }
  have hrun : Runs (acceptMerge (Collaborators.willing "$/P/b.txt" {}).recorded conflict) (session, ())
      ([.read ⟨"/w/a.txt"⟩ (.ok .empty), .cancelled false, .download workspace 0 0 (.ok none),
        .cancelled false, .download workspace 0 0 (.ok none), .cancelled false,
        .mergeName workspace conflict (.ok (some "$/P/b.txt")), .isFile ⟨"/w/a.txt"⟩ true,
        .makeWritable ⟨"/w/a.txt"⟩ (.ok ()),
        .mergeContent conflict {} ⟨"/w/a.txt"⟩ ⟨"/w/b.txt"⟩ (.ok true), .cancelled false] ++
          [.resolve workspace request (.ok {})])
      (.ok .resolved) ({}, ()) := by
    unfold Runs
    cbv
  obtain ⟨-, -, -, -, hname, -, -, hmerge⟩ := (reports_after_merging (.willing "$/P/b.txt" {})
    conflict (session, ()) _ _ _ workspace request (.ok {})).1 _ _ rfl hrun
  exact ⟨_, request, _, hrun, hmerge, hname (by decide)⟩

end ResolveM

end Reconcile
