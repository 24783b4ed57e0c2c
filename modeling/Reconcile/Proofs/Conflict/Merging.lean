import Reconcile.Proofs.Conflict.Loading

namespace Reconcile.ResolveM

variable {σ : Type} {outside : Collaborators (StateM σ)} {before after : Session × σ}
  {events : List Event}

/-- The ways in which names are merged. -/
inductive NameMerge (workspace : Workspace) (conflict : Conflict) (path : LocalPath) :
    List Event → Except ResolveError (Option LocalPath) → Prop where
  | unneeded (hname : conflict.isNameConflict = false) :
      NameMerge workspace conflict path []
        (.ok (some ((conflict.targetOrSource.map LocalPath.ofWire).getD path)))
  | failed (hname : conflict.isNameConflict = true) (error : ResolveError) :
      NameMerge workspace conflict path [.mergeName workspace conflict (.error error)]
        (.error error)
  | givenUp (hname : conflict.isNameConflict = true) :
      NameMerge workspace conflict path [.mergeName workspace conflict (.ok none)] (.ok none)
  | unmapped (hname : conflict.isNameConflict = true) (merged : ServerPath)
      (hmapped : workspace.toLocal? merged = none) :
      NameMerge workspace conflict path [.mergeName workspace conflict (.ok (some merged))]
        (.error (.unmappedServerPath merged workspace.name))
  | mapped (hname : conflict.isNameConflict = true) (merged : ServerPath) (name : LocalPath)
      (hmapped : workspace.toLocal? merged = some name) :
      NameMerge workspace conflict path [.mergeName workspace conflict (.ok (some merged))]
        (.ok (some name))

/-- Asking for a name leaves the session alone. -/
theorem runs_mergedPath {workspace : Workspace} {conflict : Conflict} {path : LocalPath}
    {result : Except ResolveError (Option LocalPath)}
    (hrun : Runs (mergedPath outside.recorded workspace conflict path) before events result after) :
    after.1 = before.1 ∧ NameMerge workspace conflict path events result := by
  unfold mergedPath at hrun
  split at hrun
  · rename_i hname
    obtain ⟨error, world, -, rfl, rfl, rfl⟩ | ⟨merged, world, rest, -, rfl, hmerged⟩ :=
      runs_attempt_bind hrun
    · exact ⟨rfl, .failed hname error⟩
    cases merged with
    | none =>
      obtain ⟨rfl, rfl, rfl⟩ := runs_pure_iff.mp hmerged
      exact ⟨rfl, .givenUp hname⟩
    | some merged =>
      dsimp only at hmerged
      split at hmerged
      · rename_i name hmapped
        obtain ⟨rfl, rfl, rfl⟩ := runs_pure_iff.mp hmerged
        exact ⟨rfl, .mapped hname merged name hmapped⟩
      · rename_i hmapped
        obtain ⟨rfl, rfl, rfl⟩ := runs_throw_iff.mp hmerged
        exact ⟨rfl, .unmapped hname merged hmapped⟩
  · rename_i hname
    obtain ⟨rfl, rfl, rfl⟩ := runs_pure_iff.mp hrun
    exact ⟨rfl, .unneeded (by simpa using hname)⟩

/-- Asking for a name reports nothing. -/
theorem NameMerge.not_isReport {workspace : Workspace} {conflict : Conflict} {path : LocalPath}
    {result : Except ResolveError (Option LocalPath)}
    (hname : NameMerge workspace conflict path events result) :
    ∀ event ∈ events, ¬ event.IsReport := by
  cases hname <;> simp [Event.IsReport]

/-- The name that a merge goes on with is the answer, mapped to the local machine. -/
theorem NameMerge.mem_of_isNameConflict {workspace : Workspace} {conflict : Conflict}
    {path name : LocalPath} (hname : NameMerge workspace conflict path events (.ok (some name)))
    (hconflict : conflict.isNameConflict = true) :
    ∃ merged, .mergeName workspace conflict (.ok (some merged)) ∈ events ∧
      workspace.toLocal? merged = some name := by
  cases hname with
  | unneeded hnone => simp [hconflict] at hnone
  | mapped _ merged _ hmapped => exact ⟨merged, List.mem_cons_self, hmapped⟩

/-- The ways in which contents are merged into the local file. -/
inductive ContentMerge (conflict : Conflict) (contents : MergeContents) (path name : LocalPath) :
    List Event → Except ResolveError Bool → Prop where
  | unneeded (hcontent : conflict.isContentConflict = false) :
      ContentMerge conflict contents path name [] (.ok true)
  | notAFile (hcontent : conflict.isContentConflict = true) (hfile : conflict.itemType ≠ .file) :
      ContentMerge conflict contents path name [] (.error (.notAFile conflict.id))
  | missing (hcontent : conflict.isContentConflict = true) (hfile : conflict.itemType = .file) :
      ContentMerge conflict contents path name [.isFile path false]
        (.error (.missingFile path.display))
  | unwritable (hcontent : conflict.isContentConflict = true) (hfile : conflict.itemType = .file)
      (error : FileError) :
      ContentMerge conflict contents path name
        [.isFile path true, .makeWritable path (.error error)] (.error (.files error))
  | merged (hcontent : conflict.isContentConflict = true) (hfile : conflict.itemType = .file)
      (answer : Except ResolveError Bool) :
      ContentMerge conflict contents path name
        [.isFile path true, .makeWritable path (.ok ()),
          .mergeContent conflict contents path name answer] answer

/-- Merging contents leaves the session alone. -/
theorem runs_mergeContents {conflict : Conflict} {contents : MergeContents} {path name : LocalPath}
    {result : Except ResolveError Bool}
    (hrun : Runs (mergeContents outside.recorded conflict contents path name) before events result
      after) :
    after.1 = before.1 ∧ ContentMerge conflict contents path name events result := by
  unfold mergeContents at hrun
  split at hrun
  · rename_i hcontent
    split at hrun
    · rename_i hfile
      obtain ⟨rfl, rfl, rfl⟩ := runs_throw_iff.mp hrun
      exact ⟨rfl, .notAFile hcontent hfile⟩
    · rename_i hfile
      have hfile : conflict.itemType = .file := by simpa using hfile
      obtain ⟨there, world, rest, -, rfl, hthere⟩ := runs_call_bind hrun
      cases there with
      | false =>
        obtain ⟨rfl, rfl, rfl⟩ := runs_throw_iff.mp hthere
        exact ⟨rfl, .missing hcontent hfile⟩
      | true =>
        rw [if_pos rfl] at hthere
        obtain ⟨error, world, -, rfl, rfl, rfl⟩ | ⟨_, world, rest, -, rfl, hmerge⟩ :=
          runs_attempt_bind hthere
        · exact ⟨rfl, .unwritable hcontent hfile error⟩
        · obtain ⟨answer, world, -, rfl, rfl, rfl⟩ := runs_attempt hmerge
          refine ⟨rfl, ?_⟩
          cases answer with
          | ok resolved => exact .merged hcontent hfile (.ok resolved)
          | error reason => exact .merged hcontent hfile (.error reason)
  · rename_i hcontent
    obtain ⟨rfl, rfl, rfl⟩ := runs_pure_iff.mp hrun
    exact ⟨rfl, .unneeded (by simpa using hcontent)⟩

/-- Merging contents reports nothing. -/
theorem ContentMerge.not_isReport {conflict : Conflict} {contents : MergeContents}
    {path name : LocalPath} {result : Except ResolveError Bool}
    (hmerge : ContentMerge conflict contents path name events result) :
    ∀ event ∈ events, ¬ event.IsReport := by
  cases hmerge <;> simp [Event.IsReport]

end Reconcile.ResolveM
