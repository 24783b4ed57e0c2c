import Reconcile.Proofs.Conflict.Loading

namespace Reconcile

/-- The content that was downloaded, with its workspace, version and item. -/
def Event.downloaded? : Event → Option ((Workspace × Int × Int) × Option ByteArray)
  | .download workspace version itemId (.ok content) => some ((workspace, version, itemId), content)
  | _ => none

/-- The versions of items that are needed to merge the contents of a file. -/
def Conflict.revisions (conflict : Conflict) : List (Int × Int) :=
  if conflict.conflictType = .merge then
    [(conflict.targetVersion, conflict.targetItemId), (conflict.yourVersion, conflict.yourItemId),
      (conflict.baseVersion, conflict.baseItemId)]
  else
    [(conflict.targetVersion, conflict.targetItemId), (conflict.baseVersion, conflict.baseItemId)]

namespace ResolveM

variable {σ α β : Type} {outside : Collaborators (StateM σ)} {before after : Session × σ}
  {events : List Event}

/-- The calls with which the content of an item in a version is loaded. -/
def downloading (workspace : Workspace) (version itemId : Int) (content : Option ByteArray) :
    List Event :=
  [.cancelled false, .download workspace version itemId (.ok content)]

/-- What the server does not have counts as empty content. -/
theorem runs_download_ok {workspace : Workspace} {path : LocalPath} {version itemId : Int}
    {content : ByteArray}
    (hrun : Runs (download outside.recorded workspace path version itemId) before events
      (.ok content) after) :
    ∃ blob, events = downloading workspace version itemId blob ∧ content = blob.getD .empty := by
  obtain ⟨_, checked, first, rest, hcheck, hload, rfl⟩ := exists_of_runs_bind_ok hrun
  obtain ⟨world, rfl, ⟨-, -, herror⟩ | ⟨-, rfl, -⟩⟩ := runs_checkCancelled hcheck
  · cases herror
  obtain ⟨error, world, -, -, herror, -⟩ | ⟨blob, world, rest, -, rfl, hblob⟩ :=
    runs_attempt_bind hload
  · cases herror
  · obtain ⟨rfl, hcontent, -⟩ := runs_pure_iff.mp hblob
    exact ⟨blob, rfl, Except.ok.inj hcontent⟩

/-- A local file that is not there counts as empty content. -/
theorem runs_localContent_ok {path : LocalPath} {content : ByteArray}
    (hrun : Runs (localContent outside.recorded path) before events (.ok content) after) :
    ∃ answer, events = [.read path answer] ∧
      (answer = .ok content ∨ answer = .error .notFound ∧ content = .empty) := by
  obtain ⟨answer, world, rest, -, rfl, hanswer⟩ := runs_call_bind hrun
  refine ⟨answer, ?_⟩
  split at hanswer
  · obtain ⟨rfl, hcontent, -⟩ := runs_pure_iff.mp hanswer
    cases hcontent
    exact ⟨rfl, .inl rfl⟩
  · obtain ⟨rfl, hcontent, -⟩ := runs_pure_iff.mp hanswer
    exact ⟨rfl, .inr ⟨rfl, Except.ok.inj hcontent⟩⟩
  · cases (runs_throw_iff.mp hanswer).2.1

/-- The ways in which the contents to merge are loaded: from the server only, or yours from the local
file. -/
inductive Loaded (workspace : Workspace) (conflict : Conflict) (path : LocalPath) :
    List Event → MergeContents → Prop where
  | unneeded (hneeded : ¬ (conflict.isContentConflict = true ∧ conflict.itemType = .file)) :
      Loaded workspace conflict path [] {}
  | fromServer (htype : conflict.conflictType = .merge) (base yours theirs : Option ByteArray) :
      Loaded workspace conflict path
        (downloading workspace conflict.targetVersion conflict.targetItemId yours ++
          downloading workspace conflict.yourVersion conflict.yourItemId theirs ++
          downloading workspace conflict.baseVersion conflict.baseItemId base ++ [.cancelled false])
        { base := base.getD .empty, yours := yours.getD .empty, theirs := theirs.getD .empty }
  | fromFile (htype : conflict.conflictType ≠ .merge) (answer : Except FileError ByteArray)
      (yours : ByteArray) (hyours : answer = .ok yours ∨ answer = .error .notFound ∧ yours = .empty)
      (base theirs : Option ByteArray) :
      Loaded workspace conflict path
        (.read path answer ::
          downloading workspace conflict.targetVersion conflict.targetItemId theirs ++
          downloading workspace conflict.baseVersion conflict.baseItemId base ++ [.cancelled false])
        { base := base.getD .empty, yours, theirs := theirs.getD .empty }

/-- The three contents come from the two versions of the conflict and the local file. -/
theorem loaded_of_runs {workspace : Workspace} {conflict : Conflict} {path : LocalPath}
    {contents : MergeContents}
    (hrun : Runs (ResolveM.contents outside.recorded workspace conflict path) before events
      (.ok contents) after) :
    Loaded workspace conflict path events contents := by
  unfold ResolveM.contents at hrun
  split at hrun
  · obtain ⟨sides, middle, siding, rest, hsides, hrest, rfl⟩ := exists_of_runs_bind_ok hrun
    obtain ⟨base, based, basing, rest, hbase, hchecked, rfl⟩ := exists_of_runs_bind_ok hrest
    obtain ⟨_, checked, checking, rest, hcheck, hend, rfl⟩ := exists_of_runs_bind_ok hchecked
    obtain ⟨blob, rfl, rfl⟩ := runs_download_ok hbase
    obtain ⟨world, rfl, ⟨-, -, herror⟩ | ⟨-, rfl, -⟩⟩ := runs_checkCancelled hcheck
    · cases herror
    obtain ⟨rfl, hcontents, -⟩ := runs_pure_iff.mp hend
    cases hcontents
    unfold bothSides at hsides
    split at hsides
    · rename_i htype
      obtain ⟨yours, _, first, rest, hyours, hrest, rfl⟩ := exists_of_runs_bind_ok hsides
      obtain ⟨theirs, _, second, rest, htheirs, hend, rfl⟩ := exists_of_runs_bind_ok hrest
      obtain ⟨rfl, hsides, -⟩ := runs_pure_iff.mp hend
      cases hsides
      obtain ⟨mine, rfl, rfl⟩ := runs_download_ok hyours
      obtain ⟨other, rfl, rfl⟩ := runs_download_ok htheirs
      simpa using Loaded.fromServer htype blob mine other
    · rename_i htype
      obtain ⟨yours, _, first, rest, hyours, hrest, rfl⟩ := exists_of_runs_bind_ok hsides
      obtain ⟨theirs, _, second, rest, htheirs, hend, rfl⟩ := exists_of_runs_bind_ok hrest
      obtain ⟨rfl, hsides, -⟩ := runs_pure_iff.mp hend
      cases hsides
      obtain ⟨answer, rfl, hanswer⟩ := runs_localContent_ok hyours
      obtain ⟨other, rfl, rfl⟩ := runs_download_ok htheirs
      simpa using Loaded.fromFile htype answer yours hanswer blob other
  · rename_i hneeded
    obtain ⟨rfl, hcontents, -⟩ := runs_pure_iff.mp hrun
    cases hcontents
    exact .unneeded hneeded

/-- Exactly the contents that are needed were downloaded. -/
theorem Loaded.map_downloaded? {workspace : Workspace} {conflict : Conflict} {path : LocalPath}
    {contents : MergeContents} (hloaded : Loaded workspace conflict path events contents)
    (hneeded : conflict.isContentConflict = true ∧ conflict.itemType = .file) :
    (events.filterMap Event.downloaded?).map Prod.fst =
      conflict.revisions.map fun revision => (workspace, revision) := by
  cases hloaded with
  | unneeded hnone => exact absurd hneeded hnone
  | fromServer htype =>
    rw [Conflict.revisions, if_pos htype]
    rfl
  | fromFile htype =>
    rw [Conflict.revisions, if_neg htype]
    rfl

/-- `step` fails for nothing but what a call answered. -/
def FailsFor (hinders : Event → Prop) (step : ResolveM (Recorder σ) α) : Prop :=
  ∀ before events error after, Runs step before events (.error error) after →
    ∃ event ∈ events, hinders event

section FailsFor

variable {hinders : Event → Prop}

/-- A sequence of steps fails only for what hinders one of them. -/
theorem FailsFor.bind {step : ResolveM (Recorder σ) α} {next : α → ResolveM (Recorder σ) β}
    (hstep : FailsFor hinders step) (hnext : ∀ a, FailsFor hinders (next a)) :
    FailsFor hinders (step >>= next) := by
  intro before events error after hrun
  obtain ⟨reason, hfailed, -⟩ | ⟨a, middle, first, second, -, hsecond, rfl⟩ := runs_bind_iff.mp hrun
  · exact hstep _ _ _ _ hfailed
  · obtain ⟨event, hevent, hhinders⟩ := hnext a _ _ _ _ hsecond
    exact ⟨event, List.mem_append_right first hevent, hhinders⟩

end FailsFor

variable {path : LocalPath}

end ResolveM

end Reconcile
