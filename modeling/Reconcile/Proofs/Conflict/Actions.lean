import Reconcile.Proofs.Conflict.Merging
import Reconcile.Proofs.Conflict.Report

namespace Reconcile

/-- The session with the item of a conflict in the ledger as left alone. -/
def Session.noteSkipped (session : Session) (conflict : Conflict) : Session :=
  match conflict.sourceOrTarget with
  | some item => session.note .skipped (LocalPath.ofWire item).display
  | none => session

theorem Session.noteSkipped_registry (session : Session) (conflict : Conflict) :
    (session.noteSkipped conflict).registry = session.registry := by
  unfold Session.noteSkipped
  split <;> rfl

/-- The resolution that an action reports. -/
def ConflictAction.resolution? : ConflictAction → Option Resolution
  | acceptMerge => some .acceptMerge
  | acceptYours => some .acceptYours
  | acceptTheirs => some .acceptTheirs
  | skip => none

namespace ResolveM

variable {σ : Type} {outside : Collaborators (StateM σ)} {before after : Session × σ}
  {events : List Event}

/-- A merge of a registered conflict whose contents are loaded. -/
structure MergeStart (outside : Collaborators (StateM σ)) (conflict : Conflict)
    (before : Session × σ) (workspace : Workspace) (path : LocalPath) (contents : MergeContents)
    (loading : List Event) (loaded : Session × σ) : Prop where
  mergeable : conflict.isMergeable = true
  owner : before.1.registry.workspaceOf? conflict.id = some workspace
  path_eq : conflict.sourceOrTarget.map LocalPath.ofWire = some path
  run : Runs (ResolveM.contents outside.recorded workspace conflict path) before loading
    (.ok contents) loaded

/-- The ways in which a merge goes. Only the last one gets as far as a report. -/
inductive MergeRun (outside : Collaborators (StateM σ)) (conflict : Conflict)
    (before : Session × σ) :
    List Event → Except ResolveError Outcome → Session → Prop where
  | unmergeable (hmergeable : conflict.isMergeable = false) :
      MergeRun outside conflict before [] (.error (.notMergeable conflict.id)) before.1
  | unknown (hmergeable : conflict.isMergeable = true)
      (howner : before.1.registry.workspaceOf? conflict.id = none) :
      MergeRun outside conflict before [] (.error (.unknownConflict conflict.id)) before.1
  | unloaded {workspace : Workspace} {path : LocalPath} {loading : List Event}
      {error : ResolveError} {loaded : Session × σ}
      (howner : before.1.registry.workspaceOf? conflict.id = some workspace)
      (hload : Runs (contents outside.recorded workspace conflict path) before loading
        (.error error) loaded)
      (hpath : conflict.sourceOrTarget.map LocalPath.ofWire = some path) :
      MergeRun outside conflict before loading (.error error) before.1
  | unnamed {workspace : Workspace} {path : LocalPath} {contents : MergeContents}
      {loading naming : List Event} {loaded : Session × σ} {error : ResolveError}
      (hstart : MergeStart outside conflict before workspace path contents loading loaded)
      (hname : NameMerge workspace conflict path naming (.error error)) :
      MergeRun outside conflict before (loading ++ naming) (.error error) before.1
  | givenUp {workspace : Workspace} {path : LocalPath} {contents : MergeContents}
      {loading naming : List Event} {loaded : Session × σ}
      (hstart : MergeStart outside conflict before workspace path contents loading loaded)
      (hname : NameMerge workspace conflict path naming (.ok none)) :
      MergeRun outside conflict before (loading ++ naming) (.ok .nameMergeCancelled) before.1
  | unmerged {workspace : Workspace} {path name : LocalPath} {contents : MergeContents}
      {loading naming merging : List Event} {loaded : Session × σ} {error : ResolveError}
      (hstart : MergeStart outside conflict before workspace path contents loading loaded)
      (hname : NameMerge workspace conflict path naming (.ok (some name)))
      (hmerge : ContentMerge conflict contents path name merging (.error error)) :
      MergeRun outside conflict before (loading ++ (naming ++ merging)) (.error error) before.1
  | incomplete {workspace : Workspace} {path name : LocalPath} {contents : MergeContents}
      {loading naming merging : List Event} {loaded : Session × σ}
      (hstart : MergeStart outside conflict before workspace path contents loading loaded)
      (hname : NameMerge workspace conflict path naming (.ok (some name)))
      (hmerge : ContentMerge conflict contents path name merging (.ok false)) :
      MergeRun outside conflict before (loading ++ (naming ++ merging)) (.ok .mergeIncomplete)
        before.1
  | reported {workspace : Workspace} {path name : LocalPath} {contents : MergeContents}
      {loading naming merging reporting : List Event} {loaded : Session × σ}
      (ending : Except ResolveError Unit) {finish : Session}
      (hstart : MergeStart outside conflict before workspace path contents loading loaded)
      (hname : NameMerge workspace conflict path naming (.ok (some name)))
      (hmerge : ContentMerge conflict contents path name merging (.ok true))
      (hreport : Reporting workspace conflict .acceptMerge name conflict.isNameConflict before.1
        reporting ending finish) :
      MergeRun outside conflict before (loading ++ (naming ++ (merging ++ reporting)))
        (ending.map fun _ => .resolved) finish

theorem isSome_sourceOrTarget_of_isMergeable {conflict : Conflict}
    (hmergeable : conflict.isMergeable = true) : conflict.sourceOrTarget ≠ none := by
  have hsource : conflict.sourceLocalItem.isSome = true := by
    simp only [Conflict.isMergeable, Bool.and_eq_true] at hmergeable
    exact hmergeable.1.1
  obtain ⟨source, hsource⟩ := Option.isSome_iff_exists.mp hsource
  simp [Conflict.sourceOrTarget, hsource]

/-- Loading contents reports nothing. -/
theorem not_isReport_of_contents {conflict : Conflict} {workspace : Workspace} {path : LocalPath}
    {result : Except ResolveError MergeContents}
    (hrun : Runs (contents outside.recorded workspace conflict path) before events result after) :
    ∀ event ∈ events, ¬ event.IsReport :=
  fun event hevent => ((asks_contents _ _ _ _ hrun).2 event hevent).not_isReport

/-- A merge is a run of the steps of a merge. -/
theorem runs_acceptMerge {conflict : Conflict} {result : Except ResolveError Outcome}
    (hrun : Runs (acceptMerge outside.recorded conflict) before events result after) :
    MergeRun outside conflict before events result after.1 := by
  unfold acceptMerge at hrun
  split at hrun
  · rename_i hmergeable
    obtain ⟨rfl, rfl, rfl⟩ := runs_throw_iff.mp hrun
    exact .unmergeable (by simpa using hmergeable)
  rename_i hmergeable
  have hmergeable : conflict.isMergeable = true := by simpa using hmergeable
  obtain ⟨hnone, rfl, rfl, rfl⟩ | ⟨workspace, howner, hmerge⟩ := runs_owner_bind hrun
  · exact .unknown hmergeable hnone
  split at hmerge
  · rename_i hnone
    -- A mergeable conflict has a source item, so this way out is never taken.
    have hnone : conflict.sourceOrTarget = none := by simpa using hnone
    exact absurd hnone (isSome_sourceOrTarget_of_isMergeable hmergeable)
  rename_i path hpath
  rw [runs_bind_iff] at hmerge
  obtain ⟨error, hload, rfl⟩ | ⟨contents, loaded, loading, rest, hload, hmerge, rfl⟩ := hmerge
  · rw [(asks_contents _ _ _ _ hload).1]
    exact .unloaded howner hload hpath
  have hstart : MergeStart outside conflict before workspace path contents loading loaded :=
    ⟨hmergeable, howner, hpath, hload⟩
  have hloaded := (asks_contents _ _ _ _ hload).1
  rw [runs_bind_iff] at hmerge
  obtain ⟨error, hnaming, rfl⟩ | ⟨name, named, naming, rest, hnaming, hmerge, rfl⟩ := hmerge
  · obtain ⟨hnamed, hname⟩ := runs_mergedPath hnaming
    rw [hnamed, hloaded]
    exact .unnamed hstart hname
  obtain ⟨hnamed, hname⟩ := runs_mergedPath hnaming
  cases name with
  | none =>
    obtain ⟨rfl, rfl, rfl⟩ := runs_pure_iff.mp hmerge
    rw [List.append_nil, hnamed, hloaded]
    exact .givenUp hstart hname
  | some name =>
    rw [runs_bind_iff] at hmerge
    obtain ⟨error, hmerging, rfl⟩ | ⟨resolved, merged, merging, rest, hmerging, hend, rfl⟩ := hmerge
    · obtain ⟨hmerged, hcontent⟩ := runs_mergeContents hmerging
      rw [hmerged, hnamed, hloaded]
      exact .unmerged hstart hname hcontent
    obtain ⟨hmerged, hcontent⟩ := runs_mergeContents hmerging
    have hsession : merged.1 = before.1 := hmerged.trans (hnamed.trans hloaded)
    cases resolved with
    | false =>
      obtain ⟨rfl, rfl, rfl⟩ := runs_pure_iff.mp hend
      rw [List.append_nil, hsession]
      exact .incomplete hstart hname hcontent
    | true =>
      rw [if_pos rfl, runs_bind_iff] at hend
      obtain ⟨error, hreport, rfl⟩ | ⟨_, last, reporting, rest, hreport, hend, rfl⟩ := hend
      · have hreport := runs_report hreport
        rw [hsession] at hreport
        exact .reported _ hstart hname hcontent hreport
      · obtain ⟨rfl, rfl, rfl⟩ := runs_pure_iff.mp hend
        have hreport := runs_report hreport
        rw [hsession] at hreport
        rw [List.append_nil]
        exact .reported _ hstart hname hcontent hreport

/-- None of the steps before a merge is reported asks the server to settle anything. -/
theorem MergeStart.not_isReport {conflict : Conflict} {workspace : Workspace}
    {path name : LocalPath} {contents : MergeContents} {loading naming merging : List Event}
    {loaded : Session × σ} {named : Except ResolveError (Option LocalPath)}
    {resolved : Except ResolveError Bool}
    (hstart : MergeStart outside conflict before workspace path contents loading loaded)
    (hname : NameMerge workspace conflict path naming named)
    (hcontent : ContentMerge conflict contents path name merging resolved) :
    ∀ event ∈ loading ++ (naming ++ merging), ¬ event.IsReport :=
  List.forall_mem_append.mpr ⟨not_isReport_of_contents hstart.run,
    List.forall_mem_append.mpr ⟨hname.not_isReport, hcontent.not_isReport⟩⟩

/-- When a merge asks the server for anything, everything is merged by then. -/
theorem MergeRun.merged_of_report {conflict : Conflict} {result : Except ResolveError Outcome}
    {finish : Session} {first rest : List Event} {workspace : Workspace}
    {request : ResolveRequest} {answer : Except RemoteError ResolveResponse}
    (hmerge : MergeRun outside conflict before events result finish)
    (hevents : events = first ++ .resolve workspace request answer :: rest) :
    ∃ path name contents loading naming merging loaded,
      MergeStart outside conflict before workspace path contents loading loaded ∧
        NameMerge workspace conflict path naming (.ok (some name)) ∧
        ContentMerge conflict contents path name merging (.ok true) ∧
        request = requestFor conflict .acceptMerge name conflict.isNameConflict ∧
        first = loading ++ (naming ++ (merging ++ [.cancelled false])) := by
  have hreported : Event.IsReport (.resolve workspace request answer) := trivial
  have hmem : .resolve workspace request answer ∈ events := by simp [hevents]
  cases hmerge with
  | unmergeable => simp at hmem
  | unknown => simp at hmem
  | unloaded _ hrun => exact absurd hreported (not_isReport_of_contents hrun _ hmem)
  | unnamed hstart hname | givenUp hstart hname =>
    have hnone := List.forall_mem_append.mpr
      ⟨not_isReport_of_contents hstart.run, hname.not_isReport⟩
    exact absurd hreported (hnone _ hmem)
  | unmerged hstart hname hcontent | incomplete hstart hname hcontent =>
    exact absurd hreported (hstart.not_isReport hname hcontent _ hmem)
  | @reported owner path name contents loading naming merging reporting loaded ending finish hstart
      hname hcontent hreport =>
    have hnone := hstart.not_isReport hname hcontent
    obtain hreport | ⟨answered, applied, rfl, happlied⟩ := hreport.sole_report
    · simp only [List.mem_append] at hmem hnone
      obtain hmem | hmem | hmem | hmem := hmem
      · exact absurd hreported (hnone _ (Or.inl hmem))
      · exact absurd hreported (hnone _ (Or.inr (Or.inl hmem)))
      · exact absurd hreported (hnone _ (Or.inr (Or.inr hmem)))
      · exact absurd hreported (hreport _ hmem)
    · have hplace : loading ++ (naming ++ (merging ++ [.cancelled false])) ++
          .resolve owner (requestFor conflict .acceptMerge name conflict.isNameConflict) answered ::
            applied = first ++ .resolve workspace request answer :: rest := by
        simpa using hevents
      have hbefore : ∀ event ∈ loading ++ (naming ++ (merging ++ [Event.cancelled false])),
          ¬ event.IsReport := by
        simpa [Event.IsReport, or_imp, forall_and] using hnone
      obtain ⟨hfirst, hevent, -⟩ := eq_of_sole hbefore happlied hreported hplace
      cases hevent
      exact ⟨path, name, contents, loading, naming, merging, loaded, hstart, hname, hcontent, rfl,
        hfirst⟩

/-- The ways in which a resolution goes that needs no merge: it is reported as it is. What follows a
successful report is `close`. -/
inductive Submission (conflict : Conflict) (resolution : Resolution) (path : LocalPath)
    (close : Session → Session) (start : Session) :
    List Event → Except ResolveError Outcome → Session → Prop where
  | unknown (howner : start.registry.workspaceOf? conflict.id = none) :
      Submission conflict resolution path close start [] (.error (.unknownConflict conflict.id))
        start
  | failed {workspace : Workspace} {events : List Event} {error : ResolveError} {finish : Session}
      (howner : start.registry.workspaceOf? conflict.id = some workspace)
      (hreport : Reporting workspace conflict resolution path false start events (.error error)
        finish) :
      Submission conflict resolution path close start events (.error error) finish
  | done {workspace : Workspace} {events : List Event} {finish : Session}
      (howner : start.registry.workspaceOf? conflict.id = some workspace)
      (hreport : Reporting workspace conflict resolution path false start events (.ok ()) finish) :
      Submission conflict resolution path close start events (.ok .resolved) (close finish)

/-- The request that is sent is the one for the conflict and the resolution, with a path only where
    that asks for one. -/
theorem Submission.eq_requestFor {conflict : Conflict} {resolution : Resolution}
    {path : LocalPath} {close : Session → Session} {result : Except ResolveError Outcome}
    {start finish : Session} {workspace : Workspace} {request : ResolveRequest}
    {answer : Except RemoteError ResolveResponse}
    (hsubmit : Submission conflict resolution path close start events result finish)
    (hmem : .resolve workspace request answer ∈ events) :
    start.registry.workspaceOf? conflict.id = some workspace ∧
      request = requestFor conflict resolution path false := by
  have hreported : Event.IsReport (.resolve workspace request answer) := trivial
  have hsole {owner : Workspace} {ending : Except ResolveError Unit} {finish : Session}
      (hreport : Reporting owner conflict resolution path false start events ending finish) :
      workspace = owner ∧ request = requestFor conflict resolution path false := by
    obtain hnone | ⟨answered, applied, rfl, happlied⟩ := hreport.sole_report
    · exact absurd hreported (hnone _ hmem)
    · simp only [List.mem_cons, reduceCtorEq, Event.resolve.injEq, false_or] at hmem
      obtain ⟨hworkspace, hrequest, -⟩ | hmem := hmem
      · exact ⟨hworkspace, hrequest⟩
      · exact absurd hreported (happlied _ hmem)
  cases hsubmit with
  | unknown => simp at hmem
  | failed howner hreport | done howner hreport =>
    obtain ⟨rfl, rfl⟩ := hsole hreport
    exact ⟨howner, rfl⟩

/-- Keeping yours is a submission that ends with an entry of its own in the ledger. -/
theorem runs_acceptYours {conflict : Conflict} {result : Except ResolveError Outcome}
    (hrun : Runs (acceptYours outside.recorded conflict) before events result after) :
    Submission conflict .acceptYours ⟨conflict.targetLocalItem.getD ""⟩ (·.noteSkipped conflict)
      before.1 events result after.1 := by
  unfold acceptYours at hrun
  obtain ⟨hnone, rfl, rfl, rfl⟩ | ⟨workspace, howner, hsubmit⟩ := runs_owner_bind hrun
  · exact .unknown hnone
  rw [runs_bind_iff] at hsubmit
  obtain ⟨error, hreport, rfl⟩ | ⟨_, settled, reporting, rest, hreport, hclose, rfl⟩ := hsubmit
  · exact .failed howner (runs_report hreport)
  · unfold noteSkipped at hclose
    rw [runs_modify_bind_iff] at hclose
    obtain ⟨rfl, rfl, rfl⟩ := runs_pure_iff.mp hclose
    rw [List.append_nil]
    exact .done howner (runs_report hreport)

/-- Taking theirs is a submission that adds nothing of its own to the session. -/
theorem runs_acceptTheirs {conflict : Conflict} {result : Except ResolveError Outcome}
    (hrun : Runs (acceptTheirs outside.recorded conflict) before events result after) :
    Submission conflict .acceptTheirs ((conflict.targetOrSource.map LocalPath.ofWire).getD ⟨""⟩) id
      before.1 events result after.1 := by
  unfold acceptTheirs at hrun
  obtain ⟨hnone, rfl, rfl, rfl⟩ | ⟨workspace, howner, hsubmit⟩ := runs_owner_bind hrun
  · exact .unknown hnone
  dsimp only at hsubmit
  rw [runs_bind_iff] at hsubmit
  obtain ⟨error, hreport, rfl⟩ | ⟨_, settled, reporting, rest, hreport, hclose, rfl⟩ := hsubmit
  · exact .failed howner (runs_report hreport)
  · obtain ⟨rfl, rfl, rfl⟩ := runs_pure_iff.mp hclose
    rw [List.append_nil]
    exact .done howner (runs_report hreport)

/-- Leaving a conflict for later calls nobody. -/
theorem runs_skip {conflict : Conflict} {result : Except ResolveError Outcome}
    (hrun : Runs (skip conflict) before events result after) :
    events = [] ∧ result = .ok .skipped ∧ after.1 = before.1.noteSkipped conflict := by
  unfold skip noteSkipped at hrun
  rw [runs_modify_bind_iff] at hrun
  obtain ⟨rfl, rfl, rfl⟩ := runs_pure_iff.mp hrun
  exact ⟨rfl, rfl, rfl⟩

end ResolveM

end Reconcile
