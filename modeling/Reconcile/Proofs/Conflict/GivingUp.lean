import Mathlib
import Reconcile.Proofs.Conflict.Actions
import Reconcile.Proofs.Conflict.Contents
import Reconcile.Proofs.Conflict.WorkingCopy

namespace Reconcile

/-- The contents are handed to whoever merges them. -/
def Event.IsContentMerge : Event → Prop
  | .mergeContent .. => True
  | _ => False

/-- A call that is made to settle a conflict. -/
def Event.IsSettling : Event → Prop
  | .cancelled _ | .resolve .. | .apply .. => True
  | _ => False

theorem Event.IsSettling.not_isContentMerge {event : Event} (hsettling : event.IsSettling) :
    ¬ event.IsContentMerge := by
  cases event <;> simp_all [Event.IsSettling, Event.IsContentMerge]

theorem Event.IsInquiry.not_isContentMerge {event : Event} (hinquiry : event.IsInquiry) :
    ¬ event.IsContentMerge := by
  cases event <;> simp_all [Event.IsInquiry, Event.IsContentMerge]

theorem Event.IsInquiry.not_isReport {event : Event} (hinquiry : event.IsInquiry) :
    ¬ event.IsReport := by
  cases event <;> simp_all [Event.IsInquiry, Event.IsReport]

theorem Event.IsLoading.isInquiry {event : Event} (hload : event.IsLoading) : event.IsInquiry := by
  cases event <;> simp_all [Event.IsLoading, Event.IsInquiry]

namespace ResolveM

variable {σ : Type} {outside : Collaborators (StateM σ)} {before after : Session × σ}
  {events : List Event}

/-- Loading contents only finds things out. -/
theorem isInquiry_of_contents {conflict : Conflict} {workspace : Workspace} {path : LocalPath}
    {result : Except ResolveError MergeContents}
    (hrun : Runs (contents outside.recorded workspace conflict path) before events result after) :
    ∀ event ∈ events, event.IsInquiry :=
  fun event hevent => ((asks_contents _ _ _ _ hrun).2 event hevent).isInquiry

/-- Asking for a name only finds things out. -/
theorem NameMerge.isInquiry {workspace : Workspace} {conflict : Conflict} {path : LocalPath}
    {result : Except ResolveError (Option LocalPath)}
    (hname : NameMerge workspace conflict path events result) :
    ∀ event ∈ events, event.IsInquiry := by
  cases hname <;> simp [Event.IsInquiry]

/-- The steps up to the merge of the contents only find things out. -/
theorem MergeStart.isInquiry {conflict : Conflict} {workspace : Workspace} {path : LocalPath}
    {contents : MergeContents} {loading naming : List Event} {loaded : Session × σ}
    {named : Except ResolveError (Option LocalPath)}
    (hstart : MergeStart outside conflict before workspace path contents loading loaded)
    (hname : NameMerge workspace conflict path naming named) :
    ∀ event ∈ loading ++ naming, event.IsInquiry :=
  List.forall_mem_append.mpr ⟨isInquiry_of_contents hstart.run, hname.isInquiry⟩

/-- A merge of contents that hands nothing over only finds things out. -/
theorem ContentMerge.isInquiry {conflict : Conflict} {contents : MergeContents}
    {path name : LocalPath} {result : Except ResolveError Bool}
    (hmerge : ContentMerge conflict contents path name events result)
    (hnone : ∀ event ∈ events, ¬ event.IsContentMerge) :
    (∀ event ∈ events, event.IsInquiry) ∧ result ≠ .ok false := by
  cases hmerge with
  | unneeded | notAFile => exact ⟨by simp, by simp⟩
  | missing | unwritable => exact ⟨by simp [Event.IsInquiry], by simp⟩
  | merged => simp [Event.IsContentMerge] at hnone

/-- A report that sends nothing was stopped by the flag. -/
theorem Reporting.stopped_of_silent {workspace : Workspace} {conflict : Conflict}
    {resolution : Resolution} {path : LocalPath} {sendsPath : Bool} {start finish : Session}
    {ending : Except ResolveError Unit}
    (hreport : Reporting workspace conflict resolution path sendsPath start events ending finish)
    (hnone : ∀ event ∈ events, ¬ event.IsReport) :
    events = [.cancelled true] ∧ ending = .error .cancelled ∧ finish = start := by
  cases hreport with
  | stopped => exact ⟨rfl, rfl, rfl⟩
  | refused | broken | done => simp [Event.IsReport] at hnone

/-- A merge that neither hands contents over nor sends a request leaves the session as it was. -/
theorem MergeRun.given_up {conflict : Conflict} {result : Except ResolveError Outcome}
    {finish : Session} (hmerge : MergeRun outside conflict before events result finish)
    (hnone : ∀ event ∈ events, ¬ event.IsReport ∧ ¬ event.IsContentMerge) :
    finish = before.1 ∧ (∀ event ∈ events, event.IsInquiry) ∧
      ∀ outcome, result = .ok outcome → outcome = .nameMergeCancelled := by
  cases hmerge with
  | unmergeable | unknown => exact ⟨rfl, by simp, by simp⟩
  | unloaded _ hload => exact ⟨rfl, isInquiry_of_contents hload, by simp⟩
  | unnamed hstart hname => exact ⟨rfl, hstart.isInquiry hname, by simp⟩
  | givenUp hstart hname =>
    exact ⟨rfl, hstart.isInquiry hname, fun _ houtcome => (Except.ok.inj houtcome).symm⟩
  | @unmerged _ _ _ _ loading naming merging _ _ hstart hname hcontent =>
    rw [← List.append_assoc] at hnone ⊢
    obtain ⟨-, hunmerged⟩ := List.forall_mem_append.mp hnone
    obtain ⟨hmerging, -⟩ := hcontent.isInquiry fun event hevent => (hunmerged event hevent).2
    exact ⟨rfl, List.forall_mem_append.mpr ⟨hstart.isInquiry hname, hmerging⟩, by simp⟩
  | incomplete hstart hname hcontent =>
    -- An incomplete merge has been made.
    rw [← List.append_assoc] at hnone
    obtain ⟨-, hunmerged⟩ := List.forall_mem_append.mp hnone
    exact absurd rfl (hcontent.isInquiry fun event hevent => (hunmerged event hevent).2).2
  | reported ending hstart hname hcontent hreport =>
    rw [← List.append_assoc] at hnone ⊢
    obtain ⟨-, hlater⟩ := List.forall_mem_append.mp hnone
    obtain ⟨hunmerged, hunsent⟩ := List.forall_mem_append.mp hlater
    obtain ⟨hmerging, -⟩ := hcontent.isInquiry fun event hevent => (hunmerged event hevent).2
    obtain ⟨rfl, rfl, rfl⟩ := hreport.stopped_of_silent fun event hevent => (hunsent event hevent).1
    refine ⟨rfl, List.forall_mem_append.mpr ⟨hstart.isInquiry hname, ?_⟩, by simp [Except.map]⟩
    exact List.forall_mem_append.mpr ⟨hmerging, by simp [Event.IsInquiry]⟩

/-- Applying a batch is part of settling. -/
theorem Batch.isSettling {workspace : Workspace} {resolution : Resolution} {mode : DownloadMode}
    {operations : List GetOperation} {start finish : Session} {errors : List ApplyError}
    (hbatch : Batch workspace resolution mode operations start events errors finish) :
    ∀ event ∈ events, event.IsSettling := by
  cases hbatch <;> simp [Event.IsSettling]

/-- Everything from the request on is part of settling. -/
theorem Reporting.isSettling {workspace : Workspace} {conflict : Conflict}
    {resolution : Resolution} {path : LocalPath} {sendsPath : Bool} {start finish : Session}
    {ending : Except ResolveError Unit}
    (hreport : Reporting workspace conflict resolution path sendsPath start events ending finish) :
    ∀ event ∈ events, event.IsSettling := by
  cases hreport with
  | stopped | refused => simp [Event.IsSettling]
  | broken hget hundo | done hget hundo =>
    have happlied := List.forall_mem_append.mpr ⟨hget.isSettling, hundo.isSettling⟩
    exact List.forall_mem_cons.mpr ⟨trivial, List.forall_mem_cons.mpr ⟨trivial, happlied⟩⟩

/-- The calls right before the contents are handed over. -/
def permitting (file : LocalPath) : List Event :=
  [.isFile file true, .makeWritable file (.ok ())]

/-- Where the contents are handed over, the local file was found and let be written to right before. -/
theorem ContentMerge.eq_of_split {conflict other : Conflict} {contents given : MergeContents}
    {path name file newName : LocalPath} {result answer : Except ResolveError Bool}
    {early late first rest : List Event}
    (hmerge : ContentMerge conflict contents path name events result)
    (hearly : ∀ event ∈ early, ¬ event.IsContentMerge)
    (hlate : ∀ event ∈ late, ¬ event.IsContentMerge)
    (hsplit : early ++ (events ++ late) =
      first ++ .mergeContent other given file newName answer :: rest) :
    (conflict.isContentConflict = true ∧ conflict.itemType = .file) ∧
      first = early ++ permitting path ∧
      Event.mergeContent other given file newName answer =
        .mergeContent conflict contents path name result ∧ rest = late := by
  have hgiven : Event.IsContentMerge (.mergeContent other given file newName answer) := trivial
  have hmem : .mergeContent other given file newName answer ∈ early ++ (events ++ late) := by
    simp [hsplit]
  have hnone (hunmerged : ∀ event ∈ events, ¬ event.IsContentMerge) : False :=
    List.forall_mem_append.mpr ⟨hearly, List.forall_mem_append.mpr ⟨hunmerged, hlate⟩⟩ _ hmem hgiven
  cases hmerge with
  | unneeded | notAFile | missing | unwritable => exact (hnone (by simp [Event.IsContentMerge])).elim
  | merged hcontent hfile =>
    have hplace : early ++ permitting path ++ .mergeContent conflict contents path name result :: late =
        first ++ .mergeContent other given file newName answer :: rest := by
      simpa [permitting] using hsplit
    have hbefore : ∀ event ∈ early ++ permitting path, ¬ event.IsContentMerge :=
      List.forall_mem_append.mpr ⟨hearly, by simp [permitting, Event.IsContentMerge]⟩
    obtain ⟨hfirst, hevent, hrest⟩ := eq_of_sole hbefore hlate hgiven hplace
    exact ⟨⟨hcontent, hfile⟩, hfirst, hevent, hrest⟩

/-- What is known where a merge hands over the contents: they are loaded, the name is settled and the file
is in its place. Unless the contents are merged completely that is the end, and otherwise only the report
is left. -/
structure HandingOver (outside : Collaborators (StateM σ)) (conflict : Conflict)
    (before : Session × σ) (workspace : Workspace) (file name : LocalPath) (contents : MergeContents)
    (loading naming : List Event) (loaded : Session × σ) (answer : Except ResolveError Bool)
    (rest : List Event) (result : Except ResolveError Outcome) (finish : Session) : Prop where
  start : MergeStart outside conflict before workspace file contents loading loaded
  named : NameMerge workspace conflict file naming (.ok (some name))
  needed : conflict.isContentConflict = true ∧ conflict.itemType = .file
  broken : answer ≠ .ok true →
    rest = [] ∧ finish = before.1 ∧ result = answer.map fun _ => .mergeIncomplete
  reported : answer = .ok true → ∃ ending, Reporting workspace conflict .acceptMerge name
    conflict.isNameConflict before.1 rest ending finish

/-- Where contents are handed over, they belong to this conflict and everything before has
    succeeded. -/
theorem MergeRun.handingOver {conflict other : Conflict} {result : Except ResolveError Outcome}
    {finish : Session} {first rest : List Event} {contents : MergeContents} {file name : LocalPath}
    {answer : Except ResolveError Bool}
    (hmerge : MergeRun outside conflict before events result finish)
    (hevents : events = first ++ .mergeContent other contents file name answer :: rest) :
    other = conflict ∧ ∃ workspace loading naming loaded,
      first = loading ++ naming ++ permitting file ∧
        HandingOver outside conflict before workspace file name contents loading naming loaded answer
          rest result finish := by
  have hgiven : Event.IsContentMerge (.mergeContent other contents file name answer) := trivial
  have hmem : .mergeContent other contents file name answer ∈ events := by simp [hevents]
  cases hmerge with
  | unmergeable | unknown => simp at hmem
  | unloaded _ hload => exact absurd hgiven (isInquiry_of_contents hload _ hmem).not_isContentMerge
  | unnamed hstart hname | givenUp hstart hname =>
    exact absurd hgiven (hstart.isInquiry hname _ hmem).not_isContentMerge
  | @unmerged _ _ _ _ loading naming merging _ _ hstart hname hcontent
  | @incomplete _ _ _ _ loading naming merging _ hstart hname hcontent =>
    have hplace : loading ++ naming ++ (merging ++ []) =
        first ++ .mergeContent other contents file name answer :: rest := by
      rw [List.append_nil, List.append_assoc, hevents]
    obtain ⟨hneeded, hfirst, hevent, hrest⟩ := hcontent.eq_of_split
      (fun event hevent => (hstart.isInquiry hname event hevent).not_isContentMerge) (by simp) hplace
    cases hevent
    exact ⟨rfl, _, _, _, _, hfirst, hstart, hname, hneeded, fun _ => ⟨hrest, rfl, rfl⟩, by simp⟩
  | reported ending hstart hname hcontent hreport =>
    rw [← List.append_assoc] at hevents
    obtain ⟨hneeded, hfirst, hevent, rfl⟩ := hcontent.eq_of_split
      (fun event hevent => (hstart.isInquiry hname event hevent).not_isContentMerge)
      (fun event hevent => (hreport.isSettling event hevent).not_isContentMerge) hevents
    cases hevent
    exact ⟨rfl, _, _, _, _, hfirst, hstart, hname, hneeded, fun hanswer => absurd rfl hanswer,
      fun _ => ⟨ending, hreport⟩⟩

/-- Contents that were loaded met no failure. -/
theorem Loaded.failure?_eq_none {workspace : Workspace} {conflict : Conflict} {path : LocalPath}
    {contents : MergeContents} (hloaded : Loaded workspace conflict path events contents) :
    ∀ event ∈ events, event.failure? = none := by
  cases hloaded <;> simp [downloading, Event.failure?]

/-- A name that was answered met no failure. -/
theorem NameMerge.failure?_eq_none {workspace : Workspace} {conflict : Conflict} {path : LocalPath}
    {result : Except ResolveError (Option LocalPath)}
    (hname : NameMerge workspace conflict path events result) :
    ∀ event ∈ events, event.failure? = none := by
  cases hname <;> simp [Event.failure?]

/-- Asking for a name downloads nothing. -/
theorem NameMerge.filterMap_downloaded? {workspace : Workspace} {conflict : Conflict}
    {path : LocalPath} {result : Except ResolveError (Option LocalPath)}
    (hname : NameMerge workspace conflict path events result) :
    events.filterMap Event.downloaded? = [] := by
  cases hname <;> simp [Event.downloaded?]

namespace HandingOver

variable {conflict : Conflict} {workspace : Workspace} {file name : LocalPath}
  {contents : MergeContents} {loading naming rest : List Event} {loaded : Session × σ}
  {answer : Except ResolveError Bool} {result : Except ResolveError Outcome} {finish : Session}

theorem isInquiry (hgiven : HandingOver outside conflict before workspace file name contents loading
      naming loaded answer rest result finish) :
    ∀ event ∈ loading ++ naming, event.IsInquiry :=
  hgiven.start.isInquiry hgiven.named

/-- Up to the merge of the contents nobody is asked to settle anything. -/
theorem not_isReport (hgiven : HandingOver outside conflict before workspace file name contents
      loading naming loaded answer rest result finish) :
    ∀ event ∈ loading ++ naming ++ permitting file ++
      [.mergeContent conflict contents file name answer], ¬ event.IsReport := by
  refine List.forall_mem_append.mpr ⟨List.forall_mem_append.mpr ⟨?_, ?_⟩, ?_⟩
  · exact fun event hevent => (hgiven.isInquiry event hevent).not_isReport
  · simp [permitting, Event.IsReport]
  · simp [Event.IsReport]

/-- The downloads before the contents are handed over are those that loaded them. -/
theorem filterMap_downloaded? (hgiven : HandingOver outside conflict before workspace file name
      contents loading naming loaded answer rest result finish) :
    (loading ++ naming ++ permitting file).filterMap Event.downloaded? =
      loading.filterMap Event.downloaded? := by
  rw [List.filterMap_append, List.filterMap_append, hgiven.named.filterMap_downloaded?,
    List.append_nil]
  exact List.append_nil _

/-- Nothing has failed before the contents are handed over. -/
theorem failure?_eq_none (hgiven : HandingOver outside conflict before workspace file name contents
      loading naming loaded answer rest result finish) :
    ∀ event ∈ loading ++ naming ++ permitting file, event.failure? = none := by
  refine List.forall_mem_append.mpr ⟨List.forall_mem_append.mpr ⟨?_, ?_⟩, ?_⟩
  · exact (loaded_of_runs hgiven.start.run).failure?_eq_none
  · exact hgiven.named.failure?_eq_none
  · simp [permitting, Event.failure?]

end HandingOver

/-- A merge that neither hands over the contents nor asks the server to settle anything only finds things
out: the session is as it was, and so are the files. Before the contents are handed over, everything that
is needed for that was found, and if they are not merged completely the server is asked nothing and the
session stays as it was. -/
theorem merge_given_up_leaves_no_trace (outside : Collaborators (StateM σ)) (conflict : Conflict)
    (before after : Session × σ) (events : List Event) (result : Except ResolveError Outcome)
    (hrun : Runs (acceptMerge outside.recorded conflict) before events result after) :
    ((∀ event ∈ events, ¬ event.IsReport ∧ ¬ event.IsContentMerge) →
      after.1 = before.1 ∧ (∀ event ∈ events, event.IsInquiry) ∧
        (∀ outcome, result = .ok outcome → outcome = .nameMergeCancelled) ∧
        (∀ {β : Type} (view : σ → β), outside.Leaves Event.IsInquiry view →
          view after.2 = view before.2) ∧
        ∀ tree, outside.WorksOn tree → tree after.2 = tree before.2) ∧
    ∀ first other contents file name answer rest,
      events = first ++ .mergeContent other contents file name answer :: rest →
        other = conflict ∧ conflict.sourceOrTarget.map LocalPath.ofWire = some file ∧
        conflict.itemType = .file ∧ .isFile file true ∈ first ∧
        (∃ workspace, before.1.registry.workspaceOf? conflict.id = some workspace ∧
          (first.filterMap Event.downloaded?).map Prod.fst =
            conflict.revisions.map (fun revision => (workspace, revision)) ∧
          (∀ event ∈ first, event.failure? = none) ∧
          (conflict.isNameConflict = true → ∃ merged,
            .mergeName workspace conflict (.ok (some merged)) ∈ first ∧
              workspace.toLocal? merged = some name)) ∧
        (answer ≠ .ok true → (∀ event ∈ events, ¬ event.IsReport) ∧ after.1 = before.1 ∧
          result = answer.map fun _ => .mergeIncomplete) := by
  have hmerge := runs_acceptMerge hrun
  have hhappening : Happening outside before.2 events after.2 :=
    happening_of_runs .acceptMerge hrun
  refine ⟨fun hnone => ?_, fun first other contents file name answer rest hevents => ?_⟩
  · obtain ⟨hsession, hinquiry, houtcome⟩ := hmerge.given_up hnone
    have hview {β : Type} (view : σ → β) (hleaves : outside.Leaves Event.IsInquiry view) :
        view after.2 = view before.2 :=
      hhappening.view_eq hleaves hinquiry
    exact ⟨hsession, hinquiry, houtcome, hview, fun tree hworks => hview tree hworks.leaves_inquiries⟩
  · obtain ⟨rfl, workspace, loading, naming, loaded, rfl, hgiven⟩ := hmerge.handingOver hevents
    have hloaded := loaded_of_runs hgiven.start.run
    refine ⟨rfl, hgiven.start.path_eq, hgiven.needed.2, by simp [permitting],
      ⟨workspace, hgiven.start.owner, ?_, hgiven.failure?_eq_none, fun hrenamed => ?_⟩,
      fun hanswer => ?_⟩
    · rw [hgiven.filterMap_downloaded?, hloaded.map_downloaded? hgiven.needed]
    · obtain ⟨merged, hmem, hmapped⟩ := hgiven.named.mem_of_isNameConflict hrenamed
      exact ⟨merged, by simp [hmem], hmapped⟩
    · obtain ⟨rfl, hsession, hresult⟩ := hgiven.broken hanswer
      refine ⟨?_, hsession, hresult⟩
      rw [hevents]
      exact hgiven.not_isReport

/-- The user gives up naming a file that was edited and renamed on both sides: it stays as it was, also
read-only. Where a name is found but the merge of the contents leaves something to do, the server is asked
nothing. -/
theorem merge_given_up_leaves_no_trace_read_only :
    let workspace : Workspace := ⟨"main", "alice", .ofUri "http://server", [⟨"$/P", ⟨"w"⟩⟩]⟩
    let conflict : Conflict :=
      { id := 3, sourceLocalItem := some "w\\a", yourChange := .ofList [.rename, .edit]
        baseChange := .ofList [.rename, .edit] }
    let outside : Collaborators (StateM FileTree) :=
      { Collaborators.willing "$/P/b" {} with
        mergeContent := fun _ _ _ _ => pure (.ok false)
        files := FileTree.access }
    let session : Session := { registry := .ofGroups [(workspace, [conflict])] }
    let tree : FileTree := ⟨[(["w"], .folder), (["w", "a"], .file "mine".toUTF8 false)]⟩
    (∃ events after,
      Runs (acceptMerge { outside with mergeName := fun _ _ => pure (.ok none) }.recorded conflict)
        (session, tree) events (.ok .nameMergeCancelled) after ∧ after = (session, tree)) ∧
    ∃ events after,
      Runs (acceptMerge outside.recorded conflict) (session, tree) events (.ok .mergeIncomplete) after ∧
        (∀ event ∈ events, ¬ event.IsReport) ∧ after.1 = session := by
  intro workspace conflict outside session tree
  let loading : List Event :=
    [.read ⟨"w/a"⟩ (.ok "mine".toUTF8), .cancelled false, .download workspace 0 0 (.ok none),
      .cancelled false, .download workspace 0 0 (.ok none), .cancelled false]
  let contents : MergeContents := { yours := "mine".toUTF8 }
  let hesitant := { outside with mergeName := fun _ _ => pure (.ok none) }
  have hgiven : Runs (acceptMerge hesitant.recorded conflict) (session, tree)
      (loading ++ [.mergeName workspace conflict (.ok none)]) (.ok .nameMergeCancelled)
      (session, tree) := by
    unfold Runs
    cbv
  have hunfinished : Runs (acceptMerge outside.recorded conflict) (session, tree)
      (loading ++ [.mergeName workspace conflict (.ok (some "$/P/b")),
          .isFile ⟨"w/a"⟩ true, .makeWritable ⟨"w/a"⟩ (.ok ())] ++
        [.mergeContent conflict contents ⟨"w/a"⟩ ⟨"w/b"⟩ (.ok false)])
      (.ok .mergeIncomplete)
      (session, ⟨[(["w"], .folder), (["w", "a"], .file "mine".toUTF8 true)]⟩) := by
    unfold Runs
    cbv
  have hworks : hesitant.WorksOn id := by
    refine Collaborators.worksOn_id rfl ?_
    intro event world world' hquestion hhappens
    cases event <;> first | exact hquestion.elim | exact (congrArg Prod.snd hhappens).symm
  obtain ⟨hearly, -⟩ := merge_given_up_leaves_no_trace hesitant conflict _ _ _ _ hgiven
  obtain ⟨hsession, -, -, -, htree⟩ := hearly (by simp [loading, Event.IsReport, Event.IsContentMerge])
  obtain ⟨-, hlate⟩ := merge_given_up_leaves_no_trace outside conflict _ _ _ _ hunfinished
  obtain ⟨-, -, -, -, -, hend⟩ := hlate _ _ _ _ _ _ _ rfl
  obtain ⟨hsilent, hunchanged, -⟩ := hend (by simp)
  exact ⟨⟨_, _, hgiven, Prod.ext hsession (htree id hworks)⟩, _, _, hunfinished, hsilent, hunchanged⟩

end ResolveM

end Reconcile
