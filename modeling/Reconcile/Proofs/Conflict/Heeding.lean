import Reconcile.Proofs.Conflict.Registry
import Reconcile.Proofs.Conflict.Replay
import Reconcile.Proofs.Outcome

namespace Reconcile

variable {σ α : Type} {outside : Collaborators (StateM σ)} {raised : σ → Bool}

namespace ResolveM

theorem heedful_owner {conflict : Conflict} : Heedful outside raised (owner conflict) := by
  refine .bind .of_get fun session => ?_
  cases session.registry.workspaceOf? conflict.id with
  | none => exact .of_throw nofun
  | some workspace => exact .of_pure

/-- A download looks at the flag first. -/
theorem heedful_download (hflagged : outside.Flagged raised) {workspace : Workspace} {path : LocalPath}
    {version itemId : Int} :
    Heedful outside raised (download outside.recorded workspace path version itemId) := by
  refine heedful_checked hflagged (fun error => ?_) (fun answer => ?_) (fun _ _ => rfl) fun _ => .of_pure
  · cases error <;> simp [ResolveError.ofDownload]
  · cases answer <;> simp [Event.failure?]

theorem heedful_localContent {path : LocalPath} :
    Heedful outside raised (localContent outside.recorded path) := by
  refine .bind (.of_call (fun _ => id) fun _ _ => rfl) fun answer => ?_
  split
  · exact .of_pure
  · exact .of_pure
  · exact .of_throw nofun

/-- Each of the three contents is loaded with regard to the flag. -/
theorem heedful_contents (hflagged : outside.Flagged raised) {workspace : Workspace}
    {conflict : Conflict} {path : LocalPath} :
    Heedful outside raised (contents outside.recorded workspace conflict path) := by
  have hsides : Heedful outside raised (bothSides outside.recorded workspace conflict path) := by
    refine .ite ?_ ?_
    · exact .bind (heedful_download hflagged) fun yours =>
        .bind (heedful_download hflagged) fun theirs => .of_pure
    · exact .bind heedful_localContent fun yours =>
        .bind (heedful_download hflagged) fun theirs => .of_pure
  refine .ite (.bind hsides fun sides => ?_) .of_pure
  refine .bind (heedful_download hflagged) fun base => ?_
  exact .bind (heedful_checkCancelled hflagged) fun _ => .of_pure

theorem heedful_mergedPath {workspace : Workspace} {conflict : Conflict} {path : LocalPath} :
    Heedful outside raised (mergedPath outside.recorded workspace conflict path) := by
  have hasked : Heedful outside raised
      (attempt id (outside.recorded.mergeName workspace conflict)) := by
    refine .of_attempt (fun _ => id) (fun error herror => ?_) fun _ _ => rfl
    cases herror
    trivial
  refine .ite (.bind hasked fun merged => ?_) .of_pure
  split
  · exact .of_pure
  · split
    · exact .of_pure
    · exact .of_throw nofun

theorem heedful_mergeContents {conflict : Conflict} {contents : MergeContents}
    {path name : LocalPath} :
    Heedful outside raised (mergeContents outside.recorded conflict contents path name) := by
  have hasked : Heedful outside raised
      (attempt id (outside.recorded.mergeContent conflict contents path name)) := by
    refine .of_attempt (fun _ => id) (fun error herror => ?_) fun _ _ => rfl
    cases herror
    trivial
  refine .ite (.ite (.of_throw nofun) ?_) .of_pure
  refine .bind (.of_call (fun _ => id) fun _ _ => rfl) fun there => .ite ?_ (.of_throw nofun)
  exact .bind (.of_attempt (fun _ => id) nofun fun _ _ => rfl) fun _ => hasked

/-- Applying sends no request. -/
theorem heedful_applyBatch {workspace : Workspace} {resolution : Resolution} {mode : DownloadMode}
    {operations : List GetOperation} :
    Heedful outside raised (applyBatch outside.recorded workspace resolution mode operations) := by
  refine .ite .of_pure (.ite ?_ ?_)
  · exact .bind (.of_call (fun _ => id) fun _ _ => rfl) fun report => .of_pure
  · refine .bind .of_get fun session => ?_
    refine .bind (.of_call (fun _ => id) fun _ _ => rfl) fun report => ?_
    exact .bind .of_modify fun _ => .of_pure

theorem ofApplyErrors_ne_cancelled {errors : List ApplyError} :
    ResolveError.ofApplyErrors errors ≠ some .cancelled := by
  rcases errors with _ | ⟨error, _ | ⟨second, rest⟩⟩ <;> simp [ResolveError.ofApplyErrors]

/-- The flag is looked at directly before the request is sent. -/
theorem heedful_report (hflagged : outside.Flagged raised) {workspace : Workspace}
    {conflict : Conflict} {resolution : Resolution} {path : LocalPath} {sendsPath : Bool} :
    Heedful outside raised
      (report outside.recorded workspace conflict resolution path sendsPath) := by
  refine heedful_checked hflagged (fun error => ?_) (fun answer => ?_) (fun _ _ => rfl)
    fun response => ?_
  · cases error <;> simp [ResolveError.ofRemote]
  · cases answer <;> simp [Event.failure?]
  · refine .bind heedful_applyBatch fun getErrors => ?_
    refine .bind heedful_applyBatch fun undoErrors => ?_
    split
    case h_1 error herror =>
      refine .of_throw ?_
      rintro rfl
      exact ofApplyErrors_ne_cancelled herror
    case h_2 => exact .of_modify

/-- Whatever is done about a conflict heeds the flag. -/
theorem heedful_run (hflagged : outside.Flagged raised) (action : ConflictAction)
    (conflict : Conflict) : Heedful outside raised (action.run outside.recorded conflict) := by
  cases action with
  | acceptMerge =>
    refine .ite (.of_throw nofun) (.bind heedful_owner fun workspace => ?_)
    split
    · exact .of_throw nofun
    · refine .bind (heedful_contents hflagged) fun contents => ?_
      refine .bind heedful_mergedPath fun name => ?_
      split
      · exact .of_pure
      · refine .bind heedful_mergeContents fun merged => .ite ?_ .of_pure
        exact .bind (heedful_report hflagged) fun _ => .of_pure
  | acceptYours =>
    refine .bind heedful_owner fun workspace => .bind (heedful_report hflagged) fun _ => ?_
    exact .bind .of_modify fun _ => .of_pure
  | acceptTheirs =>
    exact .bind heedful_owner fun workspace => .bind (heedful_report hflagged) fun _ => .of_pure
  | skip => exact .bind .of_modify fun _ => .of_pure

/-- No request follows a place where the flag is up. -/
theorem Heeds.not_isReport {world world' : σ} {first rest : List Event}
    {result : Except ResolveError α}
    (hheeds : Heeds outside raised world (first ++ rest) result world')
    (hflagged : outside.Flagged raised) (hfirst : ∀ event ∈ first, ¬ event.IsReport)
    (hraised : raised (worldAfter outside world first) = true) :
    ∀ event ∈ first ++ rest, ¬ event.IsReport := by
  refine List.forall_mem_append.mpr ⟨hfirst, fun event hevent hreport => ?_⟩
  -- A request there would be made with the flag down, but the flag has stayed up since `first`.
  obtain ⟨second, last, rfl⟩ := List.append_of_mem hevent
  have hremote : event.IsRemote := by
    cases event <;> simp_all [Event.IsReport, Event.IsRemote]
  have hlowered : raised (worldAfter outside world (first ++ second)) = false :=
    hheeds.lowered (first ++ second) event last (by rw [List.append_assoc]) hremote
  have hkept : raised (worldAfter outside world (first ++ second)) = true := by
    rw [worldAfter_append]
    exact hflagged.worldAfter second hraised
  cases hlowered.symm.trans hkept

end ResolveM

/-- The operations that a call applies, and how. -/
def Event.batch? : Event → Option (Workspace × List GetOperation × DownloadMode)
  | .apply workspace operations mode _ _ => some (workspace, operations, mode)
  | _ => none

def Event.applyErrors : Event → List ApplyError
  | .apply _ _ _ _ report => report.errors
  | _ => []

/-- What has to be applied once a resolution was accepted. -/
def ResolveResponse.batches (response : ResolveResponse) (workspace : Workspace)
    (resolution : Resolution) : List (Workspace × List GetOperation × DownloadMode) :=
  [(workspace, response.getOperations, ResolveM.downloadMode resolution),
    (workspace, response.undoOperations, .force)].filter fun batch => batch.2.1 ≠ []

namespace ResolveM

variable {before after : Session × σ} {events : List Event}

/-- A batch is applied by one call, or by none if it is empty. -/
theorem Batch.map_batch? {workspace : Workspace} {resolution : Resolution} {mode : DownloadMode}
    {operations : List GetOperation} {start finish : Session} {errors : List ApplyError}
    (hbatch : Batch workspace resolution mode operations start events errors finish) :
    events.map Event.batch? =
      ([(workspace, operations, mode)].filter fun batch => batch.2.1 ≠ []).map some := by
  cases hbatch with
  | unneeded hnone => simp [hnone]
  | merged hsome | noted hsome => simp [hsome, Event.batch?]

/-- The failures of a batch are those of its call. -/
theorem Batch.flatMap_applyErrors {workspace : Workspace} {resolution : Resolution}
    {mode : DownloadMode} {operations : List GetOperation} {start finish : Session}
    {errors : List ApplyError}
    (hbatch : Batch workspace resolution mode operations start events errors finish) :
    events.flatMap Event.applyErrors = errors := by
  cases hbatch <;> simp [Event.applyErrors]

/-- A call that neither asks the server to settle anything nor applies anything. -/
def IsPreparation (event : Event) : Prop :=
  ¬ event.IsReport ∧ event.batch? = none

/-- Loading contents is part of the preparation. -/
theorem isPreparation_of_contents {conflict : Conflict} {workspace : Workspace} {path : LocalPath}
    {result : Except ResolveError MergeContents}
    (hrun : Runs (contents outside.recorded workspace conflict path) before events result after) :
    ∀ event ∈ events, IsPreparation event := by
  intro event hevent
  have hload := (asks_contents _ _ _ _ hrun).2 event hevent
  refine ⟨hload.not_isReport, ?_⟩
  cases event <;> simp_all [Event.IsLoading, Event.batch?]

/-- Asking for a name is part of the preparation. -/
theorem NameMerge.isPreparation {workspace : Workspace} {conflict : Conflict} {path : LocalPath}
    {result : Except ResolveError (Option LocalPath)}
    (hname : NameMerge workspace conflict path events result) :
    ∀ event ∈ events, IsPreparation event := by
  cases hname <;> simp [IsPreparation, Event.IsReport, Event.batch?]

/-- Merging contents is part of the preparation. -/
theorem ContentMerge.isPreparation {conflict : Conflict} {contents : MergeContents}
    {path name : LocalPath} {result : Except ResolveError Bool}
    (hmerge : ContentMerge conflict contents path name events result) :
    ∀ event ∈ events, IsPreparation event := by
  cases hmerge <;> simp [IsPreparation, Event.IsReport, Event.batch?]

/-- How an action goes that gets as far as a report. It prepares the report first, and a report that
fails is the end of it. -/
inductive ReportRun (action : ConflictAction) (conflict : Conflict) (start : Session) :
    List Event → Except ResolveError Outcome → Session → Prop where
  | mk {owner : Workspace} {resolution : Resolution} {path : LocalPath} {sendsPath : Bool}
      {preparing reporting : List Event} {ending : Except ResolveError Unit} {finish final : Session}
      (hresolution : action.resolution? = some resolution)
      (howner : start.registry.workspaceOf? conflict.id = some owner)
      (hpreparing : ∀ event ∈ preparing, IsPreparation event)
      (hreport : Reporting owner conflict resolution path sendsPath start reporting ending finish)
      (hfinal : ∀ error, ending = .error error → final = finish) :
      ReportRun action conflict start (preparing ++ reporting) (ending.map fun _ => .resolved) final

/-- A merge ends in its preparation without being resolved, or goes on to its report. -/
theorem MergeRun.reportRun {conflict : Conflict} {result : Except ResolveError Outcome}
    {finish : Session} (hmerge : MergeRun outside conflict before events result finish) :
    (∀ event ∈ events, IsPreparation event) ∧ result ≠ .ok .resolved ∨
      ReportRun .acceptMerge conflict before.1 events result finish := by
  cases hmerge with
  | unmergeable | unknown => exact .inl ⟨by simp, by simp⟩
  | unloaded _ hload => exact .inl ⟨isPreparation_of_contents hload, by simp⟩
  | unnamed hstart hname | givenUp hstart hname =>
    refine .inl ⟨List.forall_mem_append.mpr ?_, by simp⟩
    exact ⟨isPreparation_of_contents hstart.run, hname.isPreparation⟩
  | unmerged hstart hname hcontent | incomplete hstart hname hcontent =>
    refine .inl ⟨List.forall_mem_append.mpr ?_, by simp⟩
    exact ⟨isPreparation_of_contents hstart.run,
      List.forall_mem_append.mpr ⟨hname.isPreparation, hcontent.isPreparation⟩⟩
  | @reported _ _ _ _ loading naming merging reporting _ ending _ hstart hname hcontent hreport =>
    have hpreparing : ∀ event ∈ loading ++ (naming ++ merging), IsPreparation event :=
      List.forall_mem_append.mpr ⟨isPreparation_of_contents hstart.run,
        List.forall_mem_append.mpr ⟨hname.isPreparation, hcontent.isPreparation⟩⟩
    rw [← List.append_assoc naming, ← List.append_assoc loading]
    exact .inr (.mk rfl hstart.owner hpreparing hreport fun _ _ => rfl)

/-- A submission ends before its request without being resolved, or goes on to its report. -/
theorem Submission.reportRun {action : ConflictAction} {conflict : Conflict}
    {resolution : Resolution} {path : LocalPath} {close : Session → Session}
    {result : Except ResolveError Outcome} {start finish : Session}
    (hresolution : action.resolution? = some resolution)
    (hsubmit : Submission conflict resolution path close start events result finish) :
    (∀ event ∈ events, IsPreparation event) ∧ result ≠ .ok .resolved ∨
      ReportRun action conflict start events result finish := by
  have hnone : ∀ event ∈ [], IsPreparation event := by simp
  cases hsubmit with
  | unknown => exact .inl ⟨hnone, by simp⟩
  | failed howner hreport =>
    exact .inr (.mk hresolution howner hnone hreport fun _ _ => rfl)
  | done howner hreport =>
    exact .inr (.mk hresolution howner hnone hreport fun _ herror => by cases herror)

/-- An action either stops before its report or ends with it. -/
theorem reportRun_of_runs {action : ConflictAction} {conflict : Conflict}
    {result : Except ResolveError Outcome}
    (hrun : Runs (action.run outside.recorded conflict) before events result after) :
    (∀ event ∈ events, IsPreparation event) ∧ result ≠ .ok .resolved ∨
      ReportRun action conflict before.1 events result after.1 := by
  cases action with
  | acceptMerge => exact (runs_acceptMerge hrun).reportRun
  | acceptYours => exact (runs_acceptYours hrun).reportRun rfl
  | acceptTheirs => exact (runs_acceptTheirs hrun).reportRun rfl
  | skip =>
    obtain ⟨rfl, rfl, -⟩ := runs_skip hrun
    exact .inl ⟨by simp, by simp⟩

/-- An action prepares its report first. It either stops before the report or ends with it. -/
def Prepares (conflict : Conflict) (start : Session) (events : List Event)
    (result : Except ResolveError Outcome) : Prop :=
  ∃ preparing reporting, events = preparing ++ reporting ∧
    (∀ event ∈ preparing, IsPreparation event) ∧
    (reporting = [] ∧ result ≠ .ok .resolved ∨
      ∃ workspace resolution path sendsPath ending finish,
        Reporting workspace conflict resolution path sendsPath start reporting ending finish ∧
          result = ending.map fun _ => .resolved)

/-- Every action prepares and reports, or stops before it reports. -/
theorem prepares_of_runs {action : ConflictAction} {conflict : Conflict}
    {result : Except ResolveError Outcome}
    (hrun : Runs (action.run outside.recorded conflict) before events result after) :
    Prepares conflict before.1 events result := by
  obtain ⟨hevents, hresult⟩ | hreports := reportRun_of_runs hrun
  · exact ⟨events, [], by rw [List.append_nil], hevents, .inl ⟨rfl, hresult⟩⟩
  · cases hreports with
    | mk _ _ hpreparing hreport _ =>
      exact ⟨_, _, rfl, hpreparing, .inr ⟨_, _, _, _, _, _, hreport, rfl⟩⟩

/-- Without a request to the server nothing is applied, and nothing is resolved. -/
theorem Prepares.unreported {conflict : Conflict} {start : Session}
    {result : Except ResolveError Outcome} (hprepares : Prepares conflict start events result)
    (hnone : ∀ event ∈ events, ¬ event.IsReport) :
    (∀ event ∈ events, event.batch? = none) ∧ result ≠ .ok .resolved := by
  obtain ⟨preparing, reporting, rfl, hpreparing, hreporting⟩ := hprepares
  obtain ⟨-, hnone⟩ := List.forall_mem_append.mp hnone
  have hprepared (event : Event) (hevent : event ∈ preparing) : event.batch? = none :=
    (hpreparing event hevent).2
  obtain ⟨rfl, hresult⟩ | ⟨_, _, _, _, _, _, hreport, rfl⟩ := hreporting
  · exact ⟨by simpa using hprepared, hresult⟩
  · cases hreport with
    | stopped =>
      refine ⟨List.forall_mem_append.mpr ⟨hprepared, ?_⟩, by simp [Except.map]⟩
      simp [Event.batch?]
    | refused | broken | done => simp [Event.IsReport] at hnone

/-- The batches applied in answer to a response, and the errors that came of them. -/
theorem batches_of_applied {workspace : Workspace} {resolution : Resolution}
    {response : ResolveResponse} {got undone : List Event} {start middle finish : Session}
    {getErrors undoErrors : List ApplyError}
    (hget : Batch workspace resolution (downloadMode resolution) response.getOperations start got
      getErrors middle)
    (hundo : Batch workspace resolution .force response.undoOperations middle undone undoErrors
      finish) :
    (got ++ undone).map Event.batch? = (response.batches workspace resolution).map some ∧
      (got ++ undone).flatMap Event.applyErrors = getErrors ++ undoErrors := by
  constructor
  · rw [List.map_append, hget.map_batch?, hundo.map_batch?, ← List.map_append, ← List.filter_append]
    rfl
  · rw [List.flatMap_append, hget.flatMap_applyErrors, hundo.flatMap_applyErrors]

/-- Once the server has accepted the request, both batches are applied unless they are empty, and if
nothing fails the report ends well. -/
theorem Reporting.accepted {owner workspace : Workspace} {conflict : Conflict}
    {resolution : Resolution} {path : LocalPath} {sendsPath : Bool} {start finish : Session}
    {ending : Except ResolveError Unit} {first rest : List Event} {request : ResolveRequest}
    {response : ResolveResponse}
    (hreport : Reporting owner conflict resolution path sendsPath start events ending finish)
    (hevents : events = first ++ .resolve workspace request (.ok response) :: rest) :
    rest.map Event.batch? = (response.batches workspace request.resolution).map some ∧
      ((∀ event ∈ rest, event.applyErrors = []) → ending = .ok ()) := by
  have hmem : .resolve workspace request (.ok response) ∈ events := by simp [hevents]
  have hplace {answer : ResolveResponse} {applied : List Event}
      (happlied : ∀ event ∈ applied, ¬ event.IsReport)
      (heq : [.cancelled false] ++ .resolve owner (requestFor conflict resolution path sendsPath)
        (.ok answer) :: applied = first ++ .resolve workspace request (.ok response) :: rest) :
      owner = workspace ∧ requestFor conflict resolution path sendsPath = request ∧
        answer = response ∧ applied = rest := by
    have hreported : Event.IsReport (.resolve workspace request (.ok response)) := trivial
    obtain ⟨-, hevent, hrest⟩ := (List.append_cons_inj_of_notMem
      (fun hmem => by simp at hmem) fun hmem => happlied _ hmem hreported).mp heq
    cases hevent
    exact ⟨rfl, rfl, rfl, hrest⟩
  cases hreport with
  | stopped | refused => simp at hmem
  | broken hget hundo herrors =>
    obtain ⟨rfl, rfl, rfl, rfl⟩ :=
      hplace (List.forall_mem_append.mpr ⟨hget.not_isReport, hundo.not_isReport⟩) hevents
    obtain ⟨hbatches, happlied⟩ := batches_of_applied hget hundo
    refine ⟨hbatches, fun hnone => ?_⟩
    rw [← happlied, List.flatMap_eq_nil_iff.mpr hnone] at herrors
    cases herrors
  | done hget hundo =>
    obtain ⟨rfl, rfl, rfl, rfl⟩ :=
      hplace (List.forall_mem_append.mpr ⟨hget.not_isReport, hundo.not_isReport⟩) hevents
    exact ⟨(batches_of_applied hget hundo).1, fun _ => rfl⟩

/-- Behind an accepted request stand the batches of its answer and nothing else. -/
theorem Prepares.accepted {conflict : Conflict} {start : Session}
    {result : Except ResolveError Outcome} {first rest : List Event} {workspace : Workspace}
    {request : ResolveRequest} {response : ResolveResponse}
    (hprepares : Prepares conflict start events result)
    (hevents : events = first ++ .resolve workspace request (.ok response) :: rest) :
    rest.map Event.batch? = (response.batches workspace request.resolution).map some ∧
      ((∀ event ∈ rest, event.applyErrors = []) → result = .ok .resolved) := by
  obtain ⟨preparing, reporting, rfl, hpreparing, hreporting⟩ := hprepares
  -- Preparing sends no request, so the accepted one stands in the report.
  have hprepared : .resolve workspace request (.ok response) ∉ preparing := fun hmem =>
    (hpreparing _ hmem).1 trivial
  obtain ⟨second, -, hsecond⟩ := exists_of_append_eq hprepared hevents
  obtain ⟨rfl, -⟩ | ⟨_, _, _, _, ending, _, hreport, rfl⟩ := hreporting
  · simp at hsecond
  · obtain ⟨hbatches, hending⟩ := hreport.accepted hsecond
    refine ⟨hbatches, fun hnone => ?_⟩
    rw [hending hnone]
    rfl

end ResolveM

open ResolveM

/-- A turn starts in the world that the calls of the turns before it lead to. -/
theorem runs_of_history (hflagged : outside.Flagged raised) {decisions : List Decision}
    {session : Session} {world : σ} {earlier later : List Turn} {turn : Turn}
    (hturn : history outside decisions session world = earlier ++ turn :: later) :
    ∃ world', Runs (turn.decision.action.run outside.recorded turn.decision.conflict)
      (turn.before, worldAfter outside world (earlier.flatMap (·.events))) turn.events turn.result
        (turn.after, world') := by
  -- The first turn leaves the world that its own calls lead to, and the other turns start from there.
  induction decisions generalizing session world earlier with
  | nil => simp [history] at hturn
  | cons decision decisions ih =>
    obtain ⟨head, world', rfl, rfl, hrun, hhistory⟩ :=
      history_cons outside decision decisions session world
    rw [hhistory] at hturn
    cases earlier with
    | nil =>
      obtain ⟨rfl, -⟩ := List.cons.inj hturn
      exact ⟨world', hrun⟩
    | cons other earlier =>
      obtain ⟨rfl, hrest⟩ := List.cons.inj hturn
      have hworld : world' = worldAfter outside world head.events :=
        (heedful_run hflagged _ _ _ _ _ _ hrun).world_eq
      rw [List.flatMap_cons, worldAfter_append, ← hworld]
      exact ih hrest

/-- Whoever raises the flag, and wherever in a run. No turn asks the server anything while the flag is up,
and a call that the server cancels cancels the turn, which nothing but the flag or such an answer does. A
turn that finds the flag up before it has sent its request sends none, applies nothing and leaves the
registry alone. But once the server has accepted the request, both batches are applied and the conflict
goes if they succeed, whatever the flag does. -/
theorem history_heeds_flag (outside : Collaborators (StateM σ)) (raised : σ → Bool)
    (hflagged : outside.Flagged raised) (decisions : List Decision) (session : Session) (world : σ)
    (earlier later : List Turn) (turn : Turn)
    (hturn : history outside decisions session world = earlier ++ turn :: later) :
    let start := worldAfter outside world (earlier.flatMap (·.events))
    (∀ first event rest, turn.events = first ++ event :: rest → event.IsRemote →
      raised (worldAfter outside start first) = false) ∧
    (∀ event ∈ turn.events, event.failure? = some .cancelled → turn.result = .error .cancelled) ∧
    (turn.result = .error .cancelled → raised (worldAfter outside start turn.events) = true ∨
      ∃ event ∈ turn.events, event.IsCancellation) ∧
    (∀ first rest, turn.events = first ++ rest → (∀ event ∈ first, ¬ event.IsReport) →
      raised (worldAfter outside start first) = true →
        (∀ event ∈ turn.events, ¬ event.IsReport ∧ event.batch? = none) ∧
        turn.after.registry = turn.before.registry) ∧
    ∀ first workspace request response rest,
      turn.events = first ++ .resolve workspace request (.ok response) :: rest →
        rest.map Event.batch? = (response.batches workspace request.resolution).map some ∧
        ((∀ event ∈ rest, event.applyErrors = []) → turn.result = .ok .resolved ∧
          turn.after.registry = turn.before.registry.remove turn.decision.conflict.id) := by
  intro start
  obtain ⟨world', hrun⟩ := runs_of_history hflagged hturn
  have hheeds : Heeds outside raised start turn.events turn.result world' :=
    heedful_run hflagged _ _ _ _ _ _ hrun
  have hprepares := prepares_of_runs hrun
  have hsettles := runs_run_settlesOnly hrun
  refine ⟨hheeds.lowered, fun event hevent hcancelled => ?_, ?_, ?_, ?_⟩
  · obtain ⟨first, rest, hsplit⟩ := List.append_of_mem hevent
    exact (hheeds.cancelled first event rest hsplit hcancelled).2
  · rw [← hheeds.world_eq]
    exact hheeds.failed
  · intro first rest hsplit hfirst hraised
    have hnone : ∀ event ∈ turn.events, ¬ event.IsReport := by
      rw [hsplit] at hheeds ⊢
      exact hheeds.not_isReport hflagged hfirst hraised
    obtain ⟨happlied, hresult⟩ := hprepares.unreported hnone
    refine ⟨fun event hevent => ⟨hnone event hevent, happlied event hevent⟩, ?_⟩
    obtain ⟨hresolved, -, -⟩ | ⟨-, hafter⟩ := hsettles
    · exact absurd hresolved hresult
    · exact hafter
  · intro first workspace request response rest hsplit
    obtain ⟨hbatches, hresult⟩ := hprepares.accepted hsplit
    refine ⟨hbatches, fun hnone => ⟨hresult hnone, ?_⟩⟩
    obtain ⟨-, -, hafter⟩ | ⟨hunresolved, -⟩ := hsettles
    · exact hafter
    · exact absurd (hresult hnone) hunresolved

/-- The request about the first conflict raises the flag: what the server answered is still applied, and
of the second conflict nobody hears. -/
theorem history_heeds_flag_raised_by_request :
    let workspace : Workspace := ⟨"main", "alice", .ofUri "http://server", []⟩
    let response : ResolveResponse :=
      { getOperations := [{ itemId := 1, serverItem := "$/P/a.txt", version := 2 }] }
    let outside : Collaborators (StateM Bool) :=
      { Collaborators.willing "" response with
        resolve := fun _ _ => do
          set true
          return .ok response
        cancellation := .reading id }
    let session : Session := { registry := .ofGroups [(workspace, [{ id := 7 }, { id := 8 }])] }
    ∃ first second,
      history outside [⟨.acceptTheirs, { id := 7 }⟩, ⟨.acceptYours, { id := 8 }⟩] session false =
        [first, second] ∧
      first.events.map Event.batch? = [none, none, some (workspace, response.getOperations, .force)] ∧
      first.result = .ok .resolved ∧ first.after.registry = first.before.registry.remove 7 ∧
      second.result = .error .cancelled ∧
      (∀ event ∈ second.events, ¬ event.IsReport ∧ event.batch? = none) ∧
      second.after.registry = second.before.registry := by
  intro workspace response outside session
  have hflagged : outside.Flagged id :=
    ⟨rfl, fun event world hraised => by cases event <;> first | exact hraised | rfl⟩
  let decisions : List Decision := [⟨.acceptTheirs, { id := 7 }⟩, ⟨.acceptYours, { id := 8 }⟩]
  obtain ⟨-, -, -, -, haccepted⟩ :=
    history_heeds_flag outside id hflagged decisions session false [] _ _ rfl
  obtain ⟨hbatches, hresolved⟩ := haccepted [.cancelled false] workspace
    { conflictId := 7, resolution := .acceptTheirs, newPath := none } response _ rfl
  obtain ⟨hresult, hregistry⟩ := hresolved (by simp [Event.applyErrors])
  obtain ⟨-, -, -, hraised, -⟩ :=
    history_heeds_flag outside id hflagged decisions session false [_] [] _ rfl
  obtain ⟨hsilent, hunchanged⟩ := hraised [] _ rfl (by simp) rfl
  exact ⟨_, _, rfl, congrArg ([none, none] ++ ·) hbatches, hresult, hregistry, rfl, hsilent,
    hunchanged⟩

end Reconcile
