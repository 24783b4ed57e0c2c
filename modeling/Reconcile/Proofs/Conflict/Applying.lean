import Reconcile.Proofs.Conflict.Heeding

namespace Reconcile

/-- The files that were touched by applying operations. -/
def Event.touched : Event → List (FileGroup × String)
  | .apply _ _ _ _ report => report.touched
  | _ => []

theorem Event.touched_of_batch?_eq_none {event : Event} (hevent : event.batch? = none) :
    event.touched = [] := by
  cases event <;> first | rfl | cases hevent

theorem Event.applyErrors_of_batch?_eq_none {event : Event} (hevent : event.batch? = none) :
    event.applyErrors = [] := by
  cases event <;> first | rfl | cases hevent

/-- The ledger with more files in it. -/
def Ledger.addAll (ledger : Ledger) (touched : List (FileGroup × String)) : Ledger :=
  ⟨ledger.entries ++ touched⟩

/-- All touched files go into the ledger, if there is one. -/
theorem Session.noteAll_ledger (session : Session) (touched : List (FileGroup × String)) :
    (session.noteAll touched).ledger = session.ledger.map (·.addAll touched) := by
  obtain ⟨registry, ledger⟩ := session
  induction touched generalizing ledger with
  | nil => cases ledger <;> simp [noteAll, Ledger.addAll]
  | cons entry touched ih =>
    refine (ih (ledger.map (·.add entry.1 entry.2))).trans ?_
    cases ledger <;> simp [Ledger.addAll, Ledger.add]

theorem ResolveError.ofApplyErrors_of_two_le {errors : List ApplyError}
    (hlength : 2 ≤ errors.length) : ofApplyErrors errors = some (.applyAggregated errors) := by
  obtain _ | ⟨first, _ | ⟨second, rest⟩⟩ := errors
  · simp at hlength
  · simp at hlength
  · rfl

namespace ResolveM

variable {σ : Type} {outside : Collaborators (StateM σ)} {before after : Session × σ}
  {events : List Event}

section Batch

variable {workspace : Workspace} {resolution : Resolution} {mode : DownloadMode}
  {operations : List GetOperation} {start finish : Session} {errors : List ApplyError}

/-- A batch is applied by one call at most, with the ledger as it was before. -/
theorem Batch.ledger_of_split {other : Workspace} {applied : List GetOperation}
    {appliedMode : DownloadMode} {ledger : Option Ledger} {report : ApplyReport}
    {early late : List Event}
    (hbatch : Batch workspace resolution mode operations start events errors finish)
    (hsplit : events = early ++ .apply other applied appliedMode ledger report :: late) :
    early = [] ∧ ledger = if resolution = .acceptMerge then none else start.ledger := by
  cases hbatch with
  | unneeded => simp at hsplit
  | merged _ hmerge =>
    obtain rfl : early = [] := by cases early <;> simp_all
    cases hsplit
    exact ⟨rfl, (if_pos hmerge).symm⟩
  | noted _ hother =>
    obtain rfl : early = [] := by cases early <;> simp_all
    cases hsplit
    exact ⟨rfl, (if_neg hother).symm⟩

/-- What a batch touched is in the ledger afterwards, unless it was applied for a merge. -/
theorem Batch.ledger_eq
    (hbatch : Batch workspace resolution mode operations start events errors finish) :
    finish.ledger = if resolution = .acceptMerge then start.ledger
      else start.ledger.map (·.addAll (events.flatMap Event.touched)) := by
  cases hbatch with
  | unneeded => cases start.ledger <;> simp [Ledger.addAll]
  | merged _ hmerge => rw [if_pos hmerge]
  | noted _ hother report =>
    rw [if_neg hother, Session.noteAll_ledger]
    simp [Event.touched]

/-- Two batches, one after the other. -/
theorem ledger_eq_of_batches {mode' : DownloadMode} {operations' : List GetOperation}
    {errors' : List ApplyError} {middle : Session} {got undone : List Event}
    (hget : Batch workspace resolution mode operations start got errors middle)
    (hundo : Batch workspace resolution mode' operations' middle undone errors' finish) :
    finish.ledger = if resolution = .acceptMerge then start.ledger
      else start.ledger.map (·.addAll ((got ++ undone).flatMap Event.touched)) := by
  rw [hundo.ledger_eq, hget.ledger_eq]
  split
  · rfl
  · cases start.ledger <;> simp [Ledger.addAll]

end Batch

/-- What came of a request that the server has accepted: the calls before it, and the two batches after
it. -/
structure Answered (action : ConflictAction) (conflict : Conflict) (start : Session)
    (workspace : Workspace) (request : ResolveRequest) (response : ResolveResponse)
    (preparing got undone : List Event) (getErrors undoErrors : List ApplyError)
    (finish : Session) : Prop where
  resolution : action.resolution? = some request.resolution
  owner : start.registry.workspaceOf? conflict.id = some workspace
  preparing : ∀ event ∈ preparing, IsPreparation event
  batches : ∃ middle,
    Batch workspace request.resolution (downloadMode request.resolution) response.getOperations start
        got getErrors middle ∧
      Batch workspace request.resolution .force response.undoOperations middle undone undoErrors finish

/-- Around an accepted request, a record consists of the preparation and the two batches. -/
theorem answered_of_runs (action : ConflictAction) {conflict : Conflict}
    {result : Except ResolveError Outcome} {workspace : Workspace} {request : ResolveRequest}
    {response : ResolveResponse}
    (hrun : Runs (action.run outside.recorded conflict) before events result after)
    (hmem : .resolve workspace request (.ok response) ∈ events) :
    ∃ preparing got undone getErrors undoErrors finish,
      Answered action conflict before.1 workspace request response preparing got undone getErrors
        undoErrors finish ∧
      events = preparing ++ .resolve workspace request (.ok response) :: (got ++ undone) ∧
      (getErrors ++ undoErrors = [] → result = .ok .resolved) ∧
      ∀ error, ResolveError.ofApplyErrors (getErrors ++ undoErrors) = some error →
        result = .error error ∧ after.1 = finish := by
  have hreported : Event.IsReport (.resolve workspace request (.ok response)) := trivial
  obtain ⟨hnone, -⟩ | hreports := reportRun_of_runs hrun
  · exact absurd hreported (hnone _ hmem).1
  cases hreports with
  | @mk owner resolution path sendsPath preparing reporting ending finish _ hresolution howner
      hpreparing hreport hfinal =>
    have hprepared : ∀ event ∈ preparing ++ [Event.cancelled false], IsPreparation event := by
      simpa [or_imp, forall_and, IsPreparation, Event.IsReport, Event.batch?] using hpreparing
    have hmem : .resolve workspace request (.ok response) ∈ reporting :=
      (List.mem_append.mp hmem).resolve_left fun hmem => (hpreparing _ hmem).1 hreported
    -- The request stands in the report, where no other one does.
    have hsole {answer : ResolveResponse} {applied : List Event}
        (happlied : ∀ event ∈ applied, ¬ event.IsReport)
        (hmem : .resolve workspace request (.ok response) ∈ .cancelled false ::
          .resolve owner (requestFor conflict resolution path sendsPath) (.ok answer) :: applied) :
        owner = workspace ∧ requestFor conflict resolution path sendsPath = request ∧
          answer = response := by
      simp only [List.mem_cons, reduceCtorEq, Event.resolve.injEq, Except.ok.injEq, false_or] at hmem
      obtain ⟨rfl, rfl, rfl⟩ | hmem := hmem
      · exact ⟨rfl, rfl, rfl⟩
      · exact absurd hreported (happlied _ hmem)
    cases hreport with
    | stopped | refused => simp at hmem
    | broken hget hundo herrors =>
      obtain ⟨rfl, rfl, rfl⟩ :=
        hsole (List.forall_mem_append.mpr ⟨hget.not_isReport, hundo.not_isReport⟩) hmem
      refine ⟨_, _, _, _, _, _, ⟨hresolution, howner, hprepared, _, hget, hundo⟩, by simp,
        fun hnone => ?_, fun error herror => ?_⟩
      · rw [hnone] at herrors
        cases herrors
      · cases herror.symm.trans herrors
        exact ⟨rfl, hfinal _ rfl⟩
    | done hget hundo =>
      obtain ⟨rfl, rfl, rfl⟩ :=
        hsole (List.forall_mem_append.mpr ⟨hget.not_isReport, hundo.not_isReport⟩) hmem
      refine ⟨_, _, _, _, _, _, ⟨hresolution, howner, hprepared, _, hget, hundo⟩, by simp,
        fun _ => rfl, fun error herror => ?_⟩
      cases herror

namespace Answered

variable {action : ConflictAction} {conflict : Conflict} {start finish : Session}
  {workspace : Workspace} {request : ResolveRequest} {response : ResolveResponse}
  {preparing got undone : List Event} {getErrors undoErrors : List ApplyError}

/-- The batches that are applied are those of the answer, first those to be fetched. -/
theorem filterMap_batch? (hanswered : Answered action conflict start workspace request response
    preparing got undone getErrors undoErrors finish) :
    (preparing ++ .resolve workspace request (.ok response) :: (got ++ undone)).filterMap
      Event.batch? = response.batches workspace request.resolution := by
  obtain ⟨middle, hget, hundo⟩ := hanswered.batches
  have hprepared : preparing.filterMap Event.batch? = [] :=
    List.filterMap_eq_nil_iff.mpr fun event hevent => (hanswered.preparing event hevent).2
  have happlied : (got ++ undone).map Event.batch? =
      (response.batches workspace request.resolution).map some := (batches_of_applied hget hundo).1
  rw [List.filterMap_append, hprepared, List.filterMap_cons_none rfl, List.nil_append]
  simpa [List.filterMap_map] using congrArg (List.filterMap id) happlied

/-- What only applying gives comes from the two batches. -/
theorem flatMap_eq {β : Type} {f : Event → List β} (hf : ∀ event, event.batch? = none → f event = [])
    (hanswered : Answered action conflict start workspace request response preparing got undone
      getErrors undoErrors finish) :
    (preparing ++ .resolve workspace request (.ok response) :: (got ++ undone)).flatMap f =
      got.flatMap f ++ undone.flatMap f := by
  have hprepared : preparing.flatMap f = [] :=
    List.flatMap_eq_nil_iff.mpr fun event hevent => hf event (hanswered.preparing event hevent).2
  rw [List.flatMap_append, hprepared, List.flatMap_cons, hf _ rfl, List.flatMap_append]
  rfl

/-- The ledger that goes along with a batch holds what was touched before. -/
theorem ledger_eq {early late : List Event} {other : Workspace} {operations : List GetOperation}
    {mode : DownloadMode} {ledger : Option Ledger} {report : ApplyReport}
    (hanswered : Answered action conflict start workspace request response preparing got undone
      getErrors undoErrors finish)
    (hsplit : preparing ++ .resolve workspace request (.ok response) :: (got ++ undone) =
      early ++ .apply other operations mode ledger report :: late) :
    ledger = if request.resolution = .acceptMerge then none
      else start.ledger.map (·.addAll (early.flatMap Event.touched)) := by
  obtain ⟨middle, hget, hundo⟩ := hanswered.batches
  have hprepared : preparing.flatMap Event.touched = [] :=
    List.flatMap_eq_nil_iff.mpr fun event hevent =>
      Event.touched_of_batch?_eq_none (hanswered.preparing event hevent).2
  have hfirst : .apply other operations mode ledger report ∉
      preparing ++ [.resolve workspace request (.ok response)] := by
    intro hmem
    obtain hmem | hmem := List.mem_append.mp hmem
    · cases (hanswered.preparing _ hmem).2
    · simp at hmem
  rw [List.append_cons] at hsplit
  obtain ⟨second, rfl, happlied⟩ := exists_of_append_eq hfirst hsplit
  rw [List.flatMap_append, List.flatMap_append, hprepared]
  obtain ⟨_, hgot, -⟩ | ⟨third, rfl, hundone⟩ := split_of_append_eq happlied
  · obtain ⟨rfl, hledger⟩ := hget.ledger_of_split hgot
    rw [hledger]
    cases start.ledger <;> simp [Event.touched, Ledger.addAll]
  · obtain ⟨rfl, hledger⟩ := hundo.ledger_of_split hundone
    rw [hledger, hget.ledger_eq]
    split <;> simp [Event.touched]

/-- Applying touches files and nothing else. -/
theorem session_eq (hanswered : Answered action conflict start workspace request response preparing
    got undone getErrors undoErrors finish) :
    finish.registry = start.registry ∧
      finish.ledger = if request.resolution = .acceptMerge then start.ledger
        else start.ledger.map
          (·.addAll (got.flatMap Event.touched ++ undone.flatMap Event.touched)) := by
  obtain ⟨middle, hget, hundo⟩ := hanswered.batches
  refine ⟨hundo.registry_eq.trans hget.registry_eq, ?_⟩
  rw [ledger_eq_of_batches hget hundo, List.flatMap_append]

/-- The failures of both batches are told in their order. -/
theorem applyErrors_eq (hanswered : Answered action conflict start workspace request response
    preparing got undone getErrors undoErrors finish) :
    (preparing ++ .resolve workspace request (.ok response) :: (got ++ undone)).flatMap
      Event.applyErrors = getErrors ++ undoErrors := by
  obtain ⟨middle, hget, hundo⟩ := hanswered.batches
  rw [hanswered.flatMap_eq fun _ => Event.applyErrors_of_batch?_eq_none, hget.flatMap_applyErrors,
    hundo.flatMap_applyErrors]

end Answered

/-- Whatever the server answers and whoever applies it. The batches that are not empty are applied whole
and once, what is to be fetched first and what is to be undone also if that failed. Only taking theirs
overwrites local changes by what is fetched. The ledger goes along as it has become by then, except with
a merge. Without an error the conflict is resolved; one error is the error of the action, several are
aggregated in the order of their reports, and then the conflict stays and nobody but the one who applied
has added to the ledger. -/
theorem answer_applied_in_batches (outside : Collaborators (StateM σ)) (action : ConflictAction)
    (conflict : Conflict) (before after : Session × σ) (events : List Event)
    (result : Except ResolveError Outcome) (workspace : Workspace) (request : ResolveRequest)
    (response : ResolveResponse)
    (hrun : Runs (action.run outside.recorded conflict) before events result after)
    (haccepted : .resolve workspace request (.ok response) ∈ events) :
    action.resolution? = some request.resolution ∧
    events.filterMap Event.batch? =
      [(workspace, response.getOperations,
          if request.resolution = .acceptTheirs then .force else .merge),
        (workspace, response.undoOperations, .force)].filter (fun batch => batch.2.1 ≠ []) ∧
    (∀ early other operations mode ledger report late,
      events = early ++ .apply other operations mode ledger report :: late →
        ledger = if request.resolution = .acceptMerge then none
          else before.1.ledger.map (·.addAll (early.flatMap Event.touched))) ∧
    (result = .ok .resolved ↔ events.flatMap Event.applyErrors = []) ∧
    (∀ error, events.flatMap Event.applyErrors = [error] → result = .error (.apply error)) ∧
    (2 ≤ (events.flatMap Event.applyErrors).length →
      result = .error (.applyAggregated (events.flatMap Event.applyErrors))) ∧
    (events.flatMap Event.applyErrors ≠ [] →
      after.1.registry = before.1.registry ∧ after.1.registry.contains conflict.id = true ∧
      after.1.ledger = if request.resolution = .acceptMerge then before.1.ledger
        else before.1.ledger.map (·.addAll (events.flatMap Event.touched))) := by
  obtain ⟨preparing, got, undone, getErrors, undoErrors, finish, hanswered, rfl, hresolved, hfailed⟩ :=
    answered_of_runs action hrun haccepted
  rw [hanswered.applyErrors_eq]
  refine ⟨hanswered.resolution, hanswered.filterMap_batch?, fun early other operations mode ledger report
    late hsplit => hanswered.ledger_eq hsplit, ⟨fun hresult => ?_, hresolved⟩, fun error herror => ?_,
    fun hlength => ?_, fun hsome => ?_⟩
  · by_contra hsome
    obtain ⟨error, herror⟩ := Option.ne_none_iff_exists'.mp
      (mt ResolveError.ofApplyErrors_eq_none_iff.mp hsome)
    cases hresult.symm.trans (hfailed error herror).1
  · rw [herror] at hfailed
    exact (hfailed _ rfl).1
  · exact (hfailed _ (ResolveError.ofApplyErrors_of_two_le hlength)).1
  · obtain ⟨error, herror⟩ := Option.ne_none_iff_exists'.mp
      (mt ResolveError.ofApplyErrors_eq_none_iff.mp hsome)
    obtain ⟨-, hafter⟩ := hfailed error herror
    obtain ⟨hregistry, hledger⟩ := hanswered.session_eq
    rw [hafter, hanswered.flatMap_eq fun _ => Event.touched_of_batch?_eq_none]
    refine ⟨hregistry, ?_, hledger⟩
    rw [hregistry]
    exact ConflictRegistry.contains_of_workspaceOf? hanswered.owner

/-- Both batches fail in part when theirs is taken: both are applied, the second one with what the first
one has touched in the ledger, and both errors are told. -/
theorem answer_applied_in_batches_broken :
    let workspace : Workspace := ⟨"main", "alice", .ofUri "http://server", []⟩
    let response : ResolveResponse :=
      { getOperations := [{ itemId := 1, serverItem := "$/P/a.txt", version := 2 }]
        undoOperations := [{ itemId := 2, serverItem := "$/P/b.txt", version := 2 }] }
    let report (operation : GetOperation) : ApplyReport :=
      { errors := [⟨operation.serverItem, "locked"⟩], touched := [(.updated, operation.serverItem)] }
    let outside : Collaborators (StateM Unit) :=
      { Collaborators.willing "" response with
        apply := fun _ operations _ _ => pure ((operations.head?.map report).getD {}) }
    let session : Session := { registry := .ofGroups [(workspace, [{ id := 7 }])], ledger := some {} }
    ∃ events result after,
      Runs (ConflictAction.acceptTheirs.run outside.recorded { id := 7 }) (session, ()) events result
        after ∧
      events.filterMap Event.batch? =
        [(workspace, response.getOperations, .force), (workspace, response.undoOperations, .force)] ∧
      result = .error (.applyAggregated [⟨"$/P/a.txt", "locked"⟩, ⟨"$/P/b.txt", "locked"⟩]) ∧
      after.1.registry.contains 7 = true ∧
      after.1.ledger = some ⟨[(.updated, "$/P/a.txt"), (.updated, "$/P/b.txt")]⟩ := by
  intro workspace response report outside session
  let request : ResolveRequest := { conflictId := 7, resolution := .acceptTheirs, newPath := none }
  let noted : Ledger := ⟨[(.updated, "$/P/a.txt")]⟩
  have hrun : Runs (ConflictAction.acceptTheirs.run outside.recorded { id := 7 }) (session, ())
      [.cancelled false, .resolve workspace request (.ok response),
        .apply workspace response.getOperations .force (some {})
          (report { itemId := 1, serverItem := "$/P/a.txt", version := 2 }),
        .apply workspace response.undoOperations .force (some noted)
          (report { itemId := 2, serverItem := "$/P/b.txt", version := 2 })]
      (.error (.applyAggregated [⟨"$/P/a.txt", "locked"⟩, ⟨"$/P/b.txt", "locked"⟩]))
      ({ session with ledger := some ⟨noted.entries ++ [(.updated, "$/P/b.txt")]⟩ }, ()) := rfl
  obtain ⟨-, hbatches, -, -, -, hresult, hafter⟩ := answer_applied_in_batches outside .acceptTheirs
    { id := 7 } (session, ()) _ _ _ workspace request response hrun (by simp)
  obtain ⟨-, hcontains, hledger⟩ := hafter (by simp [Event.applyErrors, report])
  exact ⟨_, _, _, hrun, hbatches, hresult (by simp [Event.applyErrors, report]), hcontains, hledger⟩

end ResolveM

end Reconcile
