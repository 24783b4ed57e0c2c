import Mathlib
import Reconcile.Files.Tree
import Reconcile.Proofs.Conflict.Applying
import Reconcile.Proofs.Conflict.Happening

namespace Reconcile

/-- A look at the flag or a request to the server. Neither of them is about files. -/
def Event.IsExchange : Event → Prop
  | .cancelled _ | .resolve .. => True
  | _ => False

theorem Event.IsExchange.batch?_eq_none {event : Event} (hevent : event.IsExchange) :
    event.batch? = none := by
  cases event <;> simp_all [Event.IsExchange, Event.batch?]

namespace ResolveM

variable {σ : Type} {outside : Collaborators (StateM σ)} {before after : Session × σ}
  {events : List Event}

/-- An empty batch calls nobody. -/
theorem Batch.eq_nil {workspace : Workspace} {resolution : Resolution} {mode : DownloadMode}
    {operations : List GetOperation} {start finish : Session} {errors : List ApplyError}
    (hbatch : Batch workspace resolution mode operations start events errors finish)
    (hnone : operations = []) : events = [] := by
  cases hbatch with
  | unneeded => rfl
  | merged hsome | noted hsome => exact absurd hnone hsome

/-- A report whose answers ask for nothing is an exchange with the server. -/
theorem Reporting.isExchange {workspace : Workspace} {conflict : Conflict}
    {resolution : Resolution} {path : LocalPath} {sendsPath : Bool} {start finish : Session}
    {ending : Except ResolveError Unit}
    (hreport : Reporting workspace conflict resolution path sendsPath start events ending finish)
    (hnone : ∀ owner request response, .resolve owner request (.ok response) ∈ events →
      response = {}) :
    ∀ event ∈ events, event.IsExchange := by
  cases hreport with
  | stopped | refused => simp [Event.IsExchange]
  | broken hget hundo | done hget hundo =>
    obtain rfl := hnone _ _ _ (List.mem_cons_of_mem _ List.mem_cons_self)
    rw [hget.eq_nil rfl, hundo.eq_nil rfl]
    simp [Event.IsExchange]

/-- Where every accepted request was answered without operations, nobody is asked to apply any. -/
theorem Submission.isExchange {conflict : Conflict} {resolution : Resolution} {path : LocalPath}
    {close : Session → Session} {result : Except ResolveError Outcome} {start finish : Session}
    (hsubmit : Submission conflict resolution path close start events result finish)
    (hnone : ∀ owner request response, .resolve owner request (.ok response) ∈ events →
      response = {}) :
    ∀ event ∈ events, event.IsExchange := by
  cases hsubmit with
  | unknown => simp
  | failed _ hreport | done _ hreport => exact hreport.isExchange hnone

/-- Keeping yours applies what the server's answer carries, and nothing else: if it carries nothing, the
calls are looks at the flag and a request, so files that these leave alone are as they were. Leaving a
conflict for later calls nobody. -/
theorem keeping_yours_applies_only_answer (outside : Collaborators (StateM σ)) (conflict : Conflict)
    (before after : Session × σ) (events : List Event) (result : Except ResolveError Outcome) :
    (Runs (acceptYours outside.recorded conflict) before events result after →
      (∀ workspace request response, .resolve workspace request (.ok response) ∈ events →
        events.filterMap Event.batch? =
          [(workspace, response.getOperations, .merge),
            (workspace, response.undoOperations, .force)].filter (fun batch => batch.2.1 ≠ [])) ∧
      ((∀ workspace request response, .resolve workspace request (.ok response) ∈ events →
          response = {}) →
        (∀ event ∈ events, event.batch? = none) ∧
        ∀ {β : Type} (view : σ → β), outside.Leaves Event.IsExchange view →
          view after.2 = view before.2)) ∧
    (Runs (skip conflict) before events result after →
      events = [] ∧ after.2 = before.2 ∧ result = .ok .skipped ∧
        after.1.registry = before.1.registry) := by
  refine ⟨fun hrun => ⟨fun workspace request response hmem => ?_, fun hnone => ?_⟩, fun hrun => ?_⟩
  · obtain ⟨preparing, got, undone, _, _, _, hanswered, rfl, -⟩ :=
      answered_of_runs .acceptYours hrun hmem
    have hresolution : request.resolution = .acceptYours :=
      (Option.some.inj hanswered.resolution).symm
    rw [hanswered.filterMap_batch?, hresolution]
    rfl
  · have hexchange : ∀ event ∈ events, event.IsExchange :=
      (runs_acceptYours hrun).isExchange hnone
    refine ⟨fun event hevent => (hexchange event hevent).batch?_eq_none, fun view hleaves => ?_⟩
    exact (happening_of_runs .acceptYours hrun).view_eq hleaves hexchange
  · have hworld : after.2 = worldAfter outside before.2 events :=
      (happening_of_runs .skip hrun).worldAfter_eq.symm
    obtain ⟨rfl, rfl, hafter⟩ := runs_skip hrun
    refine ⟨rfl, hworld, rfl, ?_⟩
    rw [hafter, Session.noteSkipped_registry]

/-- Where the answer wants something undone, that is applied; where it wants nothing, the files stay; and
leaving the conflict for later asks nobody. -/
theorem keeping_yours_applies_only_answer_undo :
    let workspace : Workspace := ⟨"main", "alice", .ofUri "http://server", []⟩
    let response : ResolveResponse :=
      { undoOperations := [{ itemId := 1, serverItem := "$/P/a.txt", version := 2 }] }
    let session : Session := { registry := .ofGroups [(workspace, [{ id := 7 }])] }
    let tree : FileTree := ⟨[(["a.txt"], .file "mine".toUTF8 true)]⟩
    (∃ events after,
      Runs (acceptYours (Collaborators.willing "" response).recorded { id := 7 }) (session, tree) events
        (.ok .resolved) after ∧
      events.filterMap Event.batch? = [(workspace, response.undoOperations, .force)]) ∧
    (∃ events after,
      Runs (acceptYours (Collaborators.willing "" {}).recorded { id := 7 }) (session, tree) events
        (.ok .resolved) after ∧ after.2 = tree) ∧
    ∃ events after,
      Runs (skip (m := Recorder FileTree) { id := 7 }) (session, tree) events (.ok .skipped) after ∧
        events = [] ∧ after.2 = tree := by
  intro workspace response session tree
  let request : ResolveRequest := { conflictId := 7, resolution := .acceptYours, newPath := none }
  have hundo : Runs (acceptYours (Collaborators.willing "" response).recorded { id := 7 })
      (session, tree) [.cancelled false, .resolve workspace request (.ok response),
        .apply workspace response.undoOperations .force none {}] (.ok .resolved) ({}, tree) := rfl
  have hplain : Runs (acceptYours (Collaborators.willing "" {}).recorded { id := 7 })
      (session, tree) [.cancelled false, .resolve workspace request (.ok {})] (.ok .resolved)
      ({}, tree) := rfl
  have hskip : Runs (skip (m := Recorder FileTree) { id := 7 }) (session, tree) [] (.ok .skipped)
      (session, tree) := rfl
  obtain ⟨happlied, -⟩ :=
    (keeping_yours_applies_only_answer (.willing "" response) _ _ _ _ _).1 hundo
  obtain ⟨-, hunchanged⟩ := (keeping_yours_applies_only_answer (.willing "" {}) _ _ _ _ _).1 hplain
  obtain ⟨-, hview⟩ := hunchanged (by simp)
  obtain ⟨hsilent, hworld, -⟩ :=
    (keeping_yours_applies_only_answer (.willing "" {}) _ _ _ _ _).2 hskip
  refine ⟨⟨_, _, hundo, happlied workspace request response (by simp)⟩, ⟨_, _, hplain, ?_⟩,
    _, _, hskip, hsilent, hworld⟩
  refine hview id fun event world world' _ hhappens => ?_
  cases event <;> exact (congrArg Prod.snd hhappens).symm

/-- Yours is kept, but the server wants the file undone, and whoever applies that overwrites it. -/
theorem keeping_yours_overwrites_file :
    let workspace : Workspace := ⟨"main", "alice", .ofUri "http://server", []⟩
    let conflict : Conflict :=
      { id := 7, sourceLocalItem := some "a", targetLocalItem := some "a" }
    let response : ResolveResponse :=
      { undoOperations :=
          [{ itemId := 1, targetLocalItem := some "a", serverItem := "$/P/a", version := 2 }] }
    let outside : Collaborators (StateM FileTree) :=
      { Collaborators.willing "" response with
        apply := fun _ operations _ _ => do
          for operation in operations do
            let _ ← FileTree.access.writeText ⟨operation.targetLocalItem.getD ""⟩ "theirs"
          return {}
        files := FileTree.access }
    let session : Session := { registry := .ofGroups [(workspace, [conflict])] }
    let tree : FileTree := ⟨[(["a"], .file "mine".toUTF8 true)]⟩
    ∃ events after,
      Runs (acceptYours outside.recorded conflict) (session, tree) events (.ok .resolved) after ∧
        (workspace, response.undoOperations, .force) ∈ events.filterMap Event.batch? ∧
        tree.read ⟨"a"⟩ = .ok "mine".toUTF8 ∧ after.2.read ⟨"a"⟩ = .ok "theirs".toUTF8 := by
  intro workspace conflict response outside session tree
  let request : ResolveRequest := { conflictId := 7, resolution := .acceptYours, newPath := none }
  have hrun : Runs (acceptYours outside.recorded conflict) (session, tree)
      [.cancelled false, .resolve workspace request (.ok response),
        .apply workspace response.undoOperations .force none {}] (.ok .resolved)
      ({}, ⟨[(["a"], .file "theirs".toUTF8 true)]⟩) := by
    unfold Runs
    cbv
  exact ⟨_, _, hrun, by simp [Event.batch?], by cbv, by cbv⟩

end ResolveM

end Reconcile
