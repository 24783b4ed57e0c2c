import Mathlib.Data.List.Basic
import Reconcile.Proofs.Conflict.Loading

namespace Reconcile

/-- The session with all touched files in the ledger. -/
def Session.noteAll (session : Session) (touched : List (FileGroup × String)) : Session :=
  touched.foldl (fun session entry => session.note entry.1 entry.2) session

theorem Session.noteAll_registry (session : Session) (touched : List (FileGroup × String)) :
    (session.noteAll touched).registry = session.registry := by
  induction touched generalizing session with
  | nil => rfl
  | cons entry touched ih => exact ih (session.note entry.1 entry.2)

/-- The session in which a conflict is settled: a merge is in the ledger, and the conflict is gone
from the registry. -/
def Session.settle (session : Session) (conflict : Conflict) (resolution : Resolution)
    (path : LocalPath) : Session :=
  let noted := if resolution = .acceptMerge then session.note .merged path.display else session
  { noted with registry := noted.registry.remove conflict.id }

/-- Settling a conflict takes it out of the registry. -/
theorem Session.settle_registry (session : Session) (conflict : Conflict)
    (resolution : Resolution) (path : LocalPath) :
    (session.settle conflict resolution path).registry = session.registry.remove conflict.id := by
  unfold Session.settle
  split <;> rfl

namespace ResolveM

variable {σ α : Type} {outside : Collaborators (StateM σ)} {before after : Session × σ}
  {events : List Event}

/-- The ways in which a batch of operations is applied, from session to session. -/
inductive Batch (workspace : Workspace) (resolution : Resolution) (mode : DownloadMode)
    (operations : List GetOperation) :
    Session → List Event → List ApplyError → Session → Prop where
  | unneeded {session : Session} (hnone : operations = []) :
      Batch workspace resolution mode operations session [] [] session
  | merged {session : Session} (hsome : operations ≠ []) (hmerge : resolution = .acceptMerge)
      (report : ApplyReport) :
      Batch workspace resolution mode operations session
        [.apply workspace operations mode none report] report.errors session
  | noted {session : Session} (hsome : operations ≠ []) (hother : resolution ≠ .acceptMerge)
      (report : ApplyReport) :
      Batch workspace resolution mode operations session
        [.apply workspace operations mode session.ledger report] report.errors
        (session.noteAll report.touched)

/-- Applying a batch does not fail: what went wrong is handed on as a list. -/
theorem runs_applyBatch {workspace : Workspace} {resolution : Resolution} {mode : DownloadMode}
    {operations : List GetOperation} {result : Except ResolveError (List ApplyError)}
    (hrun : Runs (applyBatch outside.recorded workspace resolution mode operations) before events
      result after) :
    ∃ errors, result = .ok errors ∧
      Batch workspace resolution mode operations before.1 events errors after.1 := by
  unfold applyBatch at hrun
  split at hrun
  · rename_i hnone
    obtain ⟨rfl, rfl, rfl⟩ := runs_pure_iff.mp hrun
    exact ⟨[], rfl, .unneeded hnone⟩
  · rename_i hsome
    split at hrun
    · rename_i hmerge
      obtain ⟨report, world, rest, -, rfl, hreport⟩ := runs_call_bind hrun
      obtain ⟨rfl, rfl, rfl⟩ := runs_pure_iff.mp hreport
      exact ⟨report.errors, rfl, .merged hsome hmerge report⟩
    · rename_i hother
      rw [runs_get_bind_iff] at hrun
      obtain ⟨report, world, rest, -, rfl, hreport⟩ := runs_call_bind hrun
      rw [runs_modify_bind_iff] at hreport
      obtain ⟨rfl, rfl, rfl⟩ := runs_pure_iff.mp hreport
      exact ⟨report.errors, rfl, .noted hsome hother report⟩

/-- A batch stands at the head of the record, and the rest is run with its failures. -/
theorem runs_applyBatch_bind {workspace : Workspace} {resolution : Resolution}
    {mode : DownloadMode} {operations : List GetOperation}
    {next : List ApplyError → ResolveM (Recorder σ) α} {result : Except ResolveError α}
    (hrun : Runs (applyBatch outside.recorded workspace resolution mode operations >>= next) before
      events result after) :
    ∃ errors middle first rest,
      Batch workspace resolution mode operations before.1 first errors middle.1 ∧
        Runs (next errors) middle rest result after ∧ events = first ++ rest := by
  rw [runs_bind_iff] at hrun
  obtain ⟨error, hbatch, -⟩ | ⟨errors, middle, first, rest, hbatch, hnext, rfl⟩ := hrun
  · obtain ⟨errors, herrors, -⟩ := runs_applyBatch hbatch
    cases herrors
  · obtain ⟨given, herrors, hbatch⟩ := runs_applyBatch hbatch
    cases herrors
    exact ⟨errors, middle, first, rest, hbatch, hnext, rfl⟩

/-- Applying a batch leaves the registry alone. -/
theorem Batch.registry_eq {workspace : Workspace} {resolution : Resolution} {mode : DownloadMode}
    {operations : List GetOperation} {start finish : Session} {errors : List ApplyError}
    (hbatch : Batch workspace resolution mode operations start events errors finish) :
    finish.registry = start.registry := by
  cases hbatch with
  | unneeded => rfl
  | merged => rfl
  | noted _ _ report => exact start.noteAll_registry report.touched

/-- Applying a batch reports nothing. -/
theorem Batch.not_isReport {workspace : Workspace} {resolution : Resolution} {mode : DownloadMode}
    {operations : List GetOperation} {start finish : Session} {errors : List ApplyError}
    (hbatch : Batch workspace resolution mode operations start events errors finish) :
    ∀ event ∈ events, ¬ event.IsReport := by
  cases hbatch <;> simp [Event.IsReport]

/-- What is sent to the server about a conflict. -/
def requestFor (conflict : Conflict) (resolution : Resolution) (path : LocalPath)
    (sendsPath : Bool) : ResolveRequest :=
  { conflictId := conflict.id, resolution, newPath := if sendsPath then some path.toWire else none }

/-- The ways in which a resolution is reported, from session to session. -/
inductive Reporting (workspace : Workspace) (conflict : Conflict) (resolution : Resolution)
    (path : LocalPath) (sendsPath : Bool) :
    Session → List Event → Except ResolveError Unit → Session → Prop where
  | stopped {session : Session} :
      Reporting workspace conflict resolution path sendsPath session [.cancelled true]
        (.error .cancelled) session
  | refused {session : Session} (error : RemoteError) :
      Reporting workspace conflict resolution path sendsPath session
        [.cancelled false,
          .resolve workspace (requestFor conflict resolution path sendsPath) (.error error)]
        (.error (.ofRemote error)) session
  | broken {session middle finish : Session} {response : ResolveResponse}
      {got undone : List Event} {getErrors undoErrors : List ApplyError} {error : ResolveError}
      (hget : Batch workspace resolution (downloadMode resolution) response.getOperations session
        got getErrors middle)
      (hundo : Batch workspace resolution .force response.undoOperations middle undone undoErrors
        finish)
      (herrors : ResolveError.ofApplyErrors (getErrors ++ undoErrors) = some error) :
      Reporting workspace conflict resolution path sendsPath session
        (.cancelled false ::
          .resolve workspace (requestFor conflict resolution path sendsPath) (.ok response) ::
          (got ++ undone))
        (.error error) finish
  | done {session middle finish : Session} {response : ResolveResponse}
      {got undone : List Event}
      (hget : Batch workspace resolution (downloadMode resolution) response.getOperations session
        got [] middle)
      (hundo : Batch workspace resolution .force response.undoOperations middle undone [] finish) :
      Reporting workspace conflict resolution path sendsPath session
        (.cancelled false ::
          .resolve workspace (requestFor conflict resolution path sendsPath) (.ok response) ::
          (got ++ undone))
        (.ok ()) (finish.settle conflict resolution path)

/-- A report goes one of the ways that are listed for it. -/
theorem runs_report {workspace : Workspace} {conflict : Conflict} {resolution : Resolution}
    {path : LocalPath} {sendsPath : Bool} {result : Except ResolveError Unit}
    (hrun : Runs (report outside.recorded workspace conflict resolution path sendsPath) before events
      result after) :
    Reporting workspace conflict resolution path sendsPath before.1 events result after.1 := by
  unfold report at hrun
  rw [runs_bind_iff] at hrun
  obtain ⟨error, hcheck, rfl⟩ | ⟨_, checked, first, rest, hcheck, hask, rfl⟩ := hrun
  · obtain ⟨world, rfl, ⟨-, rfl, herror⟩ | ⟨-, -, hok⟩⟩ := runs_checkCancelled hcheck
    · cases herror
      exact .stopped
    · cases hok
  obtain ⟨world, rfl, ⟨-, -, herror⟩ | ⟨-, rfl, -⟩⟩ := runs_checkCancelled hcheck
  · cases herror
  obtain ⟨error, world, -, rfl, rfl, rfl⟩ | ⟨response, world, rest, -, rfl, hanswer⟩ :=
    runs_attempt_bind hask
  · exact .refused error
  obtain ⟨getErrors, middle, got, rest, hget, hgot, rfl⟩ := runs_applyBatch_bind hanswer
  obtain ⟨undoErrors, finish, undone, rest, hundo, hundone, rfl⟩ := runs_applyBatch_bind hgot
  split at hundone
  · rename_i error herrors
    obtain ⟨rfl, rfl, rfl⟩ := runs_throw_iff.mp hundone
    rw [List.append_nil]
    exact .broken hget hundo herrors
  · rename_i herrors
    obtain ⟨rfl, rfl⟩ := List.append_eq_nil_iff.mp
      (ResolveError.ofApplyErrors_eq_none_iff.mp herrors)
    obtain ⟨rfl, rfl, rfl⟩ := runs_modify_iff.mp hundone
    rw [List.append_nil]
    exact .done hget hundo

/-- A report that succeeds takes the conflict out of the registry, and no other one touches it. -/
theorem Reporting.registry_eq {workspace : Workspace} {conflict : Conflict}
    {resolution : Resolution} {path : LocalPath} {sendsPath : Bool} {start finish : Session}
    {ending : Except ResolveError Unit}
    (hreport : Reporting workspace conflict resolution path sendsPath start events ending finish) :
    finish.registry =
      match ending with
      | .ok () => start.registry.remove conflict.id
      | .error _ => start.registry := by
  cases hreport with
  | stopped => rfl
  | refused => rfl
  | broken hget hundo => exact hundo.registry_eq.trans hget.registry_eq
  | done hget hundo => rw [Session.settle_registry, hundo.registry_eq, hget.registry_eq]

/-- In a record with one call of a kind, any place of such a call is the place of that one. -/
theorem eq_of_sole {kind : Event → Prop} {earlier later first rest : List Event}
    {event other : Event} (hearlier : ∀ event ∈ earlier, ¬ kind event)
    (hlater : ∀ event ∈ later, ¬ kind event) (hother : kind other)
    (heq : earlier ++ event :: later = first ++ other :: rest) :
    first = earlier ∧ other = event ∧ rest = later := by
  obtain ⟨hfirst, hevent, hrest⟩ := (List.append_cons_inj_of_notMem
    (fun hmem => hearlier _ hmem hother) (fun hmem => hlater _ hmem hother)).mp heq
  exact ⟨hfirst.symm, hevent.symm, hrest.symm⟩

/-- A report makes one request at most, right after a look at the cancellation. -/
theorem Reporting.sole_report {workspace : Workspace} {conflict : Conflict}
    {resolution : Resolution} {path : LocalPath} {sendsPath : Bool} {start finish : Session}
    {ending : Except ResolveError Unit}
    (hreport : Reporting workspace conflict resolution path sendsPath start events ending finish) :
    (∀ event ∈ events, ¬ event.IsReport) ∨
      ∃ answer applied, events = .cancelled false ::
          .resolve workspace (requestFor conflict resolution path sendsPath) answer :: applied ∧
        ∀ event ∈ applied, ¬ event.IsReport := by
  cases hreport with
  | stopped => exact Or.inl (by simp [Event.IsReport])
  | refused => exact Or.inr ⟨_, [], rfl, by simp⟩
  | broken hget hundo =>
    exact Or.inr ⟨_, _, rfl, List.forall_mem_append.mpr ⟨hget.not_isReport, hundo.not_isReport⟩⟩
  | done hget hundo =>
    exact Or.inr ⟨_, _, rfl, List.forall_mem_append.mpr ⟨hget.not_isReport, hundo.not_isReport⟩⟩

end ResolveM

end Reconcile
