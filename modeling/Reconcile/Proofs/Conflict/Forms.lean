import Reconcile.Conflict.Resolver

namespace Reconcile.ResolveM

variable {m m' : Type → Type} [Monad m] [Monad m']

/-- A relation between steps with two sets of collaborators that everything steps are made of keeps. -/
structure Congruence (outside : Collaborators m) (outside' : Collaborators m')
    (R : ∀ {α : Type}, ResolveM m α → ResolveM m' α → Prop) : Prop where
  of_pure {α : Type} (a : α) : R (pure a) (pure a)
  of_throw {α : Type} (error : ResolveError) : R (throw error : ResolveM m α) (throw error)
  of_get : R (get : ResolveM m Session) get
  of_modify (f : Session → Session) : R (modify f : ResolveM m PUnit) (modify f)
  bind {α β : Type} {step : ResolveM m α} {step' : ResolveM m' α} {next : α → ResolveM m β}
    {next' : α → ResolveM m' β} (hstep : R step step') (hnext : ∀ a, R (next a) (next' a)) :
    R (step >>= next) (step' >>= next')
  isCancelled : R (call outside.cancellation.isCancelled) (call outside'.cancellation.isCancelled)
  download (workspace : Workspace) (version itemId : Int) :
    R (call (outside.download workspace version itemId))
      (call (outside'.download workspace version itemId))
  resolve (workspace : Workspace) (request : ResolveRequest) :
    R (call (outside.resolve workspace request)) (call (outside'.resolve workspace request))
  apply (workspace : Workspace) (operations : List GetOperation) (mode : DownloadMode)
    (ledger : Option Ledger) :
    R (call (outside.apply workspace operations mode ledger))
      (call (outside'.apply workspace operations mode ledger))
  mergeName (workspace : Workspace) (conflict : Conflict) :
    R (call (outside.mergeName workspace conflict)) (call (outside'.mergeName workspace conflict))
  mergeContent (conflict : Conflict) (contents : MergeContents) (file name : LocalPath) :
    R (call (outside.mergeContent conflict contents file name))
      (call (outside'.mergeContent conflict contents file name))
  isFile (path : LocalPath) : R (call (outside.files.isFile path)) (call (outside'.files.isFile path))
  read (path : LocalPath) : R (call (outside.files.read path)) (call (outside'.files.read path))
  makeWritable (path : LocalPath) :
    R (call (outside.files.makeWritable path)) (call (outside'.files.makeWritable path))

namespace Congruence

variable {outside : Collaborators m} {outside' : Collaborators m'}
  {R : ∀ {α : Type}, ResolveM m α → ResolveM m' α → Prop}

omit [Monad m] [Monad m'] in
theorem ite {α : Type} {p : Prop} [Decidable p] {yes no : ResolveM m α} {yes' no' : ResolveM m' α}
    (hyes : R yes yes') (hno : R no no') :
    R (if p then yes else no) (if p then yes' else no') := by
  by_cases hp : p
  · rwa [if_pos hp, if_pos hp]
  · rwa [if_neg hp, if_neg hp]

/-- A call that can fail is a call whose result is handed on. -/
theorem attempt {ε α : Type} {toError : ε → ResolveError} {action : m (Except ε α)}
    {action' : m' (Except ε α)} (hR : Congruence outside outside' R)
    (hcall : R (call action) (call action')) :
    R (ResolveM.attempt toError action) (ResolveM.attempt toError action') := by
  refine hR.bind hcall fun answer => ?_
  cases answer with
  | ok a => exact hR.of_pure a
  | error error => exact hR.of_throw (toError error)

theorem checkCancelled (hR : Congruence outside outside' R) :
    R (ResolveM.checkCancelled outside) (ResolveM.checkCancelled outside') :=
  hR.bind hR.isCancelled fun _ => ite (hR.of_throw _) (hR.of_pure _)

theorem owner (hR : Congruence outside outside' R) (conflict : Conflict) :
    R (ResolveM.owner conflict) (ResolveM.owner conflict) := by
  refine hR.bind hR.of_get fun session => ?_
  cases session.registry.workspaceOf? conflict.id with
  | none => exact hR.of_throw _
  | some workspace => exact hR.of_pure workspace

/-- A download is a look at the flag and a call that can fail. -/
theorem loadContent (hR : Congruence outside outside' R) (workspace : Workspace) (path : LocalPath)
    (version itemId : Int) :
    R (ResolveM.download outside workspace path version itemId)
      (ResolveM.download outside' workspace path version itemId) := by
  refine hR.bind hR.checkCancelled fun _ => ?_
  exact hR.bind (hR.attempt (hR.download workspace version itemId)) fun content => hR.of_pure _

theorem localContent (hR : Congruence outside outside' R) (path : LocalPath) :
    R (ResolveM.localContent outside path) (ResolveM.localContent outside' path) := by
  refine hR.bind (hR.read path) fun answer => ?_
  cases answer with
  | ok content => exact hR.of_pure content
  | error error => cases error <;> first | exact hR.of_pure _ | exact hR.of_throw _

/-- Which contents are loaded is told by the conflict, not by the outside. -/
theorem contents (hR : Congruence outside outside' R) (workspace : Workspace) (conflict : Conflict)
    (path : LocalPath) :
    R (ResolveM.contents outside workspace conflict path)
      (ResolveM.contents outside' workspace conflict path) := by
  have hload := hR.loadContent workspace path
  have hsides : R (bothSides outside workspace conflict path)
      (bothSides outside' workspace conflict path) := by
    refine ite ?_ ?_
    · exact hR.bind (hload _ _) fun yours => hR.bind (hload _ _) fun theirs => hR.of_pure _
    · exact hR.bind (hR.localContent path) fun yours => hR.bind (hload _ _) fun theirs => hR.of_pure _
  refine ite (hR.bind hsides fun sides => ?_) (hR.of_pure _)
  exact hR.bind (hload _ _) fun base => hR.bind hR.checkCancelled fun _ => hR.of_pure _

/-- The name is asked for only where names are in conflict. -/
theorem mergedPath (hR : Congruence outside outside' R) (workspace : Workspace) (conflict : Conflict)
    (path : LocalPath) :
    R (ResolveM.mergedPath outside workspace conflict path)
      (ResolveM.mergedPath outside' workspace conflict path) := by
  refine ite (hR.bind (hR.attempt (hR.mergeName workspace conflict)) fun merged => ?_) (hR.of_pure _)
  cases merged with
  | none => exact hR.of_pure none
  | some merged =>
    dsimp only
    cases workspace.toLocal? merged with
    | none => exact hR.of_throw _
    | some name => exact hR.of_pure (some name)

/-- The file is made writable before its contents are merged. -/
theorem mergeContents (hR : Congruence outside outside' R) (conflict : Conflict)
    (contents : MergeContents) (path name : LocalPath) :
    R (ResolveM.mergeContents outside conflict contents path name)
      (ResolveM.mergeContents outside' conflict contents path name) := by
  refine ite (ite (hR.of_throw _) (hR.bind (hR.isFile path) fun there => ?_)) (hR.of_pure true)
  refine ite (hR.bind (hR.attempt (hR.makeWritable path)) fun _ => ?_) (hR.of_throw _)
  exact hR.attempt (hR.mergeContent conflict contents path name)

/-- An empty batch is not applied; any other one is a call and a change of the session. -/
theorem applyBatch (hR : Congruence outside outside' R) (workspace : Workspace)
    (resolution : Resolution) (mode : DownloadMode) (operations : List GetOperation) :
    R (ResolveM.applyBatch outside workspace resolution mode operations)
      (ResolveM.applyBatch outside' workspace resolution mode operations) := by
  refine ite (hR.of_pure []) (ite ?_ ?_)
  · exact hR.bind (hR.apply workspace operations mode none) fun report => hR.of_pure _
  · refine hR.bind hR.of_get fun session => ?_
    refine hR.bind (hR.apply workspace operations mode session.ledger) fun report => ?_
    exact hR.bind (hR.of_modify _) fun _ => hR.of_pure _

/-- A report is a request followed by the two batches of its answer. -/
theorem report (hR : Congruence outside outside' R) (workspace : Workspace) (conflict : Conflict)
    (resolution : Resolution) (path : LocalPath) (sendsPath : Bool) :
    R (ResolveM.report outside workspace conflict resolution path sendsPath)
      (ResolveM.report outside' workspace conflict resolution path sendsPath) := by
  refine hR.bind hR.checkCancelled fun _ => ?_
  refine hR.bind (hR.attempt (hR.resolve workspace _)) fun response => ?_
  refine hR.bind (hR.applyBatch workspace resolution _ _) fun getErrors => ?_
  refine hR.bind (hR.applyBatch workspace resolution _ _) fun undoErrors => ?_
  cases ResolveError.ofApplyErrors (getErrors ++ undoErrors) with
  | some error => exact hR.of_throw error
  | none => exact hR.of_modify _

/-- A merge is made of the steps above, whatever the outside answers. -/
theorem acceptMerge (hR : Congruence outside outside' R) (conflict : Conflict) :
    R (ResolveM.acceptMerge outside conflict) (ResolveM.acceptMerge outside' conflict) := by
  refine ite (hR.of_throw _) (hR.bind (hR.owner conflict) fun workspace => ?_)
  cases conflict.sourceOrTarget.map LocalPath.ofWire with
  | none => exact hR.of_throw _
  | some path =>
    refine hR.bind (hR.contents workspace conflict path) fun contents => ?_
    refine hR.bind (hR.mergedPath workspace conflict path) fun name => ?_
    cases name with
    | none => exact hR.of_pure _
    | some name =>
      refine hR.bind (hR.mergeContents conflict contents path name) fun merged => ?_
      exact ite (hR.bind (hR.report workspace conflict _ _ _) fun _ => hR.of_pure _) (hR.of_pure _)

/-- What is kept by the forms holds of everything that can be done about a conflict. -/
theorem run (hR : Congruence outside outside' R) (action : ConflictAction) (conflict : Conflict) :
    R (action.run outside conflict) (action.run outside' conflict) := by
  cases action with
  | acceptMerge => exact hR.acceptMerge conflict
  | acceptYours =>
    refine hR.bind (hR.owner conflict) fun workspace => ?_
    exact hR.bind (hR.report workspace conflict _ _ _) fun _ =>
      hR.bind (hR.of_modify _) fun _ => hR.of_pure _
  | acceptTheirs =>
    refine hR.bind (hR.owner conflict) fun workspace => ?_
    exact hR.bind (hR.report workspace conflict _ _ _) fun _ => hR.of_pure _
  | skip => exact hR.bind (hR.of_modify _) fun _ => hR.of_pure _

end Congruence

end Reconcile.ResolveM
