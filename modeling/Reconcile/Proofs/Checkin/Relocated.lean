import Reconcile.Glob
import Reconcile.Proofs.Policy.Forbidden
import Reconcile.Proofs.Workspace.Checkout

namespace Reconcile

variable {n : Nat}

namespace Discovery

/-- The files of a single workspace belong to its server. -/
theorem serverFiles_singleton (workspace : Workspace) (files : List LocalPath) :
    serverFiles [workspace] files =
      if workspace.mapped files = [] then [] else [⟨workspace.server, workspace.mapped files⟩] := by
  rw [serverFiles, Workspace.partition_singleton]
  split
  · rfl
  · simp [Sorted.ofList, Sorted.insert]

end Discovery

namespace Mapping

/-- Every placed file is mapped to its server path, wherever the layout puts it. -/
theorem mapped_checkout (mapping : Mapping n) (layout : Layout n) (placed : List (PlacedFile n)) :
    (mapping.checkout layout).mapped (placed.map layout.localPath) =
      placed.map fun file => ⟨layout.localPath file, mapping.serverPath file⟩ := by
  rw [Workspace.mapped, List.filterMap_map, ← List.filterMap_eq_map]
  refine List.filterMap_congr fun file _ => ?_
  rw [Function.comp_apply, mapping.toServer?_checkout]
  rfl

/-- The files as their server is asked about them. -/
def group (mapping : Mapping n) (placed : List (PlacedFile n)) (layout : Layout n) :
    Discovery.ServerFiles :=
  ⟨mapping.server, placed.map fun file => ⟨layout.localPath file, mapping.serverPath file⟩⟩

/-- The files of a checkout are one group, with the same server paths in every layout. -/
theorem serverFiles_checkout (mapping : Mapping n) (layout : Layout n) (placed : List (PlacedFile n)) :
    Discovery.serverFiles [mapping.checkout layout] (placed.map layout.localPath) =
      if placed = [] then [] else [mapping.group placed layout] := by
  rw [Discovery.serverFiles_singleton, mapped_checkout]
  simp only [List.map_eq_nil_iff]
  rfl

/-- The team projects of the files. -/
def projects (mapping : Mapping n) (placed : List (PlacedFile n)) : List ServerPath :=
  Sorted.ofList (fun a b => decide (a < b)) (placed.map fun file => (mapping.serverPath file).project)

/-- The team projects do not depend on the layout. -/
theorem projects_group (mapping : Mapping n) (layout : Layout n) (placed : List (PlacedFile n)) :
    (mapping.group placed layout).projects = mapping.projects placed := by
  rw [Discovery.ServerFiles.projects, group, List.map_map, Function.comp_def, projects]

end Mapping

namespace Discovery

/-- What a server tells about projects, whatever the files are: the notes, the policies, and the line about
policies that could not be loaded. -/
def told (answers : Answers) (defaults : Compatibility) (server : Server) (projects : List ServerPath) :
    Except CheckinError (List CheckinNote × ProjectTable × Option String) :=
  match answers.noteDefinitions server projects with
  | .error error => .error (.ofRemote error)
  | .ok definitions =>
    let (result, table) := Id.run <| (loadPolicies answers.queries server projects defaults).run.run
      (projects.map fun project => (project, { compatibility := defaults }))
    match result with
    | .ok () => .ok (CheckinNote.ofDefinitions definitions, table, none)
    | .error (.remote .cancelled) => .error .cancelled
    | .error problem =>
      let line := s!"{server.presentable}: {problem.message}"
      .ok (CheckinNote.ofDefinitions definitions, table, some line)

/-- What is found out about a server depends on its team projects, not on its files. -/
theorem discoverServer_eq_told (answers : Answers) (defaults : Compatibility) (group : ServerFiles) :
    Id.run (discoverServer answers.queries .never defaults group).run =
      (told answers defaults group.server group.projects).map fun (notes, projects, line) =>
        ({ server := group.server, notes, files := group.files.map (·.localPath)
           serverPaths := group.files.map (·.serverPath), projects }, line) := by
  have hnotes : (answers.queries (m := Id)).noteDefinitions group.server group.projects =
      pure (answers.noteDefinitions group.server group.projects) := rfl
  obtain ⟨ending, hload⟩ : ∃ ending,
      (loadPolicies answers.queries group.server group.projects defaults).run.run
        (group.projects.map fun project => (project, { compatibility := defaults })) =
          (pure ending : Id _) := ⟨_, rfl⟩
  rw [discoverServer, told]
  dsimp only
  rw [hnotes, hload]
  cases answers.noteDefinitions group.server group.projects with
  | error error => rfl
  | ok definitions =>
    obtain ⟨result, table⟩ := ending
    cases result with
    | ok => rfl
    | error problem =>
      cases problem with
      | unreadable error => rfl
      | remote error =>
        -- A cancelled query ends the discovery, any other problem is only noted.
        cases error with
        | cancelled => rfl
        | transport | server | unsupported => rfl

end Discovery

/-- Starts a check-in and evaluates it by the policies that are always installed. -/
def judgeCheckin {m : Type → Type} [Monad m] (fits : PathMatcher) (queries : Queries m)
    (cancellation : Cancellation m) (workspaces : List Workspace) (files : List LocalPath)
    (defaults : Compatibility) : ExceptT CheckinError m CheckinAttempt := do
  let started ← startCheckin queries cancellation workspaces files defaults
  let (result, evaluated) ← (started.evaluate (.builtins fits cancellation) cancellation : m _)
  match result with
  | .ok () => return evaluated
  | .error error => throw error

namespace Mapping

/-- What a descriptor adds for files in a layout. One that lists forbidden patterns adds a failure for
each file that it flags; no other one knows where the files are. -/
def failures (fits : PathMatcher) (mapping : Mapping n) (placed : List (PlacedFile n))
    (layout : Layout n) (nonInstalled : Bool) (descriptor : PolicyDescriptor) : List PolicyFailure :=
  match ForbiddenPaths.patterns? descriptor with
  | some patterns =>
    (ForbiddenPaths.flags fits patterns mapping.serverPath placed).map fun flag =>
      ForbiddenPaths.failure (layout.localPath flag.file) flag.pattern
  | none =>
    let context : CheckinContext := { files := [], serverPaths := [], commitMessage := "", workItems := .empty }
    (PolicyRegistry.builtins fits .never).added nonInstalled context descriptor

/-- The attempt to check in files from a layout, before it is evaluated. Only the local paths tell where
the files are. -/
def started (mapping : Mapping n) (placed : List (PlacedFile n)) (notes : List CheckinNote)
    (projects : ProjectTable) (loadError : Option String) (layout : Layout n) : CheckinAttempt :=
  let data : ServerAttempt :=
    { notes
      missingNotes := some (CheckinNote.missingNames notes)
      files := placed.map layout.localPath
      serverPaths := placed.map mapping.serverPath
      projects }
  { servers := [(mapping.server, data)], loadError }

/-- The attempt once it is evaluated. -/
def judged (fits : PathMatcher) (mapping : Mapping n) (placed : List (PlacedFile n))
    (notes : List CheckinNote) (projects : ProjectTable) (loadError : Option String) (layout : Layout n) : CheckinAttempt :=
  let failures := projects.flatMap fun (_, project) =>
    project.policies.flatMap (mapping.failures fits placed layout project.compatibility.nonInstalled)
  let before := mapping.started placed notes projects loadError layout
  { before with
    servers := before.servers.map fun (server, data) => (server, { data with failures := some failures })
    evaluated := true }

/-- A policy sees the files by their server paths, so its failures are those of the mapping. -/
theorem added_eq_failures (fits : PathMatcher) (mapping : Mapping n) (placed : List (PlacedFile n))
    (layout : Layout n) (nonInstalled : Bool) (descriptor : PolicyDescriptor) :
    (PolicyRegistry.builtins fits .never).added nonInstalled
        ⟨placed.map layout.localPath, placed.map mapping.serverPath, "", .empty⟩ descriptor =
      mapping.failures fits placed layout nonInstalled descriptor := by
  rw [failures]
  cases hpatterns : ForbiddenPaths.patterns? descriptor with
  | some patterns =>
    rw [PolicyRegistry.added_builtins_of_patterns? hpatterns, CheckinContext.pairs_map,
      ForbiddenPaths.flatMap_verdict]
  | none => exact PolicyRegistry.added_builtins_of_patterns?_eq_none hpatterns rfl rfl

/-- Evaluating a start judges it. -/
theorem evaluatedBy_started (fits : PathMatcher) (mapping : Mapping n) (placed : List (PlacedFile n))
    (notes : List CheckinNote) (projects : ProjectTable) (loadError : Option String)
    (layout : Layout n) :
    (mapping.started placed notes projects loadError layout).evaluatedBy (.builtins fits .never) =
      mapping.judged fits placed notes projects loadError layout := by
  have hproject (project : ProjectPolicies) :
      (PolicyRegistry.builtins fits .never).projectFailures
          ⟨placed.map layout.localPath, placed.map mapping.serverPath, "", .empty⟩ project =
        project.policies.flatMap (mapping.failures fits placed layout project.compatibility.nonInstalled) := by
    rw [PolicyRegistry.projectFailures_builtins]
    exact congrArg project.policies.flatMap (funext (mapping.added_eq_failures fits placed layout _))
  rw [judged]
  simp only [← hproject]
  rfl

/-- All failures, put together over servers and projects, are those of the mapping. -/
theorem allFailures_judged (fits : PathMatcher) (mapping : Mapping n) (placed : List (PlacedFile n))
    (notes : List CheckinNote) (projects : ProjectTable) (loadError : Option String)
    (layout : Layout n) :
    (mapping.judged fits placed notes projects loadError layout).allFailures =
      projects.flatMap fun (_, project) =>
        project.policies.flatMap (mapping.failures fits placed layout project.compatibility.nonInstalled) :=
  List.append_nil _

/-- What a check-in of files comes to in every layout. -/
def outcome (answers : Answers) (defaults : Compatibility) (mapping : Mapping n)
    (placed : List (PlacedFile n)) :
    Except CheckinError (List CheckinNote × ProjectTable × Option String) :=
  if placed = [] then .error .noMappings
  else Discovery.told answers defaults mapping.server (mapping.projects placed)

/-- A check-in starts with an outcome that the layout has no part in. -/
theorem startCheckin_eq_outcome (answers : Answers) (defaults : Compatibility) (mapping : Mapping n)
    (placed : List (PlacedFile n)) (layout : Layout n) :
    Id.run (startCheckin answers.queries .never [mapping.checkout layout]
        (placed.map layout.localPath) defaults).run =
      (mapping.outcome answers defaults placed).map fun (notes, projects, loadError) =>
        mapping.started placed notes projects loadError layout := by
  rw [startCheckin, discover, serverFiles_checkout, outcome]
  by_cases hnone : placed = []
  · rw [if_pos hnone, if_pos hnone]
    rfl
  have hserver : (mapping.group placed layout).server = mapping.server := rfl
  have hlocal : (mapping.group placed layout).files.map (·.localPath) = placed.map layout.localPath :=
    List.map_map ..
  have hitems : (mapping.group placed layout).files.map (·.serverPath) =
      placed.map mapping.serverPath := List.map_map ..
  have hfound : Discovery.discoverServer answers.queries .never defaults (mapping.group placed layout) =
      _ := Discovery.discoverServer_eq_told answers defaults _
  rw [hlocal, hitems, hserver, projects_group] at hfound
  rw [if_neg hnone, if_neg hnone]
  dsimp only
  rw [Discovery.discoverServers, hfound]
  cases Discovery.told answers defaults mapping.server (mapping.projects placed) with
  | error error => rfl
  | ok found =>
    obtain ⟨notes, projects, _ | line⟩ := found
    · rfl
    · have hline : "\n".intercalate [line] = line := by simp
      exact congrArg (fun line => Except.ok (mapping.started placed notes projects (some line) layout))
        hline

/-- The start and the evaluation put together: the layout shows in nothing but local paths. -/
theorem judgeCheckin_eq_outcome (fits : PathMatcher) (answers : Answers) (defaults : Compatibility)
    (mapping : Mapping n) (placed : List (PlacedFile n)) (layout : Layout n) :
    Id.run (judgeCheckin fits answers.queries .never [mapping.checkout layout]
        (placed.map layout.localPath) defaults).run =
      (mapping.outcome answers defaults placed).map fun (notes, projects, loadError) =>
        mapping.judged fits placed notes projects loadError layout := by
  have hstart : startCheckin answers.queries .never [mapping.checkout layout]
      (placed.map layout.localPath) defaults = _ :=
    mapping.startCheckin_eq_outcome answers defaults placed layout
  rw [judgeCheckin, hstart]
  cases mapping.outcome answers defaults placed with
  | error error => rfl
  | ok found =>
    obtain ⟨notes, projects, loadError⟩ := found
    have hevaluate := (mapping.started placed notes projects loadError layout).evaluate_builtins fits
    rw [evaluatedBy_started] at hevaluate
    change (let ending := Id.run ((mapping.started placed notes projects loadError layout).evaluate
      (.builtins fits .never) .never)
      match ending.1 with
      | .ok () => Except.ok ending.2
      | .error error => .error error) = _
    rw [hevaluate]
    rfl

end Mapping

variable {σ : Type} {queries : Queries (StateM σ)} {answers : Answers}
  {cancellation : Cancellation (StateM σ)}

/-- The world in which the servers are asked has no part in the outcome. -/
theorem endsAs_judgeCheckin (fits : PathMatcher) (hgive : queries.Give answers) (hflag : cancellation.Never)
    (workspaces : List Workspace) (files : List LocalPath) (defaults : Compatibility) :
    Discovery.EndsAs (judgeCheckin fits queries cancellation workspaces files defaults)
      (judgeCheckin fits answers.queries .never workspaces files defaults) := by
  refine .bind (Discovery.endsAs_startCheckin hgive hflag workspaces files defaults) fun started => ?_
  have hevaluate := started.gives_evaluate (PolicyRegistry.give_builtins fits hflag) hflag
  refine .bind (.of_lift hevaluate) fun (result, evaluated) => ?_
  cases result with
  | ok _ => exact .of_pure
  | error error => exact .of_throw

/-- While nobody cancels and the servers answer alike, the same files are checked in with the same outcome
from any two layouts. Where policies can be evaluated, both attempts tell the same, and each descriptor
with forbidden patterns flags the same files with the same patterns. Each file is flagged once, if at all,
by the first pattern that its path inside the team project fits, whatever it means to fit a pattern. -/
theorem checkin_relocated (fits : PathMatcher) (hgive : queries.Give answers)
    (hflag : cancellation.Never) (defaults : Compatibility) (mapping : Mapping n) (placed : List (PlacedFile n))
    (layout layout' : Layout n) (world world' : σ) :
    let files (layout : Layout n) := placed.map layout.localPath
    EndsAlike
        (fun attempt attempt' => ∃ notes projects loadError,
          attempt = mapping.judged fits placed notes projects loadError layout ∧
          attempt' = mapping.judged fits placed notes projects loadError layout')
        ((judgeCheckin fits queries cancellation [mapping.checkout layout] (files layout) defaults).run.run
          world).1
        ((judgeCheckin fits queries cancellation [mapping.checkout layout'] (files layout') defaults).run.run
          world').1 ∧
      ∀ patterns, let flags := ForbiddenPaths.flags fits patterns mapping.serverPath placed
        flags.Pairwise (·.position < ·.position) ∧
        ∀ flag, flag ∈ flags ↔ placed[flag.position]? = some flag.file ∧
          ∃ before after, patterns = before ++ flag.pattern :: after ∧
            ForbiddenPaths.Fits fits flag.pattern (mapping.serverPath flag.file).insideProject ∧
            ∀ other ∈ before, ¬ ForbiddenPaths.Fits fits other (mapping.serverPath flag.file).insideProject := by
  intro files
  refine ⟨?_, fun patterns => ⟨ForbiddenPaths.pairwise_flags _ _ _ _, fun _ =>
    ForbiddenPaths.mem_flags_iff⟩⟩
  have hends (layout : Layout n) (world : σ) :
      ((judgeCheckin fits queries cancellation [mapping.checkout layout] (files layout) defaults).run.run
        world).1 = (mapping.outcome answers defaults placed).map fun (notes, projects, loadError) =>
          mapping.judged fits placed notes projects loadError layout :=
    (endsAs_judgeCheckin fits hgive hflag _ _ defaults world).trans
      (mapping.judgeCheckin_eq_outcome fits answers defaults placed layout)
  rw [hends layout, hends layout']
  cases mapping.outcome answers defaults placed with
  | error error => exact .error error
  | ok found => exact .ok ⟨_, _, _, rfl, rfl⟩

/-- Two folders that lie side by side in one checkout and far apart in another. -/
theorem checkin_relocated_two_folders :
    let answers : Answers :=
      { noteDefinitions := fun _ _ => .ok []
        annotations := fun _ kind _ => match kind with
          | .statefulPolicies => .ok [⟨"$/P", some <|
              "<policy-annotation version=\"1\"><policy-definition>" ++
                "<policy-type id=\"tfvc.builtin.forbidden-paths\" name=\"Forbidden Paths\"/>" ++
                "<configuration><patterns><pattern>bin/**</pattern><pattern>**/*.class</pattern>" ++
                "</patterns></configuration></policy-definition></policy-annotation>"⟩]
          | _ => .ok [] }
    let mapping : Mapping 2 :=
      { name := "main", owner := "alice", server := .ofUri "http://b"
        folder := fun i => if i = 0 then "$/P/src" else "$/P/bin" }
    let placed : List (PlacedFile 2) :=
      [{ folder := 0, names := ["A.java"] }, { folder := 1, names := ["A.class"] },
        { folder := 0, names := ["x", "B.class"] }]
    let near : Layout 2 := { root := fun i => if i = 0 then ⟨"/w/src"⟩ else ⟨"/w/bin"⟩ }
    let far : Layout 2 := { root := fun i => if i = 0 then ⟨"code"⟩ else ⟨"/out/./P"⟩ }
    let checkin (layout : Layout 2) :=
      ((judgeCheckin (m := StateM Unit) Glob.fits answers.queries .never [mapping.checkout layout]
        (placed.map layout.localPath) {}).run.run ()).1
    ∃ attempt attempt', checkin near = .ok attempt ∧ checkin far = .ok attempt' ∧
      attempt.allFailures.map (·.message) =
        ["File '/w/bin/A.class' must not be checked in", "File '/w/src/x/B.class' must not be checked in"] ∧
      attempt'.allFailures.map (·.message) =
        ["File '/out/./P/A.class' must not be checked in", "File 'code/x/B.class' must not be checked in"] := by
  intro answers mapping placed near far checkin
  obtain ⟨hends, -⟩ := checkin_relocated (σ := Unit) Glob.fits answers.give_queries Cancellation.never_never {}
    mapping placed near far () ()
  let patterns := "<patterns><pattern>bin/**</pattern><pattern>**/*.class</pattern></patterns>"
  let descriptor : PolicyDescriptor :=
    { policyType := { id := "tfvc.builtin.forbidden-paths", name := "Forbidden Paths" }, enabled := true
      format := .stateful patterns }
  have hfound : (checkin near).map (·.servers.map (·.2.projects)) =
      .ok [[("$/P", { compatibility := {}, policies := [descriptor] })]] := by decide +kernel
  obtain ⟨error, herror, -⟩ | ⟨attempt, attempt', hnear, hfar, notes, projects, loadError, rfl, rfl⟩ :=
    hends.cases
  · cases hfound.symm.trans (congrArg (Except.map _) herror)
  · -- The failures in the other layout follow from what was found in this one.
    have hprojects : [projects] = [[("$/P", { compatibility := {}, policies := [descriptor] })]] :=
      Except.ok.inj ((congrArg (Except.map _) hnear).symm.trans hfound)
    obtain rfl := List.singleton_inj.mp hprojects
    refine ⟨_, _, hnear, hfar, ?_, ?_⟩
    · rw [Mapping.allFailures_judged]
      decide +kernel
    · rw [Mapping.allFailures_judged]
      decide +kernel

end Reconcile
