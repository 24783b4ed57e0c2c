import Reconcile.Proofs.Checkin.Discovered
import Reconcile.Proofs.Checkin.Evaluating
import Reconcile.Remote.Snapshot

namespace Reconcile

/-- Something that is done with a pending check-in. -/
inductive CheckinStep (m : Type → Type) where
  | setNote (server : Server) (name value : String)
  | validateNotes
  | setMessage (message : String)
  | setWorkItem (server : Server) (item : WorkItem) (action : WorkItemAction)
  | removeWorkItem (server : Server) (id : Int)
  /-- Puts other work items in place of those of a server. -/
  | assignWorkItems (server : Server) (items : WorkItems)
  | setOverride (reason : Option String)
  /-- Goes on with a copy. -/
  | copy
  | evaluate (registry : PolicyRegistry m) (cancellation : Cancellation m)

/-- The attempt after a step; an evaluation may have ended early. -/
def CheckinStep.run [Monad m] (attempt : CheckinAttempt) : CheckinStep m → m CheckinAttempt
  | setNote server name value => pure (attempt.setNote server name value)
  | validateNotes => pure attempt.validateNotes
  | setMessage message => pure { attempt with commitMessage := message }
  | setWorkItem server item action => pure (attempt.setWorkItem server item action)
  | removeWorkItem server id => pure (attempt.removeWorkItem server id)
  | assignWorkItems server items =>
    pure (attempt.modifyServer server fun data => { data with workItems := items })
  | setOverride reason => pure { attempt with overrideReason := reason }
  | copy => pure attempt.copy
  | evaluate registry cancellation => do
    let (_, attempt) ← attempt.evaluate registry cancellation
    return attempt

/-- The attempts that a start and any steps after it lead to, each in a world of its own. -/
inductive CheckinAttempt.Reachable : CheckinAttempt → Prop
  | start {σ : Type} {queries : Queries (StateM σ)} {cancellation : Cancellation (StateM σ)}
      {workspaces : List Workspace} {files : List LocalPath} {defaults : Compatibility}
      {world world' : σ} {attempt : CheckinAttempt}
      (hstart : (startCheckin queries cancellation workspaces files defaults).run.run world =
        (.ok attempt, world')) : Reachable attempt
  | step {σ : Type} {attempt : CheckinAttempt} (hattempt : Reachable attempt)
      (step : CheckinStep (StateM σ)) (world : σ) : Reachable ((step.run attempt).run world).1

namespace CheckinStep

variable {σ : Type} {m : Type → Type}

/-- The notes of a server after a step. -/
def notesAfter (server : Server) (notes : List CheckinNote) : CheckinStep m → List CheckinNote
  | setNote other name value =>
    if server = other then CheckinNote.setFirst name value notes else notes
  | _ => notes

/-- The names of missing notes that are known of a server after a step. -/
def missingAfter (notes : List CheckinNote) (missing : Option (List String)) :
    CheckinStep m → Option (List String)
  | validateNotes => some (CheckinNote.missingNames notes)
  | _ => missing

/-- Whether a step evaluates policies. -/
def isEvaluation : CheckinStep m → Bool
  | evaluate _ _ => true
  | _ => false

/-- An evaluation is one with some policies and some flag. -/
theorem exists_of_isEvaluation {step : CheckinStep m} (hstep : step.isEvaluation = true) :
    ∃ registry cancellation, step = evaluate registry cancellation := by
  cases step <;> cases hstep
  exact ⟨_, _, rfl⟩

/-- What a step makes of the state of a server. -/
structure Moves (step : CheckinStep m) (before after : Server × ServerAttempt) : Prop where
  server : after.1 = before.1
  projects : after.2.projects = before.2.projects
  notes : after.2.notes = step.notesAfter before.1 before.2.notes
  missingNotes : after.2.missingNotes = step.missingAfter before.2.notes before.2.missingNotes
  failures : step.isEvaluation = false → after.2.failures = before.2.failures

/-- A change to one server is a move of that server, and the others stay. -/
theorem moves_modifyServer {step : CheckinStep m} {attempt : CheckinAttempt} {server : Server}
    {f : ServerAttempt → ServerAttempt}
    (hhere : ∀ data, step.Moves (server, data) (server, f data))
    (hother : ∀ other data, other ≠ server → step.Moves (other, data) (other, data)) :
    List.Forall₂ step.Moves attempt.servers (attempt.modifyServer server f).servers := by
  rw [CheckinAttempt.modifyServer, List.forall₂_map_right_iff, List.forall₂_same]
  rintro ⟨other, data⟩ -
  dsimp only
  split
  case isTrue heq => exact heq ▸ hhere data
  case isFalse hne => exact hother other data hne

/-- An evaluation renews the failures of the servers it passes and keeps the rest. -/
theorem moves_evaluate {registry : PolicyRegistry (StateM σ)} {cancellation : Cancellation (StateM σ)}
    {attempt after : CheckinAttempt} {result : Except CheckinError Unit} {world world' : σ}
    (hrun : (attempt.evaluate registry cancellation).run world = ((result, after), world')) :
    List.Forall₂ (evaluate registry cancellation).Moves attempt.servers after.servers := by
  obtain ⟨passed, renewed, rest, hservers, hrenewed, -, rfl⟩ := CheckinAttempt.exists_of_evaluate hrun
  rw [hservers]
  refine List.rel_append (hrenewed.imp ?_)
    (List.forall₂_same.mpr fun _ _ => ⟨rfl, rfl, rfl, rfl, fun _ => rfl⟩)
  rintro before _ ⟨failures, _, _, -, rfl⟩
  exact ⟨rfl, rfl, rfl, rfl, nofun⟩

/-- The servers stay the same and in order, and each of them is moved. -/
theorem moves_run (step : CheckinStep (StateM σ)) (attempt : CheckinAttempt) (world : σ) :
    List.Forall₂ step.Moves attempt.servers ((step.run attempt).run world).1.servers := by
  cases step with
  | setNote server name value =>
    refine moves_modifyServer (fun data => ⟨rfl, rfl, ?_, rfl, fun _ => rfl⟩)
      fun other data hother => ⟨rfl, rfl, ?_, rfl, fun _ => rfl⟩
    · simp [notesAfter]
    · simp [notesAfter, hother]
  | validateNotes =>
    exact List.forall₂_map_right_iff.mpr
      (List.forall₂_same.mpr fun _ _ => ⟨rfl, rfl, rfl, rfl, fun _ => rfl⟩)
  | setMessage | setOverride | copy =>
    exact List.forall₂_same.mpr fun _ _ => ⟨rfl, rfl, rfl, rfl, fun _ => rfl⟩
  | setWorkItem | removeWorkItem | assignWorkItems =>
    exact moves_modifyServer (fun _ => ⟨rfl, rfl, rfl, rfl, fun _ => rfl⟩)
      fun _ _ _ => ⟨rfl, rfl, rfl, rfl, fun _ => rfl⟩
  | evaluate registry cancellation =>
    rw [CheckinStep.run, run_bind]
    exact moves_evaluate rfl

/-- Only an evaluation can make an attempt an evaluated one. -/
theorem evaluated_run {step : CheckinStep (StateM σ)} (hstep : step.isEvaluation = false)
    (attempt : CheckinAttempt) (world : σ) :
    ((step.run attempt).run world).1.evaluated = attempt.evaluated := by
  cases step with
  | evaluate registry cancellation => cases hstep
  | _ => rfl

end CheckinStep

/-- The projects of a server are as loading left them, and failures came from one that honours
policies. -/
structure ServerAttempt.Sound (data : ServerAttempt) : Prop where
  honoured : ∀ entry ∈ data.projects, Discovery.Honoured entry.2
  evaluates : data.recorded ≠ [] → data.evaluates = true

/-- Every server is there once and sound. -/
structure CheckinAttempt.Sound (attempt : CheckinAttempt) : Prop where
  nodup : (attempt.servers.map (·.1)).Nodup
  data : ∀ entry ∈ attempt.servers, entry.2.Sound

/-- A project with a policy has a kind of policies switched on. -/
theorem Discovery.Honoured.evaluates {data : ProjectPolicies} (hdata : Honoured data)
    (hpolicies : data.policies ≠ []) : data.compatibility.evaluates = true := by
  obtain ⟨descriptor, hmem⟩ := List.exists_mem_of_ne_nil _ hpolicies
  obtain ⟨-, ⟨-, hflag⟩ | ⟨-, hflag⟩⟩ := hdata.of_mem hmem <;> simp [Compatibility.evaluates, hflag]

namespace CheckinAttempt

variable {σ : Type} {attempt after : CheckinAttempt} {registry : PolicyRegistry (StateM σ)}
  {cancellation : Cancellation (StateM σ)}

/-- In a sound attempt the data of a server can be looked up. -/
theorem Sound.mem_servers_iff (hsound : attempt.Sound) {server : Server} {data : ServerAttempt} :
    (server, data) ∈ attempt.servers ↔ attempt.server? server = some data := by
  have hnodup := hsound.nodup
  rw [server?]
  generalize attempt.servers = servers at hnodup
  induction servers with
  | nil => simp
  | cons entry servers ih =>
    obtain ⟨key, value⟩ := entry
    obtain ⟨hkey, hnodup⟩ := List.nodup_cons.mp hnodup
    by_cases hserver : server = key
    · subst hserver
      have hmem : (server, data) ∉ servers := fun hmem => hkey (List.mem_map.mpr ⟨_, hmem, rfl⟩)
      simp [hmem, eq_comm]
    · simp [List.lookup_cons, beq_false_of_ne hserver, hserver, ih hnodup]

/-- Soundness is kept by whatever keeps the servers and the soundness of their data. -/
theorem Sound.of_forall₂ (hsound : attempt.Sound)
    (hservers : List.Forall₂ (fun before after => after.1 = before.1 ∧ (before.2.Sound → after.2.Sound))
      attempt.servers after.servers) : after.Sound := by
  have hkeys : after.servers.map (·.1) = attempt.servers.map (·.1) :=
    map_eq_of_forall₂ hservers fun _ _ hentry => hentry.1
  refine ⟨hkeys ▸ hsound.nodup, fun entry hentry => ?_⟩
  obtain ⟨before, hbefore, -, hdata⟩ := exists_of_mem_of_forall₂ hservers hentry
  exact hdata (hsound.data before hbefore)

/-- New failures come from policies, so their server has a project that honours some. -/
theorem Renewed.sound {message : String} {before after : Server × ServerAttempt}
    (hrenewed : Renewed registry cancellation message before after) (hdata : before.2.Sound) :
    after.2.Sound := by
  obtain ⟨failures, world, world', hrun, rfl⟩ := hrenewed
  refine ⟨hdata.honoured, fun hfailures => ?_⟩
  obtain ⟨project, hmem, hpolicies⟩ := Evaluation.exists_policies_of_runServer hrun hfailures
  exact List.any_eq_true.mpr ⟨project, hmem, (hdata.honoured project hmem).evaluates hpolicies⟩

theorem Sound.evaluate {world world' : σ} {result : Except CheckinError Unit} (hsound : attempt.Sound)
    (hrun : (attempt.evaluate registry cancellation).run world = ((result, after), world')) :
    after.Sound := by
  obtain ⟨passed, renewed, rest, hservers, hrenewed, -, rfl⟩ := exists_of_evaluate hrun
  refine hsound.of_forall₂ ?_
  rw [hservers]
  refine List.rel_append ?_ ?_
  · refine hrenewed.imp fun before after hafter => ⟨?_, hafter.sound⟩
    obtain ⟨_, _, _, -, rfl⟩ := hafter
    rfl
  · exact List.forall₂_same.mpr fun entry _ => ⟨rfl, id⟩

theorem Sound.step (hsound : attempt.Sound) (step : CheckinStep (StateM σ)) (world : σ) :
    ((step.run attempt).run world).1.Sound := by
  cases hstep : step.isEvaluation with
  | false =>
    refine hsound.of_forall₂ ((step.moves_run attempt world).imp fun before after hmoves =>
      ⟨hmoves.server, fun hdata => ⟨?_, ?_⟩⟩)
    · rw [hmoves.projects]
      exact hdata.honoured
    · have hfailures := hmoves.failures hstep
      simpa [ServerAttempt.recorded, ServerAttempt.evaluates, hmoves.projects, hfailures] using
        hdata.evaluates
  | true =>
    obtain ⟨registry, cancellation, rfl⟩ := CheckinStep.exists_of_isEvaluation hstep
    rw [CheckinStep.run, run_bind]
    exact hsound.evaluate rfl

/-- A check-in starts sound: its servers are different, and nothing has failed yet. -/
theorem sound_of_startCheckin {queries : Queries (StateM σ)} {workspaces : List Workspace}
    {files : List LocalPath} {defaults : Compatibility} {world world' : σ}
    (hstart : (startCheckin queries cancellation workspaces files defaults).run.run world =
      (.ok attempt, world')) : attempt.Sound := by
  rw [startCheckin] at hstart
  obtain ⟨discovery, _, hdiscover, hstart⟩ := exists_of_bind_ok hstart
  cases hstart
  obtain ⟨hgroups, hcomplete⟩ := Discovery.complete_of_discover hdiscover
  have hfresh : (ofDiscovery discovery).Sound := by
    refine ⟨?_, ?_⟩
    · simpa [ofDiscovery, Function.comp_def] using Discovery.nodup_server hgroups
    · intro entry hentry
      obtain ⟨discovered, hmem, rfl⟩ := List.mem_map.mp hentry
      exact ⟨(hcomplete discovered hmem).projects.data, fun hfailures => absurd rfl hfailures⟩
  exact hfresh.step (.validateNotes (m := StateM Unit)) ()

/-- Every attempt that comes about is sound, by induction over how it came about. -/
theorem Reachable.sound (hreachable : attempt.Reachable) : attempt.Sound := by
  induction hreachable with
  | start hstart => exact sound_of_startCheckin hstart
  | step _ step world ih => exact ih.step step world

/-- A policy that reports every commit message. -/
def echo [Monad m] : CheckinPolicy m :=
  .stateless { id := "echo", name := "Echo" } fun context =>
    pure (.ok [.reported { id := "echo", name := "Echo" } context.commitMessage none])

/-- The only policy of this registry reports every commit message. -/
def echoing [Monad m] : PolicyRegistry m :=
  ({} : PolicyRegistry m).register echo

/-- Two servers that have this policy for a project each. One of them requires a note. -/
def echoed : Snapshot :=
  let attached (item : ServerPath) : RecordedAnnotation :=
    { kind := .statelessPolicies
      content := { item, value := some <|
        "<policy-definitions><policy-definition><policy-type id=\"echo\" name=\"Echo\"/>" ++
          "</policy-definition></policy-definitions>" } }
  { servers :=
      [("http://a",
          { notes := [⟨none, { name := "Reviewer", required := true }⟩]
            annotations := [attached "$/A"] }),
        ("http://b", { annotations := [attached "$/B"] })] }

/-- What a start finds for a file on each of these servers. -/
def echoedStart : CheckinAttempt :=
  let project : ProjectPolicies :=
    { compatibility := {}
      policies := [{ policyType := { id := "echo", name := "Echo" }, enabled := true
                     format := .stateless }] }
  { servers :=
      [(.ofUri "http://a",
          { notes := [{ name := "Reviewer", required := true }], missingNotes := some ["Reviewer"]
            files := [⟨"/a/x"⟩], serverPaths := ["$/A/x"], projects := [("$/A", project)] }),
        (.ofUri "http://b",
          { notes := [], missingNotes := some [], files := [⟨"/b/y"⟩], serverPaths := ["$/B/y"]
            projects := [("$/B", project)] })] }

theorem startCheckin_echoed :
    (startCheckin (m := StateM Unit) echoed.queries .never
      [⟨"first", "alice", .ofUri "http://a", [⟨"$/A", ⟨"/a"⟩⟩]⟩,
        ⟨"second", "alice", .ofUri "http://b", [⟨"$/B", ⟨"/b"⟩⟩]⟩]
      [⟨"/a/x"⟩, ⟨"/b/y"⟩] {}).run.run () = (.ok echoedStart, ()) :=
  eq_ok_of_toOption (by decide +kernel)

theorem reachable_echoedStart : echoedStart.Reachable :=
  .start startCheckin_echoed

end CheckinAttempt

end Reconcile
