import Reconcile.Proofs.Checkin.Spelling
import Reconcile.Proofs.Checkin.Visiting

namespace Reconcile.Discovery

variable {σ σ' : Type} {answers answers' : Answers} {server : Server} {defaults : Compatibility}
  {group : ServerFiles} {groups : List ServerFiles}

/-- The values of a server are made out of its own answers. -/
theorem annotationValues_congr {m : Type → Type} [Monad m] (hsame : ∀ kind project,
      answers'.annotations server kind project = answers.annotations server kind project)
    (kind : AnnotationKind) (projects : List ServerPath) :
    annotationValues (answers'.queries (m := m)) server kind projects =
      annotationValues answers.queries server kind projects := by
  induction projects with
  | nil => rfl
  | cons project projects ih =>
    have hquery : (answers'.queries (m := m)).annotations server kind project =
        answers.queries.annotations server kind project := congrArg pure (hsame kind project)
    rw [annotationValues, annotationValues, ih, hquery]

/-- What is loaded for a server does not change with the answers of others. -/
theorem loading_congr (hsame : ∀ kind project,
      answers'.annotations group.server kind project = answers.annotations group.server kind project)
    (defaults : Compatibility) : loading answers' defaults group = loading answers defaults group := by
  simp only [loading, loadPolicies, annotationValues_congr hsame]

/-- Two visits are given the same note fields, so they end alike. They find the same server, files and
projects, and the same policies if the server answers alike. -/
theorem endsAlike_visit (hnotes : ∀ other projects,
      answers'.noteDefinitions other projects = answers.noteDefinitions other projects)
    (hannotations : ∀ kind project,
      answers'.annotations server kind project = answers.annotations server kind project)
    (group : ServerFiles) :
    EndsAlike (fun a b => b.1.outline = a.1.outline ∧ (a.1.server = server → b.1 = a.1))
      (visit answers defaults group) (visit answers' defaults group) := by
  rw [visit, visit, hnotes]
  cases answers.noteDefinitions group.server group.projects with
  | error error => exact .error _
  | ok definitions =>
    refine .ok ⟨?_, fun hserver => ?_⟩
    · have hkeys := (map_fst_loading answers' defaults group).trans
        (map_fst_loading answers defaults group).symm
      exact congrArg (DiscoveredServer.mk _ _ _ _) (outline_projects_congr hkeys)
    · have hserver : group.server = server := hserver
      have hloading : loading answers' defaults group = loading answers defaults group :=
        loading_congr (hserver ▸ hannotations) defaults
      rw [hloading]

/-- The load error of a discovery is there just if the policies of some group could not be loaded, and
then has the lines about these groups, in their order. -/
structure TellsProblems (discovery : Discovery) (answers : Answers) (defaults : Compatibility)
    (groups : List ServerFiles) : Prop where
  isSome_iff : discovery.loadError.isSome = true ↔
    ∃ group ∈ groups, ∃ problem, problem? answers defaults group = some problem
  text : ∀ text, discovery.loadError = some text →
    text = "\n".intercalate (groups.filterMap (problemLine? answers defaults))

/-- A visit that ends well is one of its server, with the line that its loading calls for. -/
theorem of_visit_eq_ok {found : DiscoveredServer × Option String}
    (hvisit : visit answers defaults group = .ok found) :
    found.1.server = group.server ∧ found.2 = problemLine? answers defaults group := by
  rw [visit] at hvisit
  split at hvisit
  · cases hvisit
  · cases hvisit
    exact ⟨rfl, rfl⟩

/-- The load error has a line for each server with a problem, in the order of the visits. -/
theorem tellsProblems_ofServers {found : List (DiscoveredServer × Option String)}
    (hfound : groups.mapM (visit answers defaults) = .ok found) :
    TellsProblems (ofServers found) answers defaults groups := by
  have hlines : found.map (·.2) = groups.map (problemLine? answers defaults) :=
    map_eq_of_forall₂ (forall₂_of_mapM_eq_ok hfound) fun _ _ hvisit => (of_visit_eq_ok hvisit).2
  have hproblems : found.filterMap (·.2) = groups.filterMap (problemLine? answers defaults) := by
    have hsome := congrArg (List.filterMap id) hlines
    simpa [List.filterMap_map] using hsome
  have herror : (ofServers found).loadError =
      if (groups.filterMap (problemLine? answers defaults)).isEmpty then none
      else some ("\n".intercalate (groups.filterMap (problemLine? answers defaults))) := by
    rw [← hproblems]
    rfl
  by_cases hnone : groups.filterMap (problemLine? answers defaults) = []
  · rw [hnone] at herror
    refine ⟨?_, fun text htext => by cases herror.symm.trans htext⟩
    have hnowhere := List.filterMap_eq_nil_iff.mp hnone
    simp only [problemLine?, Option.map_eq_none_iff] at hnowhere
    rw [herror]
    constructor
    · intro hsome
      cases hsome
    · rintro ⟨group, hgroup, problem, hproblem⟩
      rw [hnowhere group hgroup] at hproblem
      cases hproblem
  · rw [if_neg (by simpa using hnone)] at herror
    refine ⟨?_, fun text htext => (Option.some.inj (herror.symm.trans htext)).symm⟩
    obtain ⟨line, hline⟩ := List.exists_mem_of_ne_nil _ hnone
    obtain ⟨group, hgroup, hline⟩ := List.mem_filterMap.mp hline
    obtain ⟨problem, hproblem, -⟩ := Option.map_eq_some_iff.mp hline
    rw [herror]
    exact ⟨fun _ => ⟨group, hgroup, problem, hproblem⟩, fun _ => rfl⟩

/-- Two discoveries end alike if the servers answer alike about note fields, whatever they answer about
policies. Of a server that answers alike altogether, both discover the same, and tell the same problem if
its policies cannot be loaded. -/
theorem discover_keeps_servers_apart {queries : Queries (StateM σ)} {queries' : Queries (StateM σ')}
    {cancellation : Cancellation (StateM σ)} {cancellation' : Cancellation (StateM σ')}
    (server : Server) (hgive : queries.Give answers) (hgive' : queries'.Give answers')
    (hflag : cancellation.Never) (hflag' : cancellation'.Never) (hnever : answers.Uncancelled)
    (hnever' : answers'.Uncancelled) (hnotes : ∀ other projects,
      answers'.noteDefinitions other projects = answers.noteDefinitions other projects)
    (hannotations : ∀ kind project,
      answers'.annotations server kind project = answers.annotations server kind project)
    (workspaces : List Workspace) (files : List LocalPath) (defaults : Compatibility) (world : σ)
    (world' : σ') :
    let groups := serverFiles workspaces files
    EndsAlike
      (fun discovery discovery' =>
        discovery.servers.map (·.server) = groups.map (·.server) ∧
        List.Forall₂ (fun a b => b.outline = a.outline ∧ (a.server = server → b = a))
          discovery.servers discovery'.servers ∧
        TellsProblems discovery answers defaults groups ∧
        TellsProblems discovery' answers' defaults groups ∧
        ∀ group ∈ groups, group.server = server →
          problem? answers' defaults group = problem? answers defaults group)
      ((discover queries cancellation workspaces files defaults).run.run world).1
      ((discover queries' cancellation' workspaces files defaults).run.run world').1 := by
  intro groups
  have hrun : ((discover queries cancellation workspaces files defaults).run.run world).1 = _ :=
    (endsAs_discover hgive hflag workspaces files defaults world).trans
      (discover_queries hnever workspaces files defaults)
  have hrun' : ((discover queries' cancellation' workspaces files defaults).run.run world').1 = _ :=
    (endsAs_discover hgive' hflag' workspaces files defaults world').trans
      (discover_queries hnever' workspaces files defaults)
  have hvisits : EndsAlike _ (groups.mapM (visit answers defaults))
      (groups.mapM (visit answers' defaults)) :=
    EndsAlike.mapM fun group _ => endsAlike_visit hnotes hannotations group
  rw [hrun, hrun']
  by_cases hgroups : groups.isEmpty = true
  · rw [if_pos hgroups, if_pos hgroups]
    exact .error _
  · rw [if_neg hgroups, if_neg hgroups]
    rcases hvisits.cases with ⟨error, hfails, hfails'⟩ | ⟨found, found', hfound, hfound', hrelated⟩
    · rw [hfails, hfails']
      exact .error error
    · rw [hfound, hfound']
      have hservers : found.map (·.1.server) = groups.map (·.server) :=
        map_eq_of_forall₂ (forall₂_of_mapM_eq_ok hfound) fun _ _ hvisit => (of_visit_eq_ok hvisit).1
      refine .ok ⟨(List.map_map ..).trans hservers, ?_, tellsProblems_ofServers hfound,
        tellsProblems_ofServers hfound', fun group _ hserver => ?_⟩
      · exact List.forall₂_map_left_iff.mpr (List.forall₂_map_right_iff.mpr hrelated)
      · rw [problem?, problem?, loading_congr (hserver ▸ hannotations)]

/-- Servers that have a policy on `$/Q`, but for one that answers `other` about policies. -/
def answeringApart (other : Except RemoteError (List Annotation)) : Answers where
  noteDefinitions _ _ := .ok []
  annotations server kind _ :=
    if server.uri = "http://b" then other
    else match kind with
      | .statelessPolicies => .ok [⟨"$/Q", some <|
          "<policy-definitions><policy-definition><policy-type id=\"on\" name=\"On\"/>" ++
            "</policy-definition></policy-definitions>"⟩]
      | _ => .ok []

/-- Servers that count the queries. -/
def counting (answers : Answers) : Queries (StateM Nat) where
  noteDefinitions server projects := do
    modify (· + 1)
    return answers.noteDefinitions server projects
  annotations server kind project := do
    modify (· + 1)
    return answers.annotations server kind project

/-- The second server refuses to tell its policies, in one of two discoveries. -/
theorem discover_keeps_servers_apart_refused :
    let workspaces : List Workspace :=
      [⟨"main", "alice", .ofUri "http://b", [⟨"$/P", ⟨"/p"⟩⟩]⟩,
        ⟨"sub", "alice", .ofUri "http://a", [⟨"$/Q", ⟨"/p/q"⟩⟩]⟩]
    let refused := answeringApart (.error (.server "gone"))
    ∃ discovery discovery' : Discovery,
      ((discover (counting (answeringApart (.ok []))) .never workspaces [⟨"/p/x"⟩, ⟨"/p/q/y"⟩]
        {}).run.run 0).1 = .ok discovery ∧
      ((discover (refused.queries (m := StateM Unit)) .never workspaces [⟨"/p/x"⟩, ⟨"/p/q/y"⟩]
        {}).run.run ()).1 = .ok discovery' ∧
      discovery.loadError = none ∧ discovery'.loadError = some "http://b: server error: gone" ∧
      discovery.servers.map (·.server.uri) = ["http://a", "http://b"] ∧
      List.Forall₂ (fun a b => b.outline = a.outline ∧ (a.server = .ofUri "http://a" → b = a))
        discovery.servers discovery'.servers := by
  intro workspaces refused
  let known := answeringApart (.ok [])
  have hannotations (kind : AnnotationKind) (project : ServerPath) :
      refused.annotations (.ofUri "http://a") kind project =
        known.annotations (.ofUri "http://a") kind project := by
    cases kind <;> rfl
  have hnever (other : Except RemoteError (List Annotation)) (hother : other ≠ .error .cancelled) :
      (answeringApart other).Uncancelled := by
    intro server kind project
    rw [answeringApart]
    dsimp only
    split
    · exact hother
    · cases kind <;> exact nofun
  have hgive : (counting known).Give known := ⟨fun _ _ _ => rfl, fun _ _ _ _ => rfl⟩
  have hends := discover_keeps_servers_apart (.ofUri "http://a") hgive
    (refused.give_queries (σ := Unit)) Cancellation.never_never Cancellation.never_never
    (hnever _ nofun) (hnever _ nofun) (fun _ _ => rfl) hannotations workspaces
    [⟨"/p/x"⟩, ⟨"/p/q/y"⟩] {} 0 ()
  have hfirst : ((discover (counting known) .never workspaces [⟨"/p/x"⟩, ⟨"/p/q/y"⟩]
      {}).run.run 0).1.toOption.map (fun discovery =>
        (discovery.loadError, discovery.servers.map (·.server.uri))) =
      some (none, ["http://a", "http://b"]) := by
    decide +kernel
  have hsecond : ((discover (refused.queries (m := StateM Unit)) .never workspaces
      [⟨"/p/x"⟩, ⟨"/p/q/y"⟩] {}).run.run ()).1.toOption.map (·.loadError) =
      some (some "http://b: server error: gone") := by
    decide +kernel
  rcases hends.cases with ⟨error, hfails, -⟩ | ⟨discovery, discovery', hrun, hrun', -, hservers, -⟩
  · rw [hfails] at hfirst
    cases hfirst
  · rw [hrun] at hfirst
    rw [hrun'] at hsecond
    obtain ⟨herror, hthere⟩ := Prod.mk.inj (Option.some.inj hfirst)
    exact ⟨discovery, discovery', hrun, hrun', herror, Option.some.inj hsecond, hthere, hservers⟩

end Reconcile.Discovery
