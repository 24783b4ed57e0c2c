import Reconcile.Proofs.Checkin.Careful
import Reconcile.Proofs.Checkin.Grouping

namespace Reconcile.Discovery

variable {σ α β : Type} {raised : σ → Bool} {world middle world' : σ} {server : Server}
  {asked more : List Asked} {queries : Queries (StateM σ)}

/-- What a step of a discovery asks: nothing after a cancelled query, and no other server once the flag is
raised. Either ends the discovery, as does a server without note fields, and nothing else does. A step that
ends well has left the flag down. -/
structure Heeds (raised : σ → Bool) (world : σ) (result : Except CheckinError α) (asked : List Asked)
    (world' : σ) : Prop where
  cancelled : Behind (fun query => query.query.failure? = some .cancelled)
    (fun _ rest => rest = [] ∧ result = .error .cancelled) asked
  stopped : Behind (fun query => query.raised = true) (fun query rest =>
    (∀ later ∈ rest, later.server = query.server) ∧ result = .error query.query.ending) asked
  ok : ∀ a, result = .ok a → raised world' = true → raised world = true
  failed : ∀ error, result = .error error →
    ∃ query ∈ asked, query.Stops ∧ error = query.query.ending

namespace Heeds

theorem of_nil {a : α} : Heeds raised world (.ok a) [] world where
  cancelled := .of_nil
  stopped := .of_nil
  ok _ _ hraised := hraised
  failed _ hresult := by cases hresult

/-- A query that stops the discovery is the last one and gives it its error. -/
theorem of_stops {query : Asked} {error : CheckinError} (hstops : query.Stops)
    (herror : error = query.query.ending) :
    Heeds raised world (.error error : Except CheckinError α) [query] world' where
  cancelled := .of_singleton fun hcancelled =>
    ⟨rfl, by rw [herror, Query.ending_of_failure? hcancelled]⟩
  stopped := .of_singleton fun _ => ⟨nofun, by rw [herror]⟩
  ok _ hresult := by cases hresult
  failed _ hresult := by
    cases hresult
    exact ⟨query, List.mem_cons_self, hstops, herror⟩

/-- A query that was not cancelled, with the flag still down after it, lets the discovery go on. -/
theorem of_not_stops {query : Asked} (hgoes : ¬ query.Stops) (hlowered : raised world' = false) {a : α} :
    Heeds raised world (.ok a) [query] world' where
  cancelled := .of_singleton fun hcancelled => absurd (.inr (.inl hcancelled)) hgoes
  stopped := .of_singleton fun hraised => absurd (.inl hraised) hgoes
  ok _ _ hraised := by cases hlowered.symm.trans hraised
  failed _ hresult := by cases hresult

/-- An error stays the same error whatever would have come after it. -/
theorem of_error {error : CheckinError}
    (hheeds : Heeds raised world (.error error : Except CheckinError α) asked world') :
    Heeds raised world (.error error : Except CheckinError β) asked world' where
  cancelled := hheeds.cancelled.imp fun _ _ ⟨hrest, herror⟩ =>
    ⟨hrest, congrArg Except.error (Except.error.inj herror)⟩
  stopped := hheeds.stopped.imp fun _ _ ⟨hlater, herror⟩ =>
    ⟨hlater, congrArg Except.error (Except.error.inj herror)⟩
  ok _ hok := by cases hok
  failed other hother := by
    cases hother
    exact hheeds.failed error rfl

/-- A step that ended well has met no cancelled query. -/
theorem not_cancelled {a : α} (hheeds : Heeds raised world (.ok a) asked world') :
    ∀ query ∈ asked, query.query.failure? ≠ some .cancelled :=
  hheeds.cancelled.not_isEnd fun _ _ hend => by cases hend.2

theorem not_raised {a : α} (hheeds : Heeds raised world (.ok a) asked world') :
    ∀ query ∈ asked, query.raised ≠ true :=
  hheeds.stopped.not_isEnd fun _ _ hend => by cases hend.2

/-- The queries of a step that ended well stand in front of those of the next one. -/
theorem append {a : α} {result : Except CheckinError β}
    (hstep : Heeds raised world (.ok a) asked middle)
    (hnext : Heeds raised middle result more world') :
    Heeds raised world result (asked ++ more) world' where
  cancelled := hnext.cancelled.append hstep.not_cancelled
  stopped := hnext.stopped.append hstep.not_raised
  ok b hresult hraised := hstep.ok a rfl (hnext.ok b hresult hraised)
  failed error hresult := by
    obtain ⟨query, hquery, hstops⟩ := hnext.failed error hresult
    exact ⟨query, List.mem_append_right _ hquery, hstops⟩

end Heeds

/-- A step of a discovery does the same with a record as without, and heeds the flag. -/
def Heedful (raised : σ → Bool) (plain : ExceptT CheckinError (StateM σ) α)
    (recorded : ExceptT CheckinError (StateM (σ × List Asked)) α) : Prop :=
  ∀ world, Shows plain.run recorded.run world (Heeds raised world)

namespace Heedful

theorem of_pure {a : α} : Heedful raised (pure a) (pure a) :=
  fun _ => Shows.of_pure .of_nil

/-- The flag is heeded along a sequence of steps: what comes after an error is not asked. -/
theorem bind {step : ExceptT CheckinError (StateM σ) α}
    {step' : ExceptT CheckinError (StateM (σ × List Asked)) α}
    {next : α → ExceptT CheckinError (StateM σ) β}
    {next' : α → ExceptT CheckinError (StateM (σ × List Asked)) β}
    (hstep : Heedful raised step step') (hnext : ∀ a, Heedful raised (next a) (next' a)) :
    Heedful raised (step >>= next) (step' >>= next') := by
  intro world
  refine Shows.except_bind ((hstep world).imp fun result asked middle hheeds => ?_)
  cases result with
  | ok a => exact (hnext a middle).imp fun _ _ _ hrest => hheeds.append hrest
  | error error => exact hheeds.of_error

end Heedful

/-- A server whose policies are given up is given up for a query that was cancelled or raised the flag. -/
theorem Loads.heeds_cancelled {result : Except LoadProblem α}
    (hloads : Loads raised server world result asked world')
    (hcause : result = .error (.remote .cancelled) ∨ raised world = false ∧ raised world' = true) :
    Heeds raised world (.error .cancelled : Except CheckinError β) asked world' where
  cancelled := hloads.cancelled.imp fun _ _ hend => ⟨hend.1, rfl⟩
  stopped first query rest hsplit _ := by
    have hserver : ∀ other ∈ query :: rest, other.server = server := fun other hother =>
      (hloads.here other (by simp [hsplit, hother])).1
    have hending := (hloads.here query (by simp [hsplit])).2
    refine ⟨fun later hlater => ?_, by rw [hending]⟩
    rw [hserver later (List.mem_cons_of_mem _ hlater), hserver query List.mem_cons_self]
  ok a hresult := by cases hresult
  failed error herror := by
    cases herror
    obtain hresult | ⟨hlowered, hraised⟩ := hcause
    · obtain ⟨query, hquery, hfailure⟩ := hloads.failed .cancelled hresult
      exact ⟨query, hquery, .inr (.inl hfailure), (hloads.here query hquery).2.symm⟩
    · obtain hworld | ⟨query, hquery, hflag⟩ := hloads.raised_iff.mp hraised
      · cases hlowered.symm.trans hworld
      · exact ⟨query, hquery, .inl hflag, (hloads.here query hquery).2.symm⟩

/-- A problem in loading is only noted, unless it is a cancellation or the flag is up by then. -/
theorem Loads.heeds_ok {result : Except LoadProblem α}
    (hloads : Loads raised server world result asked world')
    (hresult : result ≠ .error (.remote .cancelled)) (hlowered : raised world' = false) (b : β) :
    Heeds raised world (.ok b) asked world' where
  cancelled := hloads.cancelled.imp fun _ _ hend => absurd hend.2 hresult
  stopped first query rest hsplit hflag := by
    have hraised := hloads.raised_iff.mpr (.inr ⟨query, by simp [hsplit], hflag⟩)
    cases hlowered.symm.trans hraised
  ok _ _ hraised := by cases hlowered.symm.trans hraised
  failed _ herror := by cases herror

/-- A visit looks at the flag behind the note fields and behind the policies, whatever became of
    either. -/
theorem heedful_discoverServer (hkept : queries.KeepRaised raised) (defaults : Compatibility)
    (group : ServerFiles) :
    Heedful raised (discoverServer queries (.reading raised) defaults group)
      (discoverServer (queries.recorded raised) (.reading fun state => raised state.1) defaults
        group) := by
  intro world
  refine Shows.lift_bind (Shows.of_ask fun answer noted hanswer => ?_)
  cases answer with
  -- Note fields that fail end the discovery before the flag is looked at.
  | error error => exact Shows.of_pure (.of_stops (.inr (.inr ⟨_, error, rfl⟩)) rfl)
  | ok definitions =>
    -- The flag is looked at behind the note fields and once more behind the policies. A flag that is
    -- down there was down all along, so no query before has raised it.
    refine Shows.check_bind (fun hraised => .of_stops (.inl hraised) rfl) fun hlowered => ?_
    have hnotes : Heeds raised world (.ok ())
        [⟨group.server, .notes group.projects (.ok definitions), raised noted⟩] noted := by
      refine .of_not_stops ?_ hlowered
      simp [Asked.Stops, Query.failure?, hlowered]
    refine Shows.lift_bind ((careful_loadPolicies hkept _ _ noted).imp ?_)
    rintro ⟨result, table⟩ more loaded hloads
    replace hloads : Loads raised group.server noted result (more ++ []) loaded := by
      simpa using hloads
    dsimp only
    split
    · refine Shows.check_bind (fun hraised => ?_) fun hlowered => Shows.of_pure ?_
      · exact hnotes.append (hloads.heeds_cancelled (.inr ⟨hlowered, hraised⟩))
      · exact hnotes.append (hloads.heeds_ok nofun hlowered _)
    · exact Shows.of_pure (hnotes.append (hloads.heeds_cancelled (.inl rfl)))
    · refine Shows.check_bind (fun hraised => ?_) fun hlowered => Shows.of_pure ?_
      · exact hnotes.append (hloads.heeds_cancelled (.inr ⟨hlowered, hraised⟩))
      · exact hnotes.append (hloads.heeds_ok (by simpa) hlowered _)

/-- The servers are visited in order, and the induction over them stops with the first that is not
    discovered. -/
theorem heedful_discoverServers (hkept : queries.KeepRaised raised) (defaults : Compatibility)
    (groups : List ServerFiles) :
    Heedful raised (discoverServers queries (.reading raised) defaults groups)
      (discoverServers (queries.recorded raised) (.reading fun state => raised state.1) defaults
        groups) := by
  induction groups with
  | nil => exact .of_pure
  | cons group groups ih =>
    refine .bind (heedful_discoverServer hkept defaults group) fun discovered => ?_
    exact .bind ih fun rest => .of_pure

variable {workspaces : List Workspace} {files : List LocalPath}

theorem serverFiles_eq_nil_iff : serverFiles workspaces files = [] ↔
    ∀ path ∈ files, Workspace.covered workspaces path = false := by
  have hperm : ((serverFiles workspaces files).flatMap (·.files)).map (·.localPath) |>.Perm
      (files.filter (Workspace.covered workspaces)) := by
    rw [← Workspace.map_localPath_assigned]
    exact ((serverFiles_items_perm workspaces files).trans
      (Workspace.partition_items_perm workspaces files)).map _
  constructor
  · intro hnil path hpath
    rw [hnil] at hperm
    have hnone : files.filter (Workspace.covered workspaces) = [] := hperm.nil_eq.symm
    simpa using List.filter_eq_nil_iff.mp hnone path hpath
  · intro huncovered
    have hnone : files.filter (Workspace.covered workspaces) = [] :=
      List.filter_eq_nil_iff.mpr fun path hpath => by simp [huncovered path hpath]
    rw [hnone] at hperm
    refine List.eq_nil_iff_forall_not_mem.mpr fun group hgroup => ?_
    have hempty : ∀ group ∈ serverFiles workspaces files, group.files = [] := by
      simpa using hperm.eq_nil
    exact files_ne_nil_of_mem_serverFiles hgroup (hempty group hgroup)

/-- The ways in which a discovery goes. -/
inductive Visit (raised : σ → Bool) (groups : List ServerFiles) (world : σ) :
    Except CheckinError Discovery → List Asked → σ → Prop where
  | unmapped (hgroups : groups = []) : Visit raised groups world (.error .noMappings) [] world
  | stopped (hgroups : groups ≠ []) (hraised : raised world = true) :
      Visit raised groups world (.error .cancelled) [] world
  | visited {result : Except CheckinError Discovery} {asked : List Asked} {world' : σ}
      (hgroups : groups ≠ []) (hlowered : raised world = false)
      (hheeds : Heeds raised world result asked world') :
      Visit raised groups world result asked world'

/-- A discovery is a visit of the groups of files, with its queries recorded. -/
theorem shows_discover (hkept : queries.KeepRaised raised) (workspaces : List Workspace)
    (files : List LocalPath) (defaults : Compatibility) (world : σ) :
    Shows (discover queries (.reading raised) workspaces files defaults).run
      (discover (queries.recorded raised) (.reading fun state => raised state.1) workspaces files
        defaults).run world (Visit raised (serverFiles workspaces files) world) := by
  rw [discover, discover]
  dsimp only
  split
  case isTrue hgroups => exact Shows.of_pure (.unmapped (by simpa using hgroups))
  case isFalse hgroups =>
    have hfiles : serverFiles workspaces files ≠ [] := by simpa using hgroups
    refine Shows.check_bind (fun hraised => .stopped hfiles hraised) fun hlowered => ?_
    have hservers := heedful_discoverServers hkept defaults (serverFiles workspaces files)
    have hdiscovery := hservers.bind fun discovered => .of_pure (a := ofServers discovered)
    exact (hdiscovery world).imp fun _ _ _ hheeds => .visited hfiles hlowered hheeds

/-- Whatever the servers answer and whichever query raises the flag. If no file is covered, nobody is
asked. A discovery that ends well ends with the flag down and without a cancelled query. A cancelled query
is the last one, and after a query that raised the flag only its own server is asked; either ends the
discovery as cancelled, unless it was note fields that could not be given for another reason. A discovery
fails for none but these causes. -/
theorem discover_heeds_flag (queries : Queries (StateM σ)) (raised : σ → Bool)
    (hkept : queries.KeepRaised raised) (workspaces : List Workspace) (files : List LocalPath)
    (defaults : Compatibility) (world world' : σ) (result : Except CheckinError Discovery)
    (hrun : (discover queries (.reading raised) workspaces files defaults).run.run world =
      (result, world')) :
    ∃ asked : List Asked,
      (discover (queries.recorded raised) (.reading fun state => raised state.1) workspaces files
        defaults).run.run (world, []) = (result, world', asked) ∧
      ((∀ path ∈ files, Workspace.covered workspaces path = false) →
        result = .error .noMappings ∧ asked = []) ∧
      (∀ discovery, result = .ok discovery → raised world' = false ∧
        ∀ query ∈ asked, query.query.failure? ≠ some .cancelled) ∧
      (∀ first query rest, asked = first ++ query :: rest →
        query.query.failure? = some .cancelled → rest = [] ∧ result = .error .cancelled) ∧
      (∀ first query rest, asked = first ++ query :: rest → query.raised = true →
        (∀ later ∈ rest, later.server = query.server) ∧ result = .error query.query.ending) ∧
      ∀ error, result = .error error →
        error = .noMappings ∧ (∀ path ∈ files, Workspace.covered workspaces path = false) ∨
        error = .cancelled ∧ raised world = true ∨
        ∃ query ∈ asked, query.Stops ∧ error = query.query.ending := by
  obtain ⟨_, asked, _, hplain, hrecorded, hvisit⟩ :=
    shows_discover hkept workspaces files defaults world []
  cases hplain.symm.trans hrun
  refine ⟨asked, hrecorded, ?_⟩
  rw [← serverFiles_eq_nil_iff]
  cases hvisit with
  | unmapped hgroups => simp [hgroups]
  | stopped hgroups hraised => simp [hgroups, hraised]
  | visited hgroups hlowered hheeds =>
    refine ⟨fun hnil => absurd hnil hgroups, ?_, hheeds.cancelled, hheeds.stopped, fun error herror =>
      .inr (.inr (hheeds.failed error herror))⟩
    rintro discovery rfl
    refine ⟨?_, hheeds.not_cancelled⟩
    cases hflag : raised world' with
    | false => rfl
    | true => cases hlowered.symm.trans (hheeds.ok discovery rfl hflag)

/-- The first server raises the flag while it answers; it is asked on, and the second one is not. -/
theorem discover_heeds_flag_second_server :
    let workspaces : List Workspace :=
      [⟨"main", "alice", .ofUri "http://b", [⟨"$/P", ⟨"/p"⟩⟩]⟩,
        ⟨"sub", "alice", .ofUri "http://a", [⟨"$/Q", ⟨"/p/q"⟩⟩]⟩]
    let queries : Queries (StateM Bool) :=
      { noteDefinitions := fun _ _ => pure (.ok [])
        annotations := fun _ _ _ => do
          set true
          return .ok [] }
    ∃ asked : List Asked,
      (discover (queries.recorded id) (.reading fun state => id state.1) workspaces
        [⟨"/p/x"⟩, ⟨"/p/q/y"⟩] {}).run.run (false, []) = (.error .cancelled, true, asked) ∧
      asked.map (fun query => (query.server.uri, query.raised)) =
        [("http://a", false), ("http://a", true), ("http://a", true), ("http://a", true)] ∧
      ∀ first query rest, asked = first ++ query :: rest → query.raised = true →
        ∀ later ∈ rest, later.server = query.server := by
  intro workspaces queries
  have hkept : queries.KeepRaised id := ⟨fun _ _ _ hraised => hraised, fun _ _ _ _ _ => rfl⟩
  have hrun : (discover queries (.reading id) workspaces [⟨"/p/x"⟩, ⟨"/p/q/y"⟩] {}).run.run false =
      (.error .cancelled, true) :=
    Prod.ext (by decide +kernel) (by decide +kernel)
  obtain ⟨asked, hrecorded, -, -, -, hstopped, -⟩ := discover_heeds_flag _ _ hkept _ _ _ _ _ _ hrun
  refine ⟨asked, hrecorded, ?_, fun first query rest hsplit hraised =>
    (hstopped first query rest hsplit hraised).1⟩
  have hasked : ((discover (queries.recorded id) (.reading fun state => id state.1) workspaces
      [⟨"/p/x"⟩, ⟨"/p/q/y"⟩] {}).run.run (false, [])).2.2.map
        (fun query => (query.server.uri, query.raised)) =
      [("http://a", false), ("http://a", true), ("http://a", true), ("http://a", true)] := by
    decide +kernel
  rwa [hrecorded] at hasked

end Reconcile.Discovery
