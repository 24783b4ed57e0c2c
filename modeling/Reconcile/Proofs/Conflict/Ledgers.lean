import Mathlib
import Reconcile.Proofs.Conflict.Applying
import Reconcile.Proofs.Conflict.Happening

namespace Reconcile

namespace Ledger

variable {ledger : Ledger} {first second : List (FileGroup × String)}

theorem addAll_nil (ledger : Ledger) : ledger.addAll [] = ledger :=
  congrArg Ledger.mk (List.append_nil _)

/-- Entries that are added in two turns are added in one. -/
theorem addAll_addAll (ledger : Ledger) (first second : List (FileGroup × String)) :
    (ledger.addAll first).addAll second = ledger.addAll (first ++ second) :=
  congrArg Ledger.mk (List.append_assoc ..)

theorem map_addAll_nil (ledger : Option Ledger) : ledger.map (·.addAll []) = ledger := by
  cases ledger with
  | none => rfl
  | some ledger => exact congrArg some ledger.addAll_nil

/-- The same with a ledger that need not be there. -/
theorem map_addAll_addAll (ledger : Option Ledger) (first second : List (FileGroup × String)) :
    (ledger.map (·.addAll first)).map (·.addAll second) = ledger.map (·.addAll (first ++ second)) := by
  cases ledger with
  | none => rfl
  | some ledger => exact congrArg some (ledger.addAll_addAll first second)

end Ledger

/-- The local path that the user has picked by a merge of names. -/
def Event.pickedPath? : Event → Option LocalPath
  | .mergeName workspace _ (.ok (some merged)) => workspace.toLocal? merged
  | _ => none

theorem Event.IsLoading.pickedPath?_eq_none {event : Event} (hload : event.IsLoading) :
    event.pickedPath? = none := by
  cases event <;> first | rfl | cases hload

namespace Conflict

/-- The entry of a conflict that is left as it is. -/
def skippedEntry (conflict : Conflict) : List (FileGroup × String) :=
  conflict.sourceOrTarget.toList.map fun item => (.skipped, (LocalPath.ofWire item).display)

/-- The local path of a merged item, given the calls of the merge: the one that was picked if names are in
conflict, and otherwise the one that it has. -/
def mergedPath? (conflict : Conflict) (events : List Event) : Option LocalPath :=
  if conflict.isNameConflict then events.findSome? Event.pickedPath?
  else conflict.targetOrSource.map LocalPath.ofWire

/-- The entry of a merge. -/
def mergedEntry (conflict : Conflict) (events : List Event) : List (FileGroup × String) :=
  (conflict.mergedPath? events).toList.map fun path => (.merged, path.display)

end Conflict

namespace Turn

/-- What a turn adds to the ledger of its own accord. -/
def noted (turn : Turn) : List (FileGroup × String) :=
  match turn.decision.action with
  | .skip => turn.decision.conflict.skippedEntry
  | .acceptYours => if turn.result = .ok .resolved then turn.decision.conflict.skippedEntry else []
  | .acceptTheirs => []
  | .acceptMerge =>
    if turn.result = .ok .resolved then turn.decision.conflict.mergedEntry turn.events else []

/-- What applying operations adds to the ledger during a turn. A merge hands no ledger along. -/
def applied (turn : Turn) : List (FileGroup × String) :=
  if turn.decision.action = .acceptMerge then [] else turn.events.flatMap Event.touched

end Turn

/-- The session that some turns leave of the one they began with. -/
def closing (session : Session) (turns : List Turn) : Session :=
  turns.foldl (fun _ turn => turn.after) session

/-- A conflict that is kept or left for later has its entry in the ledger. -/
theorem Session.noteSkipped_ledger (session : Session) (conflict : Conflict) :
    (session.noteSkipped conflict).ledger = session.ledger.map (·.addAll conflict.skippedEntry) := by
  unfold Session.noteSkipped Conflict.skippedEntry
  cases conflict.sourceOrTarget with
  | none => exact (Ledger.map_addAll_nil _).symm
  | some item => rfl

/-- Only a settled merge has an entry of its own. -/
theorem Session.settle_ledger (session : Session) (conflict : Conflict) (resolution : Resolution)
    (path : LocalPath) : (session.settle conflict resolution path).ledger =
      if resolution = .acceptMerge then session.ledger.map (·.addAll [(.merged, path.display)])
      else session.ledger := by
  unfold Session.settle
  split <;> rfl

namespace ResolveM

variable {σ : Type} {outside : Collaborators (StateM σ)} {before after : Session × σ}
  {events : List Event}

section Reporting

variable {workspace : Workspace} {conflict : Conflict} {resolution : Resolution} {path : LocalPath}
  {sendsPath : Bool} {start finish : Session} {ending : Except ResolveError Unit}

/-- The report of a merge adds the merge, and only when all is applied. -/
theorem Reporting.ledger_eq_of_merge (hreport : Reporting workspace conflict .acceptMerge path sendsPath
    start events ending finish) : finish.ledger = match ending with
      | .ok _ => start.ledger.map (·.addAll [(.merged, path.display)])
      | .error _ => start.ledger := by
  cases hreport with
  | stopped | refused => rfl
  | broken hget hundo => rw [ledger_eq_of_batches hget hundo, if_pos rfl]
  | done hget hundo =>
    rw [Session.settle_ledger, if_pos rfl, ledger_eq_of_batches hget hundo, if_pos rfl]

/-- Any other report adds what is touched by applying. -/
theorem Reporting.ledger_eq_of_ne (hother : resolution ≠ .acceptMerge) (hreport : Reporting workspace
    conflict resolution path sendsPath start events ending finish) :
    finish.ledger = start.ledger.map (·.addAll (events.flatMap Event.touched)) := by
  cases hreport with
  | stopped | refused => exact (Ledger.map_addAll_nil _).symm
  | broken hget hundo =>
    rw [ledger_eq_of_batches hget hundo, if_neg hother]
    rfl
  | done hget hundo =>
    rw [Session.settle_ledger, if_neg hother, ledger_eq_of_batches hget hundo, if_neg hother]
    rfl

/-- What is reported without a merge adds what is touched, and then what `close` adds. -/
theorem Submission.ledger_eq {close : Session → Session} {result : Except ResolveError Outcome}
    {entries : List (FileGroup × String)}
    (hclose : ∀ session, (close session).ledger = session.ledger.map (·.addAll entries))
    (hother : resolution ≠ .acceptMerge)
    (hsubmit : Submission conflict resolution path close start events result finish) :
    finish.ledger = start.ledger.map (·.addAll
      (events.flatMap Event.touched ++ if result = .ok .resolved then entries else [])) := by
  cases hsubmit with
  | unknown => exact (Ledger.map_addAll_nil _).symm
  | failed _ hreport =>
    rw [hreport.ledger_eq_of_ne hother, if_neg nofun, List.append_nil]
  | done _ hreport =>
    rw [hclose, hreport.ledger_eq_of_ne hother, if_pos rfl, Ledger.map_addAll_addAll]

end Reporting

/-- The merged path is the one that the steps of the merge work with. -/
theorem MergeStart.mergedPath?_eq {conflict : Conflict} {workspace : Workspace} {path name : LocalPath}
    {contents : MergeContents} {loading naming : List Event} {loaded : Session × σ}
    (hstart : MergeStart outside conflict before workspace path contents loading loaded)
    (hname : NameMerge workspace conflict path naming (.ok (some name))) (rest : List Event) :
    conflict.mergedPath? (loading ++ (naming ++ rest)) = some name := by
  unfold Conflict.mergedPath?
  cases hname with
  | unneeded hnone =>
    have hitem : ∃ item, conflict.targetOrSource = some item := by
      have hsource := isSome_sourceOrTarget_of_isMergeable hstart.mergeable
      unfold Conflict.sourceOrTarget at hsource
      unfold Conflict.targetOrSource
      cases htarget : conflict.targetLocalItem with
      | some item => exact ⟨item, rfl⟩
      | none =>
        cases hitem : conflict.sourceLocalItem with
        | some item => exact ⟨item, rfl⟩
        | none => simp [htarget, hitem] at hsource
    obtain ⟨item, hitem⟩ := hitem
    rw [if_neg (by simp [hnone]), hitem]
    rfl
  | mapped hneeded merged _ hmapped =>
    have hloading : loading.findSome? Event.pickedPath? = none := by
      rw [List.findSome?_eq_none_iff]
      exact fun event hevent =>
        ((asks_contents _ _ _ _ hstart.run).2 event hevent).pickedPath?_eq_none
    have hpicked : Event.pickedPath? (.mergeName workspace conflict (.ok (some merged))) = some name :=
      hmapped
    rw [if_pos hneeded, List.findSome?_append, hloading, Option.none_or, List.singleton_append,
      List.findSome?_cons, hpicked]

/-- A merge adds itself when it is resolved, and nothing else. -/
theorem MergeRun.ledger_eq {conflict : Conflict} {result : Except ResolveError Outcome}
    {finish : Session} (hmerge : MergeRun outside conflict before events result finish) :
    finish.ledger = before.1.ledger.map (·.addAll
      (if result = .ok .resolved then conflict.mergedEntry events else [])) := by
  cases hmerge with
  | reported ending hstart hname _ hreport =>
    rw [hreport.ledger_eq_of_merge]
    cases ending with
    | error error => exact (Ledger.map_addAll_nil _).symm
    | ok _ =>
      rw [Except.map, if_pos rfl, Conflict.mergedEntry, hstart.mergedPath?_eq hname]
      rfl
  | _ => exact (Ledger.map_addAll_nil _).symm

/-- A resolved merge has a path: the one that the user has picked in the workspace of the conflict, if
names are in conflict. -/
theorem MergeRun.exists_mergedPath {conflict : Conflict} {finish : Session}
    (hmerge : MergeRun outside conflict before events (.ok .resolved) finish) :
    ∃ workspace path, before.1.registry.workspaceOf? conflict.id = some workspace ∧
      conflict.mergedPath? events = some path ∧
      (conflict.isNameConflict = true → ∃ merged,
        .mergeName workspace conflict (.ok (some merged)) ∈ events ∧
          workspace.toLocal? merged = some path) := by
  generalize hresult : (Except.ok Outcome.resolved : Except ResolveError Outcome) = result at hmerge
  cases hmerge with
  | reported ending hstart hname _ _ =>
    refine ⟨_, _, hstart.owner, hstart.mergedPath?_eq hname _, fun hneeded => ?_⟩
    obtain ⟨merged, hmem, hmapped⟩ := hname.mem_of_isNameConflict hneeded
    exact ⟨merged, by simp [hmem], hmapped⟩
  | _ => cases hresult

end ResolveM

section Turns

variable {σ : Type} {outside : Collaborators (StateM σ)} {turn : Turn} {world world' : σ}

/-- A turn adds what is touched by applying operations, and its own entry behind it. -/
theorem Turn.ledger_eq
    (hrun : ResolveM.Runs (turn.decision.action.run outside.recorded turn.decision.conflict)
      (turn.before, world) turn.events turn.result (turn.after, world')) :
    turn.after.ledger = turn.before.ledger.map (·.addAll (turn.applied ++ turn.noted)) := by
  obtain ⟨⟨action, conflict⟩, before, events, result, after⟩ := turn
  unfold Turn.applied Turn.noted
  cases action with
  | acceptMerge => exact (ResolveM.runs_acceptMerge hrun).ledger_eq
  | acceptYours =>
    have hsubmit := ResolveM.runs_acceptYours hrun
    exact hsubmit.ledger_eq (·.noteSkipped_ledger conflict) (by decide)
  | acceptTheirs =>
    have hsubmit := ResolveM.runs_acceptTheirs hrun
    have hledger := hsubmit.ledger_eq (fun session => (Ledger.map_addAll_nil session.ledger).symm)
      (by decide)
    rwa [ite_self] at hledger
  | skip =>
    obtain ⟨rfl, -, hafter⟩ := ResolveM.runs_skip hrun
    exact (congrArg Session.ledger hafter).trans (before.noteSkipped_ledger conflict)

/-- An applier that touches no file adds nothing. -/
theorem Turn.applied_eq_nil
    (hquiet : ∀ workspace operations mode ledger world,
      ((outside.apply workspace operations mode ledger).run world).1.touched = [])
    (hrun : ResolveM.Runs (turn.decision.action.run outside.recorded turn.decision.conflict)
      (turn.before, world) turn.events turn.result (turn.after, world')) :
    turn.applied = [] := by
  have htouched : turn.events.flatMap Event.touched = [] := by
    rw [List.flatMap_eq_nil_iff]
    intro event hevent
    obtain ⟨start, finish, happens⟩ :=
      (ResolveM.happening_of_runs turn.decision.action hrun).exists_happens_of_mem hevent
    cases event with
    | apply workspace operations mode ledger report =>
      have hreport : (outside.apply workspace operations mode ledger).run start = (report, finish) :=
        happens
      have htouched := hquiet workspace operations mode ledger start
      rwa [hreport] at htouched
    | _ => rfl
  rw [Turn.applied, htouched, ite_self]

/-- The entries of all turns so far stand behind those from the beginning, in order. -/
theorem history_ledger_eq (decisions : List Decision) (session : Session) (world : σ)
    {earlier : List Turn} (hearlier : earlier <+: history outside decisions session world) :
    (closing session earlier).ledger =
      session.ledger.map (·.addAll (earlier.flatMap fun turn => turn.applied ++ turn.noted)) := by
  induction decisions generalizing session world earlier with
  | nil =>
    obtain rfl : earlier = [] := List.prefix_nil.mp hearlier
    exact (Ledger.map_addAll_nil _).symm
  | cons decision decisions ih =>
    obtain ⟨turn, world', rfl, rfl, hrun, hhistory⟩ :=
      history_cons outside decision decisions session world
    rw [hhistory] at hearlier
    cases earlier with
    | nil => exact (Ledger.map_addAll_nil _).symm
    | cons first earlier =>
      obtain ⟨rfl, hrest⟩ := List.cons_prefix_cons.mp hearlier
      have hledger := ih first.after world' hrest
      rwa [Turn.ledger_eq hrun, Ledger.map_addAll_addAll] at hledger

/-- Over any run with an applier that touches no file, the ledger is at every time the one from the
beginning with the entries of the turns so far behind it: one for each conflict that was skipped or kept
as yours and that has an item, and one for each merge that was resolved. That one has the path that was
picked for the item in the workspace of the conflict, or the path of the item where names are not in
conflict. -/
theorem ledger_notes_turns (outside : Collaborators (StateM σ))
    (hquiet : ∀ workspace operations mode ledger world,
      ((outside.apply workspace operations mode ledger).run world).1.touched = [])
    (decisions : List Decision) (session : Session) (world : σ) (ledger : Ledger)
    (hledger : session.ledger = some ledger) :
    (∀ earlier, earlier <+: history outside decisions session world →
      (closing session earlier).ledger = some ⟨ledger.entries ++ earlier.flatMap Turn.noted⟩) ∧
    ∀ turn ∈ history outside decisions session world, turn.decision.action = .acceptMerge →
      turn.result = .ok .resolved → ∃ workspace path,
        turn.before.registry.workspaceOf? turn.decision.conflict.id = some workspace ∧
        turn.noted = [(.merged, path.display)] ∧
        if turn.decision.conflict.isNameConflict then ∃ merged,
          .mergeName workspace turn.decision.conflict (.ok (some merged)) ∈ turn.events ∧
            workspace.toLocal? merged = some path
        else turn.decision.conflict.targetOrSource.map LocalPath.ofWire = some path := by
  have hruns := exists_runs_of_mem_history outside decisions session world
  refine ⟨fun earlier hearlier => ?_, fun turn hturn haction hresult => ?_⟩
  · have hown : (earlier.flatMap fun turn => turn.applied ++ turn.noted) =
        earlier.flatMap Turn.noted := by
      refine List.flatMap_congr fun turn hturn => ?_
      obtain ⟨start, finish, hrun⟩ := hruns turn (hearlier.subset hturn)
      rw [Turn.applied_eq_nil hquiet hrun, List.nil_append]
    rw [history_ledger_eq decisions session world hearlier, hown, hledger]
    rfl
  · obtain ⟨start, finish, hrun⟩ := hruns turn hturn
    rw [haction, hresult] at hrun
    obtain ⟨workspace, path, howner, hpath, hpicked⟩ :=
      (ResolveM.runs_acceptMerge hrun).exists_mergedPath
    refine ⟨workspace, path, howner, ?_, ?_⟩
    · simp [Turn.noted, haction, hresult, Conflict.mergedEntry, hpath]
    · split
      · exact hpicked ‹_›
      · rename_i hnone
        rw [← hpath, Conflict.mergedPath?, if_neg hnone]

/-- A conflict is skipped and then merged under a new name, one that is not registered is left to the
server in vain, and one is kept as yours. -/
theorem ledger_notes_turns_skip_merge_keep :
    let workspace : Workspace := ⟨"main", "alice", .ofUri "http://server", [⟨"$/P", ⟨"/w"⟩⟩]⟩
    let renamed : Conflict :=
      { id := 3, sourceLocalItem := some "/w/a.txt", yourChange := .ofList [.rename]
        baseChange := .ofList [.rename] }
    let kept : Conflict := { id := 4, targetLocalItem := some "/w/k.txt" }
    let session : Session :=
      { registry := .ofGroups [(workspace, [renamed, kept])], ledger := some ⟨[(.updated, "/w/u.txt")]⟩ }
    let outside : Collaborators (StateM Unit) := .willing "$/P/b.txt" {}
    let decisions : List Decision :=
      [⟨.skip, renamed⟩, ⟨.acceptMerge, renamed⟩, ⟨.acceptTheirs, { id := 5 }⟩, ⟨.acceptYours, kept⟩]
    (∀ workspace operations mode ledger world,
      ((outside.apply workspace operations mode ledger).run world).1.touched = []) ∧
    (closing session (history outside decisions session ())).ledger =
      some ⟨[(.updated, "/w/u.txt"), (.skipped, "/w/a.txt"), (.merged, "/w/b.txt"),
        (.skipped, "/w/k.txt")]⟩ := by
  intro workspace renamed kept session outside decisions
  have hquiet : ∀ workspace operations mode ledger world,
      ((outside.apply workspace operations mode ledger).run world).1.touched = [] :=
    fun _ _ _ _ _ => rfl
  refine ⟨hquiet, ?_⟩
  rw [(ledger_notes_turns outside hquiet decisions session () _ rfl).1 _ List.prefix_rfl]
  cbv

end Turns

end Reconcile
