import Reconcile.Proofs.Checkin.Interrupted

namespace Reconcile

/-- Messages by policy name sum up failures: each name of a failure is there once, in the order in which
the names come first, with the message of the last failure of that name. -/
structure Summarizes (messages : List (String × String)) (failures : List PolicyFailure) : Prop where
  nodup : (messages.map (·.1)).Nodup
  mem_iff : ∀ name, name ∈ messages.map (·.1) ↔ name ∈ failures.map (·.policyName)
  ordered : (messages.map (·.1)).Pairwise fun a b =>
    (failures.map (·.policyName)).idxOf a < (failures.map (·.policyName)).idxOf b
  last : ∀ name message, (name, message) ∈ messages → ∃ before failure after,
    failures = before ++ failure :: after ∧ failure.policyName = name ∧ failure.message = message ∧
      ∀ later ∈ after, later.policyName ≠ name

variable {messages : List (String × String)} {failures : List PolicyFailure} {failure : PolicyFailure}

namespace CheckinAttempt

/-- A message adds a policy name only if the name is new. -/
theorem map_fst_addMessage (messages : List (String × String)) (failure : PolicyFailure) :
    (addMessage messages failure).map (·.1) =
      if failure.policyName ∈ messages.map (·.1) then messages.map (·.1)
      else messages.map (·.1) ++ [failure.policyName] := by
  have hany : messages.any (·.1 == failure.policyName) = true ↔
      failure.policyName ∈ messages.map (·.1) := by
    simp [List.any_eq_true]
  have hkeep (entry : String × String) :
      (if entry.1 = failure.policyName then (entry.1, failure.message) else entry).1 = entry.1 := by
    split <;> rfl
  rw [addMessage]
  by_cases hknown : failure.policyName ∈ messages.map (·.1)
  · rw [if_pos (hany.mpr hknown), if_pos hknown, List.map_map]
    exact List.map_congr_left fun entry _ => hkeep entry
  · rw [if_neg (mt hany.mp hknown), if_neg hknown, List.map_append, List.map_singleton]

/-- A message under a name is the latest one of that name. -/
theorem mem_addMessage {name message : String} (hmem : (name, message) ∈ addMessage messages failure) :
    name = failure.policyName ∧ message = failure.message ∨
      (name, message) ∈ messages ∧ name ≠ failure.policyName := by
  rw [addMessage] at hmem
  split at hmem
  case isTrue =>
    obtain ⟨⟨key, text⟩, hentry, heq⟩ := List.mem_map.mp hmem
    by_cases hkey : key = failure.policyName
    · rw [if_pos hkey] at heq
      cases heq
      exact Or.inl ⟨hkey, rfl⟩
    · rw [if_neg hkey] at heq
      cases heq
      exact Or.inr ⟨hentry, hkey⟩
  case isFalse hnew =>
    rcases List.mem_append.mp hmem with hmem | hmem
    · refine Or.inr ⟨hmem, ?_⟩
      rintro rfl
      exact hnew (List.any_eq_true.mpr ⟨_, hmem, beq_self_eq_true _⟩)
    · cases List.mem_singleton.mp hmem
      exact Or.inl ⟨rfl, rfl⟩

end CheckinAttempt

/-- Each failure renews the message of its policy and moves no name. -/
theorem Summarizes.addMessage (hsums : Summarizes messages failures) (failure : PolicyFailure) :
    Summarizes (CheckinAttempt.addMessage messages failure) (failures ++ [failure]) := by
  have hplace (name : String) (hname : name ∈ messages.map (·.1)) :
      ((failures ++ [failure]).map (·.policyName)).idxOf name =
        (failures.map (·.policyName)).idxOf name := by
    rw [List.map_append, List.idxOf_append_of_mem ((hsums.mem_iff name).mp hname)]
  have hold : (messages.map (·.1)).Pairwise fun a b =>
      ((failures ++ [failure]).map (·.policyName)).idxOf a <
        ((failures ++ [failure]).map (·.policyName)).idxOf b := by
    refine hsums.ordered.imp_of_mem fun {a b} ha hb hlt => ?_
    rw [hplace a ha, hplace b hb]
    exact hlt
  have hordered : ((CheckinAttempt.addMessage messages failure).map (·.1)).Pairwise fun a b =>
      ((failures ++ [failure]).map (·.policyName)).idxOf a <
        ((failures ++ [failure]).map (·.policyName)).idxOf b := by
    rw [CheckinAttempt.map_fst_addMessage]
    split
    case isTrue => exact hold
    case isFalse hnew =>
      refine List.pairwise_append.mpr ⟨hold, List.pairwise_singleton _ _, fun a ha b hb => ?_⟩
      cases List.mem_singleton.mp hb
      -- A name that is new to the messages is new to the failures and has its place behind them.
      have hlast : failure.policyName ∉ failures.map (·.policyName) :=
        mt (hsums.mem_iff _).mpr hnew
      have hbefore := List.idxOf_lt_length_of_mem ((hsums.mem_iff a).mp ha)
      rw [hplace a ha, List.map_append, List.idxOf_append_of_notMem hlast]
      omega
  refine ⟨hordered.imp fun hlt heq => ?_, fun name => ?_, hordered, fun name message hmem => ?_⟩
  · rw [heq] at hlt
    exact absurd hlt (Nat.lt_irrefl _)
  · rw [CheckinAttempt.map_fst_addMessage, List.map_append, List.mem_append, ← hsums.mem_iff name]
    split
    case isTrue hknown =>
      constructor
      · exact Or.inl
      · rintro (hname | hname)
        · exact hname
        · cases List.mem_singleton.mp hname
          exact hknown
    case isFalse => exact List.mem_append
  · rcases CheckinAttempt.mem_addMessage hmem with ⟨rfl, rfl⟩ | ⟨hmem, hname⟩
    · exact ⟨failures, failure, [], rfl, rfl, rfl, nofun⟩
    · obtain ⟨before, last, after, rfl, hlast, hmessage, hlater⟩ := hsums.last name message hmem
      refine ⟨before, last, after ++ [failure], by simp, hlast, hmessage, fun later hmem => ?_⟩
      rcases List.mem_append.mp hmem with hmem | hmem
      · exact hlater later hmem
      · cases List.mem_singleton.mp hmem
        exact Ne.symm hname

/-- The summary of some failures goes on with more of them, by induction over these. -/
theorem Summarizes.foldl_addMessage (hsums : Summarizes messages failures)
    (more : List PolicyFailure) :
    Summarizes (more.foldl CheckinAttempt.addMessage messages) (failures ++ more) := by
  induction more generalizing messages failures with
  | nil => simpa using hsums
  | cons failure more ih => simpa using ih (hsums.addMessage failure)

theorem summarizes_nil : Summarizes [] [] :=
  ⟨.nil, fun _ => .rfl, .nil, nofun⟩

/-- Messages that sum up no failure sum up none either way. -/
theorem Summarizes.eq_nil (hsums : Summarizes messages failures) (hnone : Summarizes messages []) :
    failures = [] := by
  refine List.eq_nil_iff_forall_not_mem.mpr fun failure hmem => ?_
  have hname := (hsums.mem_iff failure.policyName).mpr (List.mem_map_of_mem hmem)
  exact List.not_mem_nil ((hnone.mem_iff _).mp hname)

namespace CheckinAttempt

/-- Everything recorded is shown: an evaluation has finished, or no server has a failure. -/
def ShowsRecorded (attempt : CheckinAttempt) : Prop :=
  attempt.evaluated = true ∨ ∀ entry ∈ attempt.servers, entry.2.recorded = []

/-- The attempts that come about while no evaluation ends early before one has finished. -/
inductive Undisturbed : CheckinAttempt → Prop
  | start {σ : Type} {queries : Queries (StateM σ)} {cancellation : Cancellation (StateM σ)}
      {workspaces : List Workspace} {files : List LocalPath} {defaults : Compatibility}
      {world world' : σ} {attempt : CheckinAttempt}
      (hstart : (startCheckin queries cancellation workspaces files defaults).run.run world =
        (.ok attempt, world')) : Undisturbed attempt
  | step {σ : Type} {attempt : CheckinAttempt} (hattempt : Undisturbed attempt)
      (step : CheckinStep (StateM σ)) (world : σ)
      (hfinished : ∀ registry cancellation, step = .evaluate registry cancellation →
        attempt.evaluated = true ∨
          ((attempt.evaluate registry cancellation).run world).1.1 = .ok ()) :
      Undisturbed ((step.run attempt).run world).1

variable {σ : Type} {attempt after : CheckinAttempt}

/-- What keeps the recorded failures and the flag keeps showing what is recorded. -/
theorem ShowsRecorded.of_forall₂ (hshows : attempt.ShowsRecorded)
    (hevaluated : after.evaluated = attempt.evaluated)
    (hservers : List.Forall₂ (fun before after => after.2.failures = before.2.failures)
      attempt.servers after.servers) : after.ShowsRecorded := by
  rcases hshows with htrue | hnone
  · exact Or.inl (hevaluated.trans htrue)
  · refine Or.inr fun entry hentry => ?_
    obtain ⟨before, hbefore, hfailures⟩ := exists_of_mem_of_forall₂ hservers hentry
    rw [ServerAttempt.recorded, hfailures]
    exact hnone before hbefore

/-- An evaluation that finished, or is not the first to do so, shows what it recorded. -/
theorem ShowsRecorded.evaluate {registry : PolicyRegistry (StateM σ)}
    {cancellation : Cancellation (StateM σ)} {result : Except CheckinError Unit} {world world' : σ}
    (hrun : (attempt.evaluate registry cancellation).run world = ((result, after), world'))
    (hfinished : attempt.evaluated = true ∨ result = .ok ()) : after.ShowsRecorded := by
  obtain ⟨_, _, rest, -, -, hended, rfl⟩ := exists_of_evaluate hrun
  rcases hfinished with htrue | hok
  · exact Or.inl (by simp [htrue])
  · exact Or.inl (by simp [hended.mp hok])

/-- Among the steps only a first evaluation that ends early can hide failures. -/
theorem ShowsRecorded.step (hshows : attempt.ShowsRecorded) (step : CheckinStep (StateM σ)) (world : σ)
    (hfinished : ∀ registry cancellation, step = .evaluate registry cancellation →
      attempt.evaluated = true ∨ ((attempt.evaluate registry cancellation).run world).1.1 = .ok ()) :
    ((step.run attempt).run world).1.ShowsRecorded := by
  cases hstep : step.isEvaluation with
  | false =>
    exact hshows.of_forall₂ (CheckinStep.evaluated_run hstep attempt world)
      ((step.moves_run attempt world).imp fun _ _ hmoves => hmoves.failures hstep)
  | true =>
    obtain ⟨registry, cancellation, rfl⟩ := CheckinStep.exists_of_isEvaluation hstep
    rw [CheckinStep.run, run_bind]
    exact ShowsRecorded.evaluate rfl (hfinished registry cancellation rfl)

/-- At the start nothing is recorded. -/
theorem showsRecorded_of_startCheckin {queries : Queries (StateM σ)}
    {cancellation : Cancellation (StateM σ)} {workspaces : List Workspace} {files : List LocalPath}
    {defaults : Compatibility} {world world' : σ}
    (hstart : (startCheckin queries cancellation workspaces files defaults).run.run world =
      (.ok attempt, world')) : attempt.ShowsRecorded := by
  rw [startCheckin] at hstart
  obtain ⟨discovery, _, -, hstart⟩ := exists_of_bind_ok hstart
  cases hstart
  have hfresh : (ofDiscovery discovery).ShowsRecorded := by
    refine Or.inr fun entry hentry => ?_
    obtain ⟨discovered, -, rfl⟩ := List.mem_map.mp hentry
    rfl
  exact hfresh.step (.validateNotes (m := StateM Unit)) () fun _ _ heq => by cases heq

/-- An attempt whose evaluations have not been cut short shows what it recorded. -/
theorem Undisturbed.showsRecorded (hundisturbed : attempt.Undisturbed) : attempt.ShowsRecorded := by
  induction hundisturbed with
  | start hstart => exact showsRecorded_of_startCheckin hstart
  | step _ step world hfinished ih => exact ih.step step world hfinished

/-- The failures recorded for a server, whether they are shown or not. -/
def recorded (attempt : CheckinAttempt) (server : Server) : List PolicyFailure :=
  ((attempt.server? server).map (·.recorded)).getD []

theorem ShowsRecorded.recorded (hshows : attempt.ShowsRecorded) (server : Server) :
    attempt.evaluated = true ∨ attempt.recorded server = [] := by
  refine hshows.imp_right fun hnone => ?_
  rw [CheckinAttempt.recorded, server?]
  cases hfound : attempt.servers.lookup server with
  | none => rfl
  | some data =>
    obtain ⟨_, _, hservers, -⟩ := List.lookup_eq_some_iff.mp hfound
    exact hnone (server, data) (by simp [hservers])

/-- With a reason, the override of a server sums up the failures recorded for it. These are the failures
that are shown exactly if an evaluation has finished or there are none; so the override sums up what is
shown as long as no evaluation ended early before one had finished. -/
theorem policyOverride?_summarizes {reason : String} (hreason : attempt.overrideReason = some reason)
    (server : Server) :
    ∃ messages, attempt.policyOverride? server = some ⟨reason, messages⟩ ∧
      Summarizes messages (attempt.recorded server) ∧
      (Summarizes messages (attempt.failures server) ↔
        attempt.evaluated = true ∨ attempt.recorded server = []) ∧
      (attempt.Undisturbed → Summarizes messages (attempt.failures server)) := by
  have hsums : Summarizes ((attempt.recorded server).foldl addMessage []) (attempt.recorded server) :=
    summarizes_nil.foldl_addMessage _
  have hoverride : attempt.policyOverride? server =
      some ⟨reason, (attempt.recorded server).foldl addMessage []⟩ := by
    rw [policyOverride?, hreason]
    rfl
  have hshown : Summarizes ((attempt.recorded server).foldl addMessage []) (attempt.failures server) ↔
      attempt.evaluated = true ∨ attempt.recorded server = [] := by
    have hfailures : attempt.failures server =
        if attempt.evaluated then attempt.recorded server else [] := rfl
    rw [hfailures]
    cases attempt.evaluated with
    | true => simpa using hsums
    | false =>
      constructor
      · intro hnone
        exact Or.inr (hsums.eq_nil hnone)
      · rintro (hfalse | hnone)
        · cases hfalse
        · simp [hnone, summarizes_nil]
  refine ⟨_, hoverride, hsums, hshown, fun hundisturbed => hshown.mpr ?_⟩
  exact hundisturbed.showsRecorded.recorded server

/-- The evaluation is cancelled at the second server, and none has finished before. The first server shows
no failure, but its override tells of one. -/
theorem policyOverride?_tells_unshown :
    let ended := ((CheckinStep.evaluate echoing countdown).run echoedStart |>.run 2).1
    let attempt : CheckinAttempt := { ended with overrideReason := some "hot" }
    let server : Server := .ofUri "http://a"
    attempt.Reachable ∧ attempt.overrideReason = some "hot" ∧ attempt.failures server = [] ∧
      attempt.policyOverride? server = some ⟨"hot", [("Echo", "")]⟩ ∧
      ¬ Summarizes [("Echo", "")] (attempt.failures server) := by
  intro ended attempt server
  have hreachable : attempt.Reachable :=
    .step (.step reachable_echoedStart (.evaluate echoing countdown) 2)
      (.setOverride (m := StateM Unit) (some "hot")) ()
  have hfailures : attempt.failures server = [] := by decide +kernel
  refine ⟨hreachable, rfl, hfailures, by decide +kernel, fun hsums => ?_⟩
  rw [hfailures] at hsums
  have hname := (hsums.mem_iff "Echo").mp List.mem_cons_self
  cases hname

/-- Of three failures two have one name: the override has it in the first place with the last message. -/
theorem policyOverride?_summarizes_repeated :
    let echo : PolicyType := { id := "echo", name := "Echo" }
    let other : PolicyType := { id := "other", name := "Other" }
    let registry : PolicyRegistry (StateM Unit) := ({} : PolicyRegistry (StateM Unit)).register <|
      .stateless echo fun context => pure (.ok [.reported echo "first" none, .reported other "once" none,
        .reported echo context.commitMessage none])
    let evaluated := ((CheckinStep.evaluate registry .never).run echoedStart |>.run ()).1
    let attempt : CheckinAttempt := { evaluated with overrideReason := some "hot" }
    let server : Server := .ofUri "http://a"
    attempt.failures server = [.reported echo "first" none, .reported other "once" none,
        .reported echo "" none] ∧
      attempt.policyOverride? server = some ⟨"hot", [("Echo", ""), ("Other", "once")]⟩ ∧
      Summarizes [("Echo", ""), ("Other", "once")] (attempt.failures server) := by
  intro echo other registry evaluated attempt server
  have hdone : ((echoedStart.evaluate registry .never).run ()).1.1 = .ok () := by decide +kernel
  have hevaluated : evaluated.Undisturbed :=
    .step (.start startCheckin_echoed) (.evaluate registry .never) () fun _ _ heq => by
      cases heq
      exact Or.inr hdone
  have hundisturbed : attempt.Undisturbed :=
    .step hevaluated (.setOverride (m := StateM Unit) (some "hot")) () fun _ _ heq => by cases heq
  have hoverride : attempt.policyOverride? server =
      some ⟨"hot", [("Echo", ""), ("Other", "once")]⟩ := by decide +kernel
  have hreason : attempt.overrideReason = some "hot" := rfl
  obtain ⟨messages, hmessages, -, -, hsums⟩ := policyOverride?_summarizes hreason server
  rw [hoverride] at hmessages
  cases hmessages
  exact ⟨by decide +kernel, hoverride, hsums hundisturbed⟩

end CheckinAttempt

end Reconcile
