import Reconcile.Checkin.Message
import Reconcile.Proofs.Checkin.Reachable

namespace Reconcile

variable {attempt : CheckinAttempt} {scope : MessageScope}

namespace ValidationMessage

theorem Report.lines_ne_nil {report : Report} (hreport : report.isEmpty = false) (headed : Bool) :
    report.lines headed ≠ [] := by
  cases hmissing : report.missing.isEmpty <;> cases hfailures : report.hasFailures <;>
    simp_all [isEmpty, lines]

/-- There is something to report of a server if the scope asks for what that server has. -/
theorem reports_ne_nil_iff :
    reports attempt scope ≠ [] ↔
      scope.includesErrors = true ∧ (∃ entry ∈ attempt.servers, entry.2.hasMissingNotes = true) ∨
      scope.includesWarnings = true ∧ attempt.evaluated = true ∧
        ∃ entry ∈ attempt.servers, entry.2.recorded ≠ [] := by
  have hentry (entry : Server × ServerAttempt) :
      Report.isEmpty
        { server := entry.1
          missing := if scope.includesErrors then entry.2.missing else []
          hasFailures := scope.includesWarnings && attempt.evaluated && !entry.2.recorded.isEmpty } =
            false ↔
        scope.includesErrors = true ∧ entry.2.hasMissingNotes = true ∨
        scope.includesWarnings = true ∧ attempt.evaluated = true ∧ entry.2.recorded ≠ [] := by
    cases scope.includesErrors <;> cases scope.includesWarnings <;> cases attempt.evaluated <;>
      simp [Report.isEmpty, ServerAttempt.hasMissingNotes, or_iff_not_imp_left]
  rw [reports, ne_eq, List.filter_eq_nil_iff]
  simp only [List.forall_mem_map, Bool.not_eq_true', not_forall, Bool.not_eq_true, Bool.not_eq_false,
    exists_prop, hentry]
  grind

end ValidationMessage

namespace CheckinAttempt

open ValidationMessage

/-- A message is there exactly if there is something to tell. -/
theorem isSome_message?_iff :
    (attempt.message? scope).isSome = true ↔
      tellsNotEvaluated attempt scope = true ∨ reports attempt scope ≠ [] := by
  have hlines (headed : Bool) : (reports attempt scope).flatMap (Report.lines headed) = [] ↔
      reports attempt scope = [] := by
    rw [List.flatMap_eq_nil_iff, List.eq_nil_iff_forall_not_mem]
    refine forall₂_congr fun report hreport => ?_
    have hempty : report.isEmpty = false := by
      simpa using (List.mem_filter.mp hreport).2
    simp [Report.lines_ne_nil hempty]
  rw [message?]
  by_cases htells : tellsNotEvaluated attempt scope = true
  · simp [htells]
  · by_cases hreports : reports attempt scope = [] <;> simp [htells, hreports, hlines]

theorem isSome_message?_errors_iff :
    (attempt.message? .errors).isSome = true ↔
      ∃ entry ∈ attempt.servers, entry.2.hasMissingNotes = true := by
  simp [isSome_message?_iff, reports_ne_nil_iff, tellsNotEvaluated, MessageScope.includesErrors,
    MessageScope.includesWarnings]

/-- A warning is there for recorded failures, or for policies that have not been evaluated. -/
theorem isSome_message?_warnings_iff :
    (attempt.message? .warnings).isSome = true ↔
      if attempt.evaluated then ∃ entry ∈ attempt.servers, entry.2.recorded ≠ []
      else attempt.evaluates = true := by
  cases hevaluated : attempt.evaluated <;>
    simp [isSome_message?_iff, reports_ne_nil_iff, tellsNotEvaluated, MessageScope.includesErrors,
      MessageScope.includesWarnings, hevaluated]

/-- Asking for both gives a message exactly if asking for one of them does. -/
theorem isSome_message?_both_iff :
    (attempt.message? .both).isSome = true ↔
      (attempt.message? .warnings).isSome = true ∨ (attempt.message? .errors).isSome = true := by
  simp only [isSome_message?_iff, reports_ne_nil_iff, tellsNotEvaluated, MessageScope.includesErrors,
    MessageScope.includesWarnings]
  grind

/-- Missing notes are reported only if errors are asked for. -/
theorem any_missing_reports_iff :
    (reports attempt scope).any (!·.missing.isEmpty) = true ↔
      scope.includesErrors = true ∧ ∃ entry ∈ attempt.servers, entry.2.hasMissingNotes = true := by
  have hentry (entry : Server × ServerAttempt) (hasFailures : Bool) :
      (Report.mk entry.1 (if scope.includesErrors then entry.2.missing else []) hasFailures).isEmpty =
          false ∧
        (if scope.includesErrors then entry.2.missing else []).isEmpty = false ↔
      scope.includesErrors = true ∧ entry.2.hasMissingNotes = true := by
    cases scope.includesErrors with
    | false => simp
    | true =>
      cases hmissing : entry.2.missing <;> simp [Report.isEmpty, ServerAttempt.hasMissingNotes, hmissing]
  simp only [reports, List.any_filter, List.any_map, List.any_eq_true, Function.comp_apply,
    Bool.and_eq_true, Bool.not_eq_true', hentry]
  grind

/-- A message is an error as soon as one of its reports tells of a missing note. -/
theorem severity_of_message? {message : ValidationMessage}
    (hmessage : attempt.message? scope = some message) :
    message.severity =
      if (reports attempt scope).any (!·.missing.isEmpty) then .error else .warning := by
  obtain ⟨-, hmessage⟩ := Option.ite_none_left_eq_some.mp hmessage
  cases hmessage
  rfl

/-- A message is an error exactly if it was to tell about missing notes and there is one. -/
theorem exists_error_iff :
    (∃ message, attempt.message? scope = some message ∧ message.severity = .error) ↔
      scope.includesErrors = true ∧ ∃ entry ∈ attempt.servers, entry.2.hasMissingNotes = true := by
  rw [← any_missing_reports_iff]
  constructor
  · rintro ⟨message, hmessage, herror⟩
    rw [severity_of_message? hmessage] at herror
    by_contra hnone
    rw [if_neg hnone] at herror
    cases herror
  · intro hmissing
    have hreports : reports attempt scope ≠ [] := by
      intro hnone
      rw [hnone] at hmissing
      cases hmissing
    obtain ⟨message, hmessage⟩ :=
      Option.isSome_iff_exists.mp (isSome_message?_iff.mpr (Or.inr hreports))
    exact ⟨message, hmessage, (severity_of_message? hmessage).trans (if_pos hmissing)⟩

/-- In a sound attempt, what holds of some entry can be found by asking for its server. -/
theorem Sound.exists_server?_iff (hsound : attempt.Sound) (p : ServerAttempt → Bool) :
    (∃ server, (attempt.server? server).any p = true) ↔
      ∃ entry ∈ attempt.servers, p entry.2 = true := by
  simp only [Option.any_eq_true, Prod.exists, ← hsound.mem_servers_iff]

/-- The servers with failures, or with policies that wait for their evaluation, are the cause of the
    warnings. -/
theorem Sound.exists_hasPolicyFailures_iff (hsound : attempt.Sound) :
    (∃ server, attempt.hasPolicyFailures server = true) ↔
      if attempt.evaluated then ∃ entry ∈ attempt.servers, entry.2.recorded ≠ []
      else attempt.evaluates = true := by
  simp only [hasPolicyFailures, hsound.exists_server?_iff]
  cases attempt.evaluated with
  | false => simp [evaluates]
  | true =>
    constructor
    · rintro ⟨entry, hmem, hentry⟩
      exact ⟨entry, hmem, by simpa using (Bool.and_eq_true_iff.mp hentry).2⟩
    · rintro ⟨entry, hmem, hrecorded⟩
      -- Failures come from policies, and those stand only where some flag honours them.
      have hevaluates := (hsound.data entry hmem).evaluates hrecorded
      exact ⟨entry, hmem, by simp [hevaluates, hrecorded]⟩

/-- In every attempt that comes about, there is a warning exactly if the policies of some server need
attention, an error exactly if a note of some server is missing, and a message about both exactly if
there is one of them. -/
theorem message_agrees_with_servers (hreachable : attempt.Reachable) :
    ((attempt.message? .warnings).isSome = true ↔
      ∃ server, attempt.hasPolicyFailures server = true) ∧
    ((attempt.message? .errors).isSome = true ↔
      ∃ server, attempt.hasMissingNotes server = true) ∧
    (attempt.message? .both = none ↔
      attempt.message? .warnings = none ∧ attempt.message? .errors = none) := by
  have hsound := hreachable.sound
  refine ⟨?_, ?_, ?_⟩
  · rw [isSome_message?_warnings_iff, hsound.exists_hasPolicyFailures_iff]
  · rw [isSome_message?_errors_iff]
    exact (hsound.exists_server?_iff _).symm
  · simp only [← Option.not_isSome_iff_eq_none, isSome_message?_both_iff, not_or]

/-- A note is missing and the policies have failures, so every message is there. -/
theorem message_agrees_with_servers_echoed :
    let attempt := ((CheckinStep.evaluate (m := StateM Unit) echoing .never).run echoedStart |>.run ()).1
    attempt.Reachable ∧ (attempt.message? .warnings).isSome = true ∧
      (attempt.message? .errors).isSome = true ∧ attempt.message? .both ≠ none := by
  intro attempt
  have hreachable : attempt.Reachable := .step reachable_echoedStart _ ()
  obtain ⟨hwarnings, herrors, hboth⟩ := message_agrees_with_servers hreachable
  have hpolicies : attempt.hasPolicyFailures (.ofUri "http://b") = true := by decide +kernel
  have hnotes : attempt.hasMissingNotes (.ofUri "http://a") = true := by decide +kernel
  have hwarning := hwarnings.mpr ⟨_, hpolicies⟩
  refine ⟨hreachable, hwarning, herrors.mpr ⟨_, hnotes⟩, fun hnone => ?_⟩
  rw [(hboth.mp hnone).1] at hwarning
  cases hwarning

end CheckinAttempt

end Reconcile
