import Mathlib.Data.List.Nodup
import Mathlib.Data.List.TakeWhile
import Reconcile.Proofs.Policy.Installed

namespace Reconcile

namespace ForbiddenPaths

variable {α : Type} {fits : PathMatcher} {patterns : List String} {pattern : String}

/-- A path fits a pattern, whichever separator either is written with. -/
def Fits (fits : PathMatcher) (pattern path : String) : Prop :=
  fits (Text.swap '\\' '/' pattern) (Text.swap '\\' '/' path) = true

/-- The failure about a file that fits a pattern. -/
def failure (file : LocalPath) (pattern : String) : PolicyFailure :=
  .reported policyType s!"File '{file.display}' must not be checked in"
    (some s!"Matches forbidden pattern '{pattern}'")

/-- A file that is flagged: its position, the file, and the pattern that it fits. -/
structure Flag (α : Type) where
  position : Nat
  file : α
  pattern : String

/-- The files whose path inside the team project fits a pattern, in order. -/
def flags (fits : PathMatcher) (patterns : List String) (serverPath : α → ServerPath)
    (files : List α) : List (Flag α) :=
  files.zipIdx.filterMap fun (file, position) =>
    (firstMatch? fits patterns (serverPath file).insideProject).map (⟨position, file, ·⟩)

/-- The pattern that is told is the first one that fits. -/
theorem firstMatch?_eq_some_iff {path : String} : firstMatch? fits patterns path = some pattern ↔
    ∃ before after, patterns = before ++ pattern :: after ∧ Fits fits pattern path ∧
      ∀ other ∈ before, ¬ Fits fits other path := by
  rw [firstMatch?, List.find?_eq_some_iff_append]
  simp only [Bool.not_eq_true', ← Bool.not_eq_true]
  constructor
  · rintro ⟨hfits, before, after, hpatterns, hbefore⟩
    exact ⟨before, after, hpatterns, hfits, hbefore⟩
  · rintro ⟨before, after, hpatterns, hfits, hbefore⟩
    exact ⟨hfits, before, after, hpatterns, hbefore⟩

/-- A file is flagged by the first pattern that fits its path inside the team project. -/
theorem mem_flags_iff {serverPath : α → ServerPath} {files : List α} {flag : Flag α} :
    flag ∈ flags fits patterns serverPath files ↔ files[flag.position]? = some flag.file ∧
      ∃ before after, patterns = before ++ flag.pattern :: after ∧
        Fits fits flag.pattern (serverPath flag.file).insideProject ∧
        ∀ other ∈ before, ¬ Fits fits other (serverPath flag.file).insideProject := by
  rw [← firstMatch?_eq_some_iff, flags, List.mem_filterMap]
  constructor
  · rintro ⟨⟨file, position⟩, hmem, hflag⟩
    obtain ⟨pattern, hmatch, rfl⟩ := Option.map_eq_some_iff.mp hflag
    exact ⟨List.mem_zipIdx_iff_getElem?.mp hmem, hmatch⟩
  · rintro ⟨hfile, hmatch⟩
    exact ⟨(flag.file, flag.position), List.mem_zipIdx_iff_getElem?.mpr hfile, by simp [hmatch]⟩

/-- No file is flagged twice, and flags come in the order of the files. -/
theorem pairwise_flags (fits : PathMatcher) (patterns : List String) (serverPath : α → ServerPath)
    (files : List α) : (flags fits patterns serverPath files).Pairwise (·.position < ·.position) := by
  apply Sorted.pairwise_filterMap_zipIdx
  rintro ⟨file, position⟩ flag hflag
  obtain ⟨_, -, rfl⟩ := Option.map_eq_some_iff.mp hflag
  rfl

/-- The patterns that a descriptor of this policy comes to, if they can be read. -/
def patterns? (descriptor : PolicyDescriptor) : Option (List String) :=
  if descriptor.policyType.id = policyType.id then
    match descriptor.format with
    | .stateless => some []
    | .stateful configuration => (readPatterns configuration).toOption
  else none

end ForbiddenPaths

section Files

variable {α : Type} (localPath : α → LocalPath) (serverPath : α → ServerPath) (files : List α)

/-- Files that come with a server path each are seen in pairs. -/
theorem CheckinContext.pairs_map (message : String) (items : WorkItems) :
    CheckinContext.pairs ⟨files.map localPath, files.map serverPath, message, items⟩ =
      files.map fun file => (localPath file, some (serverPath file)) := by
  apply List.ext_getElem?
  intro position
  cases hfile : files[position]? with
  | none => simp [CheckinContext.pairs, List.getElem?_zipIdx, hfile]
  | some file => simp [CheckinContext.pairs, List.getElem?_zipIdx, hfile]

/-- One failure is reported for each flag. -/
theorem ForbiddenPaths.flatMap_verdict (fits : PathMatcher) (patterns : List String) :
    ((files.map fun file => (localPath file, some (serverPath file))).flatMap fun item =>
      (verdict fits patterns item.1 item.2).toList) =
        (flags fits patterns serverPath files).map fun flag => failure (localPath flag.file) flag.pattern := by
  have hfiles : files.zipIdx.map (·.1) = files := List.zipIdx_map_fst 0 files
  rw [← List.filterMap_eq_flatMap_toList, List.filterMap_map, flags, List.map_filterMap]
  conv => lhs; rw [← hfiles, List.filterMap_map]
  refine List.filterMap_congr fun item _ => ?_
  rw [Option.map_map]
  rfl

end Files

namespace PolicyRegistry

variable {fits : PathMatcher} {nonInstalled : Bool} {context other : CheckinContext} {descriptor : PolicyDescriptor}

/-- Three policies are installed, each under its own id. -/
theorem lookup_builtins (fits : PathMatcher) (id : String) :
    (PolicyRegistry.builtins (m := Id) fits .never).registrations.lookup id =
      if id = ChangesetComments.policyType.id then some ChangesetComments.policy
      else if id = WorkItemsRequired.policyType.id then some WorkItemsRequired.policy
      else if id = ForbiddenPaths.policyType.id then some (ForbiddenPaths.policy fits .never)
      else none := by
  have hstep (key : String) (policy : CheckinPolicy Id) (rest : List (String × CheckinPolicy Id)) :
      ((key, policy) :: rest).lookup id = if id = key then some policy else rest.lookup id := by
    rw [List.lookup_cons]
    by_cases hid : id = key
    · rw [if_pos hid, beq_iff_eq.mpr hid]
    · rw [if_neg hid, beq_false_of_ne hid]
  have hregistered : (PolicyRegistry.builtins (m := Id) fits .never).registrations =
      [(ChangesetComments.policyType.id, ChangesetComments.policy),
        (WorkItemsRequired.policyType.id, WorkItemsRequired.policy),
        (ForbiddenPaths.policyType.id, ForbiddenPaths.policy fits .never)] := rfl
  rw [hregistered, hstep, hstep, hstep, List.lookup_nil]

/-- No id is registered twice, so every descriptor of a project adds its own failures. -/
theorem projectFailures_builtins (fits : PathMatcher) (context : CheckinContext) (project : ProjectPolicies) :
    (PolicyRegistry.builtins (m := Id) fits .never).projectFailures context project =
      project.policies.flatMap
        ((PolicyRegistry.builtins fits .never).added project.compatibility.nonInstalled context) := by
  have hids : (PolicyRegistry.builtins (m := Id) fits .never).ids.Nodup := by
    change [ChangesetComments.policyType.id, WorkItemsRequired.policyType.id,
      ForbiddenPaths.policyType.id].Nodup
    decide
  have hapart : ∀ descriptor ∈ project.policies,
      (PolicyRegistry.builtins (m := Id) fits .never).isAmbiguous descriptor = false := by
    intro descriptor _
    have hcount := List.nodup_iff_count_le_one.mp hids descriptor.policyType.id
    rw [isAmbiguous, decide_eq_false_iff_not]
    omega
  have htaken : project.policies.takeWhile
      (!(PolicyRegistry.builtins (m := Id) fits .never).isAmbiguous ·) = project.policies :=
    List.takeWhile_eq_self_iff.mpr fun descriptor hmem => by simp [hapart descriptor hmem]
  have hnone : project.policies.find? (PolicyRegistry.builtins (m := Id) fits .never).isAmbiguous = none :=
    List.find?_eq_none.mpr fun descriptor hmem => by simp [hapart descriptor hmem]
  rw [projectFailures, htaken, hnone, Option.toList_none, List.map_nil, List.append_nil]

/-- A descriptor with patterns adds a failure for every file that fits one of them. -/
theorem added_builtins_of_patterns? {patterns : List String}
    (hpatterns : ForbiddenPaths.patterns? descriptor = some patterns) :
    (PolicyRegistry.builtins fits .never).added nonInstalled context descriptor =
      context.pairs.flatMap fun item => (ForbiddenPaths.verdict fits patterns item.1 item.2).toList := by
  rw [ForbiddenPaths.patterns?] at hpatterns
  split at hpatterns
  case isFalse => cases hpatterns
  case isTrue hid =>
    have hlookup : (PolicyRegistry.builtins (m := Id) fits .never).registrations.lookup
        descriptor.policyType.id = some (ForbiddenPaths.policy fits .never) := by
      rw [lookup_builtins, hid]
      rfl
    have hloaded : (ForbiddenPaths.policy fits .never).loaded descriptor.format =
        .ok (ForbiddenPaths.evaluate fits .never patterns) := by
      cases hformat : descriptor.format with
      | stateless =>
        rw [hformat] at hpatterns
        cases hpatterns
        rfl
      | stateful configuration =>
        rw [hformat] at hpatterns
        dsimp only at hpatterns
        rw [ForbiddenPaths.loaded_stateful]
        cases hread : ForbiddenPaths.readPatterns configuration with
        | error error =>
          rw [hread] at hpatterns
          cases hpatterns
        | ok read =>
          rw [hread] at hpatterns
          cases hpatterns
          rfl
    rw [added, hlookup]
    dsimp only
    rw [CheckinPolicy.verdict, hloaded]
    dsimp only
    rw [ForbiddenPaths.evaluate, ForbiddenPaths.judge_never]
    rfl

/-- What does not look at files says the same about any. -/
theorem added_builtins_of_patterns?_eq_none (hpatterns : ForbiddenPaths.patterns? descriptor = none)
    (hmessage : context.commitMessage = other.commitMessage)
    (hitems : context.workItems = other.workItems) :
    (PolicyRegistry.builtins fits .never).added nonInstalled context descriptor =
      (PolicyRegistry.builtins fits .never).added nonInstalled other descriptor := by
  rw [added, added, lookup_builtins]
  by_cases hcomments : descriptor.policyType.id = ChangesetComments.policyType.id
  · have hverdict : ChangesetComments.verdict context = ChangesetComments.verdict other := by
      rw [ChangesetComments.verdict, hmessage, ← ChangesetComments.verdict]
    rw [if_pos hcomments]
    cases descriptor.format <;> exact hverdict
  rw [if_neg hcomments]
  by_cases hitem : descriptor.policyType.id = WorkItemsRequired.policyType.id
  · have hverdict : WorkItemsRequired.verdict context = WorkItemsRequired.verdict other := by
      rw [WorkItemsRequired.verdict, hitems, ← WorkItemsRequired.verdict]
    rw [if_pos hitem]
    cases descriptor.format <;> exact hverdict
  rw [if_neg hitem]
  by_cases hforbidden : descriptor.policyType.id = ForbiddenPaths.policyType.id
  · rw [ForbiddenPaths.patterns?, if_pos hforbidden] at hpatterns
    rw [if_pos hforbidden]
    dsimp only
    cases hformat : descriptor.format with
    | stateless =>
      rw [hformat] at hpatterns
      cases hpatterns
    | stateful configuration =>
      -- A configuration that cannot be read keeps the policy from being asked.
      rw [hformat] at hpatterns
      dsimp only at hpatterns
      rw [CheckinPolicy.verdict, CheckinPolicy.verdict, ForbiddenPaths.loaded_stateful]
      cases hread : ForbiddenPaths.readPatterns configuration with
      | error error => rfl
      | ok read =>
        rw [hread] at hpatterns
        cases hpatterns
  · rw [if_neg hforbidden]

end PolicyRegistry

end Reconcile
