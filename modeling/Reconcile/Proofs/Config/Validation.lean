import Mathlib.Data.List.Basic
import Reconcile.Config
import Reconcile.Conflict.Dump
import Reconcile.Proofs.Text.Case
import Reconcile.Proofs.Text.Occurrence
import Reconcile.Proofs.Text.Trim

namespace Reconcile

/-- A text that a log level is written as: a name in any case, or a number from one to five. -/
def IsLevel (level : String) : Prop :=
  (∃ n ∈ levelNumber? level.toList, 1 ≤ n ∧ n ≤ 5) ∨
    ∃ name ∈ levelNames, Text.equalIgnoringCase level name = true

instance (level : String) : Decidable (IsLevel level) :=
  inferInstanceAs (Decidable (_ ∨ _))

theorem isLogLevel_iff (text : String) : isLogLevel text = true ↔ IsLevel (Text.trimmed text) := by
  simp [isLogLevel, IsLevel, levelNames, Option.any_eq_true]

namespace Config

variable {config : Config}

/-- A field of the workspace at a place. -/
def inWorkspace (place : Nat) (field : String) : String :=
  s!"workspaces[{place}].{field}"

/-- A field of the folder at a place, inside its workspace. -/
def inFolder (inner : Nat) (field : String) : String :=
  s!"folders[{inner}].{field}"

/-- What is asked of a value of a configuration, with the place where it stands. -/
inductive Rule where
  | nameGiven (place : Nat) (settings : WorkspaceSettings)
  | nameUnused (place : Nat) (settings : WorkspaceSettings)
  | serverGiven (place : Nat) (settings : WorkspaceSettings)
  | serverPath (place inner : Nat) (folder : WorkingFolder)
  | localPath (place inner : Nat) (folder : WorkingFolder)
  | logLevel

namespace Rule

/-- The field that a rule is about. -/
def field : Rule → String
  | nameGiven place _ | nameUnused place _ => inWorkspace place "name"
  | serverGiven place _ => inWorkspace place "server"
  | serverPath place inner _ => inWorkspace place (inFolder inner "server_path")
  | localPath place inner _ => inWorkspace place (inFolder inner "local_path")
  | logLevel => "logging.level"

/-- What is wrong where a rule does not hold. -/
def detail (config : Config) : Rule → String
  | nameGiven _ _ => "workspace name must not be empty"
  | nameUnused _ settings => s!"duplicate workspace name '{settings.name}'"
  | serverGiven _ _ => "server URI must not be empty"
  | serverPath _ _ _ => "server path must start with '$/'"
  | localPath _ _ _ => "local path must not be empty"
  | logLevel => s!"unknown level '{config.logLevel}'"

/-- Whether a configuration keeps a rule. -/
def Holds (config : Config) : Rule → Prop
  | nameGiven _ settings => Text.trimmed settings.name ≠ ""
  | nameUnused place settings =>
    ∀ earlier ∈ config.workspaces.take place, Text.lower earlier.name ≠ Text.lower settings.name
  | serverGiven _ settings => Text.trimmed settings.server ≠ ""
  | serverPath _ _ folder => "$/".toList <+: folder.serverPath.toList
  | localPath _ _ folder => folder.localPath.text ≠ ""
  | logLevel => IsLevel (Text.trimmed config.logLevel)

instance (config : Config) : (rule : Rule) → Decidable (rule.Holds config)
  | nameGiven _ _ | serverGiven _ _ | localPath _ _ _ => inferInstanceAs (Decidable (_ ≠ _))
  | nameUnused _ _ => inferInstanceAs (Decidable (∀ _ ∈ _, _))
  | serverPath _ _ _ => inferInstanceAs (Decidable (_ <+: _))
  | logLevel => inferInstanceAs (Decidable (IsLevel _))

/-- The report of a rule that does not hold. -/
def error (config : Config) (rule : Rule) : ConfigError :=
  .invalidValue rule.field (rule.detail config)

end Rule

/-- The rules for the folders of a workspace. -/
def folderRules (place : Nat) (folders : List WorkingFolder) : List Rule :=
  folders.zipIdx.flatMap fun (folder, inner) =>
    [.serverPath place inner folder, .localPath place inner folder]

/-- The rules for a workspace. -/
def workspaceRules (place : Nat) (settings : WorkspaceSettings) : List Rule :=
  .nameGiven place settings :: .nameUnused place settings :: .serverGiven place settings ::
    folderRules place settings.folders

/-- The rules for a configuration, in the order of its values. -/
def rules (config : Config) : List Rule :=
  (config.workspaces.zipIdx.flatMap fun (settings, place) => workspaceRules place settings) ++ [.logLevel]

/-- The report of the first of some rules that does not hold. -/
def firstBroken? (config : Config) (rules : List Rule) : Option ConfigError :=
  (rules.find? fun rule => ¬ rule.Holds config).map (·.error config)

theorem firstBroken?_nil : firstBroken? config [] = none :=
  rfl

/-- A rule that fails under a condition is reported under that condition. -/
theorem firstBroken?_cons {p : Prop} [Decidable p] {rule : Rule} (hrule : rule.Holds config ↔ ¬ p)
    (rules : List Rule) : firstBroken? config (rule :: rules) =
      if p then some (rule.error config) else firstBroken? config rules := by
  by_cases hp : p
  · rw [firstBroken?, List.find?_cons_of_pos (by simpa [hrule] using hp), if_pos hp, Option.map_some]
  · rw [firstBroken?, List.find?_cons_of_neg (by simpa [hrule] using hp), if_neg hp, ← firstBroken?]

/-- Later rules are looked at only if the earlier ones hold. -/
theorem firstBroken?_append (rules later : List Rule) : firstBroken? config (rules ++ later) =
    (firstBroken? config rules).or (firstBroken? config later) := by
  rw [firstBroken?, List.find?_append, Option.map_or, ← firstBroken?, ← firstBroken?]

theorem firstBroken?_flatMap {α : Type} (l : List α) (f : α → List Rule) :
    firstBroken? config (l.flatMap f) = l.findSome? fun a => firstBroken? config (f a) := by
  rw [firstBroken?, List.find?_flatMap, List.map_findSome?]
  rfl

theorem firstBroken?_eq_none_iff {rules : List Rule} :
    firstBroken? config rules = none ↔ ∀ rule ∈ rules, rule.Holds config := by
  simp [firstBroken?]

/-- The error is that of a broken rule in front of which all rules hold. -/
theorem firstBroken?_eq_some_iff {rules : List Rule} {error : ConfigError} :
    firstBroken? config rules = some error ↔ ∃ earlier rule later,
      rules = earlier ++ rule :: later ∧ (∀ kept ∈ earlier, kept.Holds config) ∧
        ¬ rule.Holds config ∧ error = rule.error config := by
  rw [firstBroken?, Option.map_eq_some_iff]
  simp only [List.find?_eq_some_iff_append, decide_not, Bool.not_eq_eq_eq_not, Bool.not_true,
    decide_eq_false_iff_not, Bool.not_not, decide_eq_true_eq]
  constructor
  · rintro ⟨rule, ⟨hbroken, earlier, later, rfl, hkept⟩, rfl⟩
    exact ⟨earlier, rule, later, rfl, hkept, hbroken, rfl⟩
  · rintro ⟨earlier, rule, later, rfl, hkept, hbroken, rfl⟩
    exact ⟨rule, ⟨hbroken, earlier, later, rfl, hkept⟩, rfl⟩

theorem holds_nameGiven_iff (place : Nat) (settings : WorkspaceSettings) :
    Rule.Holds config (.nameGiven place settings) ↔ ¬ Text.isBlankText settings.name = true := by
  rw [Text.isBlankText_iff, Rule.Holds]

theorem holds_serverGiven_iff (place : Nat) (settings : WorkspaceSettings) :
    Rule.Holds config (.serverGiven place settings) ↔ ¬ Text.isBlankText settings.server = true := by
  rw [Text.isBlankText_iff, Rule.Holds]

theorem holds_serverPath_iff (place inner : Nat) (folder : WorkingFolder) :
    Rule.Holds config (.serverPath place inner folder) ↔
      ¬ (Text.after? ServerPath.root folder.serverPath.toList).isNone = true := by
  rw [Option.isNone_iff_eq_none, Text.after?_eq_none_iff, not_not]
  rfl

theorem holds_localPath_iff (place inner : Nat) (folder : WorkingFolder) :
    Rule.Holds config (.localPath place inner folder) ↔ ¬ folder.localPath.text = "" :=
  Iff.rfl

theorem holds_logLevel_iff : Rule.Holds config .logLevel ↔ ¬ ¬ isLogLevel config.logLevel = true := by
  rw [not_not, isLogLevel_iff, Rule.Holds]

/-- A report about a value inside a workspace. -/
def within (place : Nat) (problem : String × String) : ConfigError :=
  .invalidValue (inWorkspace place problem.1) problem.2

/-- A folder is held to its server path first and to its local path then. -/
theorem folderProblem?_eq (place inner : Nat) (folder : WorkingFolder) :
    (folderProblem? folder).map
        (within place ∘ fun (field, detail) => (inFolder inner field, detail)) =
      firstBroken? config [.serverPath place inner folder, .localPath place inner folder] := by
  rw [firstBroken?_cons (holds_serverPath_iff ..), firstBroken?_cons (holds_localPath_iff ..),
    firstBroken?_nil, folderProblem?, apply_ite (Option.map _), apply_ite (Option.map _)]
  rfl

/-- The problem of a workspace is the first of its rules that is broken, with its place in front. -/
theorem workspaceProblem?_eq (place : Nat) (settings : WorkspaceSettings) :
    (workspaceProblem? (config.workspaces.take place) settings).map (within place) =
      firstBroken? config (workspaceRules place settings) := by
  have hunused : Rule.Holds config (.nameUnused place settings) ↔
      ¬ ((config.workspaces.take place).any fun other =>
        Text.lower other.name == Text.lower settings.name) = true := by
    simp [Rule.Holds]
  have hfolders : (settings.folders.zipIdx.findSome? fun (folder, inner) =>
        (folderProblem? folder).map fun (field, detail) =>
          (inFolder inner field, detail)).map (within place) =
      firstBroken? config (folderRules place settings.folders) := by
    rw [folderRules, firstBroken?_flatMap, List.map_findSome?]
    congr 1
    funext ⟨folder, inner⟩
    rw [← folderProblem?_eq, Function.comp, Option.map_map]
  rw [workspaceRules, firstBroken?_cons (holds_nameGiven_iff ..), firstBroken?_cons hunused,
    firstBroken?_cons (holds_serverGiven_iff ..), ← hfolders, workspaceProblem?,
    apply_ite (Option.map _), apply_ite (Option.map _), apply_ite (Option.map _)]
  rfl

/-- The violation that is reported is the one of the first rule that does not hold. -/
theorem violation?_eq (config : Config) : config.violation? = firstBroken? config config.rules := by
  have hworkspaces : (config.workspaces.zipIdx.findSome? fun (settings, place) =>
        (workspaceProblem? (config.workspaces.take place) settings).map fun (field, detail) =>
          .invalidValue (inWorkspace place field) detail) =
      firstBroken? config (config.workspaces.zipIdx.flatMap fun (settings, place) =>
        workspaceRules place settings) := by
    rw [firstBroken?_flatMap]
    congr 1
    funext ⟨settings, place⟩
    exact workspaceProblem?_eq place settings
  rw [rules, firstBroken?_append, ← hworkspaces, firstBroken?_cons holds_logLevel_iff,
    firstBroken?_nil, ite_not, violation?]
  exact Option.orElse_eq_or

theorem validate_eq_ok_iff : config.validate = .ok () ↔ ∀ rule ∈ config.rules, rule.Holds config := by
  rw [← firstBroken?_eq_none_iff, ← violation?_eq, validate]
  cases config.violation? <;> simp

/-- The error is that of the first broken rule. -/
theorem validate_eq_error_iff {error : ConfigError} : config.validate = .error error ↔
    ∃ earlier rule later, config.rules = earlier ++ rule :: later ∧
      (∀ kept ∈ earlier, kept.Holds config) ∧ ¬ rule.Holds config ∧ error = rule.error config := by
  rw [← firstBroken?_eq_some_iff, ← violation?_eq, validate]
  cases config.violation? <;> simp

/-- The first thing that is wrong with folders, from a place on. -/
def scanFolders (place inner : Nat) : List WorkingFolder → Option ConfigError
  | [] => none
  | folder :: later =>
    if (Text.after? ServerPath.root folder.serverPath.toList).isNone then
      some (within place (inFolder inner "server_path", "server path must start with '$/'"))
    else if folder.localPath.text = "" then
      some (within place (inFolder inner "local_path", "local path must not be empty"))
    else scanFolders place (inner + 1) later

/-- The first thing that is wrong with workspaces, from a place on. The names in lower case are noted down
as they come. -/
def scanWorkspaces (place : Nat) (seen : List String) : List WorkspaceSettings → Option ConfigError
  | [] => none
  | settings :: later =>
    if Text.isBlankText settings.name then
      some (within place ("name", "workspace name must not be empty"))
    else if seen.contains (Text.lower settings.name) then
      some (within place ("name", s!"duplicate workspace name '{settings.name}'"))
    else if Text.isBlankText settings.server then
      some (within place ("server", "server URI must not be empty"))
    else
      (scanFolders place 0 settings.folders).or
        (scanWorkspaces (place + 1) (Text.lower settings.name :: seen) later)

/-- The first thing that is wrong, found in one pass. -/
def scan (config : Config) : Option ConfigError :=
  (scanWorkspaces 0 [] config.workspaces).or
    (if isLogLevel config.logLevel then none
    else some (.invalidValue "logging.level" s!"unknown level '{config.logLevel}'"))

/-- Passing over the folders once finds the first broken rule about them. -/
theorem scanFolders_eq (place inner : Nat) (folders : List WorkingFolder) :
    scanFolders place inner folders =
      firstBroken? config ((folders.zipIdx inner).flatMap fun (folder, inner) =>
        [.serverPath place inner folder, .localPath place inner folder]) := by
  induction folders generalizing inner with
  | nil => rfl
  | cons folder later ih =>
    rw [List.zipIdx_cons, List.flatMap_cons, List.cons_append, List.cons_append, List.nil_append,
      firstBroken?_cons (holds_serverPath_iff ..), firstBroken?_cons (holds_localPath_iff ..), ← ih]
    rfl

/-- A pass that has come to a place has noted down the names in front of it. -/
theorem scanWorkspaces_eq {earlier later : List WorkspaceSettings} {seen : List String}
    (hall : config.workspaces = earlier ++ later)
    (hseen : ∀ name, name ∈ seen ↔ ∃ other ∈ earlier, Text.lower other.name = name) :
    scanWorkspaces earlier.length seen later =
      firstBroken? config ((later.zipIdx earlier.length).flatMap fun (settings, place) =>
        workspaceRules place settings) := by
  induction later generalizing earlier seen with
  | nil => rfl
  | cons settings later ih =>
    have hunused : Rule.Holds config (.nameUnused earlier.length settings) ↔
        ¬ seen.contains (Text.lower settings.name) = true := by
      rw [Rule.Holds, hall, List.take_left, List.contains_iff_mem, hseen]
      simp
    have hall' : config.workspaces = (earlier ++ [settings]) ++ later := by
      rw [hall, List.append_assoc, List.singleton_append]
    have hseen' (name : String) : name ∈ Text.lower settings.name :: seen ↔
        ∃ other ∈ earlier ++ [settings], Text.lower other.name = name := by
      rw [List.mem_cons, hseen]
      simp only [List.mem_append, List.mem_singleton, or_and_right, exists_or, exists_eq_left]
      rw [or_comm, eq_comm]
    have hnext := ih hall' hseen'
    rw [List.length_append, List.length_singleton] at hnext
    rw [List.zipIdx_cons, List.flatMap_cons, firstBroken?_append, ← hnext]
    change _ = (firstBroken? config (workspaceRules earlier.length settings)).or _
    rw [workspaceRules, firstBroken?_cons (holds_nameGiven_iff ..), firstBroken?_cons hunused,
      firstBroken?_cons (holds_serverGiven_iff ..), folderRules, ← scanFolders_eq, scanWorkspaces]
    split_ifs <;> rfl

/-- Looking for problems workspace by workspace and passing over all values once find the same
    violation. -/
theorem violation?_eq_scan (config : Config) : config.violation? = config.scan := by
  have hall : config.workspaces = [] ++ config.workspaces := rfl
  have hseen (name : String) :
      name ∈ [] ↔ ∃ other ∈ ([] : List WorkspaceSettings), Text.lower other.name = name := by
    simp
  have hscan := scanWorkspaces_eq hall hseen
  rw [List.length_nil] at hscan
  rw [violation?_eq, rules, firstBroken?_append, ← hscan, firstBroken?_cons holds_logLevel_iff,
    firstBroken?_nil, ite_not]
  rfl

/-- A configuration with which nothing is wrong. -/
structure IsValid (config : Config) : Prop where
  given : ∀ settings ∈ config.workspaces,
    Text.trimmed settings.name ≠ "" ∧ Text.trimmed settings.server ≠ ""
  /-- No two names differ in nothing but case. -/
  distinct : (config.workspaces.map fun settings => Text.lower settings.name).Nodup
  folders : ∀ settings ∈ config.workspaces, ∀ folder ∈ settings.folders,
    "$/".toList <+: folder.serverPath.toList ∧ folder.localPath.text ≠ ""
  level : IsLevel (Text.trimmed config.logLevel)

/-- Values are all different if none occurs earlier in the list. -/
theorem nodup_map_iff {α β : Type} (f : α → β) (l : List α) : (l.map f).Nodup ↔
    ∀ place a, l[place]? = some a → ∀ earlier ∈ l.take place, f earlier ≠ f a := by
  rw [List.Nodup, List.pairwise_map, List.pairwise_iff_getElem]
  constructor
  · intro hnodup place a ha earlier hearlier
    obtain ⟨hplace, rfl⟩ := List.getElem?_eq_some_iff.mp ha
    obtain ⟨first, hfirst, rfl⟩ := List.mem_take_iff_getElem.mp hearlier
    exact hnodup first place (by omega) hplace (by omega)
  · intro hnodup first second hfirst hsecond hlt
    refine hnodup second _ (List.getElem?_eq_getElem hsecond) _ ?_
    exact List.mem_take_iff_getElem.mpr ⟨first, by omega, rfl⟩

/-- The rules are those of the workspaces, at their places, and the one about the log level. -/
theorem forall_mem_rules_iff :
    (∀ rule ∈ config.rules, rule.Holds config) ↔
      (∀ place settings, config.workspaces[place]? = some settings →
        ∀ rule ∈ workspaceRules place settings, rule.Holds config) ∧ Rule.Holds config .logLevel := by
  rw [rules, List.forall_mem_append, List.forall_mem_singleton]
  refine and_congr_left fun _ => ?_
  constructor
  · intro hrules place settings hplace rule hrule
    exact hrules rule (List.mem_flatMap.mpr
      ⟨(settings, place), List.mem_zipIdx_iff_getElem?.mpr hplace, hrule⟩)
  · intro hrules rule hrule
    obtain ⟨⟨settings, place⟩, hplace, hmem⟩ := List.mem_flatMap.mp hrule
    exact hrules place settings (List.mem_zipIdx_iff_getElem?.mp hplace) rule hmem

/-- A folder has to lead from below the root of the server to some local path. -/
theorem forall_mem_folderRules_iff {place : Nat} {folders : List WorkingFolder} :
    (∀ rule ∈ folderRules place folders, rule.Holds config) ↔ ∀ folder ∈ folders,
      "$/".toList <+: folder.serverPath.toList ∧ folder.localPath.text ≠ "" := by
  constructor
  · intro hrules folder hfolder
    obtain ⟨inner, hinner⟩ := List.mem_iff_getElem?.mp hfolder
    have hmem : (folder, inner) ∈ folders.zipIdx := List.mem_zipIdx_iff_getElem?.mpr hinner
    exact ⟨hrules (.serverPath place inner folder) (List.mem_flatMap.mpr ⟨_, hmem, by simp⟩),
      hrules (.localPath place inner folder) (List.mem_flatMap.mpr ⟨_, hmem, by simp⟩)⟩
  · intro hfolders rule hrule
    obtain ⟨⟨folder, inner⟩, hinner, hmem⟩ := List.mem_flatMap.mp hrule
    have hfolder := hfolders folder (List.mem_of_getElem? (List.mem_zipIdx_iff_getElem?.mp hinner))
    rcases List.mem_pair.mp hmem with rfl | rfl
    · exact hfolder.1
    · exact hfolder.2

/-- A workspace has to have a name unlike the earlier ones, a server, and folders that keep their
    rules. -/
theorem forall_mem_workspaceRules_iff {place : Nat} {settings : WorkspaceSettings} :
    (∀ rule ∈ workspaceRules place settings, rule.Holds config) ↔
      Text.trimmed settings.name ≠ "" ∧
      (∀ earlier ∈ config.workspaces.take place, Text.lower earlier.name ≠ Text.lower settings.name) ∧
      Text.trimmed settings.server ≠ "" ∧ ∀ folder ∈ settings.folders,
        "$/".toList <+: folder.serverPath.toList ∧ folder.localPath.text ≠ "" := by
  rw [workspaceRules, List.forall_mem_cons, List.forall_mem_cons, List.forall_mem_cons,
    forall_mem_folderRules_iff]
  rfl

theorem forall_mem_rules_iff_isValid :
    (∀ rule ∈ config.rules, rule.Holds config) ↔ config.IsValid := by
  rw [forall_mem_rules_iff]
  simp only [forall_mem_workspaceRules_iff]
  constructor
  · rintro ⟨hrules, hlevel⟩
    refine ⟨fun settings hmem => ?_, (nodup_map_iff _ _).mpr fun place settings hplace =>
      (hrules place settings hplace).2.1, fun settings hmem => ?_, hlevel⟩
    · obtain ⟨place, hplace⟩ := List.mem_iff_getElem?.mp hmem
      exact ⟨(hrules place settings hplace).1, (hrules place settings hplace).2.2.1⟩
    · obtain ⟨place, hplace⟩ := List.mem_iff_getElem?.mp hmem
      exact (hrules place settings hplace).2.2.2
  · intro hvalid
    refine ⟨fun place settings hplace => ?_, hvalid.level⟩
    have hmem := List.mem_of_getElem? hplace
    exact ⟨(hvalid.given settings hmem).1, (nodup_map_iff _ _).mp hvalid.distinct place settings hplace,
      (hvalid.given settings hmem).2, hvalid.folders settings hmem⟩

/-- At most one name equals a text up to the case of A to Z. -/
theorem IsValid.length_filter_le_one (hvalid : config.IsValid) (text : String) :
    (config.workspaces.filter fun settings =>
      Text.equalIgnoringCase settings.name text).length ≤ 1 := by
  let named := config.workspaces.filter fun settings => Text.equalIgnoringCase settings.name text
  have hnodup : (named.map fun settings => Text.lower settings.name).Nodup :=
    hvalid.distinct.sublist (List.filter_sublist.map _)
  have hsame : ∀ name ∈ named.map fun settings => Text.lower settings.name, name = Text.lower text := by
    intro name hname
    obtain ⟨settings, hmem, rfl⟩ := List.mem_map.mp hname
    exact Text.lower_eq_of_equalIgnoringCase (List.mem_filter.mp hmem).2
  rw [List.eq_replicate_of_mem hsame, List.nodup_replicate, List.length_map] at hnodup
  exact hnodup

/-- If at most one element of a list fits, the first that fits is the one that does. -/
theorem find?_eq_some_iff_of_length_filter {α : Type} {p : α → Bool} {l : List α} {a : α}
    (hlength : (l.filter p).length ≤ 1) : l.find? p = some a ↔ a ∈ l ∧ p a = true := by
  rw [← List.mem_filter, ← List.head?_filter]
  match hfilter : l.filter p with
  | [] => simp
  | [b] => simp [eq_comm]
  | _ :: _ :: _ => simp [hfilter] at hlength

/-- A lookup finds each workspace whose name fits. -/
theorem IsValid.workspace?_eq_some_iff (hvalid : config.IsValid) (text : String)
    (workspace : Workspace) : ConflictDump.workspace? config.allWorkspaces text = some workspace ↔
      workspace ∈ config.allWorkspaces ∧ Text.equalIgnoringCase workspace.name text = true := by
  refine find?_eq_some_iff_of_length_filter ?_
  rw [allWorkspaces, List.filter_map, List.length_map]
  exact hvalid.length_filter_le_one text

/-- A configuration is accepted if it is valid. Otherwise the first rule that does not hold is reported, as
one pass through the values finds it. In a configuration that is accepted, at most one workspace has a
given name, the case of A to Z aside, so a conflict dump is attached to no other one. -/
theorem validate_reports_first_violation (config : Config) :
    (config.validate = .ok () ↔ config.IsValid) ∧
      (∀ error, config.validate = .error error ↔ ∃ earlier rule later,
        config.rules = earlier ++ rule :: later ∧ (∀ kept ∈ earlier, kept.Holds config) ∧
          ¬ rule.Holds config ∧ error = .invalidValue rule.field (rule.detail config)) ∧
      config.violation? = config.scan ∧
      (config.validate = .ok () → ∀ text,
        (config.workspaces.filter fun settings =>
          Text.equalIgnoringCase settings.name text).length ≤ 1 ∧
        ∀ workspace, ConflictDump.workspace? config.allWorkspaces text = some workspace ↔
          workspace ∈ config.allWorkspaces ∧ Text.equalIgnoringCase workspace.name text = true) := by
  have hvalid : config.validate = .ok () ↔ config.IsValid :=
    validate_eq_ok_iff.trans forall_mem_rules_iff_isValid
  refine ⟨hvalid, fun error => validate_eq_error_iff, config.violation?_eq_scan, fun hok text => ?_⟩
  exact ⟨(hvalid.mp hok).length_filter_le_one text, (hvalid.mp hok).workspace?_eq_some_iff text⟩

/-- A lookup goes by the case of A to Z only, while no second workspace may have a name that differs in the
case of any letter. -/
theorem validate_reports_first_violation_umlaut :
    let folder : WorkingFolder := { serverPath := "$/A", localPath := ⟨"/a"⟩ }
    let main : WorkspaceSettings := { name := "Main", server := "http://a", folders := [folder] }
    let config : Config := { workspaces := [main, { name := "Ärger", server := "http://b" }] }
    config.validate = .ok () ∧
      ConflictDump.workspace? config.allWorkspaces "MAIN" = some main.workspace ∧
      ConflictDump.workspace? config.allWorkspaces "ärger" = none ∧
      ({ config with workspaces := config.workspaces ++ [{ main with name := "ÄRGER" }] }).validate =
        .error (.invalidValue "workspaces[2].name" "duplicate workspace name 'ÄRGER'") := by
  intro folder main config
  have hok : config.validate = .ok () := by decide +kernel
  have hlookup := ((validate_reports_first_violation config).2.2.2 hok "MAIN").2 main.workspace
  refine ⟨hok, hlookup.mpr ⟨List.mem_cons_self, by decide +kernel⟩, ?_, ?_⟩
  · decide +kernel
  · decide +kernel

end Config

end Reconcile
