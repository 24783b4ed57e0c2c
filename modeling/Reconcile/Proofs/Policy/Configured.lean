import Reconcile.Policy.Builtin
import Reconcile.Proofs.Policy.Definitions

namespace Reconcile

namespace PolicyDescriptor

open Markup

variable {layout : AnnotationLayout} {descriptor : PolicyDescriptor}
  {descriptors : List PolicyDescriptor}

/-- The configuration of a descriptor; empty for one that carries none. -/
def configuration (descriptor : PolicyDescriptor) : String :=
  match descriptor.format with
  | .stateless => ""
  | .stateful configuration => configuration

/-- A stateful descriptor is made of its policy, its switch and its configuration. -/
theorem eq_of_isStateful (hstateful : descriptor.isStateful = true) : descriptor =
    ⟨descriptor.policyType, descriptor.enabled, .stateful descriptor.configuration⟩ := by
  obtain ⟨policyType, enabled, format⟩ := descriptor
  cases format with
  | stateless => cases hstateful
  | stateful configuration => rfl

/-- The elements that a configuration stands in. -/
def enclosing : List String :=
  ["configuration", "policy-definition", "policy-annotation"]

/-- A text that can stand as a configuration: no blank begins or ends it, and it closes none of the
elements around it. -/
structure IsConfiguration (configuration : String) : Prop where
  trimmed : Text.trimmed configuration = configuration
  unclosed : ∀ tag ∈ enclosing, ¬ closing tag <:+: configuration.toList

instance (configuration : String) : Decidable (IsConfiguration configuration) :=
  decidable_of_iff (Text.trimmed configuration = configuration ∧
      ∀ tag ∈ enclosing, ¬ closing tag <:+: configuration.toList)
    ⟨fun ⟨htrimmed, hunclosed⟩ => ⟨htrimmed, hunclosed⟩,
      fun ⟨htrimmed, hunclosed⟩ => ⟨htrimmed, hunclosed⟩⟩

/-- A stateful descriptor that can be written. -/
structure IsConfigured (descriptor : PolicyDescriptor) : Prop where
  stateful : descriptor.isStateful = true
  policyType : descriptor.policyType.IsWritable
  configuration : IsConfiguration descriptor.configuration

/-- The body of a stateful definition. -/
def statefulBody (layout : AnnotationLayout) (descriptor : PolicyDescriptor) : List Char :=
  definitionBody layout descriptor.policyType (layout.entry ++
    (wholeElement "configuration" [] descriptor.configuration.toList ++ layout.definitionEnd))

/-- The attribute of the root of a stateful document. -/
def versionAttribute : Attribute :=
  { name := "version", value := statefulVersion }

/-- The value of a stateful policies annotation that lists these descriptors. -/
def statefulDocument (layout : AnnotationLayout) (descriptors : List PolicyDescriptor) : String :=
  String.ofList
    (document layout "policy-annotation" [versionAttribute] (statefulBody layout) descriptors)

/-- The configuration is found behind the policy, and is the text that was written. -/
theorem child?_statefulBody (layout : AnnotationLayout) (head : List Char)
    (hconfiguration : IsConfiguration descriptor.configuration) :
    (Element.child? ⟨head, statefulBody layout descriptor⟩ "configuration").map
      (String.ofList ·.trimmedBody) = some descriptor.configuration := by
  let policy := emptyElement "policy-type" descriptor.policyType.attributes
  let element := wholeElement "configuration" [] descriptor.configuration.toList
  have hentry : ¬ opening "configuration" <:+: layout.entry :=
    Text.not_infix_of_notMem layout.notMem.2.1
  have hname : ¬ "configuration".toList <:+: "policy-type".toList := by decide +kernel
  have hpolicy : ¬ opening "configuration" <:+: policy ++ layout.entry :=
    opening_not_infix_emptyElement (isName_tag _ (by simp)) (isName_tag _ (by simp)) hname hentry
  have hgap : ¬ opening "configuration" <:+: layout.entry ++ (policy ++ layout.entry) :=
    Text.not_infix_append_of_notMem layout.notMem.2.1 hpolicy
  have hclose : ¬ closing "configuration" <:+: descriptor.configuration.toList :=
    hconfiguration.unclosed "configuration" (by simp [enclosing])
  have hbody : statefulBody layout descriptor =
      layout.entry ++ (policy ++ layout.entry) ++ (element ++ layout.definitionEnd) := by
    simp [statefulBody, definitionBody, policy, element]
  rw [Element.child?, element?, hbody, elements_wholeElement (isName_tag _ (by simp)) hgap hclose,
    List.head?_cons, Option.map_some]
  exact congrArg some hconfiguration.trimmed

/-- No definition closes one of the elements around it. -/
theorem closing_not_infix_statefulBody {tag : String} (htag : tag ∈ enclosing)
    (hne : tag ≠ "configuration") (hconfiguration : IsConfiguration descriptor.configuration) :
    ¬ closing tag <:+: statefulBody layout descriptor := by
  have hname : ∀ tag ∈ enclosing, IsName tag := by simp [enclosing, isName_tag]
  have hend : ¬ closing tag <:+: layout.definitionEnd := Text.not_infix_of_notMem layout.notMem.2.2.1
  have helement : ¬ closing tag <:+:
      wholeElement "configuration" [] descriptor.configuration.toList ++ layout.definitionEnd :=
    closing_not_infix_wholeElement (isName_tag _ (by simp)) (hname tag htag) hne
      (hconfiguration.unclosed tag htag) hend
  have hpolicy : IsName "policy-type" := isName_tag _ (by simp)
  exact Text.not_infix_append_of_notMem layout.notMem.2.1 (closing_not_infix_emptyElement hpolicy
    (Text.not_infix_append_of_notMem layout.notMem.2.1 helement))

/-- A definition with a configuration is read back, with the configuration as it was written. -/
theorem readStateful_written (hconfigured : descriptor.IsConfigured) :
    readStateful ⟨written descriptor.attributes, statefulBody layout descriptor⟩ = .ok descriptor := by
  have hchild := child?_statefulBody layout (written descriptor.attributes) hconfigured.configuration
  have hdefinition : readDefinition ⟨written descriptor.attributes, statefulBody layout descriptor⟩ =
      .ok (descriptor.policyType, descriptor.enabled) :=
    readDefinition_written descriptor hconfigured.policyType _
  have hparts : descriptor =
      ⟨descriptor.policyType, descriptor.enabled, .stateful descriptor.configuration⟩ :=
    eq_of_isStateful hconfigured.stateful
  rw [readStateful, hdefinition]
  simp only [hchild]
  exact congrArg Except.ok hparts.symm

/-- A stateful annotation is read as the list it was written from, the configurations as they stand. -/
theorem read_statefulDocument (layout : AnnotationLayout)
    (hconfigured : ∀ descriptor ∈ descriptors, descriptor.IsConfigured) :
    ofStatefulAnnotation (statefulDocument layout descriptors) = .ok descriptors := by
  have hclosing {tag : String} (htag : tag ∈ enclosing) (hne : tag ≠ "configuration") :
      ∀ descriptor ∈ descriptors, ¬ closing tag <:+: statefulBody layout descriptor :=
    fun descriptor hmem =>
      closing_not_infix_statefulBody htag hne (hconfigured descriptor hmem).configuration
  have hversion : Element.attribute?
      ⟨written [versionAttribute], rootBody layout (statefulBody layout) descriptors⟩ "version" =
        some statefulVersion :=
    attribute?_written_singleton versionAttribute _
  have htrimmed : Text.trimmed statefulVersion = statefulVersion := by decide +kernel
  unfold ofStatefulAnnotation
  rw [statefulDocument, String.toList_ofList,
    element?_document (isName_tag _ (by simp)) (by simp) (hclosing (by simp [enclosing]) (by simp))]
  simp only [hversion, htrimmed, if_true]
  exact mapM_children_rootBody (written [versionAttribute])
    (hclosing (by simp [enclosing]) (by simp))
    fun descriptor hmem => readStateful_written (hconfigured descriptor hmem)

end PolicyDescriptor

namespace ForbiddenPaths

open Markup

variable {gap last : List Char} {patterns : List String}

/-- Patterns as they stand in a configuration, with a gap in front of each and one at the end. -/
def writtenPatterns (gap last : List Char) (patterns : List String) : List Char :=
  row gap "pattern" (fun _ => []) (fun pattern : String => escape pattern.toList) patterns ++ last

/-- A configuration that lists patterns. -/
def configurationOf (gap last : List Char) (patterns : List String) : String :=
  String.ofList (wholeElement "patterns" [] (writtenPatterns gap last patterns))

theorem closing_not_infix_escape (tag : String) (s : List Char) : ¬ closing tag <:+: escape s :=
  Text.not_infix_of_notMem (notMem_escape (by simp))

/-- Written patterns close nothing but themselves. -/
theorem closing_not_infix_writtenPatterns {tag : String} (htag : IsName tag) (hne : tag ≠ "pattern")
    (hgap : '<' ∉ gap) (hlast : '<' ∉ last) (patterns : List String) :
    ¬ closing tag <:+: writtenPatterns gap last patterns :=
  closing_not_infix_row (isName_tag _ (by simp)) htag hne hgap hlast
    fun pattern _ => closing_not_infix_escape tag pattern.toList

/-- A list of patterns can stand as a configuration. -/
theorem isConfiguration_configurationOf (hgap : '<' ∉ gap) (hlast : '<' ∉ last)
    (patterns : List String) :
    PolicyDescriptor.IsConfiguration (configurationOf gap last patterns) where
  trimmed := by
    rw [Text.trimmed, configurationOf, String.toList_ofList, trim_wholeElement]
  unclosed tag htag := by
    have hnames : ∀ tag ∈ PolicyDescriptor.enclosing,
        IsName tag ∧ tag ≠ "pattern" ∧ tag ≠ "patterns" := by
      simp [PolicyDescriptor.enclosing, isName_tag]
    obtain ⟨hname, hpattern, hpatterns⟩ := hnames tag htag
    have hbody := closing_not_infix_writtenPatterns hname hpattern hgap hlast patterns
    have hnil : ¬ closing tag <:+: [] := by simp [closing]
    have hwhole : ¬ closing tag <:+:
        wholeElement "patterns" [] (writtenPatterns gap last patterns) ++ [] :=
      closing_not_infix_wholeElement (isName_tag _ (by simp)) hname hpatterns hbody hnil
    rw [configurationOf, String.toList_ofList]
    rwa [List.append_nil] at hwhole

/-- A pattern without blanks at its ends is read back from the text of an element. -/
theorem text_escape {pattern : String} (htrimmed : Text.trimmed pattern = pattern)
    (head : List Char) : Element.text ⟨head, escape pattern.toList⟩ = pattern := by
  have htrim : Text.trim pattern.toList = pattern.toList := by
    rw [Text.trimmed, ← String.toList_inj, String.toList_ofList] at htrimmed
    exact htrimmed
  rw [Element.text, Element.trimmedBody, trim_escape htrim, unescape_escape, String.ofList_toList]

/-- The patterns that a configuration lists are read back. -/
theorem readPatterns_configurationOf (hgap : '<' ∉ gap) (hlast : '<' ∉ last) (hne : patterns ≠ [])
    (hpatterns : ∀ pattern ∈ patterns, pattern ≠ "" ∧ Text.trimmed pattern = pattern) :
    readPatterns (configurationOf gap last patterns) = .ok patterns := by
  let root : Element := ⟨written [], writtenPatterns gap last patterns⟩
  have hbody : ¬ closing "patterns" <:+: writtenPatterns gap last patterns :=
    closing_not_infix_writtenPatterns (isName_tag _ (by simp)) (by simp) hgap hlast patterns
  have hroot : element? "patterns" (configurationOf gap last patterns).toList = some root := by
    rw [configurationOf, String.toList_ofList]
    exact element?_wholeElement (isName_tag _ (by simp)) hbody
  have hchildren : root.children "pattern" =
      patterns.map fun pattern => ⟨written [], escape pattern.toList⟩ :=
    elements_row (isName_tag _ (by simp)) hgap hlast
      fun pattern _ => closing_not_infix_escape "pattern" pattern.toList
  have htexts : (root.children "pattern").map (·.text) = patterns := by
    rw [hchildren, List.map_map]
    have hsame : ∀ pattern ∈ patterns,
        Element.text ⟨written [], escape pattern.toList⟩ = pattern :=
      fun pattern hmem => text_escape (hpatterns pattern hmem).2 (written [])
    exact (List.map_congr_left hsame).trans (List.map_id patterns)
  have hkept : patterns.filter (· ≠ "") = patterns := by
    rw [List.filter_eq_self]
    intro pattern hmem
    simpa using (hpatterns pattern hmem).1
  have hnonempty : patterns.isEmpty = false := List.isEmpty_eq_false_iff.mpr hne
  rw [readPatterns, hroot]
  simp only [htexts, hkept, hnonempty]
  rfl

end ForbiddenPaths

/-- Configurations are read as they stand, and one that lists patterns configures the policy with just
these, wherever it stands in the document. -/
theorem stateful_configurations_survive {descriptors : List PolicyDescriptor}
    (layout : AnnotationLayout) (hconfigured : ∀ descriptor ∈ descriptors, descriptor.IsConfigured) :
    PolicyDescriptor.ofStatefulAnnotation (PolicyDescriptor.statefulDocument layout descriptors) =
        .ok descriptors ∧
      ∀ (gap last : List Char) (patterns : List String) (policyType : PolicyType) (enabled : Bool)
        (earlier later : List PolicyDescriptor),
        (gap ++ last).all Text.isBlank = true → patterns ≠ [] →
        (∀ pattern ∈ patterns, pattern ≠ "" ∧ Text.trimmed pattern = pattern) →
        policyType.IsWritable → descriptors = earlier ++ later →
        ∃ parsed configuration,
          PolicyDescriptor.ofStatefulAnnotation (PolicyDescriptor.statefulDocument layout (earlier ++
            ⟨policyType, enabled, .stateful (ForbiddenPaths.configurationOf gap last patterns)⟩ ::
            later)) = .ok parsed ∧
          parsed[earlier.length]? = some ⟨policyType, enabled, .stateful configuration⟩ ∧
          ForbiddenPaths.readPatterns configuration = .ok patterns ∧
          ∀ {m : Type → Type} [Monad m] (fits : PathMatcher) (cancellation : Cancellation m),
            (ForbiddenPaths.policy fits cancellation).configure configuration =
              pure (.ok (ForbiddenPaths.evaluate fits cancellation patterns)) := by
  refine ⟨PolicyDescriptor.read_statefulDocument layout hconfigured, ?_⟩
  intro gap last patterns policyType enabled earlier later hblank hne hpatterns hwritable hsplit
  have hnone : '<' ∉ gap ++ last := fun hmem => by cases List.all_eq_true.mp hblank '<' hmem
  rw [List.mem_append, not_or] at hnone
  obtain ⟨hgap, hlast⟩ := hnone
  let configuration := ForbiddenPaths.configurationOf gap last patterns
  let descriptor : PolicyDescriptor := ⟨policyType, enabled, .stateful configuration⟩
  have hdescriptor : descriptor.IsConfigured :=
    ⟨rfl, hwritable, ForbiddenPaths.isConfiguration_configurationOf hgap hlast patterns⟩
  have hall : ∀ other ∈ earlier ++ descriptor :: later, other.IsConfigured := by
    intro other hother
    rcases List.mem_append.mp hother with hbefore | hother
    · exact hconfigured other (hsplit ▸ List.mem_append_left later hbefore)
    · rcases List.mem_cons.mp hother with rfl | hafter
      · exact hdescriptor
      · exact hconfigured other (hsplit ▸ List.mem_append_right earlier hafter)
  have hread : ForbiddenPaths.readPatterns configuration = .ok patterns :=
    ForbiddenPaths.readPatterns_configurationOf hgap hlast hne hpatterns
  refine ⟨earlier ++ descriptor :: later, configuration,
    PolicyDescriptor.read_statefulDocument layout hall, ?_, hread, fun fits cancellation => ?_⟩
  · rw [List.getElem?_append_right (Nat.le_refl _), Nat.sub_self]
    rfl
  · rw [ForbiddenPaths.policy]
    simp only [hread]
    rfl

/-- Opening tags and entities in a configuration, and in the patterns of another one behind it. -/
theorem stateful_configurations_survive_markup :
    let descriptor : PolicyDescriptor := ⟨⟨"a", "A", "", "="⟩, false, .stateful
      "<policy-type id=\"b\"/><policy-definition enabled=\"false\"><configuration>&amp;lt;</patterns>"⟩
    let patterns := ["*.dll", "a &lt; <b> & </pattern>"]
    PolicyDescriptor.ofStatefulAnnotation (PolicyDescriptor.statefulDocument .indented [descriptor]) =
        .ok [descriptor] ∧
      ∃ parsed configuration,
        PolicyDescriptor.ofStatefulAnnotation (PolicyDescriptor.statefulDocument .indented [descriptor,
          ⟨ForbiddenPaths.policyType, true,
            .stateful (ForbiddenPaths.configurationOf "\n".toList [] patterns)⟩]) = .ok parsed ∧
        parsed[1]? = some ⟨ForbiddenPaths.policyType, true, .stateful configuration⟩ ∧
        ForbiddenPaths.readPatterns configuration = .ok patterns := by
  intro descriptor patterns
  have hconfigured : ∀ other ∈ [descriptor], other.IsConfigured := by
    rw [List.forall_mem_singleton]
    exact ⟨rfl, by decide +kernel, by decide +kernel⟩
  obtain ⟨hread, hpatterns⟩ := stateful_configurations_survive .indented hconfigured
  obtain ⟨parsed, configuration, hparsed, hthere, hloaded, -⟩ := hpatterns "\n".toList [] patterns
    ForbiddenPaths.policyType true [descriptor] [] (by decide) (by simp) (by decide +kernel)
    (by decide +kernel) rfl
  exact ⟨hread, parsed, configuration, hparsed, hthere, hloaded⟩

end Reconcile
