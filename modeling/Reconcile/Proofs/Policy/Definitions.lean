import Reconcile.Policy.Descriptor
import Reconcile.Proofs.Markup.Elements
import Reconcile.Proofs.Markup.Lookup
import Reconcile.Proofs.Policy.TruthValue
import Reconcile.Proofs.Outcome

namespace Reconcile

/-- The blanks of an annotation document, each in front of what it is named for. -/
structure AnnotationLayout where
  definition : List Char
  entry : List Char
  definitionEnd : List Char
  rootEnd : List Char
  blank : (definition ++ entry ++ definitionEnd ++ rootEnd).all Text.isBlank = true := by decide

namespace AnnotationLayout

variable {layout : AnnotationLayout}

/-- The layout without any blanks. -/
def compact : AnnotationLayout :=
  ⟨[], [], [], [], rfl⟩

/-- One line for each tag, indented by two blanks a level. -/
def indented : AnnotationLayout :=
  ⟨"\n  ".toList, "\n    ".toList, "\n  ".toList, "\n".toList, by decide⟩

/-- The gaps of a layout are blank, so no tag begins in them. -/
theorem notMem (layout : AnnotationLayout) : '<' ∉ layout.definition ∧ '<' ∉ layout.entry ∧
    '<' ∉ layout.definitionEnd ∧ '<' ∉ layout.rootEnd := by
  have hnone : '<' ∉ layout.definition ++ layout.entry ++ layout.definitionEnd ++ layout.rootEnd := by
    intro hmem
    cases List.all_eq_true.mp layout.blank '<' hmem
  simpa only [List.mem_append, not_or, and_assoc] using hnone

end AnnotationLayout

/-- The tags of annotations and of configurations. -/
theorem isName_tag : ∀ tag ∈ ["policy-definitions", "policy-annotation", "policy-definition",
    "policy-type", "configuration", "patterns", "pattern"], Markup.IsName tag := by
  decide +kernel

namespace PolicyType

/-- The attributes of a policy in a definition. -/
def attributes (policyType : PolicyType) : List Markup.Attribute :=
  [{ name := "id", value := policyType.id },
    { name := "name", value := policyType.name },
    { name := "short-description", value := policyType.shortDescription },
    { name := "installation-instructions", value := policyType.installationInstructions }]

/-- A policy has an id, and an equals sign ends no value that another one follows. -/
structure IsWritable (policyType : PolicyType) : Prop where
  id_visible : Text.isBlankText policyType.id = false
  id_end : ¬ Markup.Attribute.EndsInEquals policyType.id
  name_end : ¬ Markup.Attribute.EndsInEquals policyType.name
  shortDescription_end : ¬ Markup.Attribute.EndsInEquals policyType.shortDescription

instance (policyType : PolicyType) : Decidable policyType.IsWritable :=
  decidable_of_iff (Text.isBlankText policyType.id = false ∧
      ¬ Markup.Attribute.EndsInEquals policyType.id ∧
      ¬ Markup.Attribute.EndsInEquals policyType.name ∧
      ¬ Markup.Attribute.EndsInEquals policyType.shortDescription)
    ⟨fun ⟨hvisible, hid, hname, hshort⟩ => ⟨hvisible, hid, hname, hshort⟩,
      fun ⟨hvisible, hid, hname, hshort⟩ => ⟨hvisible, hid, hname, hshort⟩⟩

end PolicyType

namespace PolicyDescriptor

open Markup

variable {layout : AnnotationLayout} {policyType : PolicyType} {descriptors : List PolicyDescriptor}
  {body : PolicyDescriptor → List Char}

/-- The attributes of a definition. -/
def attributes (descriptor : PolicyDescriptor) : List Attribute :=
  [{ name := "enabled", value := toString descriptor.enabled }]

/-- What a definition holds in front of its closing tag: the policy, then what `rest` is. -/
def definitionBody (layout : AnnotationLayout) (policyType : PolicyType) (rest : List Char) :
    List Char :=
  layout.entry ++ (emptyElement "policy-type" policyType.attributes ++ rest)

/-- The body of a stateless definition. -/
def statelessBody (layout : AnnotationLayout) (descriptor : PolicyDescriptor) : List Char :=
  definitionBody layout descriptor.policyType layout.definitionEnd

/-- What stands inside the root of a document: a definition for each descriptor. -/
def rootBody (layout : AnnotationLayout) (body : PolicyDescriptor → List Char)
    (descriptors : List PolicyDescriptor) : List Char :=
  row layout.definition "policy-definition" attributes body descriptors ++ layout.rootEnd

/-- A document with a definition for each descriptor. -/
def document (layout : AnnotationLayout) (root : String) (rootAttributes : List Attribute)
    (body : PolicyDescriptor → List Char) (descriptors : List PolicyDescriptor) : List Char :=
  wholeElement root rootAttributes (rootBody layout body descriptors)

/-- The value of a stateless policies annotation that lists these descriptors. -/
def statelessDocument (layout : AnnotationLayout) (descriptors : List PolicyDescriptor) : String :=
  String.ofList (document layout "policy-definitions" [] (statelessBody layout) descriptors)

/-- The type of a policy is found in its definition, whatever stands in front. -/
theorem child?_definitionBody (head rest : List Char) :
    Element.child? ⟨head, definitionBody layout policyType rest⟩ "policy-type" =
      some ⟨written policyType.attributes, []⟩ := by
  have hgap : ¬ opening "policy-type" <:+: layout.entry := Text.not_infix_of_notMem layout.notMem.2.1
  rw [Element.child?, element?, definitionBody, elements_emptyElement (isName_tag _ (by simp)) hgap,
    List.head?_cons]

/-- The four values of a policy, none of which the values before it can hide. -/
theorem attribute?_policyType (hwritable : policyType.IsWritable) (body : List Char) :
    let element : Element := ⟨written policyType.attributes, body⟩
    element.attribute? "id" = some policyType.id ∧ element.attribute? "name" = some policyType.name ∧
      element.attribute? "short-description" = some policyType.shortDescription ∧
      element.attribute? "installation-instructions" = some policyType.installationInstructions := by
  have hnames : (["id", "name", "short-description", "installation-instructions"] : List String).Pairwise
      fun earlier later => ¬ later.toList <:+: earlier.toList := by decide +kernel
  have hends : ∀ other ∈ policyType.attributes.dropLast, ¬ Attribute.EndsInEquals other.value := by
    simpa [PolicyType.attributes] using
      ⟨hwritable.id_end, hwritable.name_end, hwritable.shortDescription_end⟩
  have hfound := attribute?_written policyType.attributes hnames hends body
  simpa [PolicyType.attributes] using hfound

/-- Whether a definition is switched on is always read back. -/
theorem attribute?_enabled (descriptor : PolicyDescriptor) (body : List Char) :
    Element.attribute? ⟨written descriptor.attributes, body⟩ "enabled" =
      some (toString descriptor.enabled) :=
  attribute?_written_singleton { name := "enabled", value := toString descriptor.enabled } body

/-- A written definition is read for what it says, whatever follows the policy in it. -/
theorem readDefinition_written (descriptor : PolicyDescriptor)
    (hwritable : descriptor.policyType.IsWritable) (rest : List Char) :
    readDefinition
        ⟨written descriptor.attributes, definitionBody layout descriptor.policyType rest⟩ =
      .ok (descriptor.policyType, descriptor.enabled) := by
  obtain ⟨hid, hname, hshort, hinstructions⟩ := attribute?_policyType hwritable []
  have hvisible : (some descriptor.policyType.id).filter (fun id => !Text.isBlankText id) =
      some descriptor.policyType.id := by
    rw [Option.filter_some, hwritable.id_visible]
    rfl
  have hflag := readFlag_of_spellsFlag (spellsFlag_toString descriptor.enabled) "enabled"
  rw [readDefinition, attribute?_enabled, child?_definitionBody]
  simp only [hflag, hid, hname, hshort, hinstructions, hvisible]
  rfl

theorem closing_not_infix_statelessBody {tag : String} (descriptor : PolicyDescriptor) :
    ¬ closing tag <:+: statelessBody layout descriptor := by
  have hend : ¬ closing tag <:+: layout.definitionEnd := Text.not_infix_of_notMem layout.notMem.2.2.1
  have htag : IsName "policy-type" := isName_tag _ (by simp)
  exact Text.not_infix_append_of_notMem layout.notMem.2.1 (closing_not_infix_emptyElement htag hend)

/-- The root of a document is found whole: no definition closes it. -/
theorem element?_document {root : String} {rootAttributes : List Attribute} (hroot : IsName root)
    (hne : root ≠ "policy-definition")
    (hbody : ∀ descriptor ∈ descriptors, ¬ closing root <:+: body descriptor) :
    element? root (document layout root rootAttributes body descriptors) =
      some ⟨written rootAttributes, rootBody layout body descriptors⟩ := by
  refine element?_wholeElement hroot ?_
  exact closing_not_infix_row (isName_tag _ (by simp)) hroot hne layout.notMem.1 layout.notMem.2.2.2 hbody

/-- The definitions in a document are read one after the other. -/
theorem mapM_children_rootBody {read : Element → Except AnnotationError PolicyDescriptor}
    (head : List Char)
    (hbody : ∀ descriptor ∈ descriptors, ¬ closing "policy-definition" <:+: body descriptor)
    (hread : ∀ descriptor ∈ descriptors,
      read ⟨written descriptor.attributes, body descriptor⟩ = .ok descriptor) :
    (Element.children ⟨head, rootBody layout body descriptors⟩ "policy-definition").mapM read =
      .ok descriptors := by
  have hchildren :
      Element.children ⟨head, rootBody layout body descriptors⟩ "policy-definition" =
        descriptors.map fun descriptor => ⟨written descriptor.attributes, body descriptor⟩ :=
    elements_row (isName_tag _ (by simp)) layout.notMem.1 layout.notMem.2.2.2 hbody
  rw [hchildren]
  exact mapM_map_eq_ok hread

/-- A stateless annotation is read as the list it was written from, whatever blanks its elements stand
between and whatever the values hold: an attribute can only be lost behind a value that ends with an equals
sign. -/
theorem read_statelessDocument (layout : AnnotationLayout)
    (hstateless : ∀ descriptor ∈ descriptors, descriptor.format = .stateless)
    (hwritable : ∀ descriptor ∈ descriptors, descriptor.policyType.IsWritable) :
    ofStatelessAnnotation (statelessDocument layout descriptors) = .ok descriptors := by
  have hread : ∀ descriptor ∈ descriptors,
      readStateless ⟨written descriptor.attributes, statelessBody layout descriptor⟩ =
        .ok descriptor := by
    intro descriptor hmem
    have hformat := hstateless descriptor hmem
    rw [readStateless, statelessBody, readDefinition_written descriptor (hwritable descriptor hmem)]
    cases descriptor
    cases hformat
    rfl
  unfold ofStatelessAnnotation
  rw [statelessDocument, String.toList_ofList,
    element?_document (isName_tag _ (by simp)) (by simp) fun descriptor _ =>
      closing_not_infix_statelessBody descriptor]
  exact mapM_children_rootBody (written [])
    (fun descriptor _ => closing_not_infix_statelessBody descriptor) hread

example : statelessDocument .indented [⟨⟨"a", "A & B", "s", "i"⟩, true, .stateless⟩] =
    "<policy-definitions>\n  <policy-definition enabled=\"true\">\n    " ++
      "<policy-type id=\"a\" name=\"A &amp; B\" short-description=\"s\" " ++
      "installation-instructions=\"i\"/>\n  </policy-definition>\n</policy-definitions>" := by
  decide +kernel

/-- Names of attributes, tags and entities inside the values, and an equals sign at the end of the last. -/
theorem read_statelessDocument_lookalikes :
    let descriptors : List PolicyDescriptor :=
      [⟨⟨"a name='b' ", " id=\"c\" short-description = '", "</policy-definitions>&amp;lt;", "x="⟩, false,
          .stateless⟩,
        ⟨⟨"=\u00a0é", "", "<policy-type id=\"d\"/>", "&quot;"⟩, true, .stateless⟩]
    ofStatelessAnnotation (statelessDocument .indented descriptors) = .ok descriptors ∧
      ofStatelessAnnotation (statelessDocument .compact []) = .ok [] := by
  intro descriptors
  have hstateless : ∀ descriptor ∈ descriptors, descriptor.format = .stateless := by decide
  have hwritable : ∀ descriptor ∈ descriptors, descriptor.policyType.IsWritable := by
    decide +kernel
  exact ⟨read_statelessDocument .indented hstateless hwritable,
    read_statelessDocument .compact (by simp) (by simp)⟩

end PolicyDescriptor

end Reconcile
