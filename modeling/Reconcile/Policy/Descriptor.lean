import Reconcile.Policy.Compatibility

namespace Reconcile

structure PolicyType where
  id : String
  name : String
  shortDescription : String := ""
  installationInstructions : String := ""
deriving DecidableEq, Repr, Inhabited

def PolicyType.label (policyType : PolicyType) : String :=
  s!"{policyType.name} ({policyType.id})"

/-- What a definition says besides the policy itself. -/
inductive DescriptorFormat where
  | stateless
  | stateful (configuration : String)
deriving DecidableEq, Repr, Inhabited

/-- A policy attached to a team project. A stateless definition names a policy; a stateful one
    carries a configuration besides, which is handed to the policy untouched. -/
structure PolicyDescriptor where
  policyType : PolicyType
  enabled : Bool
  format : DescriptorFormat
deriving DecidableEq, Repr, Inhabited

namespace PolicyDescriptor

def isStateful (descriptor : PolicyDescriptor) : Bool :=
  match descriptor.format with
  | .stateless => false
  | .stateful _ => true

/-- The version of the stateful format that is understood. -/
def statefulVersion : String := "1"

/-- The policy and the enabled flag of one definition. A definition without the flag is
    enabled; a policy needs an id that is not blank, and a name. -/
def readDefinition (definition : Markup.Element) : Except AnnotationError (PolicyType × Bool) := do
  let enabled ← match definition.attribute? "enabled" with
    | some raw => readFlag "enabled" raw
    | none => .ok true
  let some element := definition.child? "policy-type"
    | throw (.missingField "policy-type")
  let some id := (element.attribute? "id").filter fun id => !Text.isBlankText id
    | throw (.missingField "policy-type id")
  let some name := element.attribute? "name"
    | throw (.missingField "policy-type name")
  let policyType := {
    id, name
    shortDescription := (element.attribute? "short-description").getD ""
    installationInstructions := (element.attribute? "installation-instructions").getD "" }
  return (policyType, enabled)

def readStateless (definition : Markup.Element) : Except AnnotationError PolicyDescriptor := do
  let (policyType, enabled) ← readDefinition definition
  return { policyType, enabled, format := .stateless }

/-- The descriptor of one stateful definition; its configuration is the text inside the element,
    as it stands. -/
def readStateful (definition : Markup.Element) : Except AnnotationError PolicyDescriptor := do
  let (policyType, enabled) ← readDefinition definition
  let configuration := (definition.child? "configuration").map (String.ofList ·.trimmedBody)
  return { policyType, enabled, format := .stateful (configuration.getD "") }

def ofStatelessAnnotation (value : String) : Except AnnotationError (List PolicyDescriptor) := do
  let some root := Markup.element? "policy-definitions" value.toList
    | throw (.missingRoot "policy-definitions")
  (root.children "policy-definition").mapM readStateless

def ofStatefulAnnotation (value : String) : Except AnnotationError (List PolicyDescriptor) := do
  let some root := Markup.element? "policy-annotation" value.toList
    | throw (.missingRoot "policy-annotation")
  match root.attribute? "version" with
  | none => throw (.missingField "policy-annotation version")
  | some version =>
    if Text.trimmed version = statefulVersion then
      (root.children "policy-definition").mapM readStateful
    else throw (.invalidValue "policy-annotation version" version)

end PolicyDescriptor

end Reconcile
