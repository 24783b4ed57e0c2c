import Reconcile.Json.Decode
import Reconcile.Policy.Descriptor

namespace Reconcile

def PolicyType.ofJson? (value : Json) : Option PolicyType := do
  let fields ← value.asRecord? ["id", "name", "short_description", "installation_instructions"]
  return {
    id := ← fields.required? "id" Json.asString?
    name := ← fields.required? "name" Json.asString?
    shortDescription := ← fields.optional? "short_description" Json.asString? ""
    installationInstructions :=
      ← fields.optional? "installation_instructions" Json.asString? "" }

def PolicyType.toJson (policyType : PolicyType) : Json :=
  .ofMembers
    [("id", .ofString policyType.id), ("name", .ofString policyType.name),
      ("short_description", .ofString policyType.shortDescription),
      ("installation_instructions", .ofString policyType.installationInstructions)]

/-- The name of a format, which may also be given by its position. -/
def DescriptorFormat.isStateful? : Json → Option Bool
  | .text (some "stateless") => some false
  | .text (some "stateful") => some true
  | .integer 0 => some false
  | .integer 1 => some true
  | _ => none

/-- A policy descriptor. Its format is a name among its own members, and a configuration stands
    beside it. -/
def PolicyDescriptor.ofJson? (value : Json) : Option PolicyDescriptor := do
  let members ← match value with
    | .object members => some members
    | _ => none
  let stateful ← ((← Json.namedMembers? members).lookup "format").bind DescriptorFormat.isStateful?
  let inner := if stateful then ["format", "configuration"] else ["format"]
  let fields ← value.asMergedRecord? ["policy_type", "enabled"] inner
  let format ←
    if stateful then
      (fields.required? "configuration" Json.asString?).map DescriptorFormat.stateful
    else some .stateless
  return {
    policyType := ← fields.required? "policy_type" PolicyType.ofJson?
    enabled := ← fields.required? "enabled" Json.asBool?
    format }

/-- The written form of a format, as members of a descriptor. -/
def DescriptorFormat.members : DescriptorFormat → List (String × Json)
  | stateless => [("format", .ofString "stateless")]
  | stateful configuration =>
    [("format", .ofString "stateful"), ("configuration", .ofString configuration)]

def PolicyDescriptor.toJson (descriptor : PolicyDescriptor) : Json :=
  .ofMembers ([("policy_type", descriptor.policyType.toJson),
    ("enabled", .bool descriptor.enabled)] ++ descriptor.format.members)

def Compatibility.toJson (flags : Compatibility) : Json :=
  .ofMembers
    [("team_explorer", .bool flags.teamExplorer), ("teamprise", .bool flags.teamprise),
      ("non_installed", .bool flags.nonInstalled)]

end Reconcile
