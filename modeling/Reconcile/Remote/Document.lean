import Reconcile.Files
import Reconcile.Json.Decode
import Reconcile.Json.Reader
import Reconcile.Remote.Snapshot

namespace Reconcile

def AnnotationKind.names : List (String × AnnotationKind) :=
  [("overrides", .overrides), ("stateless_policies", .statelessPolicies),
    ("stateful_policies", .statefulPolicies)]

def RecordedNote.ofJson? (value : Json) : Option RecordedNote := do
  let fields ← value.asMergedRecord? ["team_project"] ["name", "required", "display_order"]
  return {
    project := ← fields.optional? "team_project" (Json.asOption? Json.asString?) none
    definition :=
      { name := ← fields.required? "name" Json.asString?
        required := ← fields.optional? "required" Json.asBool? false
        displayOrder := ← fields.optional? "display_order" Json.asInt32? 0 } }

def RecordedAnnotation.ofJson? (value : Json) : Option RecordedAnnotation := do
  let fields ← value.asMergedRecord? ["kind"] ["item", "value"]
  return {
    kind := ← fields.required? "kind" (Json.asName? AnnotationKind.names)
    content :=
      { item := ← fields.required? "item" Json.asString?
        value := ← fields.optional? "value" (Json.asOption? Json.asString?) none } }

def ServerRecord.ofJson? (value : Json) : Option ServerRecord := do
  let fields ← value.asRecord? ["note_definitions", "annotations"]
  return {
    notes := ← fields.optional? "note_definitions" (Json.asList? RecordedNote.ofJson?) []
    annotations := ← fields.optional? "annotations" (Json.asList? RecordedAnnotation.ofJson?) [] }

namespace Snapshot

/-- A snapshot. Everything but names, kinds and items may be left out. -/
def ofJson? (value : Json) : Option Snapshot := do
  let fields ← value.asRecord? ["servers"]
  return { servers := ← fields.optional? "servers" (Json.asTable? ServerRecord.ofJson?) [] }

def ofText? (text : String) : Option Snapshot :=
  (Json.ofText? text).bind ofJson?

def load [Monad m] (files : FileAccess m) (path : LocalPath) :
    m (Except RemoteError Snapshot) := do
  match ← files.readText path with
  | .error error => return .error (.transport path.display error.message)
  | .ok text =>
    match ofText? text with
    | some snapshot => return .ok snapshot
    | none => return .error (.server "invalid snapshot: not the written form of a snapshot")

end Snapshot

end Reconcile
