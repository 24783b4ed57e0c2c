import Reconcile.Conflict.Basic
import Reconcile.Json.Decode

namespace Reconcile

/-- The kinds of change by name. -/
def ChangeType.names : List (String × ChangeType) :=
  ChangeType.all.map fun change => (change.name, change)

def ConflictType.names : List (String × ConflictType) :=
  [ConflictType.get, .checkin, .merge].map fun kind => (kind.name, kind)

def ItemType.name : ItemType → String
  | file => "file"
  | folder => "folder"

def ItemType.names : List (String × ItemType) :=
  [ItemType.file, .folder].map fun kind => (kind.name, kind)

def ChangeSet.ofJson? (value : Json) : Option ChangeSet :=
  (value.asList? (Json.asName? ChangeType.names)).map ChangeSet.ofList

/-- The written form of a set of changes: its kinds by bit. -/
def ChangeSet.toJson (set : ChangeSet) : Json :=
  .array (set.toList.map fun change => .ofString change.name)

namespace Conflict

/-- The names of the fields, in order. -/
def fieldNames : List String :=
  ["id", "conflict_type", "item_type", "source_local_item", "target_local_item", "your_change",
    "your_local_change", "base_change", "base_version", "your_version", "target_version",
    "target_local_modified_version", "your_local_modified_version", "base_item_id",
    "your_item_id", "target_item_id", "forced", "name_conflict", "resolved"]

/-- A conflict. Every field has a default, and a set of changes is a list of names. -/
def ofJson? (value : Json) : Option Conflict := do
  let fields ← value.asRecord? fieldNames
  let changes (name : String) := fields.optional? name ChangeSet.ofJson? {}
  let item (name : String) := fields.optional? name (Json.asOption? Json.asString?) none
  let number (name : String) := fields.optional? name Json.asInt32? 0
  let flag (name : String) := fields.optional? name Json.asBool? false
  return {
    id := ← number "id"
    conflictType := ← fields.optional? "conflict_type" (Json.asName? ConflictType.names) .get
    itemType := ← fields.optional? "item_type" (Json.asName? ItemType.names) .file
    sourceLocalItem := ← item "source_local_item"
    targetLocalItem := ← item "target_local_item"
    yourChange := ← changes "your_change"
    yourLocalChange := ← changes "your_local_change"
    baseChange := ← changes "base_change"
    baseVersion := ← number "base_version"
    yourVersion := ← number "your_version"
    targetVersion := ← number "target_version"
    targetLocalModifiedVersion := ← number "target_local_modified_version"
    yourLocalModifiedVersion := ← number "your_local_modified_version"
    baseItemId := ← number "base_item_id"
    yourItemId := ← number "your_item_id"
    targetItemId := ← number "target_item_id"
    forced := ← flag "forced"
    nameConflict := ← flag "name_conflict"
    resolved := ← flag "resolved" }

/-- The written form of a conflict, with all of its fields. -/
def toJson (conflict : Conflict) : Json :=
  .ofMembers
    [("id", .integer conflict.id),
      ("conflict_type", .ofString conflict.conflictType.name),
      ("item_type", .ofString conflict.itemType.name),
      ("source_local_item", .ofString? conflict.sourceLocalItem),
      ("target_local_item", .ofString? conflict.targetLocalItem),
      ("your_change", conflict.yourChange.toJson),
      ("your_local_change", conflict.yourLocalChange.toJson),
      ("base_change", conflict.baseChange.toJson),
      ("base_version", .integer conflict.baseVersion),
      ("your_version", .integer conflict.yourVersion),
      ("target_version", .integer conflict.targetVersion),
      ("target_local_modified_version", .integer conflict.targetLocalModifiedVersion),
      ("your_local_modified_version", .integer conflict.yourLocalModifiedVersion),
      ("base_item_id", .integer conflict.baseItemId),
      ("your_item_id", .integer conflict.yourItemId),
      ("target_item_id", .integer conflict.targetItemId),
      ("forced", .bool conflict.forced),
      ("name_conflict", .bool conflict.nameConflict),
      ("resolved", .bool conflict.resolved)]

end Conflict

end Reconcile
