import Reconcile.Conflict.Registry
import Reconcile.Json.Printer
import Reconcile.LocalPath
import Reconcile.Table
import Reconcile.Text.Display

namespace Reconcile

namespace RegisteredConflict

/-- The local item of a conflict, as a path of the local machine. -/
def localItem? (entry : RegisteredConflict) : Option String :=
  entry.conflict.sourceOrTarget.map fun item => (LocalPath.ofWire item).display

/-- A conflict and how it is classified. -/
def toJson (entry : RegisteredConflict) : Json :=
  .ofMembers
    [("id", .integer entry.conflict.id), ("workspace", .ofString entry.workspace.name),
      ("local_item", .ofString? entry.localItem?),
      ("mergeable", .bool entry.conflict.isMergeable),
      ("name_conflict", .bool entry.conflict.isNameConflict),
      ("content_conflict", .bool entry.conflict.isContentConflict)]

def row (entry : RegisteredConflict) : List String :=
  [toString entry.conflict.id, entry.workspace.name, entry.conflict.conflictType.name,
    entry.localItem?.getD "—", entry.conflict.yourChange.label,
    Text.yesNo entry.conflict.isMergeable, Text.yesNo entry.conflict.isNameConflict,
    Text.yesNo entry.conflict.isContentConflict]

end RegisteredConflict

namespace ConflictRegistry

/-- The conflicts in order, for programs. -/
def toJson (registry : ConflictRegistry) : Json :=
  .array (registry.entries.map RegisteredConflict.toJson)

def table (registry : ConflictRegistry) : Table :=
  { header :=
      ["ID", "Workspace", "Type", "Local item", "Your change", "Mergeable", "Name", "Content"]
    rows := registry.entries.map RegisteredConflict.row }

/-- The conflicts in lines, for people. -/
def lines (registry : ConflictRegistry) : List String :=
  if registry.isEmpty then ["", Text.markSuccess "No unresolved conflicts", ""]
  else ["", s!"Unresolved Conflicts ({registry.size})", "", registry.table.text, ""]

end ConflictRegistry

end Reconcile
