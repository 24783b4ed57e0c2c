import Reconcile.Conflict.Change

namespace Reconcile

/-- The operation that brought a conflict to light. -/
inductive ConflictType where
  | get
  | checkin
  | merge
deriving DecidableEq, Repr, Inhabited

def ConflictType.name : ConflictType → String
  | get => "get"
  | checkin => "checkin"
  | merge => "merge"

inductive ItemType where
  | file
  | folder
deriving DecidableEq, Repr, Inhabited

/-- One discrepancy between the local and the server state of an item, as a server reports it after
    a get, a check-in or a merge. Local paths are kept in the form in which they came from the
    server. -/
structure Conflict where
  /-- The number given by the server; zero for no conflict at all. -/
  id : Int := 0
  conflictType : ConflictType := .get
  itemType : ItemType := .file
  sourceLocalItem : Option String := none
  targetLocalItem : Option String := none
  yourChange : ChangeSet := {}
  yourLocalChange : ChangeSet := {}
  baseChange : ChangeSet := {}
  baseVersion : Int := 0
  yourVersion : Int := 0
  targetVersion : Int := 0
  targetLocalModifiedVersion : Int := 0
  yourLocalModifiedVersion : Int := 0
  baseItemId : Int := 0
  yourItemId : Int := 0
  targetItemId : Int := 0
  forced : Bool := false
  nameConflict : Bool := false
  resolved : Bool := false
deriving DecidableEq, Repr, Inhabited

namespace Conflict

/-- The source item, or the target item if there is no source. -/
def sourceOrTarget (conflict : Conflict) : Option String :=
  conflict.sourceLocalItem <|> conflict.targetLocalItem

/-- The target item, or the source item if there is no target. -/
def targetOrSource (conflict : Conflict) : Option String :=
  conflict.targetLocalItem <|> conflict.sourceLocalItem

/-- Whether a get or a check-in found two items of one name. -/
def isNamespace (conflict : Conflict) : Bool :=
  conflict.conflictType != .merge && conflict.nameConflict

/-- Whether a set of changes touches the name or the content of an item. -/
def renamesOrEdits (changes : ChangeSet) : Bool :=
  changes.containsAny [.rename, .edit]

/-- Whether both sides renamed or edited the item. -/
def bothChanged (conflict : Conflict) : Bool :=
  (renamesOrEdits conflict.yourChange || renamesOrEdits conflict.yourLocalChange) &&
    renamesOrEdits conflict.baseChange

/-- Whether a merge brings an edit to a file that was changed here as well, or that was forced:
    the file was edited locally, or one of its versions is not the one that was merged. -/
def mergesEditedFile (conflict : Conflict) : Bool :=
  conflict.itemType == .file && conflict.conflictType == .merge &&
    conflict.baseChange.contains .edit &&
    (conflict.yourLocalChange.contains .edit || conflict.forced ||
      conflict.targetLocalModifiedVersion != conflict.baseVersion ||
      conflict.yourLocalModifiedVersion != conflict.yourVersion)

/-- Whether the two sides can be merged. -/
def isMergeable (conflict : Conflict) : Bool :=
  conflict.sourceLocalItem.isSome && !conflict.isNamespace &&
    (conflict.bothChanged || conflict.mergesEditedFile)

/-- Whether one side renamed the item. -/
def isNameConflict (conflict : Conflict) : Bool :=
  conflict.yourChange.contains .rename || conflict.baseChange.contains .rename

/-- Whether one side edited the content. -/
def isContentConflict (conflict : Conflict) : Bool :=
  conflict.yourChange.contains .edit || conflict.baseChange.contains .edit

def unresolved (conflicts : List Conflict) : List Conflict :=
  conflicts.filter (!·.resolved)

end Conflict

end Reconcile
