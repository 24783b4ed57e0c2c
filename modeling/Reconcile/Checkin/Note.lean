import Reconcile.Remote.Basic
import Reconcile.Text.Blank

namespace Reconcile

/-- A note field together with what was written into it. -/
structure CheckinNote where
  name : String
  required : Bool
  value : Option String := none
deriving DecidableEq, Repr, Inhabited

namespace CheckinNote

/-- Whether a required note was left out or left blank. -/
def isMissing (note : CheckinNote) : Bool :=
  note.required && note.value.all Text.isBlankText

/-- Adds a definition to definitions with distinct names. A required one takes the place of the
    one with its name; another one is added only if its name is new. -/
def merge (merged : List NoteDefinition) (definition : NoteDefinition) : List NoteDefinition :=
  if merged.any (·.name == definition.name) then
    if definition.required then
      merged.map fun other => if other.name = definition.name then definition else other
    else merged
  else merged ++ [definition]

/-- The note fields for the definitions of all team projects involved: one field for each name,
    required if any definition of that name says so, in display order. Fields at the same place keep
    the order in which their names came first. -/
def ofDefinitions (definitions : List NoteDefinition) : List CheckinNote :=
  let merged := definitions.foldl merge []
  let ordered := merged.mergeSort fun a b => a.displayOrder ≤ b.displayOrder
  ordered.map fun definition => { name := definition.name, required := definition.required }

/-- The names of the required notes that are missing, in note order. -/
def missingNames (notes : List CheckinNote) : List String :=
  (notes.filter isMissing).map (·.name)

/-- Writes a value into the first note with a name. -/
def setFirst (name value : String) : List CheckinNote → List CheckinNote
  | [] => []
  | note :: notes =>
    if note.name = name then { note with value := some value } :: notes
    else note :: setFirst name value notes

end CheckinNote

end Reconcile
