import Reconcile.Json

namespace Reconcile.Json

def asString? : Json → Option String
  | text value => value
  | _ => none

def asBool? : Json → Option Bool
  | bool value => some value
  | _ => none

/-- A whole number of 32 bits with a sign. -/
def asInt32? : Json → Option Int
  | integer value => if -0x80000000 ≤ value ∧ value < 0x80000000 then some value else none
  | _ => none

def asList? (decode : Json → Option α) : Json → Option (List α)
  | array elements => elements.mapM decode
  | _ => none

/-- A value that may be absent. -/
def asOption? (decode : Json → Option α) : Json → Option (Option α)
  | null => some none
  | value => (decode value).map some

/-- One of some names, written as a text or as the only member of an object, whose value is
    null. -/
def asName? (names : List (String × α)) : Json → Option α
  | text (some name) => names.lookup name
  | object [(some name, null)] => names.lookup name
  | _ => none

/-- The entries of an object with known names; of a name that repeats the last one counts. The
    order is that of the first occurrences. -/
def asTable? (decode : Json → Option α) : Json → Option (List (String × α))
  | object members => do
    let entries ← members.mapM fun (name, value) => do return (← name, ← decode value)
    return entries.foldl (fun table (name, value) =>
      if table.any (·.1 == name) then
        table.map fun entry => if entry.1 = name then (name, value) else entry
      else table ++ [(name, value)]) []
  | _ => none

/-- The fields of a record that are written down, under their names. -/
abbrev Fields := List (String × Json)

/-- Whether no name occurs twice. -/
def Fields.areDistinct (fields : Fields) : Bool :=
  decide (fields.map (·.1)).Nodup

/-- The named members of an object whose names are all texts. -/
def namedMembers? (members : List (Option String × Json)) : Option Fields :=
  members.mapM fun (name, value) => name.map (·, value)

/-- The fields of a record with some field names. A record is an object, whose unknown members are
    ignored and whose known ones must not repeat, or an array of its fields in order, of which the
    last ones may be left out if they have a default. -/
def asRecord? (names : List String) : Json → Option Fields
  | object members => do
    let fields := (← namedMembers? members).filter fun (name, _) => names.contains name
    if Fields.areDistinct fields then return fields else none
  | array elements =>
    if elements.length ≤ names.length then some (names.zip elements) else none
  | _ => none

/-- The fields of a record that is merged with the records of some of its fields: it has to be an
    object, and everything in it besides its own fields has to be sound. -/
def asMergedRecord? (own inner : List String) : Json → Option Fields
  | object members => do
    let fields ← namedMembers? members
    let others := fields.filter fun (name, _) => !own.contains name
    if !others.all (·.2.isSound) then none
    else
      let known := fields.filter fun (name, _) => own.contains name || inner.contains name
      if Fields.areDistinct known then return known else none
  | _ => none

def Fields.required? (fields : Fields) (name : String) (decode : Json → Option α) : Option α :=
  (fields.lookup name).bind decode

def Fields.optional? (fields : Fields) (name : String) (decode : Json → Option α) (default : α) :
    Option α :=
  match fields.lookup name with
  | some value => decode value
  | none => some default

end Reconcile.Json
