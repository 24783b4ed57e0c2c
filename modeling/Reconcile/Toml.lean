namespace Reconcile

/-- A TOML value, as far as a configuration looks into it: of numbers that are not whole, and of
    dates and times, it is enough to know that they are there. -/
inductive Toml where
  | string (value : String)
  | integer (value : Int)
  | float
  | boolean (value : Bool)
  | datetime
  | array (elements : List Toml)
  /-- A table, whose keys are distinct. -/
  | table (entries : List (String × Toml))
deriving Repr, Inhabited

namespace Toml

def asString? : Toml → Option String
  | string value => some value
  | _ => none

def asBool? : Toml → Option Bool
  | boolean value => some value
  | _ => none

def asList? (decode : Toml → Option α) : Toml → Option (List α)
  | array elements => elements.mapM decode
  | _ => none

/-- The fields of a record that are written down, under their names. -/
abbrev Fields := List (String × Toml)

/-- The fields of a record with some field names. A record is a table, whose unknown keys are
    ignored, or an array of its fields in order; a date or time counts as a record without any
    field. -/
def asRecord? (names : List String) : Toml → Option Fields
  | table entries => some entries
  | array elements => some (names.zip elements)
  | datetime => some []
  | _ => none

def Fields.required? (fields : Fields) (name : String) (decode : Toml → Option α) : Option α :=
  (fields.lookup name).bind decode

def Fields.optional? (fields : Fields) (name : String) (decode : Toml → Option α) (default : α) :
    Option α :=
  match fields.lookup name with
  | some value => decode value
  | none => some default

end Toml

end Reconcile
