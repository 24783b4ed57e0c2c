import Reconcile.Text.Number

namespace Reconcile

/-- A JSON value. The members of an object keep their order and may repeat a name, because it
    depends on the reader of a document whether that is an error. A text with half of a surrogate
    pair stands for no characters, and yet it may occur where nobody looks at it. -/
inductive Json where
  | null
  | bool (value : Bool)
  /-- A number written without a fraction or an exponent; minus zero is not one of them. -/
  | integer (value : Int)
  /-- Any other number, and whether it is small enough for a double. -/
  | decimal (fitsDouble : Bool)
  /-- A text; nothing if it holds half of a surrogate pair. -/
  | text (value : Option String)
  | array (elements : List Json)
  | object (members : List (Option String × Json))
deriving Repr, Inhabited

namespace Json

def ofString (value : String) : Json :=
  .text (some value)

/-- A text or nothing. -/
def ofString? : Option String → Json
  | some value => ofString value
  | none => .null

def ofMembers (members : List (String × Json)) : Json :=
  .object (members.map fun (name, value) => (some name, value))

mutual

/-- Whether a value can be kept as it is: every text in it is one, and every number fits. -/
def isSound : Json → Bool
  | null => true
  | bool _ => true
  | integer value => Decimal.fitsDouble value.natAbs 0
  | decimal fits => fits
  | text value => value.isSome
  | array elements => areSound elements
  | object members => haveSound members

def areSound : List Json → Bool
  | [] => true
  | element :: elements => isSound element && areSound elements

def haveSound : List (Option String × Json) → Bool
  | [] => true
  | (name, value) :: members => name.isSome && isSound value && haveSound members

end

end Json

end Reconcile
