import Reconcile.Json
import Reconcile.Text.Number

namespace Reconcile.Json

/-- How a character is written in a text. -/
def escapeChar (c : Char) : List Char :=
  if c = '"' ∨ c = '\\' then ['\\', c]
  else if c = '\x08' then ['\\', 'b']
  else if c = '\x0c' then ['\\', 'f']
  else if c = '\n' then ['\\', 'n']
  else if c = '\r' then ['\\', 'r']
  else if c = '\t' then ['\\', 't']
  else if c.toNat < 0x20 then
    ['\\', 'u'] ++ Text.hexDigits Text.hexDigit 4 c.toNat
  else [c]

def quote (value : String) : String :=
  String.ofList (['"'] ++ value.toList.flatMap escapeChar ++ ['"'])

/-- The start of a line at some depth. -/
def lineStart (depth : Nat) : String :=
  "\n" ++ String.ofList (List.replicate (2 * depth) ' ')

/-- What stands in brackets, each item on a line of its own. -/
def bracketed (opening closing : String) (depth : Nat) (items : List String) : String :=
  if items.isEmpty then opening ++ closing
  else
    let lines := items.map (lineStart (depth + 1) ++ ·)
    opening ++ ",".intercalate lines ++ lineStart depth ++ closing

mutual

/-- A value at some depth. -/
def prettyAt (depth : Nat) : Json → String
  | null => "null"
  | bool value => if value then "true" else "false"
  | integer value => toString value
  | decimal _ => "null"
  | text value => quote (value.getD "")
  | array elements => bracketed "[" "]" depth (prettyElements (depth + 1) elements)
  | object members => bracketed "\x7b" "\x7d" depth (prettyMembers (depth + 1) members)

def prettyElements (depth : Nat) : List Json → List String
  | [] => []
  | element :: elements => prettyAt depth element :: prettyElements depth elements

def prettyMembers (depth : Nat) : List (Option String × Json) → List String
  | [] => []
  | (name, value) :: members =>
    (quote (name.getD "") ++ ": " ++ prettyAt depth value) :: prettyMembers depth members

end

/-- A value in the form for people: every element and member on a line of its own, two blanks deeper
    than what it belongs to. Nothing is escaped that need not be. -/
def pretty (value : Json) : String :=
  prettyAt 0 value

end Reconcile.Json
