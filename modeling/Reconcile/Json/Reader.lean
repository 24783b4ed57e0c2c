import Reconcile.Json
import Reconcile.Text.Number

namespace Reconcile.Json

/-- What may stand between the parts of a document. -/
def isBlank (c : Char) : Bool :=
  c == ' ' || c == '\n' || c == '\t' || c == '\r'

def skipBlank (s : List Char) : List Char :=
  s.dropWhile isBlank

def shortEscape? (c : Char) : Option Char :=
  if c = '"' ∨ c = '\\' ∨ c = '/' then some c
  else if c = 'b' then some '\x08'
  else if c = 'f' then some '\x0c'
  else if c = 'n' then some '\n'
  else if c = 'r' then some '\r'
  else if c = 't' then some '\t'
  else none

/-- A piece of a text: a character, or one half of a pair that makes up a character. -/
inductive Piece where
  | char (c : Char)
  | leading (unit : Nat)
  | trailing (unit : Nat)
deriving DecidableEq, Repr, Inhabited

/-- The piece for a code unit. -/
def Piece.ofUnit (unit : Nat) : Piece :=
  if 0xD800 ≤ unit ∧ unit < 0xDC00 then .leading unit
  else if 0xDC00 ≤ unit ∧ unit < 0xE000 then .trailing unit
  else .char (Char.ofNat unit)

/-- The characters that pieces make up; nothing if a half has no partner. -/
def Piece.join : List Piece → Option (List Char)
  | [] => some []
  | .char c :: pieces => (join pieces).map (c :: ·)
  | .leading high :: .trailing low :: pieces =>
    (join pieces).map (Char.ofNat (0x10000 + (high - 0xD800) * 0x400 + (low - 0xDC00)) :: ·)
  | _ => none

/-- The pieces up to the closing quote, and what follows it. -/
def pieces : List Char → Option (List Piece × List Char)
  | [] => none
  | '"' :: s => some ([], s)
  | '\\' :: 'u' :: a :: b :: c :: d :: s => do
    let unit ← Text.hexNumber? [a, b, c, d]
    let (rest, s) ← pieces s
    return (Piece.ofUnit unit :: rest, s)
  | '\\' :: c :: s => do
    let c ← shortEscape? c
    let (rest, s) ← pieces s
    return (.char c :: rest, s)
  | c :: s =>
    if c.toNat < 0x20 ∨ c = '\\' then none
    else do
      let (rest, s) ← pieces s
      return (.char c :: rest, s)

/-- A text without its opening quote, and what follows it. -/
def readText (s : List Char) : Option (Option String × List Char) := do
  let (pieces, s) ← pieces s
  return ((Piece.join pieces).map String.ofList, s)

/-- The digits of a whole number: a zero stands alone. -/
def readWhole (s : List Char) : Option (List Char × List Char) :=
  match Decimal.spanDigits s with
  | ([], _) => none
  | ('0' :: _ :: _, _) => none
  | (digits, s) => some (digits, s)

/-- The digits of a fraction; none if there is no point. -/
def readFraction : List Char → Option (List Char × List Char)
  | '.' :: s =>
    match Decimal.spanDigits s with
    | ([], _) => none
    | (digits, s) => some (digits, s)
  | s => some ([], s)

/-- An exponent, if there is one. -/
def readExponent (s : List Char) : Option (Option Int × List Char) :=
  let digitsOf (sign : Int) (s : List Char) : Option (Option Int × List Char) :=
    match Decimal.spanDigits s with
    | ([], _) => none
    | (digits, s) => some (some (sign * Decimal.ofDigits digits), s)
  match s with
  | c :: s =>
    if c = 'e' ∨ c = 'E' then
      match s with
      | '+' :: s => digitsOf 1 s
      | '-' :: s => digitsOf (-1) s
      | s => digitsOf 1 s
    else some (none, c :: s)
  | [] => some (none, [])

/-- A number without its sign. -/
def readMagnitude (negative : Bool) (s : List Char) : Option (Json × List Char) := do
  let (whole, s) ← readWhole s
  let (fraction, s) ← readFraction s
  let (exponent, s) ← readExponent s
  let digits := Decimal.ofDigits (whole ++ fraction)
  if fraction = [] ∧ exponent = none ∧ !(negative ∧ digits = 0) then
    return (.integer (if negative then -(digits : Int) else digits), s)
  else
    return (.decimal (Decimal.fitsDouble digits (exponent.getD 0 - fraction.length)), s)

def readNumber : List Char → Option (Json × List Char)
  | '-' :: s => readMagnitude true s
  | s => readMagnitude false s

mutual

/-- A value and what follows it. The bound is on the number of values still to come, so the length
    of the text is enough. -/
def readValue : (bound : Nat) → List Char → Option (Json × List Char)
  | 0, _ => none
  | bound + 1, s =>
    match skipBlank s with
    | 'n' :: 'u' :: 'l' :: 'l' :: s => some (.null, s)
    | 't' :: 'r' :: 'u' :: 'e' :: s => some (.bool true, s)
    | 'f' :: 'a' :: 'l' :: 's' :: 'e' :: s => some (.bool false, s)
    | '"' :: s => (readText s).map fun (value, s) => (.text value, s)
    | '[' :: s =>
      match skipBlank s with
      | ']' :: s => some (.array [], s)
      | s => (readElements bound s).map fun (elements, s) => (.array elements, s)
    | '\x7b' :: s =>
      match skipBlank s with
      | '\x7d' :: s => some (.object [], s)
      | s => (readMembers bound s).map fun (members, s) => (.object members, s)
    | s => readNumber s

/-- The elements of an array up to its end, at least one. -/
def readElements : (bound : Nat) → List Char → Option (List Json × List Char)
  | 0, _ => none
  | bound + 1, s => do
    let (element, s) ← readValue bound s
    match skipBlank s with
    | ',' :: s =>
      let (elements, s) ← readElements bound s
      return (element :: elements, s)
    | ']' :: s => return ([element], s)
    | _ => none

/-- The members of an object up to its end, at least one. -/
def readMembers : (bound : Nat) → List Char → Option (List (Option String × Json) × List Char)
  | 0, _ => none
  | bound + 1, s => do
    match skipBlank s with
    | '"' :: s =>
      let (name, s) ← readText s
      match skipBlank s with
      | ':' :: s =>
        let (value, s) ← readValue bound s
        match skipBlank s with
        | ',' :: s =>
          let (members, s) ← readMembers bound s
          return ((name, value) :: members, s)
        | '\x7d' :: s => return ([(name, value)], s)
        | _ => none
      | _ => none
    | _ => none

end

/-- The value that a text writes, by the strict grammar: no comments, no commas at the end, no
    leading zeros, control characters only as escapes, and nothing but blanks after the value. -/
def ofText? (document : String) : Option Json := do
  let s := document.toList
  let (value, rest) ← readValue (s.length + 1) s
  if skipBlank rest = [] then return value else none

end Reconcile.Json
