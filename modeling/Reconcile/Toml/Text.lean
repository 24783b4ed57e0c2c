import Reconcile.Text.Number

namespace Reconcile.Toml

/-- What may stand between the parts of a line. -/
def isSpace (c : Char) : Bool :=
  c == ' ' || c == '\t'

def skipSpace (s : List Char) : List Char :=
  s.dropWhile isSpace

/-- Whether a character may stand in a comment or in a string as it is: everything but the control
    characters, of which the tab is allowed. -/
def isPlain (c : Char) : Bool :=
  c == '\t' || (0x20 ≤ c.toNat && c.toNat != 0x7F)

/-- What is left after a line end; nothing if there is none. -/
def lineEnd? : List Char → Option (List Char)
  | '\n' :: s => some s
  | '\x0d' :: '\n' :: s => some s
  | _ => none

/-- The character whose number some hexadecimal digits write. Halves of surrogate pairs are no
    characters. -/
def hexChar? (digits : List Char) : Option Char := do
  let number ← Text.hexNumber? digits
  if number < 0xD800 ∨ (0xDFFF < number ∧ number < 0x110000) then some (Char.ofNat number)
  else none

/-- The character that a short escape stands for. -/
def shortEscape? (c : Char) : Option Char :=
  if c = '"' ∨ c = '\\' then some c
  else if c = 'b' then some '\x08'
  else if c = 't' then some '\t'
  else if c = 'n' then some '\n'
  else if c = 'f' then some '\x0c'
  else if c = 'r' then some '\x0d'
  else none

/-- A character in front of the rest of a string. -/
def prepend (c : Char) (rest : Option (List Char × List Char)) :
    Option (List Char × List Char) :=
  rest.map fun (text, s) => (c :: text, s)

/-- The text of a string with escapes, after its opening quote, and what follows it. -/
def readBasic : List Char → Option (List Char × List Char)
  | [] => none
  | '"' :: s => some ([], s)
  | '\\' :: 'u' :: a :: b :: c :: d :: s => do
    let char ← hexChar? [a, b, c, d]
    prepend char (readBasic s)
  | '\\' :: 'U' :: a :: b :: c :: d :: e :: f :: g :: h :: s => do
    let char ← hexChar? [a, b, c, d, e, f, g, h]
    prepend char (readBasic s)
  | '\\' :: c :: s => do
    let char ← shortEscape? c
    prepend char (readBasic s)
  | c :: s => if isPlain c ∧ c ≠ '\\' then prepend c (readBasic s) else none

/-- The text of a literal string, after its opening quote, and what follows it. -/
def readLiteral : List Char → Option (List Char × List Char)
  | [] => none
  | '\'' :: s => some ([], s)
  | c :: s => if isPlain c then prepend c (readLiteral s) else none

/-- Whether nothing but spaces stand before the next line end. -/
def endsLine (s : List Char) : Bool :=
  (lineEnd? (skipSpace s)).isSome

/-- The text of a string with escapes on several lines, after its opening quotes, and what follows
    it. Up to two quotes may stand before the closing ones. A backslash at the end of a line takes
    away all blanks up to the next character; `skipping` says that this is going on. -/
def readLongBasic (skipping : Bool) : List Char → Option (List Char × List Char)
  | [] => none
  | '"' :: '"' :: '"' :: '"' :: '"' :: s => some (['"', '"'], s)
  | '"' :: '"' :: '"' :: '"' :: s => some (['"'], s)
  | '"' :: '"' :: '"' :: s => some ([], s)
  | '\\' :: 'u' :: a :: b :: c :: d :: s => do
    let char ← hexChar? [a, b, c, d]
    prepend char (readLongBasic false s)
  | '\\' :: 'U' :: a :: b :: c :: d :: e :: f :: g :: h :: s => do
    let char ← hexChar? [a, b, c, d, e, f, g, h]
    prepend char (readLongBasic false s)
  | '\x0d' :: '\n' :: s =>
    if skipping then readLongBasic true s else prepend '\n' (readLongBasic false s)
  | '\\' :: c :: s =>
    if endsLine (c :: s) then readLongBasic true s
    else do
      let char ← shortEscape? c
      prepend char (readLongBasic false s)
  | c :: s =>
    if skipping ∧ (isSpace c ∨ c = '\n') then readLongBasic true s
    else if c = '\n' ∨ (isPlain c ∧ c ≠ '\\') then prepend c (readLongBasic false s)
    else none

/-- The text of a literal string on several lines, after its opening quotes, and what follows it.
    Up to two quotes may stand before the closing ones. -/
def readLongLiteral : List Char → Option (List Char × List Char)
  | [] => none
  | '\'' :: '\'' :: '\'' :: '\'' :: '\'' :: s => some (['\'', '\''], s)
  | '\'' :: '\'' :: '\'' :: '\'' :: s => some (['\''], s)
  | '\'' :: '\'' :: '\'' :: s => some ([], s)
  | '\x0d' :: '\n' :: s => prepend '\n' (readLongLiteral s)
  | c :: s => if c = '\n' ∨ isPlain c then prepend c (readLongLiteral s) else none

def dropLineEnd (s : List Char) : List Char :=
  (lineEnd? s).getD s

/-- A string of any kind, with escapes or literal, on one line or on several, and what follows it.
    Line ends inside a string become line feeds. -/
def readString : List Char → Option (List Char × List Char)
  | '"' :: '"' :: '"' :: s => readLongBasic false (dropLineEnd s)
  | '"' :: s => readBasic s
  | '\'' :: '\'' :: '\'' :: s => readLongLiteral (dropLineEnd s)
  | '\'' :: s => readLiteral s
  | _ => none

end Reconcile.Toml
