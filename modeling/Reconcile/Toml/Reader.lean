import Reconcile.Toml.Scalar
import Reconcile.Toml.Text
import Reconcile.Toml.Tree

namespace Reconcile.Toml

/-- Whether a character may stand in a key without quotes. -/
def isBare (c : Char) : Bool :=
  c.isAlphanum || c == '_' || c == '-'

/-- A key without dots, and what follows it. -/
def readSimpleKey : List Char → Option (String × List Char)
  | '"' :: s => (readBasic s).map fun (text, s) => (String.ofList text, s)
  | '\'' :: s => (readLiteral s).map fun (text, s) => (String.ofList text, s)
  | s =>
    match s.span isBare with
    | ([], _) => none
    | (key, s) => some (String.ofList key, s)

/-- The most keys that dots may join, and the most brackets and braces that may stand inside each
    other, less one. -/
def depthLimit : Nat := 79

/-- A key with dots, of at most `bound` parts, and what follows it and the spaces after it. -/
def readKey : (bound : Nat) → List Char → Option (List String × List Char)
  | 0, _ => none
  | bound + 1, s => do
    let (key, s) ← readSimpleKey (skipSpace s)
    match skipSpace s with
    | '.' :: s =>
      let (keys, s) ← readKey bound s
      return (key :: keys, s)
    | s => return ([key], s)

/-- What follows a comment, which may be missing. -/
def skipComment (s : List Char) : List Char :=
  match s with
  | '#' :: s => s.dropWhile isPlain
  | s => s

/-- What follows spaces, line ends and comments. -/
def skipBlank : (bound : Nat) → List Char → List Char
  | 0, s => s
  | bound + 1, s =>
    let s := skipComment (skipSpace s)
    match lineEnd? s with
    | some s => skipBlank bound s
    | none => s

/-- What follows the end of a line, before which spaces and a comment may stand. The end of the
    document ends a line as well. -/
def finishLine? (s : List Char) : Option (List Char) :=
  match skipComment (skipSpace s) with
  | [] => some []
  | s => lineEnd? s

mutual

/-- A value inside `depth` brackets at most, and what follows it. The bound is on the steps still to
    come, for which the length of the text is enough. -/
def readValue : (bound depth : Nat) → List Char → Option (Toml × List Char)
  | 0, _, _ => none
  | bound + 1, depth, s =>
    match s with
    | '"' :: _ => (readString s).map fun (text, s) => (.string (String.ofList text), s)
    | '\'' :: _ => (readString s).map fun (text, s) => (.string (String.ofList text), s)
    | '[' :: s =>
      if depth = 0 then none
      else (readElements bound (depth - 1) s).map fun (elements, s) => (.array elements, s)
    | '\x7b' :: s =>
      if depth = 0 then none
      else
        match skipSpace s with
        | '\x7d' :: s => some (.table [], s)
        | s => do
          let (entries, s) ← readEntries bound (depth - 1) [] s
          return (.table (Entries.toToml entries), s)
    | s => do
      let (word, s) := spanWord s
      let value ← readWord? word
      return (value, s)

/-- The elements of an array up to its end. A comma may stand after the last one. -/
def readElements : (bound depth : Nat) → List Char → Option (List Toml × List Char)
  | 0, _, _ => none
  | bound + 1, depth, s =>
    match skipBlank s.length s with
    | ']' :: s => some ([], s)
    | s => do
      let (element, s) ← readValue bound depth s
      match skipBlank s.length s with
      | ',' :: s =>
        let (elements, s) ← readElements bound depth s
        return (element :: elements, s)
      | ']' :: s => return ([element], s)
      | _ => none

/-- The entries of a table in braces up to its end, at least one, added to those already read. -/
def readEntries : (bound depth : Nat) → Entries → List Char → Option (Entries × List Char)
  | 0, _, _, _ => none
  | bound + 1, depth, entries, s => do
    let (keys, s) ← readKey depthLimit s
    match s with
    | '=' :: s =>
      let (value, s) ← readValue bound depth (skipSpace s)
      let key ← keys.getLast?
      let entries ← entries.addValue keys.dropLast key value
      match skipSpace s with
      | ',' :: s => readEntries bound depth entries s
      | '\x7d' :: s => return (entries, s)
      | _ => none
    | _ => none

end

/-- A document while it is being read: its tables, and the keys of the last header. -/
structure Document where
  root : Entries := []
  header : List String := []

namespace Document

/-- The document with a key and its value, which belong to the last header. -/
def addValue (document : Document) (keys : List String) (value : Toml) : Option Document := do
  let key ← keys.getLast?
  let root ← Entries.update false (fun _ inner =>
    Entries.addValue keys.dropLast key value inner) document.header .defined document.root
  return { document with root }

def addHeader (document : Document) (keys : List String) (isElement : Bool) :
    Option Document := do
  let key ← keys.getLast?
  let root ←
    if isElement then Entries.addElement keys.dropLast key document.root
    else Entries.addTable keys.dropLast key document.root
  return { root, header := keys }

end Document

/-- A header after its opening brackets, and what follows it. -/
def readHeader (isElement : Bool) (s : List Char) : Option (List String × List Char) := do
  let (keys, s) ← readKey depthLimit s
  match isElement, s with
  | true, ']' :: ']' :: s => return (keys, s)
  | false, ']' :: s => return (keys, s)
  | _, _ => none

/-- Adds a line that is not blank to a document, and says what follows it. -/
def readLine (document : Document) : List Char → Option (Document × List Char)
  | '[' :: '[' :: s => do
    let (keys, s) ← readHeader true s
    return (← document.addHeader keys true, ← finishLine? s)
  | '[' :: s => do
    let (keys, s) ← readHeader false s
    return (← document.addHeader keys false, ← finishLine? s)
  | s => do
    let (keys, s) ← readKey depthLimit s
    match s with
    | '=' :: s =>
      let s := skipSpace s
      let (value, s) ← readValue (2 * s.length + 2) depthLimit s
      return (← document.addValue keys value, ← finishLine? s)
    | _ => none

/-- Adds all lines to a document. The bound is on their number. -/
def readLines : (bound : Nat) → Document → List Char → Option Document
  | 0, _, _ => none
  | bound + 1, document, s =>
    match skipBlank (s.length + 1) s with
    | [] => some document
    | s => do
      let (document, s) ← readLine document s
      readLines bound document s

/-- A text without the mark that may stand in front of it. -/
def dropMark : List Char → List Char
  | '\ufeff' :: s => s
  | s => s

/-- The entries of the document that a text writes. A document is a row of lines, headers and keys
    with values, where a value may go on over several lines. -/
def ofText? (document : String) : Option (List (String × Toml)) := do
  let s := dropMark document.toList
  let document ← readLines (s.length + 1) {} s
  return Entries.toToml document.root

end Reconcile.Toml
