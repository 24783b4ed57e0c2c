import Reconcile.Toml

namespace Reconcile.Toml

/-- How a table came about: by its own header or braces, because a header names something inside it,
    or because a dotted key does. This decides what may still be added to it; nothing is ever
    defined twice. -/
inductive Origin where
  /-- By its own header or braces. -/
  | defined
  /-- Because a header names something inside it. -/
  | implied
  /-- Because a dotted key names something inside it. -/
  | dotted
deriving DecidableEq, Repr, Inhabited

/-- What a key stands for. -/
inductive Node where
  | value (value : Toml)
  | table (origin : Origin) (entries : List (String × Node))
  /-- The tables of headers in double brackets, the last one first. -/
  | tables (elements : List (List (String × Node)))
deriving Inhabited

/-- The entries of a table under construction. -/
abbrev Entries := List (String × Node)

namespace Entries

/-- Puts a node under a key that is there. -/
def replace (entries : Entries) (key : String) (node : Node) : Entries :=
  entries.map fun entry => if entry.1 = key then (key, node) else entry

/-- Changes the table at the end of a path by `change`, which is told how that table came about. A
    table that is missing on the way is made: by a dotted key if `isDotted`. A dotted key does not
    enter tables with a header or braces of their own. -/
def update (isDotted : Bool) (change : Origin → Entries → Option Entries) :
    List String → Origin → Entries → Option Entries
  | [], origin, entries => change origin entries
  | key :: path, _, entries =>
    match entries.lookup key with
    | none => do
      let origin := if isDotted then Origin.dotted else .implied
      let inner ← update isDotted change path origin []
      return entries ++ [(key, .table origin inner)]
    | some (.value _) => none
    | some (.table origin inner) =>
      if isDotted ∧ origin = .defined then none
      else do
        let inner ← update isDotted change path origin inner
        return entries.replace key (.table origin inner)
    | some (.tables []) => none
    | some (.tables (last :: others)) => do
      let last ← update isDotted change path .defined last
      return entries.replace key (.tables (last :: others))

/-- Adds a value under a key, inside the table that the keys before it lead to. Those have to lead
    to a table that came about by dotted keys. -/
def addValue (path : List String) (key : String) (value : Toml) (entries : Entries) :
    Option Entries :=
  update true (fun origin inner =>
    if decide (origin = .dotted) = path.isEmpty ∨ (inner.lookup key).isSome then none
    else some (inner ++ [(key, .value value)])) path .defined entries

def addTable (path : List String) (key : String) (entries : Entries) : Option Entries :=
  update false (fun _ inner =>
    match inner.lookup key with
    | none => some (inner ++ [(key, .table .defined [])])
    | some (.table .implied content) => some (inner.replace key (.table .defined content))
    | some _ => none) path .defined entries

/-- Adds a table to those of headers in double brackets. -/
def addElement (path : List String) (key : String) (entries : Entries) : Option Entries :=
  update false (fun _ inner =>
    match inner.lookup key with
    | none => some (inner ++ [(key, .tables [[]])])
    | some (.tables elements) => some (inner.replace key (.tables ([] :: elements)))
    | some _ => none) path .defined entries

end Entries

mutual

/-- The value that a node has come to. -/
def Node.toToml : Node → Toml
  | .value value => value
  | .table _ entries => .table (Entries.toToml entries)
  | .tables elements => .array (elementsToToml elements).reverse

/-- The entries as values. -/
def Entries.toToml : List (String × Node) → List (String × Toml)
  | [] => []
  | (key, node) :: entries => (key, node.toToml) :: Entries.toToml entries

/-- The elements as values. -/
def elementsToToml : List (List (String × Node)) → List Toml
  | [] => []
  | element :: elements => .table (Entries.toToml element) :: elementsToToml elements

end

end Reconcile.Toml
