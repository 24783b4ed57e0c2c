namespace Reconcile

inductive ChangeType where
  | none
  | add
  | edit
  | encoding
  | rename
  | delete
  | undelete
  | branch
  | merge
  | lock
deriving DecidableEq, Repr, Inhabited

namespace ChangeType

/-- All kinds, by bit. -/
def all : List ChangeType :=
  [none, add, edit, encoding, rename, delete, undelete, branch, merge, lock]

/-- The position of a kind's bit. -/
def position : ChangeType → UInt32
  | none => 0
  | add => 1
  | edit => 2
  | encoding => 3
  | rename => 4
  | delete => 5
  | undelete => 6
  | branch => 7
  | merge => 8
  | lock => 9

/-- The bit of a kind. -/
def bit (change : ChangeType) : UInt32 :=
  1 <<< change.position

def name : ChangeType → String
  | none => "none"
  | add => "add"
  | edit => "edit"
  | encoding => "encoding"
  | rename => "rename"
  | delete => "delete"
  | undelete => "undelete"
  | branch => "branch"
  | merge => "merge"
  | lock => "lock"

theorem mem_all (change : ChangeType) : change ∈ all := by
  cases change <;> decide

end ChangeType

/-- A set of kinds of change, as the server counts them: one bit for each kind. A set may hold bits
    that stand for no kind known here; they take no part in anything but the raw number. -/
structure ChangeSet where
  raw : UInt32 := 0
deriving DecidableEq, Repr, Inhabited

namespace ChangeSet

def ofList (changes : List ChangeType) : ChangeSet :=
  ⟨changes.foldl (fun raw change => raw ||| change.bit) 0⟩

def contains (set : ChangeSet) (change : ChangeType) : Bool :=
  set.raw &&& change.bit != 0

/-- Whether one of some kinds is in the set. -/
def containsAny (set : ChangeSet) (changes : List ChangeType) : Bool :=
  changes.any set.contains

/-- Whether no bit at all is set. -/
def isEmpty (set : ChangeSet) : Bool :=
  set.raw == 0

/-- The kinds in the set, by bit. -/
def toList (set : ChangeSet) : List ChangeType :=
  ChangeType.all.filter set.contains

/-- How a set is shown: the names of its kinds, or a dash for none. -/
def label (set : ChangeSet) : String :=
  if set.toList.isEmpty then "-" else ", ".intercalate (set.toList.map (·.name))

theorem mem_toList {set : ChangeSet} {change : ChangeType} :
    change ∈ set.toList ↔ set.contains change = true := by
  simp [toList, ChangeType.mem_all]

end ChangeSet

end Reconcile
