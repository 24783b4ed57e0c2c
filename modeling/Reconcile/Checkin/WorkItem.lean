import Reconcile.Sorted

namespace Reconcile

/-- A work item as it is shown. -/
structure WorkItem where
  id : Int
  title : String
deriving DecidableEq, Repr, Inhabited

/-- The order of work items: by number, then by title. -/
def WorkItem.before (a b : WorkItem) : Bool :=
  a.id < b.id || (a.id == b.id && a.title < b.title)

/-- What a check-in does to a work item. -/
inductive WorkItemAction where
  | associate
  | resolve
deriving DecidableEq, Repr, Inhabited

/-- The work items selected for a check-in, in order of number, then title. An item is identified by
    its number: choosing an action for a number replaces an earlier choice, even one made under
    another title. -/
structure WorkItems where
  /-- The chosen action of each work item, in order. -/
  actions : List (WorkItem × WorkItemAction) := []
deriving DecidableEq, Repr, Inhabited

namespace WorkItems

def empty : WorkItems := {}

/-- Chooses an action for a work item, in place of an earlier choice for its number. -/
def set (items : WorkItems) (item : WorkItem) (action : WorkItemAction) : WorkItems :=
  ⟨Sorted.put WorkItem.before item action (items.actions.filter fun entry => entry.1.id ≠ item.id)⟩

/-- The entry with a number. -/
def entry? (items : WorkItems) (id : Int) : Option (WorkItem × WorkItemAction) :=
  items.actions.find? (·.1.id == id)

/-- The action chosen for a number. -/
def action? (items : WorkItems) (id : Int) : Option WorkItemAction :=
  (items.entry? id).map (·.2)

/-- Drops the entry of a number, if there is one. -/
def remove (items : WorkItems) (id : Int) : WorkItems :=
  match items.entry? id with
  | none => items
  | some entry => ⟨items.actions.filter (·.1 ≠ entry.1)⟩

/-- Takes out the entry of a number: the action that is stored with it, and the items that are left. -/
def take (items : WorkItems) (id : Int) : Option WorkItemAction × WorkItems :=
  match items.entry? id with
  | none => (none, items)
  | some entry => (items.actions.lookup entry.1, items.remove id)

def size (items : WorkItems) : Nat :=
  items.actions.length

def isEmpty (items : WorkItems) : Bool :=
  items.actions.isEmpty

end WorkItems

end Reconcile
