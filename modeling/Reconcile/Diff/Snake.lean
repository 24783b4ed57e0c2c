import Reconcile.Diff.Script

namespace Reconcile.Diff

/-- Two sequences in a form in which any position is at hand. -/
structure Sides (α : Type) where
  old : Array α
  new : Array α

namespace Sides

/-- Both sequences from their end to their start. -/
def reverse (sides : Sides α) : Sides α :=
  ⟨sides.old.reverse, sides.new.reverse⟩

/-- How many elements the sequences have in common from two positions on. -/
def common [DecidableEq α] (sides : Sides α) (i j : Nat) : Nat :=
  if _ : i < sides.old.size then
    if sides.old[i]? = sides.new[j]? then common sides (i + 1) (j + 1) + 1 else 0
  else 0
termination_by sides.old.size - i

/-- The number of the diagonal through the end. -/
def delta (sides : Sides α) : Int :=
  sides.old.size - sides.new.size

end Sides

/-- How far into the old sequence a search has come on each diagonal. -/
structure Reach where
  /-- The diagonals go from minus this number to plus this number. -/
  bound : Nat
  furthest : Array Nat

namespace Reach

/-- The reach of a search that has not begun. -/
def start (bound : Nat) : Reach :=
  ⟨bound, Array.replicate (2 * bound + 1) 0⟩

/-- How far a search has come on a diagonal. -/
def get (reach : Reach) (diagonal : Int) : Nat :=
  reach.furthest.getD (diagonal + reach.bound).toNat 0

/-- Notes how far a search has come on a diagonal. -/
def set (reach : Reach) (diagonal : Int) (furthest : Nat) : Reach :=
  { reach with furthest := reach.furthest.setIfInBounds (diagonal + reach.bound).toNat furthest }

/-- Where a search enters a diagonal with one more edit: from the neighbour that got further,
    from the lower one by a deletion. -/
def enter (reach : Reach) (edits : Nat) (diagonal : Int) : Nat :=
  if diagonal = -edits ∨
      diagonal ≠ edits ∧ reach.get (diagonal - 1) < reach.get (diagonal + 1) then
    reach.get (diagonal + 1)
  else reach.get (diagonal - 1) + 1

end Reach

/-- A point of the grid: how many elements of the old and of the new sequence lie before it. Keeping
    an element moves along a diagonal, which is numbered by its distance from the one through the
    start. -/
structure Point where
  old : Nat
  new : Nat
deriving DecidableEq, Repr, Inhabited

structure Searches where
  forward : Reach
  /-- The search from the end, on the reversed sequences. -/
  backward : Reach

namespace Searches

variable [DecidableEq α]

/-- The diagonals that a number of edits can lead to, from the highest to the lowest. -/
def diagonals (edits : Nat) : List Int :=
  (List.range (edits + 1)).map fun (i : Nat) => (edits : Int) - 2 * (i : Int)

/-- One step of the search from the start. It ends with the point where it entered a diagonal on
    which it meets the other search. -/
def stepForward (sides : Sides α) (edits : Nat) (searches : Searches) (diagonal : Int) :
    Except Point Searches :=
  let entry := searches.forward.enter edits diagonal
  let across := (entry : Int) - diagonal
  let kept := if 0 ≤ across then sides.common entry across.toNat else 0
  let forward := searches.forward.set diagonal (entry + kept)
  let opposite := sides.delta - diagonal
  if sides.delta % 2 ≠ 0 ∧ opposite.natAbs < edits ∧
      sides.old.size ≤ entry + kept + searches.backward.get opposite then
    .error ⟨entry, across.toNat⟩
  else .ok { searches with forward }

/-- One step of the search from the end, on the reversed sequences. It ends with the point it
    reached on a diagonal on which it meets the other search. -/
def stepBackward (sides : Sides α) (edits : Nat) (searches : Searches) (diagonal : Int) :
    Except Point Searches :=
  let entry := searches.backward.enter edits diagonal
  let across := (entry : Int) - diagonal
  let kept := if 0 ≤ across then sides.common entry across.toNat else 0
  let backward := searches.backward.set diagonal (entry + kept)
  let opposite := sides.delta - diagonal
  if sides.delta % 2 = 0 ∧ opposite.natAbs ≤ edits ∧
      sides.old.size ≤ entry + kept + searches.forward.get opposite then
    .error ⟨sides.old.size - (entry + kept), sides.new.size - (across + kept).toNat⟩
  else .ok { searches with backward }

/-- Both searches with a number of edits, the one from the start first. -/
def advance (sides : Sides α) (searches : Searches) (edits : Nat) : Except Point Searches := do
  let searches ← (diagonals edits).foldlM (stepForward sides edits) searches
  (diagonals edits).foldlM (stepBackward sides.reverse edits) searches

end Searches

/-- A point on a shortest script between two sequences that begin and end differently. Half of
    all elements, rounded up, is enough edits for the searches to meet. -/
def meeting [DecidableEq α] (old new : List α) : Point :=
  let enough := (old.length + new.length + 1) / 2 + 1
  let start := Reach.start (enough + 1)
  let sides : Sides α := ⟨old.toArray, new.toArray⟩
  match (List.range enough).foldlM (Searches.advance sides) ⟨start, start⟩ with
  | .error point => point
  | .ok _ => ⟨old.length, 0⟩

/-- Two sequences with what they have in common at their ends taken apart. -/
structure Trimmed (α : Type) where
  before : List α
  old : List α
  new : List α
  behind : List α

/-- Takes the common start off two sequences and then the common end off what is left. -/
def trim [DecidableEq α] (old new : List α) : Trimmed α :=
  let before := commonStart old new
  let behind := commonEnd (old.drop before) (new.drop before)
  { before := old.take before
    old := (old.drop before).take (old.length - before - behind)
    new := (new.drop before).take (new.length - before - behind)
    behind := old.drop (old.length - behind) }

theorem length_old_trim_le [DecidableEq α] (old new : List α) :
    (trim old new).old.length ≤ old.length := by
  simp only [trim, List.length_take, List.length_drop]
  omega

theorem length_new_trim_le [DecidableEq α] (old new : List α) :
    (trim old new).new.length ≤ new.length := by
  simp only [trim, List.length_take, List.length_drop]
  omega

/-- Deletes one sequence and inserts another. -/
def exchange (old new : List α) : Script α :=
  Script.cons .delete old (Script.cons .insert new [])

/-- A shortest script, found by divide and conquer. What both sequences have in common at their ends
    is kept. A search from the start and one from the end run in lockstep until they meet; where
    they meet a shortest script passes, so both sequences are cut there. -/
def shortest [DecidableEq α] (old new : List α) : Script α :=
  let core := trim old new
  let script : Script α :=
    if core.old = [] ∨ core.new = [] then exchange core.old core.new
    else
      let point := meeting core.old core.new
      if _ : 0 < (core.old.take point.old).length + (core.new.take point.new).length ∧
          0 < (core.old.drop point.old).length + (core.new.drop point.new).length then
        shortest (core.old.take point.old) (core.new.take point.new) ++
          shortest (core.old.drop point.old) (core.new.drop point.new)
      else exchange core.old core.new
  Script.cons .keep core.before (script ++ Script.cons .keep core.behind [])
termination_by old.length + new.length
decreasing_by
  all_goals
    rename_i hsplit
    have hold : core.old.length ≤ old.length := length_old_trim_le old new
    have hnew : core.new.length ≤ new.length := length_new_trim_le old new
    simp only [List.length_take, List.length_drop, point] at hsplit ⊢
    simp only [core] at hsplit hold hnew
    omega

end Reconcile.Diff
