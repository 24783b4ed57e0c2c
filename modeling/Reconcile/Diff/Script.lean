namespace Reconcile.Diff

/-- What happens to the elements of a run. -/
inductive Action where
  | keep
  | delete
  | insert
deriving DecidableEq, Repr, Inhabited

/-- A run of neighbouring elements to which the same happens. -/
structure Block (α : Type) where
  action : Action
  run : List α
deriving DecidableEq, Repr, Inhabited

/-- A script that turns one sequence into another by keeping, deleting and inserting runs of
    elements. What it keeps and deletes is the old sequence, what it keeps and inserts the new. -/
abbrev Script (α : Type) := List (Block α)

/-- One step of a script, about a single element. -/
structure Edit (α : Type) where
  action : Action
  element : α
deriving DecidableEq, Repr, Inhabited

namespace Script

/-- The single steps of a script. -/
def edits (script : Script α) : List (Edit α) :=
  script.flatMap fun block => block.run.map (⟨block.action, ·⟩)

def source (script : Script α) : List α :=
  script.flatMap fun block => if block.action = .insert then [] else block.run

def target (script : Script α) : List α :=
  script.flatMap fun block => if block.action = .delete then [] else block.run

/-- A script with a run in front; an empty run is left out. -/
def cons (action : Action) (run : List α) (script : Script α) : Script α :=
  if run.isEmpty then script else ⟨action, run⟩ :: script

end Script

/-- How many elements two sequences have in common at their starts. -/
def commonStart [DecidableEq α] : List α → List α → Nat
  | a :: s, b :: t => if a = b then commonStart s t + 1 else 0
  | _, _ => 0

/-- How many elements two sequences have in common at their ends. -/
def commonEnd [DecidableEq α] (s t : List α) : Nat :=
  commonStart s.reverse t.reverse

theorem commonStart_le_right [DecidableEq α] (s t : List α) : commonStart s t ≤ t.length := by
  fun_induction commonStart s t <;> simp_all

theorem commonEnd_le_right [DecidableEq α] (s t : List α) : commonEnd s t ≤ t.length := by
  simpa [commonEnd] using commonStart_le_right s.reverse t.reverse

end Reconcile.Diff
