import Reconcile.Diff.Slide
import Reconcile.Diff.Snake
import Reconcile.Text.Search

namespace Reconcile.Diff

/-- A shortest script in which edits of a kind are drawn together. -/
def editScript [DecidableEq α] (old new : List α) : Script α :=
  slide (shortest old new)

inductive Chunk (α : Type) where
  /-- Elements that both sides accept. -/
  | agreed (elements : List α)
  /-- What each version has where all three differ. -/
  | conflict (ours base theirs : List α)
deriving DecidableEq, Repr, Inhabited

/-- What the three versions have since the last place that both sides kept. -/
structure Divergence (α : Type) where
  ours : List α := []
  base : List α := []
  theirs : List α := []
deriving DecidableEq, Repr, Inhabited

namespace Divergence

/-- How a divergence is settled: equal changes count once, and a side that did not change gives
    way to the other. -/
def settle [DecidableEq α] (divergence : Divergence α) : Chunk α :=
  if divergence.ours = divergence.theirs then .agreed divergence.theirs
  else if divergence.base = divergence.ours then .agreed divergence.theirs
  else if divergence.base = divergence.theirs then .agreed divergence.ours
  else .conflict divergence.ours divergence.base divergence.theirs

/-- An element of ours. -/
def addOurs (divergence : Divergence α) (a : α) : Divergence α :=
  { divergence with ours := divergence.ours ++ [a] }

/-- An element of theirs. -/
def addTheirs (divergence : Divergence α) (a : α) : Divergence α :=
  { divergence with theirs := divergence.theirs ++ [a] }

/-- An element of the base, and what each side does with it. -/
def addBase (divergence : Divergence α) (ours theirs : Action) (a : α) : Divergence α :=
  { ours := if ours = .keep then divergence.ours ++ [a] else divergence.ours
    base := divergence.base ++ [a]
    theirs := if theirs = .keep then divergence.theirs ++ [a] else divergence.theirs }

end Divergence

/-- Puts the scripts of both sides together. Insertions of ours come before those of theirs. -/
def combine [DecidableEq α] (divergence : Divergence α) :
    (ours theirs : List (Edit α)) → List (Chunk α)
  | ⟨.insert, a⟩ :: ours, theirs => combine (divergence.addOurs a) ours theirs
  | ours, ⟨.insert, a⟩ :: theirs => combine (divergence.addTheirs a) ours theirs
  | ⟨.keep, a⟩ :: ours, ⟨.keep, _⟩ :: theirs =>
    divergence.settle :: .agreed [a] :: combine {} ours theirs
  | ⟨mine, a⟩ :: ours, ⟨other, _⟩ :: theirs =>
    combine (divergence.addBase mine other a) ours theirs
  | _, _ => [divergence.settle]
termination_by ours theirs => ours.length + theirs.length

/-- The merge of two versions of a sequence. -/
def chunks [DecidableEq α] (base ours theirs : List α) : List (Chunk α) :=
  combine {} (editScript base ours).edits (editScript base theirs).edits

/-- How a part of a merge is written. -/
def Chunk.text : Chunk (List Char) → List Char
  | agreed lines => lines.flatten
  | conflict ours base theirs =>
    "<<<<<<< ours\n".toList ++ ours.flatten ++ "||||||| original\n".toList ++ base.flatten ++
      "=======\n".toList ++ theirs.flatten ++ ">>>>>>> theirs\n".toList

/-- Whether a part of a merge is in conflict. -/
def Chunk.isConflict : Chunk α → Bool
  | agreed _ => false
  | conflict .. => true

end Reconcile.Diff

namespace Reconcile

structure MergedText where
  text : String
  /-- Whether the text holds versions between markers. -/
  hasConflicts : Bool
deriving DecidableEq, Repr, Inhabited

namespace MergedText

/-- The line by line merge of two versions of a text. -/
def ofLines (base yours theirs : String) : MergedText :=
  let chunks :=
    Diff.chunks (Text.lines base.toList) (Text.lines yours.toList) (Text.lines theirs.toList)
  ⟨String.ofList (chunks.flatMap Diff.Chunk.text), chunks.any Diff.Chunk.isConflict⟩

/-- The merge of two versions of a text, with `mergeLines` for versions that both differ from the
    base and from each other. -/
def mergeBy (mergeLines : (base yours theirs : String) → MergedText)
    (base yours theirs : String) : MergedText :=
  if yours = base ∨ yours = theirs then ⟨theirs, false⟩
  else if theirs = base then ⟨yours, false⟩
  else mergeLines base yours theirs

/-- The line by line merge of two versions of a text that go back to a common base. Where both keep
    the base they agree; where all three differ both versions are kept between markers. -/
def merge (base yours theirs : String) : MergedText :=
  mergeBy ofLines base yours theirs

end MergedText

end Reconcile
