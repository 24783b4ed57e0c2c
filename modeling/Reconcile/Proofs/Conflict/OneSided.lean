import Mathlib
import Reconcile.Conflict.Collaborators
import Reconcile.Proofs.Conflict.GivingUp

namespace Reconcile

variable {σ : Type}

namespace MergeContents

/-- What the side has that changed. -/
def changed (contents : MergeContents) : ByteArray :=
  if contents.theirs = contents.base then contents.yours else contents.theirs

end MergeContents

section

variable {outside : Collaborators (StateM σ)} {tree : σ → FileTree} {world world' : σ}
  {path : LocalPath} {contents : MergeContents} {answer : Except ResolveError Bool}

end

/-- Nothing gets in the way of a merge: the flag is down, what is downloaded can be had, and the user picks
a name that the workspace maps. -/
structure Unhindered (workspace : Workspace) (conflict : Conflict) (events : List Event) : Prop where
  flag : .cancelled true ∉ events
  downloads (owner : Workspace) (version itemId : Int) (error : RemoteError) :
    .download owner version itemId (.error error) ∉ events
  names (answer : Except ResolveError (Option ServerPath)) :
    .mergeName workspace conflict answer ∈ events →
      ∃ merged name, answer = .ok (some merged) ∧ workspace.toLocal? merged = some name

/-- What nothing in a record hinders, nothing in a part of it does. -/
theorem Unhindered.mono {workspace : Workspace} {conflict : Conflict} {events more : List Event}
    (hunhindered : Unhindered workspace conflict more) (hsubset : events ⊆ more) :
    Unhindered workspace conflict events where
  flag hmem := hunhindered.flag (hsubset hmem)
  downloads _ _ _ _ hmem := hunhindered.downloads _ _ _ _ (hsubset hmem)
  names answer hmem := hunhindered.names answer (hsubset hmem)

namespace ResolveM

variable {outside : Collaborators (StateM σ)} {tree : σ → FileTree} {before after : Session × σ}
  {events : List Event} {world world' : σ} {conflict : Conflict} {workspace : Workspace}
  {path name : LocalPath} {contents : MergeContents} {mine : ByteArray}

namespace HandingOver

variable {loading naming rest : List Event} {loaded : Session × σ}
  {answer : Except ResolveError Bool} {result : Except ResolveError Outcome} {finish : Session}

/-- Behind the contents that were handed over, only settling is left. -/
theorem isSettling (hgiven : HandingOver outside conflict before workspace path name contents loading
      naming loaded answer rest result finish) :
    ∀ event ∈ rest, event.IsSettling := by
  by_cases hanswer : answer = .ok true
  · obtain ⟨ending, hreport⟩ := hgiven.reported hanswer
    exact hreport.isSettling
  · rw [(hgiven.broken hanswer).1]
    simp

end HandingOver

end ResolveM

end Reconcile
