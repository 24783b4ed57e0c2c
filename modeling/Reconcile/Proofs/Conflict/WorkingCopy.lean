import Reconcile.Proofs.Conflict.Happening
import Reconcile.Proofs.Files.Tree

namespace Reconcile

variable {σ α : Type}

/-- A call that finds something out, or that fails to let a file be written to. -/
def Event.IsInquiry : Event → Prop
  | .cancelled _ | .download .. | .mergeName .. => True
  | .isPresent .. | .isFile .. | .read .. => True
  | .makeWritable _ (.error _) => True
  | _ => False

/-- A question to the server or to the user. -/
def Event.IsQuestion : Event → Prop
  | .cancelled _ | .download .. | .mergeName .. => True
  | _ => False

/-- `action` does to the file tree in the world what `change` does to one. -/
def ActsAs (tree : σ → FileTree) (action : StateM σ α) (change : StateM FileTree α) : Prop :=
  ∀ world, ((action.run world).1, tree (action.run world).2) = change.run (tree world)

/-- The files are a file tree in the world, and no question changes it. -/
structure Collaborators.WorksOn (outside : Collaborators (StateM σ)) (tree : σ → FileTree) : Prop where
  isPresent (path : LocalPath) :
    ActsAs tree (outside.files.isPresent path) (FileTree.access.isPresent path)
  isFile (path : LocalPath) : ActsAs tree (outside.files.isFile path) (FileTree.access.isFile path)
  read (path : LocalPath) : ActsAs tree (outside.files.read path) (FileTree.access.read path)
  write (path : LocalPath) (content : ByteArray) :
    ActsAs tree (outside.files.write path content) (FileTree.access.write path content)
  makeWritable (path : LocalPath) :
    ActsAs tree (outside.files.makeWritable path) (FileTree.access.makeWritable path)
  questions : outside.Leaves Event.IsQuestion tree

/-- An action on the world does to the files what it does as an action on a file tree. -/
theorem ActsAs.run_eq {tree : σ → FileTree} {action : StateM σ α} {change : StateM FileTree α}
    {world world' : σ} {answer : α} (hacts : ActsAs tree action change)
    (hrun : action.run world = (answer, world')) :
    change.run (tree world) = (answer, tree world') := by
  rw [← hacts world, hrun]

/-- A change of a file tree that fails changes nothing. -/
theorem FileTree.run_change_eq {f : FileTree → Except FileError FileTree} {tree tree' : FileTree}
    {answer : Except FileError Unit} (hrun : (FileTree.change f).run tree = (answer, tree')) :
    answer = .ok () ∧ f tree = .ok tree' ∨
      ∃ error, answer = .error error ∧ f tree = .error error ∧ tree' = tree := by
  cases hf : f tree with
  | ok changed =>
    have hchanged : (FileTree.change f).run tree = (.ok (), changed) := by
      simp [StateT.run, FileTree.change, hf]
    cases hchanged.symm.trans hrun
    exact .inl ⟨rfl, rfl⟩
  | error error =>
    have hfailed : (FileTree.change f).run tree = (.error error, tree) := by
      simp [StateT.run, FileTree.change, hf]
    cases hfailed.symm.trans hrun
    exact .inr ⟨error, rfl, rfl, rfl⟩

namespace Collaborators.WorksOn

variable {outside : Collaborators (StateM σ)} {tree : σ → FileTree} {world world' : σ}
  {path : LocalPath}

/-- A file is read as it is in the tree, and stays so. -/
theorem read_eq {answer : Except FileError ByteArray} (hworks : outside.WorksOn tree)
    (hread : (Event.read path answer).Happens outside world world') :
    answer = (tree world).read path ∧ tree world' = tree world := by
  obtain ⟨hanswer, hworld⟩ := Prod.mk.inj ((hworks.read path).run_eq hread)
  exact ⟨hanswer.symm, hworld.symm⟩

/-- A path is a file exactly if it can be read. -/
theorem isFile_eq {answer : Bool} (hworks : outside.WorksOn tree)
    (hfile : (Event.isFile path answer).Happens outside world world') :
    answer = ((tree world).read path).toBool ∧ tree world' = tree world := by
  obtain ⟨hanswer, hworld⟩ := Prod.mk.inj ((hworks.isFile path).run_eq hfile)
  exact ⟨hanswer.symm, hworld.symm⟩

/-- Making a file writable happens to the tree, or fails and leaves it. -/
theorem makeWritable_eq {answer : Except FileError Unit} (hworks : outside.WorksOn tree)
    (hwritable : (Event.makeWritable path answer).Happens outside world world') :
    answer = .ok () ∧ (tree world).makeWritable path = .ok (tree world') ∨
      ∃ error, answer = .error error ∧ (tree world).makeWritable path = .error error ∧
        tree world' = tree world :=
  FileTree.run_change_eq ((hworks.makeWritable path).run_eq hwritable)

theorem leaves_inquiries (hworks : outside.WorksOn tree) : outside.Leaves Event.IsInquiry tree := by
  intro event world world' hinquiry hhappens
  cases event with
  | cancelled | download | mergeName => exact hworks.questions _ _ _ (by trivial) hhappens
  | isPresent path => exact (Prod.mk.inj ((hworks.isPresent path).run_eq hhappens)).2.symm
  | isFile => exact (hworks.isFile_eq hhappens).2
  | read => exact (hworks.read_eq hhappens).2
  | makeWritable path answer =>
    obtain ⟨rfl, -⟩ | ⟨error, -, -, hworld⟩ := hworks.makeWritable_eq hhappens
    · exact hinquiry.elim
    · exact hworld
  | resolve | apply | mergeContent | write | createFolders => exact hinquiry.elim

end Collaborators.WorksOn

/-- Where the world is a file tree, its own calls are the ones to the file system. -/
theorem Collaborators.worksOn_id {outside : Collaborators (StateM FileTree)}
    (hfiles : outside.files = FileTree.access) (hquestions : outside.Leaves Event.IsQuestion id) :
    outside.WorksOn id := by
  have hacts {α : Type} (action : StateM FileTree α) : ActsAs id action action := fun _ => rfl
  refine ⟨?_, ?_, ?_, ?_, ?_, hquestions⟩ <;> rw [hfiles]
  · exact fun path => hacts _
  · exact fun path => hacts _
  · exact fun path => hacts _
  · exact fun path content => hacts _
  · exact fun path => hacts _

end Reconcile
