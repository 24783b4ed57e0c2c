import Reconcile.Files.Tree
import Reconcile.Proofs.LocalPath
import Reconcile.Proofs.Outcome

namespace Reconcile.FileTree

variable {tree tree' : FileTree} {path : LocalPath} {names : List OsText} {content : ByteArray}
  {writable : Bool}

/-- A path leads to a file. -/
structure HasFile (tree : FileTree) (path : LocalPath) (names : List OsText) (content : ByteArray)
    (writable : Bool) : Prop where
  locate_eq : tree.locate path = .ok (.below names)
  entry?_eq : tree.entry? (.below names) = some (.file content writable)

theorem HasFile.find_eq (hfile : tree.HasFile path names content writable) :
    tree.find path = .ok (.file content writable) := by
  simp only [find, hfile.locate_eq, bind, Except.bind, hfile.entry?_eq]
  rfl

theorem HasFile.read_eq (hfile : tree.HasFile path names content writable) :
    tree.read path = .ok content := by
  simp only [read, hfile.find_eq, bind, Except.bind]
  rfl

theorem HasFile.names_ne_nil (hfile : tree.HasFile path names content writable) : names ≠ [] := by
  rintro rfl
  cases hfile.entry?_eq

theorem lookup_filter_ne {others : List OsText} (hne : others ≠ names)
    (entries : List (List OsText × FileEntry)) :
    (entries.filter (·.1 ≠ names)).lookup others = entries.lookup others := by
  induction entries with
  | nil => rfl
  | cons head entries ih =>
    obtain ⟨place, entry⟩ := head
    by_cases hhead : place = names
    · have hmiss : (others == place) = false := by simpa [hhead] using hne
      rw [List.filter_cons_of_neg (by simpa using hhead), ih, List.lookup_cons, hmiss]
    · rw [List.filter_cons_of_pos (by simpa using hhead), List.lookup_cons, List.lookup_cons, ih]

theorem entry?_put_self (entry : FileEntry) (hnames : names ≠ []) :
    FileTree.entry? (tree.put names entry) (.below names) = some entry := by
  have hnone : (tree.entries.filter (·.1 ≠ names)).lookup names = none := by
    rw [List.lookup_eq_none_iff]
    intro other hother
    have hne : other.1 ≠ names := by simpa using (List.mem_filter.mp hother).2
    simpa using hne.symm
  cases names with
  | nil => exact absurd rfl hnames
  | cons name names =>
    change (tree.entries.filter (·.1 ≠ name :: names) ++ [(name :: names, entry)]).lookup _ = _
    rw [List.lookup_append, hnone, List.lookup_cons_self, Option.none_or]

/-- What was put under some names shows nowhere else. -/
theorem entry?_put_of_ne (entry : FileEntry) {place : Place} (hplace : place ≠ .below names) :
    FileTree.entry? (tree.put names entry) place = tree.entry? place := by
  cases place with
  | above => rfl
  | below others =>
    cases others with
    | nil => rfl
    | cons name others =>
      have hne : name :: others ≠ names := fun heq => hplace (congrArg Place.below heq)
      have hmiss : (name :: others == names) = false := by simpa using hne
      change (tree.entries.filter (·.1 ≠ names) ++ [(names, entry)]).lookup _ = tree.entries.lookup _
      rw [List.lookup_append, lookup_filter_ne hne, List.lookup_cons, hmiss, List.lookup_nil,
        Option.or_none]

/-- Neither a file nor the file that takes its place is a folder. -/
theorem HasFile.requireFolder_put (hfile : tree.HasFile path names content writable)
    (content' : ByteArray) (writable' : Bool) :
    (tree.put names (.file content' writable')).requireFolder = tree.requireFolder := by
  funext place
  by_cases hplace : place = .below names
  · subst hplace
    rw [requireFolder, requireFolder, hfile.entry?_eq, entry?_put_self _ hfile.names_ne_nil]
  · rw [requireFolder, requireFolder, entry?_put_of_ne _ hplace]

/-- Every path leads where it led before a file took the place of a file. -/
theorem HasFile.locate_put (hfile : tree.HasFile path names content writable)
    (content' : ByteArray) (writable' : Bool) :
    (tree.put names (.file content' writable')).locate = tree.locate := by
  funext other
  rw [locate, locate, walk, walk, hfile.requireFolder_put]

/-- The path of a file leads to the file that took its place. -/
theorem HasFile.put (hfile : tree.HasFile path names content writable) (content' : ByteArray)
    (writable' : Bool) :
    (tree.put names (.file content' writable')).HasFile path names content' writable' where
  locate_eq := by rw [hfile.locate_put, hfile.locate_eq]
  entry?_eq := entry?_put_self _ hfile.names_ne_nil

/-- A file is made writable where it stands, with its content. -/
theorem HasFile.makeWritable_eq (hfile : tree.HasFile path names content writable) :
    tree.makeWritable path = .ok (tree.put names (.file content true)) := by
  simp only [makeWritable, hfile.locate_eq, bind, Except.bind, hfile.entry?_eq]
  rfl

end Reconcile.FileTree
