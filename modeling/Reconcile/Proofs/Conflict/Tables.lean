import Reconcile.Proofs.Conflict.Listed

namespace Reconcile

/-- The conflicts of a registry by number, and beside them, by number too, where the workspace of each
stands in a list of workspaces. -/
structure ConflictTables where
  workspaces : List Workspace := []
  conflicts : List (Int × Conflict) := []
  owners : List (Int × Nat) := []
deriving DecidableEq, Repr, Inhabited

namespace ConflictTables

/-- The conflict with a number. -/
def get? (tables : ConflictTables) (id : Int) : Option Conflict :=
  tables.conflicts.lookup id

/-- Whether a number is registered. -/
def contains (tables : ConflictTables) (id : Int) : Bool :=
  (tables.get? id).isSome

/-- The workspace that a number came from. -/
def workspaceOf? (tables : ConflictTables) (id : Int) : Option Workspace :=
  (tables.owners.lookup id).bind fun position => tables.workspaces[position]?

/-- Adds a conflict of the workspace at a position, unless its number has a workspace already. -/
def add (position : Nat) (tables : ConflictTables) (conflict : Conflict) : ConflictTables :=
  if (tables.owners.lookup conflict.id).isSome then tables
  else
    { tables with
      owners := Sorted.put (fun a b => decide (a < b)) conflict.id position tables.owners
      conflicts := Sorted.put (fun a b => decide (a < b)) conflict.id conflict tables.conflicts }

/-- Adds a workspace and its conflicts. -/
def addGroup (tables : ConflictTables) (group : Workspace × List Conflict) : ConflictTables :=
  group.2.foldl (add tables.workspaces.length)
    { tables with workspaces := tables.workspaces ++ [group.1] }

/-- The tables of the conflicts of some workspaces. -/
def ofGroups (groups : List (Workspace × List Conflict)) : ConflictTables :=
  groups.foldl addGroup {}

/-- The tables of the unresolved conflicts of some workspaces. -/
def ofUnresolved (groups : List (Workspace × List Conflict)) : ConflictTables :=
  ofGroups (groups.map fun group => (group.1, Conflict.unresolved group.2))

/-- Takes a number out of both tables. -/
def remove (tables : ConflictTables) (id : Int) : ConflictTables :=
  { tables with
    owners := tables.owners.filter (·.1 != id)
    conflicts := tables.conflicts.filter (·.1 != id) }

/-- The tables hold the entries of a registry: each conflict under its number, and under the same number
the place of its workspace. -/
structure Holds (tables : ConflictTables) (registry : ConflictRegistry) : Prop where
  conflicts : tables.conflicts =
    registry.entries.map fun entry => (entry.conflict.id, entry.conflict)
  owners : (tables.owners.map fun owner => (owner.1, tables.workspaces[owner.2]?)) =
    registry.entries.map fun entry => (entry.conflict.id, some entry.workspace)

variable {tables : ConflictTables} {registry : ConflictRegistry} {workspace : Workspace}
  {position : Nat}

theorem lookup_map_eq {α β : Type} (key : α → Int) (value : α → β) (l : List α) (id : Int) :
    (l.map fun a => (key a, value a)).lookup id = (l.find? (key · == id)).map value := by
  induction l with
  | nil => rfl
  | cons a l ih =>
    rw [List.map_cons, List.lookup_cons, List.find?_cons, BEq.comm (a := id), ih]
    cases key a == id <;> rfl

theorem lookup_eq_find? {β : Type} (l : List (Int × β)) (id : Int) :
    l.lookup id = (l.find? (·.1 == id)).map (·.2) := by
  rw [← lookup_map_eq, List.map_id']

namespace Holds

theorem get?_eq (hholds : tables.Holds registry) (id : Int) : tables.get? id = registry.get? id := by
  rw [get?, hholds.conflicts, lookup_map_eq]
  rfl

theorem contains_eq (hholds : tables.Holds registry) (id : Int) :
    tables.contains id = registry.contains id := by
  rw [contains, hholds.get?_eq, ConflictRegistry.get?, Option.isSome_map]
  rfl

/-- The table of places knows of a number just what the registry does. -/
theorem map_owner_eq (hholds : tables.Holds registry) (id : Int) :
    ((tables.owners.lookup id).map fun position => tables.workspaces[position]?) =
      (registry.entry? id).map fun entry => some entry.workspace := by
  have hlookup := congrArg (List.lookup id) hholds.owners
  rw [lookup_map_eq, lookup_map_eq] at hlookup
  rw [lookup_eq_find?, Option.map_map]
  exact hlookup

theorem workspaceOf?_eq (hholds : tables.Holds registry) (id : Int) :
    tables.workspaceOf? id = registry.workspaceOf? id := by
  have howner := hholds.map_owner_eq id
  rw [workspaceOf?, ConflictRegistry.workspaceOf?]
  cases hlookup : tables.owners.lookup id <;> cases hentry : registry.entry? id <;>
    simp_all

theorem isSome_owner_eq (hholds : tables.Holds registry) (id : Int) :
    (tables.owners.lookup id).isSome = registry.contains id := by
  have howner := congrArg Option.isSome (hholds.map_owner_eq id)
  rwa [Option.isSome_map, Option.isSome_map] at howner

theorem keys_eq (hholds : tables.Holds registry) :
    tables.owners.map (·.1) = tables.conflicts.map (·.1) := by
  have howners := congrArg (List.map (·.1)) hholds.owners
  rw [List.map_map, List.map_map] at howners
  rw [hholds.conflicts, List.map_map]
  exact howners

theorem id_eq (hholds : tables.Holds registry) : ∀ entry ∈ tables.conflicts, entry.2.id = entry.1 := by
  rw [hholds.conflicts]
  exact List.forall_mem_map.mpr fun _ _ => rfl

/-- Every place in the table of owners is one in the list of workspaces. -/
theorem exists_workspace (hholds : tables.Holds registry) :
    ∀ owner ∈ tables.owners, ∃ workspace, tables.workspaces[owner.2]? = some workspace := by
  intro owner howner
  have hmem : (owner.1, tables.workspaces[owner.2]?) ∈
      registry.entries.map fun entry => (entry.conflict.id, some entry.workspace) :=
    hholds.owners ▸ List.mem_map_of_mem howner
  obtain ⟨entry, -, hentry⟩ := List.mem_map.mp hmem
  exact ⟨entry.workspace, (congrArg Prod.snd hentry).symm⟩

/-- A workspace that is added at the end moves none of the others. -/
theorem addWorkspace (hholds : tables.Holds registry) (workspace : Workspace) :
    Holds { tables with workspaces := tables.workspaces ++ [workspace] } registry where
  conflicts := hholds.conflicts
  owners := by
    rw [← hholds.owners]
    refine List.map_congr_left fun owner howner => ?_
    obtain ⟨found, hfound⟩ := hholds.exists_workspace owner howner
    obtain ⟨hlength, -⟩ := List.getElem?_eq_some_iff.mp hfound
    rw [List.getElem?_append_left hlength]

/-- Adding a conflict to the tables is adding it to the registry. -/
theorem add (hholds : tables.Holds registry) (hposition : tables.workspaces[position]? = some workspace)
    (conflict : Conflict) :
    Holds (tables.add position conflict) (registry.add workspace conflict) := by
  rw [ConflictTables.add, ConflictRegistry.add, hholds.isSome_owner_eq]
  split
  case isTrue => exact hholds
  case isFalse =>
    let lt (a b : Int) : Bool := decide (a < b)
    let entry : RegisteredConflict := ⟨conflict, workspace⟩
    constructor
    · rw [hholds.conflicts]
      exact Sorted.put_map lt (·.conflict.id) (·.conflict) entry registry.entries
    · calc (Sorted.put lt conflict.id position tables.owners).map
            (fun owner => (owner.1, tables.workspaces[owner.2]?))
        _ = Sorted.put lt conflict.id tables.workspaces[position]?
              (tables.owners.map fun owner => (owner.1, tables.workspaces[owner.2]?)) :=
            (Sorted.put_map lt (·.1) (fun owner => tables.workspaces[owner.2]?) (conflict.id, position)
              tables.owners).symm
        _ = Sorted.put lt conflict.id (some workspace)
              (registry.entries.map fun entry => (entry.conflict.id, some entry.workspace)) := by
            rw [hposition, hholds.owners]
        _ = _ := Sorted.put_map lt (·.conflict.id) (some ·.workspace) entry registry.entries

/-- The conflicts of a group are added one by one, by induction over them. -/
theorem foldl_add (hholds : tables.Holds registry)
    (hposition : tables.workspaces[position]? = some workspace) (conflicts : List Conflict) :
    Holds (conflicts.foldl (ConflictTables.add position) tables)
      (conflicts.foldl (·.add workspace ·) registry) := by
  induction conflicts generalizing tables registry with
  | nil => exact hholds
  | cons conflict conflicts ih =>
    apply ih (hholds.add hposition conflict)
    rw [ConflictTables.add]
    split <;> exact hposition

/-- A group adds its workspace to the list, and its conflicts with the place of it. -/
theorem addGroup (hholds : tables.Holds registry) (group : Workspace × List Conflict) :
    Holds (tables.addGroup group) (group.2.foldl (·.add group.1 ·) registry) :=
  (hholds.addWorkspace group.1).foldl_add List.getElem?_concat_length group.2

theorem remove (hholds : tables.Holds registry) (id : Int) :
    Holds (tables.remove id) (registry.remove id) where
  conflicts := by
    rw [ConflictTables.remove, ConflictRegistry.remove, hholds.conflicts, List.filter_map]
    rfl
  owners := by
    have howners := congrArg (List.filter (·.1 != id)) hholds.owners
    rw [List.filter_map, List.filter_map] at howners
    exact howners

end Holds

theorem holds_ofGroups (groups : List (Workspace × List Conflict)) :
    Holds (ofGroups groups) (.ofGroups groups) := by
  have hfold (tables : ConflictTables) (registry : ConflictRegistry) (hholds : tables.Holds registry) :
      Holds (groups.foldl addGroup tables) (groups.foldl (fun registry group =>
        group.2.foldl (·.add group.1 ·) registry) registry) := by
    induction groups generalizing tables registry with
    | nil => exact hholds
    | cons group groups ih => exact ih _ _ (hholds.addGroup group)
  exact hfold {} {} ⟨rfl, rfl⟩

/-- Removing numbers keeps the tables in step with the registry. -/
theorem Holds.foldl_remove (hholds : tables.Holds registry) (removed : List Int) :
    Holds (removed.foldl ConflictTables.remove tables) (removed.foldl ConflictRegistry.remove registry) := by
  induction removed generalizing tables registry with
  | nil => exact hholds
  | cons id removed ih => exact ih (hholds.remove id)

theorem Holds.map_conflicts (hholds : tables.Holds registry) :
    tables.conflicts.map (·.2) = registry.conflicts := by
  rw [hholds.conflicts, List.map_map]
  rfl

end ConflictTables

namespace ConflictRegistry

theorem isSome_workspaceOf? (registry : ConflictRegistry) (id : Int) :
    (registry.workspaceOf? id).isSome = registry.contains id := by
  rw [workspaceOf?, contains, Option.isSome_map]

/-- Of the conflicts listed for some workspaces, by a dump for one, a registry has the unresolved ones, and
of those with one number the first, with the workspace it is listed for; they come once each, in order of
their numbers. Taking out numbers leaves the entries of all other numbers, and the two tables that a registry can be kept
in stay in step: both have the same numbers, every conflict stands under its own, and each look-up gives
what the registry gives. -/
theorem registry_of_listed_conflicts (groups : List (Workspace × List Conflict)) (removed : List Int) :
    let registry := ofUnresolved groups
    let rest := removed.foldl remove registry
    let tables := removed.foldl ConflictTables.remove (.ofUnresolved groups)
    (∀ workspaces dump, ConflictDump.Lists workspaces dump groups →
      ConflictDump.registry workspaces dump = .ok registry) ∧
    (∀ id, registry.contains id = true ↔
      ∃ group ∈ groups, ∃ conflict ∈ group.2, conflict.resolved = false ∧ conflict.id = id) ∧
    (∀ id, registry.get? id = (firstListed? groups id).map (·.conflict) ∧
      registry.workspaceOf? id = (firstListed? groups id).map (·.workspace)) ∧
    (∀ id, rest.entry? id = if id ∈ removed then none else registry.entry? id) ∧
    (rest.conflicts.map (·.id)).Pairwise (· < ·) ∧
    (∀ conflict, conflict ∈ rest.conflicts ↔ rest.get? conflict.id = some conflict) ∧
    (∀ id, (rest.workspaceOf? id).isSome = rest.contains id) ∧
    tables.owners.map (·.1) = tables.conflicts.map (·.1) ∧
    (∀ entry ∈ tables.conflicts, entry.2.id = entry.1) ∧
    tables.conflicts.map (·.2) = rest.conflicts ∧
    ∀ id, tables.get? id = rest.get? id ∧ tables.contains id = rest.contains id ∧
      tables.workspaceOf? id = rest.workspaceOf? id := by
  intro registry rest tables
  have hordered : rest.Ordered := ordered_foldl_remove removed (ordered_ofGroups _)
  have hids : rest.conflicts.map (·.id) = rest.entries.map (·.conflict.id) := by
    rw [conflicts, List.map_map]
    rfl
  have hholds : tables.Holds rest := (ConflictTables.holds_ofGroups _).foldl_remove removed
  refine ⟨fun _ _ hlists => hlists.registry_eq, fun _ => contains_ofUnresolved_iff, fun id => ?_,
    entry?_foldl_remove removed registry, hids ▸ hordered, fun _ => hordered.mem_conflicts_iff,
    isSome_workspaceOf? rest, hholds.keys_eq, hholds.id_eq, hholds.map_conflicts, fun id => ?_⟩
  · rw [get?, workspaceOf?, entry?_ofUnresolved]
    exact ⟨rfl, rfl⟩
  · exact ⟨hholds.get?_eq id, hholds.contains_eq id, hholds.workspaceOf?_eq id⟩

/-- Number 7 is listed as resolved for one workspace, and then waits for two others; the first of these
has it. The dump spells the names in other letters. -/
theorem registry_of_listed_conflicts_repeated :
    let first : Workspace := ⟨"first", "alice", .ofUri "http://server", []⟩
    let second : Workspace := ⟨"second", "alice", .ofUri "http://server", []⟩
    let waiting : Conflict := { id := 7, sourceLocalItem := some "a" }
    let early : List Conflict := [{ id := 7, resolved := true }, { id := 9 }]
    let late : List Conflict :=
      [waiting, { id := 7, sourceLocalItem := some "b" }, { id := 3 }, { id := 9, forced := true }]
    let groups : List (Workspace × List Conflict) := [(first, early), (second, late), (first, [{ id := 7 }])]
    let dump : ConflictDump := [⟨"First", early⟩, ⟨"SECOND", late⟩, ⟨"first", [{ id := 7 }]⟩]
    let tables := [3, 5].foldl ConflictTables.remove (.ofUnresolved groups)
    dump.registry [first, second] = .ok (ofUnresolved groups) ∧
      (ofUnresolved groups).get? 7 = some waiting ∧ (ofUnresolved groups).workspaceOf? 7 = some second ∧
      tables.conflicts = [(7, waiting), (9, { id := 9 })] ∧ tables.owners.map (·.1) = [7, 9] ∧
      tables.workspaceOf? 9 = some first ∧ ∀ entry ∈ tables.conflicts, entry.2.id = entry.1 := by
  intro first second waiting early late groups dump tables
  obtain ⟨hdump, -, hfirst, -, -, -, -, hkeys, hids, -, hsame⟩ := registry_of_listed_conflicts groups [3, 5]
  have hlists : dump.Lists [first, second] groups :=
    .cons ⟨by decide +kernel, rfl⟩ (.cons ⟨by decide +kernel, rfl⟩ (.cons ⟨by decide +kernel, rfl⟩ .nil))
  have hlisted : firstListed? groups 7 = some ⟨waiting, second⟩ := by decide +kernel
  have hconflicts : tables.conflicts = [(7, waiting), (9, { id := 9 })] := by decide +kernel
  have howner : ([3, 5].foldl remove (ofUnresolved groups)).workspaceOf? 9 = some first := by decide +kernel
  obtain ⟨hget, hworkspace⟩ := hfirst 7
  rw [hlisted] at hget hworkspace
  refine ⟨hdump _ _ hlists, hget, hworkspace, hconflicts, ?_, (hsame 9).2.2.trans howner, hids⟩
  change tables.owners.map (·.1) = tables.conflicts.map (·.1) at hkeys
  rw [hkeys, hconflicts]
  rfl

end ConflictRegistry

end Reconcile
