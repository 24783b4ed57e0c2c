import Reconcile.Conflict.Dump
import Reconcile.Proofs.Conflict.Registry
import Reconcile.Proofs.Sorted

namespace Reconcile

namespace ConflictRegistry

variable {registry : ConflictRegistry} {groups : List (Workspace × List Conflict)} {id : Int}

/-- The conflicts of some groups in the order in which they are listed, each with the workspace of its
group. -/
def listing (groups : List (Workspace × List Conflict)) : List RegisteredConflict :=
  groups.flatMap fun group => group.2.map fun conflict => ⟨conflict, group.1⟩

/-- The registry of the unresolved conflicts of some groups. -/
def ofUnresolved (groups : List (Workspace × List Conflict)) : ConflictRegistry :=
  ofGroups (groups.map fun group => (group.1, Conflict.unresolved group.2))

/-- The first unresolved conflict that is listed with a number, and the workspace of its group. -/
def firstListed? (groups : List (Workspace × List Conflict)) (id : Int) : Option RegisteredConflict :=
  (listing groups).find? fun entry => !entry.conflict.resolved && entry.conflict.id == id

/-- The numbers of the entries stand in strictly increasing order. -/
def Ordered (registry : ConflictRegistry) : Prop :=
  (registry.entries.map (·.conflict.id)).Pairwise (· < ·)

theorem contains_iff : registry.contains id = true ↔ ∃ entry ∈ registry.entries, entry.conflict.id = id := by
  rw [contains, entry?, List.find?_isSome]
  simp only [beq_iff_eq]

/-- Adding a conflict registers it only if its number is free. -/
theorem entry?_add (registry : ConflictRegistry) (workspace : Workspace) (conflict : Conflict) (id : Int) :
    entry? (registry.add workspace conflict) id =
      (registry.entry? id).or (if conflict.id == id then some ⟨conflict, workspace⟩ else none) := by
  rw [add]
  split
  case isTrue hthere =>
    by_cases hid : conflict.id = id
    · subst hid
      obtain ⟨entry, hentry⟩ := Option.isSome_iff_exists.mp hthere
      rw [hentry, Option.some_or]
    · rw [if_neg (by simpa using hid), Option.or_none]
  case isFalse hnew =>
    have hne : ∀ entry ∈ registry.entries, entry.conflict.id ≠ conflict.id :=
      fun entry hentry heq => hnew (contains_iff.mpr ⟨entry, hentry, heq⟩)
    apply Sorted.find?_insert_of_forall
    · intro entry hentry
      have hapart := hne entry hentry
      simp only [decide_eq_true_eq]
      omega
    · intro hid entry hentry
      have hapart := hne entry hentry
      simp only [beq_iff_eq] at hid
      rw [beq_eq_false_iff_ne, ← hid]
      exact hapart

/-- A conflict that is added goes to its place in the order. -/
theorem Ordered.add (hordered : registry.Ordered) (workspace : Workspace) (conflict : Conflict) :
    (registry.add workspace conflict).Ordered := by
  rw [ConflictRegistry.add]
  split
  case isTrue => exact hordered
  case isFalse =>
    have hids := Sorted.insert_map (fun a b : Int => decide (a < b))
      (fun entry : RegisteredConflict => entry.conflict.id) ⟨conflict, workspace⟩ registry.entries
    have hbefore := hordered.imp fun {a b} hlt => decide_eq_true (p := a < b) hlt
    rw [Ordered, ← hids]
    exact (Sorted.pairwise_insert Sorted.isOrder_decide hbefore).imp of_decide_eq_true

/-- In an ordered registry an entry is found by its number. -/
theorem Ordered.mem_entries_iff (hordered : registry.Ordered) {entry : RegisteredConflict} :
    entry ∈ registry.entries ↔ registry.entry? entry.conflict.id = some entry := by
  refine ⟨fun hmem => ?_, List.mem_of_find?_eq_some⟩
  obtain ⟨before, after, hsplit⟩ := List.append_of_mem hmem
  rw [Ordered, hsplit, List.map_append, List.pairwise_append] at hordered
  rw [ConflictRegistry.entry?, List.find?_eq_some_iff_append]
  refine ⟨beq_self_eq_true _, before, after, hsplit, fun other hother => ?_⟩
  have hlt : other.conflict.id < entry.conflict.id :=
    hordered.2.2 _ (List.mem_map_of_mem hother) _ (List.mem_map_of_mem List.mem_cons_self)
  simp only [Bool.not_eq_true', beq_eq_false_iff_ne]
  omega

theorem Ordered.mem_conflicts_iff (hordered : registry.Ordered) {conflict : Conflict} :
    conflict ∈ registry.conflicts ↔ registry.get? conflict.id = some conflict := by
  rw [conflicts, get?, List.mem_map, Option.map_eq_some_iff]
  constructor
  · rintro ⟨entry, hmem, rfl⟩
    exact ⟨entry, hordered.mem_entries_iff.mp hmem, rfl⟩
  · rintro ⟨entry, hentry, hconflict⟩
    exact ⟨entry, List.mem_of_find?_eq_some hentry, hconflict⟩

theorem Ordered.remove (hordered : registry.Ordered) (id : Int) : (registry.remove id).Ordered :=
  hordered.sublist (List.filter_sublist.map _)

/-- The groups are registered entry by entry, in the order in which they are listed. -/
theorem ofGroups_eq_foldl (groups : List (Workspace × List Conflict)) :
    ofGroups groups =
      (listing groups).foldl (fun registry entry => registry.add entry.workspace entry.conflict) {} := by
  rw [ofGroups, listing, List.foldl_flatMap]
  simp only [List.foldl_map]

/-- Of the entries that are added, the first with a number is kept, unless the number was taken
    before. -/
theorem entry?_foldl_add (entries : List RegisteredConflict) (registry : ConflictRegistry) (id : Int) :
    entry? (entries.foldl (fun registry entry => registry.add entry.workspace entry.conflict) registry) id =
      (registry.entry? id).or (entries.find? (·.conflict.id == id)) := by
  induction entries generalizing registry with
  | nil => rw [List.foldl_nil, List.find?_nil, Option.or_none]
  | cons entry entries ih =>
    rw [List.foldl_cons, ih, entry?_add, Option.or_assoc]
    cases hid : entry.conflict.id == id <;> simp [hid]

theorem ordered_foldl_add (entries : List RegisteredConflict) (hordered : registry.Ordered) :
    (entries.foldl (fun registry entry => registry.add entry.workspace entry.conflict) registry).Ordered := by
  induction entries generalizing registry with
  | nil => exact hordered
  | cons entry entries ih => exact ih (hordered.add entry.workspace entry.conflict)

theorem ordered_ofGroups (groups : List (Workspace × List Conflict)) : (ofGroups groups).Ordered := by
  rw [ofGroups_eq_foldl]
  exact ordered_foldl_add _ List.Pairwise.nil

/-- Leaving out resolved conflicts group by group leaves them out of the listing. -/
theorem listing_unresolved (groups : List (Workspace × List Conflict)) :
    listing (groups.map fun group => (group.1, Conflict.unresolved group.2)) =
      (listing groups).filter (!·.conflict.resolved) := by
  rw [listing, listing, List.flatMap_map, List.filter_flatMap]
  simp only [Conflict.unresolved, List.filter_map]
  rfl

/-- Under each number stands the unresolved conflict that was listed first with it. -/
theorem entry?_ofUnresolved (groups : List (Workspace × List Conflict)) (id : Int) :
    entry? (ofUnresolved groups) id = firstListed? groups id := by
  have hempty : entry? {} id = none := rfl
  rw [ofUnresolved, ofGroups_eq_foldl, entry?_foldl_add, hempty, Option.none_or, listing_unresolved,
    List.find?_filter, firstListed?]
  simp only [Bool.decide_and, Bool.decide_eq_true]

/-- A number is registered if any unresolved conflict has it. -/
theorem contains_ofUnresolved_iff : (ofUnresolved groups).contains id = true ↔
    ∃ group ∈ groups, ∃ conflict ∈ group.2, conflict.resolved = false ∧ conflict.id = id := by
  rw [contains, entry?_ofUnresolved, firstListed?, List.find?_isSome]
  simp only [Bool.and_eq_true, Bool.not_eq_true', beq_iff_eq]
  constructor
  · rintro ⟨entry, hentry, hwaits⟩
    obtain ⟨group, hgroup, hentry⟩ := List.mem_flatMap.mp hentry
    obtain ⟨conflict, hconflict, rfl⟩ := List.mem_map.mp hentry
    exact ⟨group, hgroup, conflict, hconflict, hwaits⟩
  · rintro ⟨group, hgroup, conflict, hconflict, hwaits⟩
    refine ⟨⟨conflict, group.1⟩, List.mem_flatMap.mpr ⟨group, hgroup, ?_⟩, hwaits⟩
    exact List.mem_map_of_mem hconflict

/-- Taking numbers out changes nothing about the other numbers. -/
theorem entry?_foldl_remove (removed : List Int) (registry : ConflictRegistry) (id : Int) :
    entry? (removed.foldl remove registry) id = if id ∈ removed then none else registry.entry? id := by
  induction removed generalizing registry with
  | nil => simp
  | cons other removed ih =>
    rw [List.foldl_cons, ih]
    by_cases hid : id = other
    · simp [hid, entry?_remove_self]
    · simp [hid, entry?_remove_of_ne registry hid]

theorem ordered_foldl_remove (removed : List Int) (hordered : registry.Ordered) :
    (removed.foldl remove registry).Ordered := by
  induction removed generalizing registry with
  | nil => exact hordered
  | cons id removed ih => exact ih (hordered.remove id)

end ConflictRegistry

namespace ConflictDump

variable {workspaces : List Workspace} {dump : ConflictDump} {groups : List (Workspace × List Conflict)}

/-- The groups are those of a dump, with the workspaces that its names stand for. -/
def Lists (workspaces : List Workspace) (dump : ConflictDump) (groups : List (Workspace × List Conflict)) :
    Prop :=
  List.Forall₂ (fun listed group => workspace? workspaces listed.workspaceName = some group.1 ∧
    listed.conflicts = group.2) dump groups

/-- A dump that names known workspaces is located as the groups that it lists. -/
theorem Lists.locate_eq (hlists : dump.Lists workspaces groups) :
    dump.locate workspaces = .ok (groups.map fun group => (group.1, Conflict.unresolved group.2)) := by
  induction hlists with
  | nil => rfl
  | cons hgroup _ ih =>
    obtain ⟨hworkspace, hconflicts⟩ := hgroup
    rw [locate, List.mapM_cons, ← locate, ih, hworkspace, hconflicts]
    rfl

/-- A dump whose names are all known gives the registry of its unresolved conflicts. -/
theorem Lists.registry_eq (hlists : dump.Lists workspaces groups) :
    dump.registry workspaces = .ok (.ofUnresolved groups) := by
  rw [registry, hlists.locate_eq]
  rfl

end ConflictDump

end Reconcile
