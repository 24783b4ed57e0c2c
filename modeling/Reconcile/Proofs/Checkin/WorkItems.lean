import Mathlib.Data.Finmap
import Reconcile.Checkin.WorkItem
import Reconcile.Proofs.Sorted

namespace Reconcile

/-- What is selected, by number. -/
abbrev WorkItemTable := Finmap fun _ : Int => String × WorkItemAction

/-- Numbers and then titles order work items strictly, and no two of them are at the same place. -/
theorem WorkItem.isOrder_before : Sorted.IsOrder WorkItem.before :=
  Sorted.isOrder_lex WorkItem.id WorkItem.title Sorted.isOrder_decide Sorted.isOrder_decide
    fun a b hid htitle => by
      cases a
      cases b
      simp_all

namespace WorkItems

variable {items : WorkItems} {table : WorkItemTable}

/-- The selection holds what a table holds. -/
structure Refines (items : WorkItems) (table : WorkItemTable) : Prop where
  ordered : (items.actions.map (·.1)).Pairwise (WorkItem.before · · = true)
  /-- No number is there twice, under whatever titles. -/
  nodup : (items.actions.map (·.1.id)).Nodup
  mem_iff : ∀ entry, entry ∈ items.actions ↔
    table.lookup entry.1.id = some (entry.1.title, entry.2)

theorem refines_empty : Refines .empty ∅ where
  ordered := List.Pairwise.nil
  nodup := List.nodup_nil
  mem_iff entry := by simp [empty]

namespace Refines

/-- Looking an item up by its number is looking it up in the map. -/
theorem entry?_eq (hitems : items.Refines table) (id : Int) :
    items.entry? id = (table.lookup id).map fun (title, action) => (⟨id, title⟩, action) := by
  cases hfind : items.entry? id with
  | some entry =>
    have hid : entry.1.id = id := by simpa using List.find?_some hfind
    have hlookup := (hitems.mem_iff entry).mp (List.mem_of_find?_eq_some hfind)
    rw [hid] at hlookup
    rw [hlookup, Option.map_some, ← hid]
  | none =>
    cases hlookup : table.lookup id with
    | none => rfl
    | some value =>
      have hmem : (⟨id, value.1⟩, value.2) ∈ items.actions := (hitems.mem_iff _).mpr hlookup
      have habsent := List.find?_eq_none.mp hfind _ hmem
      simp at habsent

theorem action?_eq (hitems : items.Refines table) (id : Int) :
    items.action? id = (table.lookup id).map (·.2) := by
  rw [action?, hitems.entry?_eq, Option.map_map]
  rfl

theorem size_eq (hitems : items.Refines table) : items.size = table.keys.card := by
  have hkeys : (items.actions.map (·.1.id)).toFinset = table.keys := by
    ext id
    rw [List.mem_toFinset, List.mem_map, Finmap.mem_keys, Finmap.mem_iff]
    constructor
    · rintro ⟨entry, hentry, rfl⟩
      exact ⟨_, (hitems.mem_iff entry).mp hentry⟩
    · rintro ⟨value, hlookup⟩
      exact ⟨(⟨id, value.1⟩, value.2), (hitems.mem_iff _).mpr hlookup, rfl⟩
  rw [← hkeys, List.toFinset_card_of_nodup hitems.nodup, List.length_map, size]

theorem isEmpty_iff (hitems : items.Refines table) : items.isEmpty = true ↔ table = ∅ := by
  rw [isEmpty, List.isEmpty_iff, ← List.length_eq_zero_iff]
  change items.size = 0 ↔ _
  rw [hitems.size_eq, Finset.card_eq_zero]
  exact ⟨fun hkeys => Finmap.ext_lookup fun id => by
    rw [Finmap.lookup_empty, Finmap.lookup_eq_none, ← Finmap.mem_keys, hkeys]
    exact Finset.notMem_empty id, fun htable => htable ▸ Finmap.keys_empty⟩

/-- The action stored under a number and a title is the one of the number. -/
theorem take_eq (hitems : items.Refines table) (id : Int) :
    items.take id = ((table.lookup id).map (·.2), items.remove id) := by
  have hentry := hitems.entry?_eq id
  cases hlookup : table.lookup id with
  | none =>
    rw [hlookup] at hentry
    rw [take, remove, hentry]
    rfl
  | some value =>
    rw [hlookup, Option.map_some] at hentry
    have hstored : items.actions.lookup ⟨id, value.1⟩ = some value.2 := by
      have hmem : (⟨id, value.1⟩, value.2) ∈ items.actions := (hitems.mem_iff _).mpr hlookup
      cases hfound : items.actions.lookup ⟨id, value.1⟩ with
      | none => simpa using List.lookup_eq_none_iff.mp hfound _ hmem
      | some action =>
        obtain ⟨front, back, hsplit, -⟩ := List.lookup_eq_some_iff.mp hfound
        have hthere := (hitems.mem_iff (⟨id, value.1⟩, action)).mp (hsplit ▸ by simp)
        rw [hlookup] at hthere
        rw [Option.some.inj hthere]
    rw [take, hentry]
    simp only [hstored, Option.map_some]

/-- Choosing an action inserts it under the number of the item, whatever title the number had. -/
theorem set (hitems : items.Refines table) (item : WorkItem) (action : WorkItemAction) :
    (items.set item action).Refines (table.insert item.id (item.title, action)) := by
  let others := items.actions.filter fun entry => entry.1.id ≠ item.id
  have hsub : others.Sublist items.actions := List.filter_sublist
  have hapart : ∀ entry ∈ others,
      item.before entry.1 = true ∨ entry.1.before item = true := by
    intro entry hentry
    by_contra hplaced
    rw [not_or, Bool.not_eq_true, Bool.not_eq_true] at hplaced
    have hsame := WorkItem.isOrder_before.eq_of_not_lt hplaced.1 hplaced.2
    have hother := (List.mem_filter.mp hentry).2
    simp [hsame] at hother
  have hperm : (items.set item action).actions.Perm ((item, action) :: others) :=
    Sorted.perm_insert hapart
  refine ⟨?_, ?_, ?_⟩
  · have hkeys : (items.set item action).actions.map (·.1) =
        Sorted.insert WorkItem.before item (others.map (·.1)) :=
      (Sorted.insert_map WorkItem.before (·.1) (item, action) others).symm
    rw [hkeys]
    exact Sorted.pairwise_insert WorkItem.isOrder_before (hitems.ordered.sublist (hsub.map _))
  · rw [(hperm.map (·.1.id)).nodup_iff, List.map_cons, List.nodup_cons]
    refine ⟨?_, hitems.nodup.sublist (hsub.map _)⟩
    rw [List.mem_map]
    rintro ⟨entry, hentry, hid⟩
    have hother := (List.mem_filter.mp hentry).2
    simp [hid] at hother
  · intro entry
    rw [hperm.mem_iff, List.mem_cons, List.mem_filter]
    by_cases hid : entry.1.id = item.id
    · rw [hid, Finmap.lookup_insert]
      obtain ⟨⟨id, title⟩, chosen⟩ := entry
      obtain ⟨number, name⟩ := item
      simp only at hid
      simp [hid, eq_comm]
    · rw [Finmap.lookup_insert_of_ne table hid, ← hitems.mem_iff]
      have hne : entry ≠ (item, action) := by
        rintro rfl
        exact hid rfl
      simp [hne, hid]

/-- Taking an item out leaves the others in their order. -/
theorem actions_remove (hitems : items.Refines table) (id : Int) :
    (items.remove id).actions = items.actions.filter fun entry => entry.1.id ≠ id := by
  have hentry := hitems.entry?_eq id
  cases hlookup : table.lookup id with
  | none =>
    rw [hlookup, Option.map_none] at hentry
    have hothers : ∀ entry ∈ items.actions, entry.1.id ≠ id := by
      rintro entry hmem rfl
      rw [hitems.mem_iff, hlookup] at hmem
      cases hmem
    rw [WorkItems.remove, hentry, List.filter_eq_self.mpr (by simpa using hothers)]
  | some value =>
    rw [hlookup, Option.map_some] at hentry
    rw [WorkItems.remove, hentry]
    refine List.filter_congr fun entry hmem => ?_
    -- The number is there under one title only.
    have hsame : entry.1 = ⟨id, value.1⟩ ↔ entry.1.id = id := by
      refine ⟨fun heq => heq ▸ rfl, fun hid => ?_⟩
      rw [hitems.mem_iff, hid, hlookup, Option.some.injEq] at hmem
      rw [hmem, ← hid]
    simp [hsame]

theorem remove (hitems : items.Refines table) (id : Int) :
    (items.remove id).Refines (table.erase id) := by
  have hactions := hitems.actions_remove id
  have hsub : (items.remove id).actions.Sublist items.actions := by
    rw [hactions]
    exact List.filter_sublist
  refine ⟨hitems.ordered.sublist (hsub.map _), hitems.nodup.sublist (hsub.map _), ?_⟩
  intro entry
  rw [hactions, List.mem_filter]
  by_cases hid : entry.1.id = id
  · rw [hid, Finmap.lookup_erase]
    simp
  · rw [Finmap.lookup_erase_ne hid, ← hitems.mem_iff]
    simp [hid]

end Refines

/-- A call that changes what is selected. -/
inductive Call where
  | set (item : WorkItem) (action : WorkItemAction)
  | take (id : Int)
deriving DecidableEq, Repr

namespace Call

/-- The number that a call is about. -/
def number : Call → Int
  | set item _ => item.id
  | take id => id

/-- The answer of a call and the selection after it. Choosing an action has no answer. -/
def run (items : WorkItems) : Call → Option WorkItemAction × WorkItems
  | set item action => (none, items.set item action)
  | take id => items.take id

/-- The same call on a table. -/
def runOn (table : WorkItemTable) : Call → Option WorkItemAction × WorkItemTable
  | set item action => (none, table.insert item.id (item.title, action))
  | take id => ((table.lookup id).map (·.2), table.erase id)

theorem lookup_runOn_of_ne (call : Call) {id : Int} (hid : id ≠ call.number) :
    (call.runOn table).2.lookup id = table.lookup id := by
  cases call with
  | set item action => exact Finmap.lookup_insert_of_ne table hid
  | take number => exact Finmap.lookup_erase_ne hid

end Call

/-- Every call answers as it does on the map, and keeps standing for the map that it leaves. -/
theorem Refines.run (hitems : items.Refines table) (call : Call) :
    (call.run items).1 = (call.runOn table).1 ∧ (call.run items).2.Refines (call.runOn table).2 := by
  cases call with
  | set item action => exact ⟨rfl, hitems.set item action⟩
  | take id =>
    rw [Call.run, hitems.take_eq]
    exact ⟨rfl, hitems.remove id⟩

/-- A call leaves the entries of other numbers alone. -/
theorem Refines.mem_run_iff (hitems : items.Refines table) (call : Call)
    {entry : WorkItem × WorkItemAction} (hid : entry.1.id ≠ call.number) :
    entry ∈ (call.run items).2.actions ↔ entry ∈ items.actions := by
  rw [(hitems.run call).2.mem_iff, hitems.mem_iff, call.lookup_runOn_of_ne hid]

/-- What is selected after some calls, nothing being selected before. -/
def after (calls : List Call) : WorkItems :=
  calls.foldl (fun items call => (call.run items).2) .empty

/-- The table after the same calls. -/
def tableAfter (calls : List Call) : WorkItemTable :=
  calls.foldl (fun table call => (call.runOn table).2) ∅

theorem refines_after (calls : List Call) : (after calls).Refines (tableAfter calls) := by
  suffices hruns : ∀ {items : WorkItems} {table : WorkItemTable}, items.Refines table →
      (calls.foldl (fun items call => (call.run items).2) items).Refines
        (calls.foldl (fun table call => (call.runOn table).2) table) from hruns refines_empty
  induction calls with
  | nil => exact fun hitems => hitems
  | cons call calls ih => exact fun hitems => ih (hitems.run call).2

/-- Whatever was called before, the selection is a finite map by number: it reads like one, and the next
call answers and changes it as it does a finite map, without touching other numbers. A number that is not
there is not taken out. -/
theorem selection_refines_table (calls : List Call) :
    (after calls).Refines (tableAfter calls) ∧
      (∀ id, (after calls).action? id = ((tableAfter calls).lookup id).map (·.2)) ∧
      (after calls).size = (tableAfter calls).keys.card ∧
      ((after calls).isEmpty = true ↔ tableAfter calls = ∅) ∧
      (∀ call : Call, (call.run (after calls)).1 = (call.runOn (tableAfter calls)).1 ∧
        ∀ entry : WorkItem × WorkItemAction, entry.1.id ≠ call.number →
          (entry ∈ (call.run (after calls)).2.actions ↔ entry ∈ (after calls).actions)) ∧
      ∀ id, (tableAfter calls).lookup id = none → (after calls).take id = (none, after calls) := by
  have hitems := refines_after calls
  refine ⟨hitems, hitems.action?_eq, hitems.size_eq, hitems.isEmpty_iff,
    fun call => ⟨(hitems.run call).1, fun entry hid => hitems.mem_run_iff call hid⟩, ?_⟩
  intro id hlookup
  have hentry := hitems.entry?_eq id
  rw [hlookup, Option.map_none] at hentry
  rw [take, hentry]

/-- An item that is renamed between two choices: the second choice takes the place of the first, and taking
out its number leaves the other item. -/
theorem selection_refines_table_renamed :
    let calls : List Call := [.set ⟨7, "Bug"⟩ .associate, .set ⟨3, "Task"⟩ .resolve,
      .set ⟨7, "Bug (renamed)"⟩ .resolve]
    let task : WorkItem × WorkItemAction := (⟨3, "Task"⟩, .resolve)
    (after calls).actions = [task, (⟨7, "Bug (renamed)"⟩, .resolve)] ∧
      (task.1.id ≠ (Call.take 7).number ∧ task ∈ ((Call.take 7).run (after calls)).2.actions) ∧
      (tableAfter calls).lookup 5 = none ∧ (after calls).take 5 = (none, after calls) := by
  intro calls task
  obtain ⟨hrefines, -, -, -, hcalls, habsent⟩ := selection_refines_table calls
  have hactions : (after calls).actions = [task, (⟨7, "Bug (renamed)"⟩, .resolve)] := by decide
  have hother : task.1.id ≠ (Call.take 7).number := by decide
  have hmem : task ∈ (after calls).actions := hactions ▸ List.mem_cons_self
  have hlookup : (tableAfter calls).lookup 5 = none := by decide
  exact ⟨hactions, ⟨hother, ((hcalls (.take 7)).2 task hother).mpr hmem⟩, hlookup, habsent 5 hlookup⟩

end WorkItems

end Reconcile
