import Mathlib.Data.List.Induction
import Reconcile.Proofs.Checkin.NoteFields

namespace Reconcile

section Stable

variable {α : Type} {R : α → α → Prop} {l : List α}

theorem trans_le_key (key : α → Int) (a b c : α) (hab : decide (key a ≤ key b) = true)
    (hbc : decide (key b ≤ key c) = true) : decide (key a ≤ key c) = true := by
  simp only [decide_eq_true_eq] at hab hbc ⊢
  omega

theorem total_le_key (key : α → Int) (a b : α) :
    (decide (key a ≤ key b) || decide (key b ≤ key a)) = true := by
  simp only [Bool.or_eq_true, decide_eq_true_eq]
  omega

/-- Elements with the same key stand in the sorted list as they did before. -/
theorem filter_mergeSort (key : α → Int) (k : Int) (l : List α) :
    (l.mergeSort fun a b => key a ≤ key b).filter (key · == k) = l.filter (key · == k) := by
  have hsame : (l.filter (key · == k)).Pairwise fun a b => decide (key a ≤ key b) = true := by
    apply List.pairwise_of_forall_mem_list
    intro a ha b hb
    obtain ⟨-, ha⟩ := List.mem_filter.mp ha
    obtain ⟨-, hb⟩ := List.mem_filter.mp hb
    rw [beq_iff_eq] at ha hb
    simp [ha, hb]
  -- They are sorted as they are, so sorting the whole list keeps them as a sublist.
  have hsublist := List.sublist_mergeSort (trans_le_key key) (total_le_key key) hsame
    List.filter_sublist
  have hkept := hsublist.filter (key · == k)
  rw [List.filter_filter] at hkept
  simp only [Bool.and_self] at hkept
  have hperm := (List.mergeSort_perm l fun a b => key a ≤ key b).filter (key · == k)
  exact (hkept.eq_of_length hperm.length_eq.symm).symm

/-- In a list that is sorted by a key, elements with the same key are in the order in which they were. -/
theorem pairwise_mergeSort_of_pairwise (key : α → Int) (hl : l.Pairwise R) :
    (l.mergeSort fun a b => key a ≤ key b).Pairwise fun a b =>
      key a < key b ∨ key a = key b ∧ R a b := by
  have hsorted := List.pairwise_mergeSort (trans_le_key key) (total_le_key key) l
  rw [List.pairwise_iff_forall_sublist] at hsorted hl ⊢
  intro a b hpair
  have hle : key a ≤ key b := by simpa using hsorted hpair
  by_cases hlt : key a < key b
  · exact Or.inl hlt
  · have heq : key a = key b := by omega
    have hkept := hpair.filter (key · == key b)
    rw [filter_mergeSort, List.filter_cons_of_pos (by simpa using heq),
      List.filter_cons_of_pos (by simp), List.filter_nil] at hkept
    exact Or.inr ⟨heq, hl (hkept.trans List.filter_sublist)⟩

end Stable

namespace CheckinNote

variable {definitions : List NoteDefinition} {definition : NoteDefinition} {name : String}

/-- The definition that stands for a name: the last one that requires the note, or else the first one. -/
def representative? (definitions : List NoteDefinition) (name : String) : Option NoteDefinition :=
  let required := definitions.filter fun definition => definition.name == name && definition.required
  required.getLast?.or (definitions.find? (·.name == name))

theorem representative?_concat_of_ne (hname : definition.name ≠ name) :
    representative? (definitions ++ [definition]) name = representative? definitions name := by
  simp [representative?, hname]

/-- A required definition takes the place of whatever stood for its name. -/
theorem representative?_concat_of_required (hrequired : definition.required = true) :
    representative? (definitions ++ [definition]) definition.name = some definition := by
  simp [representative?, hrequired]

/-- An optional definition stands for its name only if nothing did before. -/
theorem representative?_concat_of_optional (hoptional : definition.required = false) :
    representative? (definitions ++ [definition]) definition.name =
      (representative? definitions definition.name).or (some definition) := by
  simp [representative?, hoptional]

theorem representative?_eq_none_iff :
    representative? definitions name = none ↔ name ∉ definitions.map (·.name) := by
  simp only [representative?, Option.or_eq_none_iff, List.getLast?_eq_none_iff, List.filter_eq_nil_iff,
    List.find?_eq_none, List.mem_map, not_exists, not_and]
  grind

/-- The place at which a name comes first. -/
def firstPlace (definitions : List NoteDefinition) (name : String) : Nat :=
  (definitions.map (·.name)).idxOf name

/-- Later definitions do not move a name that is there. -/
theorem firstPlace_concat_of_mem (definition : NoteDefinition)
    (hname : name ∈ definitions.map (·.name)) :
    firstPlace (definitions ++ [definition]) name = firstPlace definitions name := by
  rw [firstPlace, List.map_append, List.idxOf_append_of_mem hname, firstPlace]

/-- A new name comes behind all others. -/
theorem firstPlace_lt_concat (hname : name ∈ definitions.map (·.name))
    (hnew : definition.name ∉ definitions.map (·.name)) :
    firstPlace definitions name < firstPlace (definitions ++ [definition]) definition.name := by
  have hplace : firstPlace definitions name < (definitions.map (·.name)).length :=
    List.idxOf_lt_length_of_mem hname
  have hlast : firstPlace (definitions ++ [definition]) definition.name =
      (definitions.map (·.name)).length := by
    rw [firstPlace, List.map_append, List.idxOf_append_of_notMem hnew]
    simp
  omega

/-- The definitions that stand for the names there are, in the order in which the names came first. -/
structure Merged (definitions merged : List NoteDefinition) : Prop where
  names : ∀ name, name ∈ merged.map (·.name) ↔ name ∈ definitions.map (·.name)
  represents : ∀ definition ∈ merged, representative? definitions definition.name = some definition
  order : (merged.map (·.name)).Pairwise fun a b => firstPlace definitions a < firstPlace definitions b

namespace Merged

variable {merged : List NoteDefinition}

theorem names_merge (hmerged : Merged definitions merged) (definition : NoteDefinition) (name : String) :
    name ∈ (merge merged definition).map (·.name) ↔
      name ∈ (definitions ++ [definition]).map (·.name) := by
  have hnames : name ∈ ([definition].foldl merge merged).map (·.name) ↔ _ := mem_names_foldl_merge_iff
  rw [List.foldl_cons, List.foldl_nil, hmerged.names] at hnames
  rw [hnames, List.map_append, List.mem_append]

/-- Each merged definition is the one that stands for its name. -/
theorem represents_merge (hmerged : Merged definitions merged) (definition : NoteDefinition) :
    ∀ other ∈ merge merged definition,
      representative? (definitions ++ [definition]) other.name = some other := by
  have hother (other : NoteDefinition) (hmem : other ∈ merged) (hne : definition.name ≠ other.name) :
      representative? (definitions ++ [definition]) other.name = some other := by
    rw [representative?_concat_of_ne hne]
    exact hmerged.represents other hmem
  intro other hmem
  rw [merge] at hmem
  split at hmem
  case isTrue hknown =>
    split at hmem
    case isTrue hrequired =>
      obtain ⟨before, hbefore, rfl⟩ := List.mem_map.mp hmem
      by_cases hname : before.name = definition.name
      · rw [if_pos hname]
        exact representative?_concat_of_required hrequired
      · rw [if_neg hname]
        exact hother before hbefore (Ne.symm hname)
    case isFalse hoptional =>
      by_cases hname : definition.name = other.name
      · have hstands := hmerged.represents other hmem
        rw [← hname] at hstands ⊢
        rw [representative?_concat_of_optional (by simpa using hoptional), hstands, Option.some_or]
      · exact hother other hmem hname
  case isFalse hnew =>
    have hnew : definition.name ∉ merged.map (·.name) := by simpa using hnew
    rcases List.mem_append.mp hmem with hmem | hmem
    · exact hother other hmem fun heq => hnew (heq ▸ List.mem_map_of_mem hmem)
    · obtain rfl := List.mem_singleton.mp hmem
      have hnone : representative? definitions other.name = none :=
        representative?_eq_none_iff.mpr fun hthere => hnew ((hmerged.names _).mpr hthere)
      cases hrequired : other.required with
      | true => exact representative?_concat_of_required hrequired
      | false => rw [representative?_concat_of_optional hrequired, hnone, Option.none_or]

/-- The merged names stand in the order in which they came first. -/
theorem order_merge (hmerged : Merged definitions merged) (definition : NoteDefinition) :
    ((merge merged definition).map (·.name)).Pairwise fun a b =>
      firstPlace (definitions ++ [definition]) a < firstPlace (definitions ++ [definition]) b := by
  have hthere (name : String) (hmem : name ∈ merged.map (·.name)) :
      firstPlace (definitions ++ [definition]) name = firstPlace definitions name :=
    firstPlace_concat_of_mem definition ((hmerged.names name).mp hmem)
  have hkept : (merged.map (·.name)).Pairwise fun a b =>
      firstPlace (definitions ++ [definition]) a < firstPlace (definitions ++ [definition]) b := by
    refine hmerged.order.imp_of_mem fun {a b} ha hb hlt => ?_
    rwa [hthere a ha, hthere b hb]
  rw [map_name_merge]
  split
  case isTrue => exact hkept
  case isFalse hnew =>
    refine List.pairwise_append.mpr ⟨hkept, List.pairwise_singleton _ _, fun name hname last hlast => ?_⟩
    obtain rfl := List.mem_singleton.mp hlast
    rw [hthere name hname]
    exact firstPlace_lt_concat ((hmerged.names name).mp hname) fun hmem =>
      hnew ((hmerged.names _).mpr hmem)

end Merged

/-- Merging keeps, of all definitions so far, those that stand for their names. -/
theorem merged_foldl_merge (definitions : List NoteDefinition) :
    Merged definitions (definitions.foldl merge []) := by
  induction definitions using List.reverseRecOn with
  | nil => exact ⟨by simp, by simp, List.Pairwise.nil⟩
  | append_singleton definitions definition ih =>
    rw [List.foldl_append, List.foldl_cons, List.foldl_nil]
    exact ⟨ih.names_merge definition, ih.represents_merge definition, ih.order_merge definition⟩

/-- Each name that is defined has one field, with nothing written in it, and no other name has one. It is
required exactly if some definition of the name says so. The fields come by the display order of the
definitions that stand for their names, and at the same place in the order in which the names came
first. -/
theorem ofDefinitions_in_display_order (definitions : List NoteDefinition) :
    let notes := ofDefinitions definitions
    (notes.map (·.name)).Nodup ∧
    (∀ name, name ∈ notes.map (·.name) ↔ name ∈ definitions.map (·.name)) ∧
    (∀ note ∈ notes, note.value = none ∧
      (note.required = true ↔
        ∃ definition ∈ definitions, definition.required = true ∧ definition.name = note.name)) ∧
    notes.Pairwise fun a b => ∃ first second,
      representative? definitions a.name = some first ∧
      representative? definitions b.name = some second ∧
      (first.displayOrder < second.displayOrder ∨
        first.displayOrder = second.displayOrder ∧
          firstPlace definitions a.name < firstPlace definitions b.name) := by
  intro notes
  have hmerged := merged_foldl_merge definitions
  have hnodup := nodup_ofDefinitions definitions
  refine ⟨hnodup, fun name => mem_names_ofDefinitions_iff, fun note hnote => ?_, ?_⟩
  · refine ⟨value_of_mem_ofDefinitions hnote, ?_⟩
    rw [← Requires, ← exists_required_iff definitions note.name]
    constructor
    · intro hrequired
      exact ⟨note, hnote, hrequired, rfl⟩
    · rintro ⟨other, hother, hrequired, hname⟩
      rwa [List.inj_on_of_nodup_map hnodup hother hnote hname] at hrequired
  · apply List.pairwise_map.mpr
    have hplaces : (definitions.foldl merge []).Pairwise fun a b =>
        firstPlace definitions a.name < firstPlace definitions b.name :=
      (List.pairwise_map (f := NoteDefinition.name)).mp hmerged.order
    have hordered := pairwise_mergeSort_of_pairwise (·.displayOrder) hplaces
    refine hordered.imp_of_mem fun {first second} hfirst hsecond hbefore => ?_
    exact ⟨first, second, hmerged.represents first (List.mem_mergeSort.mp hfirst),
      hmerged.represents second (List.mem_mergeSort.mp hsecond), hbefore⟩

/-- One name has its place from its first definition, and its display order, which it shares with the other
name, from its second one; the last definition no longer matters. -/
example : ofDefinitions
    [⟨"Security", false, 2⟩, ⟨"Code", false, 5⟩, ⟨"Security", true, 5⟩, ⟨"Security", false, 0⟩] =
      [⟨"Security", true, none⟩, ⟨"Code", false, none⟩] := by
  cbv

end CheckinNote

end Reconcile
