import Mathlib.Data.List.Nodup
import Mathlib.Data.List.Perm.Basic
import Reconcile.Checkin.Note

namespace Reconcile.CheckinNote

variable {merged definitions : List NoteDefinition} {definition : NoteDefinition} {name : String}

/-- A definition adds a name only if the name is new. -/
theorem map_name_merge (merged : List NoteDefinition) (definition : NoteDefinition) :
    (merge merged definition).map (·.name) =
      if definition.name ∈ merged.map (·.name) then merged.map (·.name)
      else merged.map (·.name) ++ [definition.name] := by
  have hany : merged.any (·.name == definition.name) = true ↔
      definition.name ∈ merged.map (·.name) := by
    simp [List.any_eq_true]
  have hreplaced : (merged.map fun other =>
      if other.name = definition.name then definition else other).map (·.name) =
        merged.map (·.name) := by
    rw [List.map_map]
    refine List.map_congr_left fun other _ => ?_
    by_cases hname : other.name = definition.name <;> simp [hname]
  rw [merge]
  by_cases hknown : definition.name ∈ merged.map (·.name)
  · rw [if_pos (hany.mpr hknown), if_pos hknown]
    split
    · exact hreplaced
    · rfl
  · rw [if_neg (mt hany.mp hknown), if_neg hknown, List.map_append, List.map_singleton]

/-- Merging keeps the names different. -/
theorem nodup_merge (hnodup : (merged.map (·.name)).Nodup) (definition : NoteDefinition) :
    ((merge merged definition).map (·.name)).Nodup := by
  rw [map_name_merge]
  split
  case isTrue => exact hnodup
  case isFalse hnew =>
    refine List.nodup_append'.mpr ⟨hnodup, List.nodup_singleton _, ?_⟩
    simpa [List.disjoint_singleton] using hnew

theorem nodup_foldl_merge (hnodup : (merged.map (·.name)).Nodup) (definitions : List NoteDefinition) :
    ((definitions.foldl merge merged).map (·.name)).Nodup := by
  induction definitions generalizing merged with
  | nil => exact hnodup
  | cons definition definitions ih => exact ih (nodup_merge hnodup definition)

/-- No name is lost and none comes out of nowhere. -/
theorem mem_names_foldl_merge_iff :
    name ∈ (definitions.foldl merge merged).map (·.name) ↔
      name ∈ merged.map (·.name) ∨ name ∈ definitions.map (·.name) := by
  induction definitions generalizing merged with
  | nil => simp
  | cons definition definitions ih =>
    rw [List.foldl_cons, ih, map_name_merge, List.map_cons, List.mem_cons]
    split
    case isTrue hknown =>
      have hname : name = definition.name → name ∈ merged.map (·.name) := fun heq => heq ▸ hknown
      tauto
    case isFalse => simp [or_assoc]

/-- Some of the definitions requires a note of that name. -/
def Requires (definitions : List NoteDefinition) (name : String) : Prop :=
  ∃ definition ∈ definitions, definition.required = true ∧ definition.name = name

/-- A note becomes required with the first definition that requires it, and stays so. -/
theorem requires_merge_iff :
    Requires (merge merged definition) name ↔
      Requires merged name ∨ definition.required = true ∧ definition.name = name := by
  rw [merge]
  split
  case isFalse => simp [Requires, or_and_right, exists_or]
  case isTrue hknown =>
    obtain ⟨same, hsame, hname⟩ := List.any_eq_true.mp hknown
    rw [beq_iff_eq] at hname
    split
    case isFalse hoptional => simp [hoptional]
    case isTrue hrequired =>
      -- The definition is now there in place of `same`; the others of its name are gone.
      constructor
      · rintro ⟨_, hmem, hnow⟩
        obtain ⟨other, hother, rfl⟩ := List.mem_map.mp hmem
        by_cases hreplaced : other.name = definition.name
        · exact Or.inr (by simpa [hreplaced] using hnow)
        · exact Or.inl ⟨other, hother, by simpa [hreplaced] using hnow⟩
      · rintro (⟨other, hother, hbefore, rfl⟩ | ⟨-, rfl⟩)
        · by_cases hreplaced : other.name = definition.name
          · exact ⟨definition, List.mem_map.mpr ⟨other, hother, if_pos hreplaced⟩, hrequired,
              hreplaced.symm⟩
          · exact ⟨other, List.mem_map.mpr ⟨other, hother, if_neg hreplaced⟩, hbefore, rfl⟩
        · exact ⟨definition, List.mem_map.mpr ⟨same, hsame, if_pos hname⟩, hrequired, rfl⟩

theorem requires_foldl_merge_iff :
    Requires (definitions.foldl merge merged) name ↔
      Requires merged name ∨ Requires definitions name := by
  induction definitions generalizing merged with
  | nil => simp [Requires]
  | cons definition definitions ih =>
    rw [List.foldl_cons, ih, requires_merge_iff, or_assoc]
    simp [Requires]

/-- The notes for definitions have different names. -/
theorem nodup_ofDefinitions (definitions : List NoteDefinition) :
    ((ofDefinitions definitions).map (·.name)).Nodup := by
  have hmerged : ((definitions.foldl merge []).map (·.name)).Nodup :=
    nodup_foldl_merge (by simp) definitions
  rw [ofDefinitions, List.map_map]
  exact ((List.mergeSort_perm _ _).map _).nodup_iff.mpr hmerged

/-- The names of the notes are the names that were defined. -/
theorem mem_names_ofDefinitions_iff :
    name ∈ (ofDefinitions definitions).map (·.name) ↔ name ∈ definitions.map (·.name) := by
  have hmerged : name ∈ (definitions.foldl merge []).map (·.name) ↔
      name ∈ definitions.map (·.name) := by
    simp [mem_names_foldl_merge_iff]
  rw [ofDefinitions, List.map_map, ((List.mergeSort_perm _ _).map _).mem_iff]
  exact hmerged

theorem value_of_mem_ofDefinitions {note : CheckinNote} (hmem : note ∈ ofDefinitions definitions) :
    note.value = none := by
  obtain ⟨_, -, rfl⟩ := List.mem_map.mp hmem
  rfl

/-- A note is required exactly if one of the definitions of its name says so. -/
theorem exists_required_iff (definitions : List NoteDefinition) (name : String) :
    (∃ note ∈ ofDefinitions definitions, note.required = true ∧ note.name = name) ↔
      Requires definitions name := by
  have hmerged : Requires (definitions.foldl merge []) name ↔ Requires definitions name := by
    rw [requires_foldl_merge_iff]
    simp [Requires]
  rw [← hmerged]
  simp [ofDefinitions, Requires]

variable {notes : List CheckinNote} {values : List (String × String)} {value : String}

/-- Writes values into notes, one after the other. -/
def setAll (values : List (String × String)) (notes : List CheckinNote) : List CheckinNote :=
  values.foldl (fun notes (name, value) => setFirst name value notes) notes

/-- The last one of the values with a name. -/
def lastValue? (values : List (String × String)) (name : String) : Option String :=
  (values.filter (·.1 == name)).getLast?.map (·.2)

/-- A later value for a note goes before an earlier one. -/
theorem lastValue?_cons (entry : String × String) (values : List (String × String)) (name : String) :
    lastValue? (entry :: values) name =
      (lastValue? values name).or (if entry.1 = name then some entry.2 else none) := by
  by_cases hname : entry.1 = name
  · simp only [lastValue?, hname, beq_self_eq_true, List.filter_cons_of_pos, List.getLast?_cons, if_pos]
    cases (values.filter (·.1 == name)).getLast? <;> rfl
  · simp [lastValue?, hname]

theorem map_name_setFirst (name value : String) (notes : List CheckinNote) :
    (setFirst name value notes).map (·.name) = notes.map (·.name) := by
  induction notes with
  | nil => rfl
  | cons note notes ih =>
    rw [setFirst]
    split
    · rfl
    · rw [List.map_cons, ih, List.map_cons]

theorem map_name_setAll (values : List (String × String)) (notes : List CheckinNote) :
    (setAll values notes).map (·.name) = notes.map (·.name) := by
  induction values generalizing notes with
  | nil => rfl
  | cons entry values ih =>
    change (setAll values (setFirst entry.1 entry.2 notes)).map (·.name) = _
    rw [ih, map_name_setFirst]

theorem setFirst_eq_self (hname : name ∉ notes.map (·.name)) : setFirst name value notes = notes := by
  induction notes with
  | nil => rfl
  | cons note notes ih =>
    obtain ⟨hnote, hnotes⟩ := not_or.mp (mt List.mem_cons.mpr hname)
    rw [setFirst, if_neg (Ne.symm hnote), ih hnotes]

/-- Where names differ, writing changes the only note of the name. -/
theorem setFirst_append_cons {note : CheckinNote} {before after : List CheckinNote}
    (hbefore : note.name ∉ before.map (·.name)) :
    setFirst note.name value (before ++ note :: after) =
      before ++ { note with value := some value } :: after := by
  induction before with
  | nil => rw [List.nil_append, setFirst, if_pos rfl, List.nil_append]
  | cons other before ih =>
    obtain ⟨hother, hbefore⟩ := not_or.mp (mt List.mem_cons.mpr hbefore)
    rw [List.cons_append, setFirst, if_neg (Ne.symm hother), ih hbefore, List.cons_append]

/-- With different names there is one note to write into. -/
theorem setFirst_eq_map (hnodup : (notes.map (·.name)).Nodup) :
    setFirst name value notes = notes.map fun note =>
      if note.name = name then { note with value := some value } else note := by
  induction notes with
  | nil => rfl
  | cons note notes ih =>
    obtain ⟨hnote, hnodup⟩ := List.nodup_cons.mp hnodup
    rw [setFirst, List.map_cons]
    split
    case isTrue hname =>
      -- No other note has the name, so the rest is left alone either way.
      rw [← ih hnodup, setFirst_eq_self (hname ▸ hnote)]
    case isFalse => rw [ih hnodup]

/-- What stands in a note in the end is the last value written into it, or else what stood there. -/
theorem setAll_eq_map (hnodup : (notes.map (·.name)).Nodup) :
    setAll values notes = notes.map fun note =>
      { note with value := (lastValue? values note.name).or note.value } := by
  induction values generalizing notes with
  | nil => simp [setAll, lastValue?]
  | cons entry values ih =>
    obtain ⟨name, value⟩ := entry
    have hnodup' : ((setFirst name value notes).map (·.name)).Nodup := by rwa [map_name_setFirst]
    change setAll values (setFirst name value notes) = _
    rw [ih hnodup', setFirst_eq_map hnodup, List.map_map]
    refine List.map_congr_left fun note _ => ?_
    rw [lastValue?_cons]
    by_cases hname : note.name = name
    · simp [hname]
    · simp [hname, Ne.symm hname]

/-- Of notes that were empty, those are missing that are required and whose last value is blank or
absent. -/
theorem missingNames_setAll (hnodup : (notes.map (·.name)).Nodup)
    (hempty : ∀ note ∈ notes, note.value = none) (values : List (String × String)) :
    missingNames (setAll values notes) = (notes.filter fun note =>
      note.required && (lastValue? values note.name).all Text.isBlankText).map (·.name) := by
  rw [missingNames, setAll_eq_map hnodup, List.filter_map, List.map_map]
  refine congrArg _ (List.filter_congr fun note hmem => ?_)
  simp [isMissing, hempty note hmem]

/-- A note is missing exactly if some definition requires one of its name for which no text is there. -/
theorem missingNames_ne_nil_iff (definitions : List NoteDefinition) (values : List (String × String)) :
    missingNames (setAll values (ofDefinitions definitions)) ≠ [] ↔
      ∃ definition ∈ definitions, definition.required = true ∧
        (lastValue? values definition.name).all Text.isBlankText = true := by
  have hnotes : missingNames (setAll values (ofDefinitions definitions)) ≠ [] ↔
      ∃ name, (∃ note ∈ ofDefinitions definitions, note.required = true ∧ note.name = name) ∧
        (lastValue? values name).all Text.isBlankText = true := by
    rw [missingNames_setAll (nodup_ofDefinitions definitions) fun _ => value_of_mem_ofDefinitions,
      ne_eq, List.map_eq_nil_iff, List.filter_eq_nil_iff]
    simp only [Bool.and_eq_true, not_forall, not_not]
    grind
  rw [hnotes]
  simp only [exists_required_iff, Requires]
  grind

end Reconcile.CheckinNote
