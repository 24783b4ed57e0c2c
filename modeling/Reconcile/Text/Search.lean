namespace Reconcile.Text

/-- What follows `pattern` at the start of the text, if the text starts with it. -/
def after? : (pattern s : List Char) → Option (List Char)
  | [], s => some s
  | _ :: _, [] => none
  | p :: pattern, c :: s => if p = c then after? pattern s else none

theorem after?_eq_some_iff {pattern s rest : List Char} :
    after? pattern s = some rest ↔ s = pattern ++ rest := by
  induction pattern generalizing s with
  | nil => simp [after?]
  | cons p pattern ih =>
    cases s with
    | nil => simp [after?]
    | cons c s =>
      by_cases hpc : p = c
      · subst hpc
        simp [after?, ih]
      · simp [after?, hpc, Ne.symm hpc]

/-- The text before the first occurrence of `pattern` and the text after it. -/
def cut? (pattern : List Char) : List Char → Option (List Char × List Char)
  | [] => (after? pattern []).map ([], ·)
  | c :: s =>
    match after? pattern (c :: s) with
    | some rest => some ([], rest)
    | none => (cut? pattern s).map fun (before, rest) => (c :: before, rest)

/-- The two pieces are what surrounds the occurrence that was found. -/
theorem eq_append_of_cut? {pattern s before rest : List Char}
    (hcut : cut? pattern s = some (before, rest)) : s = before ++ (pattern ++ rest) := by
  induction s generalizing before rest with
  | nil =>
    simp only [cut?, Option.map_eq_some_iff, Prod.mk.injEq] at hcut
    obtain ⟨after, hafter, rfl, rfl⟩ := hcut
    simpa using after?_eq_some_iff.mp hafter
  | cons c s ih =>
    simp only [cut?] at hcut
    split at hcut
    · rename_i after hafter
      simp only [Option.some.injEq, Prod.mk.injEq] at hcut
      obtain ⟨rfl, rfl⟩ := hcut
      simpa using after?_eq_some_iff.mp hafter
    · simp only [Option.map_eq_some_iff, Prod.exists, Prod.mk.injEq] at hcut
      obtain ⟨before', rest', hcut', rfl, rfl⟩ := hcut
      rw [ih hcut', List.cons_append]

/-- An occurrence that is found takes its own length out of the text. -/
theorem length_rest_of_cut? {pattern s before rest : List Char}
    (hcut : cut? pattern s = some (before, rest)) :
    before.length + pattern.length + rest.length = s.length := by
  rw [eq_append_of_cut? hcut]
  simp only [List.length_append]
  omega

/-- Behind an occurrence there is less text than before. -/
theorem length_rest_lt_of_cut? {pattern s before rest : List Char} (hpattern : pattern ≠ [])
    (hcut : cut? pattern s = some (before, rest)) : rest.length < s.length := by
  have hlength := length_rest_of_cut? hcut
  have hpos := List.length_pos_iff.mpr hpattern
  omega

/-- The pieces between occurrences of `separator`, one more than there are occurrences. -/
def splitOn {α : Type} [DecidableEq α] (separator : α) : List α → List (List α)
  | [] => [[]]
  | c :: s =>
    if c = separator then [] :: splitOn separator s
    else
      match splitOn separator s with
      | [] => [[c]]
      | piece :: pieces => (c :: piece) :: pieces

theorem splitOn_ne_nil {α : Type} [DecidableEq α] (separator : α) (s : List α) :
    splitOn separator s ≠ [] := by
  induction s with
  | nil => simp [splitOn]
  | cons c s ih =>
    rw [splitOn]
    split
    · simp
    · split <;> simp

def pieces (separator : Char) (s : String) : List String :=
  (splitOn separator s.toList).map String.ofList

/-- Both sides of the first occurrence of `separator` in a string. -/
def cutAt? (separator : Char) (s : String) : Option (String × String) :=
  (cut? [separator] s.toList).map fun (before, rest) => (String.ofList before, String.ofList rest)

/-- Replaces every occurrence of `pattern`, from left to right and without looking at what was
    put in. An empty pattern occurs nowhere. -/
def replace (pattern replacement : List Char) (s : List Char) : List Char :=
  if _ : pattern = [] then s
  else
    match _ : cut? pattern s with
    | none => s
    | some (before, rest) => before ++ (replacement ++ replace pattern replacement rest)
termination_by s.length
decreasing_by exact length_rest_lt_of_cut? (by assumption) (by assumption)

/-- One character for another, everywhere. -/
def swap (old new : Char) (s : String) : String :=
  String.ofList (s.toList.map fun c => if c = old then new else c)

/-- The lines of a text: each ends with its line feed, the last one perhaps without. -/
def lines : List Char → List (List Char)
  | [] => []
  | c :: s =>
    if c = '\n' then [c] :: lines s
    else
      match lines s with
      | [] => [[c]]
      | line :: rest => (c :: line) :: rest

/-- A line without its line feed, and without a carriage return right before that. A carriage
    return at the end of a text belongs to its last line. -/
def withoutLineEnd (line : List Char) : List Char :=
  match line.reverse with
  | '\n' :: '\r' :: rest => rest.reverse
  | '\n' :: rest => rest.reverse
  | _ => line

end Reconcile.Text
