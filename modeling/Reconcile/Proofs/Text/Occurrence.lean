import Mathlib.Data.List.Infix
import Reconcile.Text.Search

namespace Reconcile.Text

variable {pattern s t before rest : List Char} {c d : Char}

theorem after?_eq_none_iff : after? pattern s = none ↔ ¬ pattern <+: s := by
  constructor
  · rintro hnone ⟨rest, rfl⟩
    rw [after?_eq_some_iff.mpr rfl] at hnone
    cases hnone
  · intro hstart
    cases hafter : after? pattern s with
    | none => rfl
    | some rest => exact absurd ⟨rest, (after?_eq_some_iff.mp hafter).symm⟩ hstart

theorem cut?_append_self (pattern rest : List Char) :
    cut? pattern (pattern ++ rest) = some ([], rest) := by
  have hafter : after? pattern (pattern ++ rest) = some rest := after?_eq_some_iff.mpr rfl
  cases htext : pattern ++ rest with
  | nil => rw [cut?, ← htext, hafter, Option.map_some]
  | cons c s => rw [cut?, ← htext, hafter]

/-- An occurrence that does not begin with the first character is one in the rest. -/
theorem cut?_cons (hstart : ¬ pattern <+: c :: s) :
    cut? pattern (c :: s) = (cut? pattern s).map fun (before, rest) => (c :: before, rest) := by
  rw [cut?, after?_eq_none_iff.mpr hstart]

theorem cut?_eq_none_iff : cut? pattern s = none ↔ ¬ pattern <:+: s := by
  induction s with
  | nil =>
    rw [cut?, Option.map_eq_none_iff, after?_eq_none_iff, List.prefix_nil, List.infix_nil]
  | cons c s ih =>
    rw [List.infix_cons_iff, not_or, ← ih]
    by_cases hstart : pattern <+: c :: s
    · obtain ⟨rest, hrest⟩ := hstart
      rw [← hrest, cut?_append_self]
      simp
    · rw [cut?_cons hstart, Option.map_eq_none_iff]
      simp [hstart]

/-- More text behind an occurrence does not move it. -/
theorem cut?_append_of_eq_some (hcut : cut? pattern s = some (before, rest)) (t : List Char) :
    cut? pattern (s ++ t) = some (before, rest ++ t) := by
  induction s generalizing before with
  | nil =>
    rw [cut?, Option.map_eq_some_iff] at hcut
    obtain ⟨after, hafter, hpair⟩ := hcut
    cases hpair
    have hnil : pattern = [] ∧ rest = [] := by simpa using after?_eq_some_iff.mp hafter
    rw [hnil.1, hnil.2]
    exact cut?_append_self [] t
  | cons c s ih =>
    by_cases hstart : pattern <+: c :: s
    · obtain ⟨after, hafter⟩ := hstart
      rw [← hafter, cut?_append_self] at hcut
      cases hcut
      rw [← hafter, List.append_assoc, cut?_append_self]
    · rw [cut?_cons hstart, Option.map_eq_some_iff] at hcut
      obtain ⟨⟨front, after⟩, hfront, hpair⟩ := hcut
      cases hpair
      have hlonger : ¬ pattern <+: c :: (s ++ t) := by
        intro hprefix
        have hlength : pattern.length ≤ (c :: s).length := by
          have hfits := length_rest_of_cut? hfront
          simp only [List.length_cons]
          omega
        exact hstart (List.prefix_of_prefix_length_le hprefix (List.prefix_append (c :: s) t) hlength)
      rw [List.cons_append, cut?_cons hlonger, ih hfront, Option.map_some]

/-- The first occurrence is first: the pattern does not begin at an earlier place. -/
theorem not_prefix_drop_of_cut? (hcut : cut? pattern s = some (before, rest)) {place : Nat}
    (hplace : place < before.length) : ¬ pattern <+: s.drop place := by
  induction s generalizing before place with
  | nil =>
    rw [cut?, Option.map_eq_some_iff] at hcut
    obtain ⟨_, -, hpair⟩ := hcut
    cases hpair
    exact absurd hplace (Nat.not_lt_zero place)
  | cons c s ih =>
    by_cases hstart : pattern <+: c :: s
    · obtain ⟨after, hafter⟩ := hstart
      rw [← hafter, cut?_append_self] at hcut
      cases hcut
      exact absurd hplace (Nat.not_lt_zero place)
    · rw [cut?_cons hstart, Option.map_eq_some_iff] at hcut
      obtain ⟨⟨front, after⟩, hfront, hpair⟩ := hcut
      cases hpair
      cases place with
      | zero => exact hstart
      | succ place => exact ih hfront (Nat.lt_of_succ_lt_succ hplace)

theorem not_infix_of_cut? (hpattern : pattern ≠ []) (hcut : cut? pattern s = some (before, rest)) :
    ¬ pattern <:+: before := by
  rintro ⟨front, back, rfl⟩
  have hpos := List.length_pos_iff.mpr hpattern
  have hearlier : front.length < (front ++ pattern ++ back).length := by
    simp only [List.length_append]
    omega
  refine not_prefix_drop_of_cut? hcut hearlier ?_
  rw [eq_append_of_cut? hcut, List.append_assoc, List.append_assoc, List.drop_left]
  exact List.prefix_append _ _

/-- A pattern that begins in front of a character it has in its first place at most ends there as well. -/
theorem prefix_of_prefix_append_cons (hd : d ∉ pattern.tail) (hne : s ≠ [])
    (hstart : pattern <+: s ++ d :: t) : pattern <+: s := by
  rcases List.prefix_or_prefix_of_prefix hstart (List.prefix_append s (d :: t)) with hinside | hbeyond
  · exact hinside
  · obtain ⟨last, rfl⟩ := hbeyond
    cases last with
    | nil => simp
    | cons e last =>
      obtain ⟨rfl, -⟩ := List.cons_prefix_cons.mp ((List.prefix_append_right_inj s).mp hstart)
      obtain ⟨c, s, rfl⟩ := List.exists_cons_of_ne_nil hne
      exact absurd (by simp) hd

theorem not_prefix_append_cons (hs : ¬ pattern <:+: s) (hd : d ∉ pattern.tail) (hne : s ≠ []) :
    ¬ pattern <+: s ++ d :: t :=
  fun hstart => hs (prefix_of_prefix_append_cons hd hne hstart).isInfix

/-- What is put in front of a text delays its first occurrence, but makes no other one the first. -/
theorem cut?_append_cons (hs : ¬ pattern <:+: s) (hd : d ∉ pattern.tail) :
    cut? pattern (s ++ d :: t) =
      (cut? pattern (d :: t)).map fun (before, rest) => (s ++ before, rest) := by
  induction s with
  | nil => simp
  | cons c s ih =>
    have hrest : ¬ pattern <:+: s := fun hoccurs => hs (List.infix_cons hoccurs)
    have hstart := not_prefix_append_cons (t := t) hs hd (List.cons_ne_nil c s)
    rw [List.cons_append] at hstart
    rw [List.cons_append, cut?_cons hstart, ih hrest, Option.map_map]
    rfl

theorem not_infix_append_cons (hs : ¬ pattern <:+: s) (hd : d ∉ pattern.tail)
    (ht : ¬ pattern <:+: d :: t) : ¬ pattern <:+: s ++ d :: t := by
  rw [← cut?_eq_none_iff] at ht ⊢
  rw [cut?_append_cons hs hd, ht, Option.map_none]

/-- An occurrence is found behind a text that has none. -/
theorem cut?_append_pattern (hs : ¬ (d :: pattern) <:+: s) (hd : d ∉ pattern) (rest : List Char) :
    cut? (d :: pattern) (s ++ (d :: pattern ++ rest)) = some (s, rest) := by
  have hpattern := cut?_append_self (d :: pattern) rest
  rw [List.cons_append] at hpattern ⊢
  rw [cut?_append_cons hs hd, hpattern]
  simp

theorem not_prefix_cons (hpattern : pattern ≠ []) (hc : c ∉ pattern) (s : List Char) :
    ¬ pattern <+: c :: s := by
  obtain ⟨first, rest, rfl⟩ := List.exists_cons_of_ne_nil hpattern
  rw [List.cons_prefix_cons]
  rintro ⟨rfl, -⟩
  exact hc List.mem_cons_self

theorem not_infix_of_notMem (hs : d ∉ s) : ¬ (d :: pattern) <:+: s :=
  fun hoccurs => hs (hoccurs.subset List.mem_cons_self)

theorem not_prefix_of_notMem (hs : d ∉ c :: s) (t : List Char) : ¬ (d :: pattern) <+: c :: t := by
  rw [List.cons_prefix_cons]
  rintro ⟨rfl, -⟩
  exact hs List.mem_cons_self

/-- No occurrence begins in a text without the first character of the pattern. -/
theorem cut?_append_of_notMem (hs : d ∉ s) (t : List Char) : cut? (d :: pattern) (s ++ t) =
    (cut? (d :: pattern) t).map fun (before, rest) => (s ++ before, rest) := by
  induction s with
  | nil => simp
  | cons c s ih =>
    have hrest : d ∉ s := fun hmem => hs (List.mem_cons_of_mem c hmem)
    rw [List.cons_append, cut?_cons (not_prefix_of_notMem hs (s ++ t)), ih hrest, Option.map_map]
    rfl

theorem not_infix_append_of_notMem (hs : d ∉ s) (ht : ¬ (d :: pattern) <:+: t) :
    ¬ (d :: pattern) <:+: s ++ t := by
  rw [← cut?_eq_none_iff] at ht ⊢
  rw [cut?_append_of_notMem hs, ht, Option.map_none]

variable {replacement : List Char}

/-- Replacing cuts at the first occurrence and goes on behind it. -/
theorem replace_eq (hpattern : pattern ≠ []) (replacement s : List Char) :
    replace pattern replacement s = match cut? pattern s with
      | none => s
      | some (before, rest) => before ++ (replacement ++ replace pattern replacement rest) := by
  rw [replace, dif_neg hpattern]
  split
  · rename_i hcut
    rw [hcut]
  · rename_i hcut
    rw [hcut]

theorem replace_nil (hpattern : pattern ≠ []) : replace pattern replacement [] = [] := by
  have hnone : cut? pattern [] = none := cut?_eq_none_iff.mpr (by simpa using hpattern)
  rw [replace_eq hpattern, hnone]

/-- An occurrence at the start is replaced. -/
theorem replace_append_self (hpattern : pattern ≠ []) (replacement rest : List Char) :
    replace pattern replacement (pattern ++ rest) =
      replacement ++ replace pattern replacement rest := by
  rw [replace_eq hpattern, cut?_append_self]
  rfl

/-- A character at which the pattern does not begin stays. -/
theorem replace_cons (hpattern : pattern ≠ []) (hstart : ¬ pattern <+: c :: s) :
    replace pattern replacement (c :: s) = c :: replace pattern replacement s := by
  rw [replace_eq hpattern, replace_eq hpattern replacement s, cut?_cons hstart]
  cases cut? pattern s <;> rfl

/-- What a text begins with after replacing, it began with before, unless a character that was put in takes
part. -/
theorem prefix_of_prefix_replace {word : List Char} (hpattern : pattern ≠ []) (hd : d ∉ word)
    (hbegins : word <+: replace pattern [d] s) : word <+: s := by
  induction word generalizing s with
  | nil => exact List.nil_prefix
  | cons c word ih =>
    rw [List.mem_cons, not_or] at hd
    obtain ⟨hcd, hd⟩ := hd
    cases s with
    | nil =>
      rw [replace_nil hpattern] at hbegins
      exact absurd hbegins (by simp)
    | cons x s =>
      by_cases hstart : pattern <+: x :: s
      · obtain ⟨rest, hrest⟩ := hstart
        rw [← hrest, replace_append_self hpattern, List.singleton_append,
          List.cons_prefix_cons] at hbegins
        exact absurd hbegins.1.symm hcd
      · rw [replace_cons hpattern hstart, List.cons_prefix_cons] at hbegins
        rw [List.cons_prefix_cons]
        exact ⟨hbegins.1, ih hd hbegins.2⟩

/-- A text without the first character of the pattern stays as it is in front. -/
theorem replace_append_of_notMem (hs : d ∉ s) (t : List Char) :
    replace (d :: pattern) replacement (s ++ t) = s ++ replace (d :: pattern) replacement t := by
  induction s with
  | nil => rfl
  | cons c s ih =>
    have hstart : ¬ (d :: pattern) <+: c :: (s ++ t) := not_prefix_of_notMem hs (s ++ t)
    rw [List.cons_append, replace_cons (List.cons_ne_nil d pattern) hstart,
      ih fun hmem => hs (List.mem_cons_of_mem _ hmem), List.cons_append]

/-- A piece that begins like the pattern and goes on differently is passed over. -/
theorem replace_append_of_apart {piece : List Char} (hpiece : d ∉ piece)
    (hbegins : ¬ (d :: pattern) <+: d :: piece) (hbegins' : ¬ (d :: piece) <+: d :: pattern)
    (t : List Char) : replace (d :: pattern) replacement (d :: piece ++ t) =
      d :: piece ++ replace (d :: pattern) replacement t := by
  have hstart : ¬ (d :: pattern) <+: d :: (piece ++ t) := by
    intro hprefix
    have hlonger : (d :: piece) <+: d :: (piece ++ t) := List.prefix_append (d :: piece) t
    exact (List.prefix_or_prefix_of_prefix hprefix hlonger).elim hbegins hbegins'
  rw [List.cons_append, replace_cons (List.cons_ne_nil d pattern) hstart,
    replace_append_of_notMem hpiece, List.cons_append]

end Reconcile.Text
