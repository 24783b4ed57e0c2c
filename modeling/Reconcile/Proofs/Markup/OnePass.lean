import Mathlib.Data.List.Infix
import Mathlib.Data.List.Pairwise
import Reconcile.Markup
import Reconcile.Proofs.Text.Occurrence

namespace Reconcile.Markup

variable {s t rest : List Char} {c : Char} {entry : String × Char} {table later : List (String × Char)}

/-- A table of entities that can be resolved one after the other. -/
structure IsTable (table : List (String × Char)) : Prop where
  /-- An ampersand begins each entity and stands nowhere else in it. -/
  ampersand : ∀ entry ∈ table,
    entry.1.toList.head? = some '&' ∧ '&' ∉ entry.1.toList.tail
  apart : table.Pairwise fun a b => ¬ a.1.toList <+: b.1.toList ∧ ¬ b.1.toList <+: a.1.toList
  /-- What is put in for an entity stands in no entity still to come. -/
  unmixed : table.Pairwise fun earlier later => earlier.2 ∉ later.1.toList

/-- The entities begin with the only ampersand that they have, and none begins another one. -/
theorem isTable_entities : IsTable entities :=
  ⟨by decide +kernel, by decide +kernel, by decide +kernel⟩

theorem IsTable.tail (htable : IsTable (entry :: later)) : IsTable later where
  ampersand other hother := htable.ampersand other (List.mem_cons_of_mem _ hother)
  apart := htable.apart.of_cons
  unmixed := htable.unmixed.of_cons

theorem IsTable.exists_code (htable : IsTable table) (hentry : entry ∈ table) :
    ∃ code, entry.1.toList = '&' :: code ∧ '&' ∉ code := by
  obtain ⟨hhead, htail⟩ := htable.ampersand entry hentry
  obtain ⟨code, hcode⟩ := List.head?_eq_some_iff.mp hhead
  rw [hcode, List.tail_cons] at htail
  exact ⟨code, hcode, htail⟩

theorem IsTable.toList_ne_nil (htable : IsTable table) (hentry : entry ∈ table) :
    entry.1.toList ≠ [] := by
  obtain ⟨code, hcode, -⟩ := htable.exists_code hentry
  simp [hcode]

theorem IsTable.not_prefix_of_ne (htable : IsTable table) (hentry : entry ∈ table) (hc : c ≠ '&')
    (s : List Char) : ¬ entry.1.toList <+: c :: s := by
  obtain ⟨code, hcode, -⟩ := htable.exists_code hentry
  rw [hcode, List.cons_prefix_cons]
  exact fun hstarts => hc hstarts.1.symm

/-- No entity begins another one. -/
theorem IsTable.eq_of_prefix (htable : IsTable table) {other : String × Char} (hentry : entry ∈ table)
    (hother : other ∈ table) (hstarts : other.1.toList <+: entry.1.toList) : other = entry := by
  by_contra hne
  have hsymm : Std.Symm fun a b : String × Char =>
      ¬ a.1.toList <+: b.1.toList ∧ ¬ b.1.toList <+: a.1.toList :=
    ⟨fun _ _ hapart => hapart.symm⟩
  exact (htable.apart.forall hother hentry hne).1 hstarts

/-- A text with the entities of a table resolved from left to right. Where an entity begins, its character
is put down and the pass goes on behind the entity; any other character is copied. -/
def resolveBy (table : List (String × Char)) : List Char → List Char
  | [] => []
  | c :: s =>
    match table.find? fun entry => entry.1.toList.isPrefixOf (c :: s) with
    | some (name, d) => d :: resolveBy table (s.drop (name.toList.length - 1))
    | none => c :: resolveBy table s
termination_by s => s.length
decreasing_by
  all_goals
    simp only [List.length_drop, List.length_cons]
    omega

@[simp] theorem resolveBy_nil (table : List (String × Char)) : resolveBy table [] = [] := by
  rw [resolveBy]

/-- A text begins with an entity of the table or with none. -/
theorem begins_or_forall (table : List (String × Char)) (s : List Char) :
    (∃ entry ∈ table, ∃ rest, s = entry.1.toList ++ rest) ∨
      ∀ entry ∈ table, ¬ entry.1.toList <+: s := by
  by_cases hbegins : ∃ entry ∈ table, entry.1.toList <+: s
  · obtain ⟨entry, hentry, rest, hrest⟩ := hbegins
    exact Or.inl ⟨entry, hentry, rest, hrest.symm⟩
  · exact Or.inr fun entry hentry hstarts => hbegins ⟨entry, hentry, hstarts⟩

theorem resolveBy_cons (hnone : ∀ entry ∈ table, ¬ entry.1.toList <+: c :: s) :
    resolveBy table (c :: s) = c :: resolveBy table s := by
  have hfind : table.find? (fun entry => entry.1.toList.isPrefixOf (c :: s)) = none := by
    rw [List.find?_eq_none]
    intro entry hentry
    simpa using hnone entry hentry
  rw [resolveBy, hfind]

/-- Where an entity begins, no other one does. -/
theorem IsTable.find?_append (htable : IsTable table) (hentry : entry ∈ table) (rest : List Char) :
    (table.find? fun other => other.1.toList.isPrefixOf (entry.1.toList ++ rest)) = some entry := by
  cases hfind : table.find? fun other => other.1.toList.isPrefixOf (entry.1.toList ++ rest) with
  | none =>
    have habsent := List.find?_eq_none.mp hfind entry hentry
    simp at habsent
  | some other =>
    have hother := List.mem_of_find?_eq_some hfind
    have hstarts : other.1.toList <+: entry.1.toList ++ rest := by
      simpa using List.find?_some hfind
    rcases List.prefix_or_prefix_of_prefix hstarts (List.prefix_append entry.1.toList rest) with
      hinside | hinside
    · rw [htable.eq_of_prefix hentry hother hinside]
    · rw [htable.eq_of_prefix hother hentry hinside]

/-- An entity becomes its character, whatever follows. -/
theorem resolveBy_append_entity (htable : IsTable table) (hentry : entry ∈ table) (rest : List Char) :
    resolveBy table (entry.1.toList ++ rest) = entry.2 :: resolveBy table rest := by
  have hfind := htable.find?_append hentry rest
  obtain ⟨code, hcode, -⟩ := htable.exists_code hentry
  rw [hcode, List.cons_append] at hfind ⊢
  rw [resolveBy, hfind]
  simp [hcode]

theorem resolveBy_of_notMem (htable : IsTable table) (hs : '&' ∉ s) : resolveBy table s = s := by
  induction s with
  | nil => exact resolveBy_nil table
  | cons c s ih =>
    rw [List.mem_cons, not_or] at hs
    obtain ⟨hc, hs⟩ := hs
    rw [resolveBy_cons fun entry hentry => htable.not_prefix_of_ne hentry (Ne.symm hc) s, ih hs]

/-- The pass can be interrupted in front of an ampersand: no entity goes on there. -/
theorem resolveBy_append_ampersand (htable : IsTable table) (s t : List Char) :
    resolveBy table (s ++ '&' :: t) = resolveBy table s ++ resolveBy table ('&' :: t) := by
  induction hlength : s.length using Nat.strongRecOn generalizing s with
  | ind length ih =>
    cases s with
    | nil => simp
    | cons c s =>
      rcases begins_or_forall table (c :: s) with ⟨entry, hentry, rest, hrest⟩ | hnone
      · have hne := List.length_pos_iff.mpr (htable.toList_ne_nil hentry)
        have hshorter : rest.length < length := by
          rw [← hlength, hrest, List.length_append]
          omega
        rw [hrest, List.append_assoc, resolveBy_append_entity htable hentry,
          resolveBy_append_entity htable hentry, ih rest.length hshorter rest rfl, List.cons_append]
      · have hlonger : ∀ entry ∈ table, ¬ entry.1.toList <+: c :: (s ++ '&' :: t) := by
          intro entry hentry hstarts
          exact hnone entry hentry
            (Text.prefix_of_prefix_append_cons (htable.ampersand entry hentry).2 (by simp) hstarts)
        have hshorter : s.length < length := by simp [← hlength]
        rw [List.cons_append, resolveBy_cons hlonger, resolveBy_cons hnone,
          ih s.length hshorter s rfl, List.cons_append]

/-- Resolving the first entity everywhere leaves the others where they are. -/
theorem resolveBy_replace (htable : IsTable (entry :: later)) (s : List Char) :
    resolveBy later (Text.replace entry.1.toList [entry.2] s) = resolveBy (entry :: later) s := by
  have hne := htable.toList_ne_nil List.mem_cons_self
  have hunmixed := (List.pairwise_cons.mp htable.unmixed).1
  induction hlength : s.length using Nat.strongRecOn generalizing s with
  | ind length ih =>
    cases s with
    | nil => rw [Text.replace_nil hne, resolveBy_nil, resolveBy_nil]
    | cons c s =>
      rcases begins_or_forall (entry :: later) (c :: s) with ⟨other, hother, rest, hrest⟩ | hnone
      · have hpos := List.length_pos_iff.mpr (htable.toList_ne_nil hother)
        have hshorter : rest.length < length := by
          rw [← hlength, hrest, List.length_append]
          omega
        have hgoesOn := ih rest.length hshorter rest rfl
        rw [hrest, resolveBy_append_entity htable hother, ← hgoesOn]
        rcases List.mem_cons.mp hother with rfl | hlater
        · have hplain : ∀ entry ∈ later,
              ¬ entry.1.toList <+: other.2 :: Text.replace other.1.toList [other.2] rest :=
            fun entry hentry => Text.not_prefix_cons (htable.tail.toList_ne_nil hentry)
              (hunmixed entry hentry) _
          rw [Text.replace_append_self hne, List.singleton_append, resolveBy_cons hplain]
        · obtain ⟨code, hcode, -⟩ := htable.exists_code List.mem_cons_self
          obtain ⟨code', hcode', hampersand⟩ := htable.exists_code hother
          obtain ⟨hbegins, hbegins'⟩ := (List.pairwise_cons.mp htable.apart).1 other hlater
          rw [hcode, hcode'] at hbegins hbegins'
          rw [hcode, hcode', Text.replace_append_of_apart hampersand hbegins hbegins', ← hcode',
            resolveBy_append_entity htable.tail hlater]
      · have hcopied : Text.replace entry.1.toList [entry.2] (c :: s) =
            c :: Text.replace entry.1.toList [entry.2] s :=
          Text.replace_cons hne (hnone entry List.mem_cons_self)
        -- What begins in the text with the first entity resolved began there before.
        have hplain : ∀ other ∈ later,
            ¬ other.1.toList <+: c :: Text.replace entry.1.toList [entry.2] s := by
          intro other hother hstarts
          rw [← hcopied] at hstarts
          exact hnone other (List.mem_cons_of_mem _ hother)
            (Text.prefix_of_prefix_replace hne (hunmixed other hother) hstarts)
        have hshorter : s.length < length := by simp [← hlength]
        rw [hcopied, resolveBy_cons hplain, resolveBy_cons hnone, ih s.length hshorter s rfl]

/-- Resolving the entities of a table one after the other is resolving them in one pass, by
    induction over the table. -/
theorem foldl_replace_eq_resolveBy (htable : IsTable table) (s : List Char) :
    table.foldl (fun s (name, c) => Text.replace name.toList [c] s) s = resolveBy table s := by
  induction table generalizing s with
  | nil =>
    rw [List.foldl_nil]
    induction s with
    | nil => exact (resolveBy_nil []).symm
    | cons c s ih => rw [resolveBy_cons (by simp), ← ih]
  | cons entry later ih =>
    rw [List.foldl_cons, ih htable.tail]
    exact resolveBy_replace htable s

/-- The entities are resolved as in one pass. -/
theorem unescape_eq_resolveBy (s : List Char) : unescape s = resolveBy entities s :=
  foldl_replace_eq_resolveBy isTable_entities s

theorem unescape_of_notMem (hs : '&' ∉ s) : unescape s = s := by
  rw [unescape_eq_resolveBy, resolveBy_of_notMem isTable_entities hs]

end Reconcile.Markup
