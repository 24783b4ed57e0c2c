namespace Reconcile.Sorted

/-- The list with `a` at its place; an element already there is replaced. The order is given by a
    strict comparison `lt`; two elements of which neither is below the other have the same place. -/
def insert (lt : α → α → Bool) (a : α) : List α → List α
  | [] => [a]
  | b :: l => if lt a b then a :: b :: l else if lt b a then b :: insert lt a l else a :: l

/-- The elements of a list in order, each place once; the last one at a place stays. -/
def ofList (lt : α → α → Bool) (l : List α) : List α :=
  l.foldl (fun sorted a => insert lt a sorted) []

/-- The association list with `value` under `key`, in place of what was there. -/
def put (lt : κ → κ → Bool) (key : κ) (value : ν) : List (κ × ν) → List (κ × ν) :=
  insert (fun a b => lt a.1 b.1) (key, value)

theorem mem_insert_self (lt : α → α → Bool) (a : α) (l : List α) : a ∈ insert lt a l := by
  induction l with
  | nil => simp [insert]
  | cons b l ih =>
    rw [insert]
    split
    · simp
    · split
      · exact List.mem_cons_of_mem _ ih
      · simp

theorem mem_of_mem_insert {lt : α → α → Bool} {a x : α} {l : List α}
    (hmem : x ∈ insert lt a l) : x = a ∨ x ∈ l := by
  induction l with
  | nil => exact Or.inl (by simpa [insert] using hmem)
  | cons b l ih =>
    rw [insert] at hmem
    split at hmem
    · simpa using hmem
    · split at hmem
      · rcases List.mem_cons.mp hmem with rfl | hmem
        · exact Or.inr List.mem_cons_self
        · rcases ih hmem with hmem | hmem
          · exact Or.inl hmem
          · exact Or.inr (List.mem_cons_of_mem _ hmem)
      · rcases List.mem_cons.mp hmem with rfl | hmem
        · exact Or.inl rfl
        · exact Or.inr (List.mem_cons_of_mem _ hmem)

end Reconcile.Sorted
