namespace Reconcile

/-- The last of the elements of greatest depth: of several folders that fit a path it is the one
    that decides. -/
def deepest? (depth : α → Nat) : List α → Option α
  | [] => none
  | a :: l =>
    match deepest? depth l with
    | none => some a
    | some b => if depth b < depth a then some a else some b

theorem deepest?_eq_none_iff {depth : α → Nat} {l : List α} : deepest? depth l = none ↔ l = [] := by
  cases l with
  | nil => simp [deepest?]
  | cons a l =>
    rw [deepest?]
    split
    · simp
    · split <;> simp

theorem mem_of_deepest? {depth : α → Nat} {l : List α} {a : α}
    (hdeepest : deepest? depth l = some a) : a ∈ l := by
  induction l generalizing a with
  | nil => simp [deepest?] at hdeepest
  | cons b l ih =>
    rw [deepest?] at hdeepest
    split at hdeepest
    · simp_all
    · rename_i c hc
      split at hdeepest
      · simp_all
      · obtain rfl : c = a := by simpa using hdeepest
        exact List.mem_cons_of_mem _ (ih hc)

/-- No candidate is deeper than the answer. -/
theorem depth_le_of_deepest? {depth : α → Nat} {l : List α} {a : α}
    (hdeepest : deepest? depth l = some a) : ∀ b ∈ l, depth b ≤ depth a := by
  induction l generalizing a with
  | nil => simp
  | cons b l ih =>
    rw [deepest?] at hdeepest
    split at hdeepest
    · rename_i hnone
      obtain rfl : b = a := by simpa using hdeepest
      simp [deepest?_eq_none_iff.mp hnone]
    · rename_i c hc
      have hle := ih hc
      split at hdeepest
      · rename_i hlt
        obtain rfl : b = a := by simpa using hdeepest
        intro x hx
        rcases List.mem_cons.mp hx with rfl | hx
        · exact Nat.le_refl _
        · exact Nat.le_trans (hle x hx) (Nat.le_of_lt hlt)
      · rename_i hge
        obtain rfl : c = a := by simpa using hdeepest
        intro x hx
        rcases List.mem_cons.mp hx with rfl | hx
        · exact Nat.le_of_not_lt hge
        · exact hle x hx

/-- A candidate that is deeper than every other one is the answer. -/
theorem deepest?_eq_some {depth : α → Nat} {l : List α} {a : α} (hmem : a ∈ l)
    (hdeeper : ∀ b ∈ l, b ≠ a → depth b < depth a) : deepest? depth l = some a := by
  cases hdeepest : deepest? depth l with
  | none =>
    rw [deepest?_eq_none_iff.mp hdeepest] at hmem
    cases hmem
  | some b =>
    have hle : depth a ≤ depth b := depth_le_of_deepest? hdeepest a hmem
    by_cases heq : b = a
    · rw [heq]
    · have hlt := hdeeper b (mem_of_deepest? hdeepest) heq
      omega

end Reconcile
