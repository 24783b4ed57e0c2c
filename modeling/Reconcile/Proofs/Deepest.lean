import Reconcile.Deepest

namespace Reconcile

variable {α : Type} {depth other : α → Nat} {l : List α} {a : α}

/-- Nothing before `a` is deeper, and everything after `a` is less deep. -/
def IsLastDeepest (depth : α → Nat) (l : List α) (a : α) : Prop :=
  ∃ before after, l = before ++ a :: after ∧
    (∀ b ∈ before, depth b ≤ depth a) ∧ ∀ b ∈ after, depth b < depth a

/-- A candidate in front that is no deeper does not change which one is the deepest. -/
theorem IsLastDeepest.cons_le {b : α} (hlast : IsLastDeepest depth l a) (hle : depth b ≤ depth a) :
    IsLastDeepest depth (b :: l) a := by
  obtain ⟨before, after, rfl, hbefore, hafter⟩ := hlast
  exact ⟨b :: before, after, rfl, List.forall_mem_cons.mpr ⟨hle, hbefore⟩, hafter⟩

theorem isLastDeepest_of_deepest? (hdeepest : deepest? depth l = some a) : IsLastDeepest depth l a := by
  induction l generalizing a with
  | nil => simp [deepest?] at hdeepest
  | cons b l ih =>
    rw [deepest?] at hdeepest
    split at hdeepest
    case h_1 hnone =>
      obtain rfl : b = a := by simpa using hdeepest
      rw [deepest?_eq_none_iff.mp hnone]
      exact ⟨[], [], rfl, by simp, by simp⟩
    case h_2 c hc =>
      split at hdeepest
      case isTrue hlt =>
        obtain rfl : b = a := by simpa using hdeepest
        refine ⟨[], l, rfl, by simp, fun x hx => ?_⟩
        exact Nat.lt_of_le_of_lt (depth_le_of_deepest? hc x hx) hlt
      case isFalse hge =>
        obtain rfl : c = a := by simpa using hdeepest
        exact (ih hc).cons_le (by omega)

/-- Two measures that agree on which of two candidates is deeper choose the same candidate. -/
theorem deepest?_congr (hsame : ∀ a ∈ l, ∀ b ∈ l, depth a < depth b ↔ other a < other b) :
    deepest? depth l = deepest? other l := by
  induction l with
  | nil => rfl
  | cons b l ih =>
    have hrest := ih fun a ha c hc => hsame a (List.mem_cons_of_mem _ ha) c (List.mem_cons_of_mem _ hc)
    rw [deepest?, deepest?, ← hrest]
    cases hdeepest : deepest? depth l with
    | none => rfl
    | some c =>
      have hc : c ∈ b :: l := List.mem_cons_of_mem _ (mem_of_deepest? hdeepest)
      simp only [hsame c hc b List.mem_cons_self]

end Reconcile
