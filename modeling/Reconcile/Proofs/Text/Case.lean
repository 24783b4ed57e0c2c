import Reconcile.Text.Case

namespace Reconcile.Text

/-- Ranges that hold the small letters with the capitals do not tell them apart. -/
theorem isInRanges_lowerAscii {ranges : List (Nat × Nat)}
    (hranges : ∀ n < 26, isInRanges ranges (65 + n + 32) = isInRanges ranges (65 + n)) (c : Char) :
    isInRanges ranges (lowerAscii c).toNat = isInRanges ranges c.toNat := by
  refine lowerAscii_rec (p := fun c lower => isInRanges ranges lower.toNat = isInRanges ranges c.toNat)
    (fun n hn => ?_) (fun _ => rfl) c
  have hnumbers : ∀ n < 26, (Char.ofNat (65 + n)).toNat = 65 + n ∧
      (Char.ofNat (65 + n + 32)).toNat = 65 + n + 32 := by
    decide
  rw [(hnumbers n hn).1, (hnumbers n hn).2]
  exact hranges n hn

theorem startsCased_cons (c : Char) (s : List Char) : startsCased (c :: s) =
    if isInRanges passedOverRanges c.toNat then startsCased s else isInRanges casedRanges c.toNat := by
  rw [startsCased, List.dropWhile_cons]
  cases isInRanges passedOverRanges c.toNat <;> rfl

theorem startsCased_lowerAsciiText (s : List Char) :
    startsCased (lowerAsciiText s) = startsCased s := by
  induction s with
  | nil => rfl
  | cons c s ih =>
    rw [lowerAsciiText_cons, startsCased_cons, startsCased_cons, ih,
      isInRanges_lowerAscii (by decide +kernel), isInRanges_lowerAscii (by decide +kernel)]

theorem lowerChar_lowerAscii (c : Char) : lowerChar (lowerAscii c) = lowerChar c :=
  lowerAscii_rec (p := fun c lower => lowerChar lower = lowerChar c) (by decide) (fun _ => rfl) c

theorem lowerAscii_eq_sigma_iff (c : Char) : lowerAscii c = 'Σ' ↔ c = 'Σ' :=
  lowerAscii_rec (p := fun c lower => lower = 'Σ' ↔ c = 'Σ') (by decide) (fun _ => Iff.rfl) c

/-- Making the letters small first does not change the lower case, by induction over the text. -/
theorem lowerAfter_lowerAsciiText (before s : List Char) :
    lowerAfter (lowerAsciiText before) (lowerAsciiText s) = lowerAfter before s := by
  induction s generalizing before with
  | nil => rfl
  | cons c s ih =>
    rw [lowerAsciiText_cons, lowerAfter, lowerAfter, ← lowerAsciiText_cons, ih,
      startsCased_lowerAsciiText, startsCased_lowerAsciiText, lowerChar_lowerAscii]
    simp only [lowerAscii_eq_sigma_iff c]

/-- The lower case of a text does not depend on the case of its letters from A to Z. -/
theorem lower_eq_of_equalIgnoringCase {s t : String} (hequal : equalIgnoringCase s t = true) :
    lower s = lower t := by
  have hcase : lowerAsciiText s.toList = lowerAsciiText t.toList := by
    simpa [equalIgnoringCase] using hequal
  rw [lower, lower, ← lowerAfter_lowerAsciiText [] s.toList, hcase, lowerAfter_lowerAsciiText]

end Reconcile.Text
