namespace Reconcile.Text

/-- The characters with the Unicode property `White_Space`. The zero width space and the byte
    order mark do not have it. -/
def isBlank (c : Char) : Bool :=
  let n := c.toNat
  (9 ≤ n && n ≤ 13) || n == 0x20 || n == 0x85 || n == 0xA0 || n == 0x1680 ||
    (0x2000 ≤ n && n ≤ 0x200A) || n == 0x2028 || n == 0x2029 || n == 0x202F || n == 0x205F ||
    n == 0x3000

/-- The ASCII blanks of a markup document: space, tab, line feed, form feed and carriage
    return. The vertical tab is not one of them. -/
def isAsciiBlank (c : Char) : Bool :=
  let n := c.toNat
  n == 0x20 || n == 9 || n == 10 || n == 12 || n == 13

theorem isBlank_of_isAsciiBlank {c : Char} (hblank : isAsciiBlank c = true) :
    isBlank c = true := by
  simp only [isAsciiBlank, Bool.or_eq_true, beq_iff_eq] at hblank
  simp only [isBlank, Bool.or_eq_true, Bool.and_eq_true, beq_iff_eq, decide_eq_true_eq]
  omega

/-- The text from its first character that fails `p`. -/
def trimStart (p : Char → Bool) (s : List Char) : List Char :=
  s.dropWhile p

/-- The text up to and including its last character that fails `p`. -/
def trimEnd (p : Char → Bool) (s : List Char) : List Char :=
  (s.reverse.dropWhile p).reverse

/-- The text without the blanks at its two ends. -/
def trim (s : List Char) : List Char :=
  trimEnd isBlank (trimStart isBlank s)

def trimmed (s : String) : String :=
  String.ofList (trim s.toList)

/-- Whether nothing but blanks is there. -/
def isBlankText (s : String) : Bool :=
  s.toList.all isBlank

/-- A string without the occurrences of `c` at its end. -/
def trimmedEnd (c : Char) (s : String) : String :=
  String.ofList (trimEnd (· == c) s.toList)

/-- Trimming the end only cuts: what it leaves is followed, in the text, by characters that
    satisfy `p`. -/
theorem exists_trimEnd_append (p : Char → Bool) (s : List Char) :
    ∃ cut, s = trimEnd p s ++ cut ∧ ∀ c ∈ cut, p c = true := by
  refine ⟨(s.reverse.takeWhile p).reverse, ?_, ?_⟩
  · rw [trimEnd, ← List.reverse_append, List.takeWhile_append_dropWhile, List.reverse_reverse]
  · intro c hc
    rw [List.mem_reverse] at hc
    exact List.all_eq_true.mp List.all_takeWhile c hc

/-- Nothing is left exactly when all of the text is blank. -/
theorem trimStart_eq_nil_iff (p : Char → Bool) (s : List Char) :
    trimStart p s = [] ↔ ∀ c ∈ s, p c = true := by
  induction s with
  | nil => simp [trimStart]
  | cons a s ih =>
    by_cases ha : p a = true
    · have hdrop : trimStart p (a :: s) = trimStart p s := by simp [trimStart, ha]
      rw [hdrop, ih, List.forall_mem_cons]
      exact (and_iff_right ha).symm
    · simp [trimStart, ha]

end Reconcile.Text
