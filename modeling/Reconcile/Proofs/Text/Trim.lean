import Mathlib.Data.List.Basic
import Reconcile.Text.Blank
import Reconcile.Text.Case

namespace Reconcile.Text

variable {p : Char → Bool} {s blanks : List Char} {c : Char}

theorem trimStart_append (hblanks : ∀ c ∈ blanks, p c = true) (s : List Char) :
    trimStart p (blanks ++ s) = trimStart p s :=
  List.dropWhile_append_of_pos hblanks

theorem trimStart_cons (hc : p c = false) (s : List Char) : trimStart p (c :: s) = c :: s :=
  List.dropWhile_cons_of_neg (by simp [hc])

/-- A text is trimmed away, or has a first character that stays. -/
theorem forall_or_exists_first (p : Char → Bool) (s : List Char) : (∀ c ∈ s, p c = true) ∨
    ∃ blanks c rest, s = blanks ++ c :: rest ∧ (∀ c ∈ blanks, p c = true) ∧ p c = false := by
  induction s with
  | nil => exact Or.inl (by simp)
  | cons c s ih =>
    by_cases hc : p c = true
    · rcases ih with hall | ⟨blanks, d, rest, rfl, hblanks, hd⟩
      · exact Or.inl (List.forall_mem_cons.mpr ⟨hc, hall⟩)
      · exact Or.inr ⟨c :: blanks, d, rest, rfl, List.forall_mem_cons.mpr ⟨hc, hblanks⟩, hd⟩
    · exact Or.inr ⟨[], c, s, rfl, by simp, by simpa using hc⟩

theorem trimEnd_append (hblanks : ∀ c ∈ blanks, p c = true) (s : List Char) :
    trimEnd p (s ++ blanks) = trimEnd p s := by
  have hback : ∀ c ∈ blanks.reverse, p c = true :=
    fun c hmem => hblanks c (List.mem_reverse.mp hmem)
  rw [trimEnd, trimEnd, List.reverse_append, List.dropWhile_append_of_pos hback]

theorem trimEnd_concat (hc : p c = false) (s : List Char) : trimEnd p (s ++ [c]) = s ++ [c] := by
  rw [trimEnd, List.reverse_append, List.reverse_singleton, List.singleton_append,
    List.dropWhile_cons_of_neg (by simp [hc]), List.reverse_cons, List.reverse_reverse]

/-- The end of a text is trimmed off behind the last character that fails `p`. -/
theorem trimEnd_append_cons (hc : p c = false) (hblanks : ∀ c ∈ blanks, p c = true) (s : List Char) :
    trimEnd p (s ++ c :: blanks) = s ++ [c] := by
  rw [List.append_cons, trimEnd_append hblanks, trimEnd_concat hc]

/-- Trimming cuts blanks off the two ends and nothing else. -/
theorem exists_append_trim (s : List Char) : ∃ front back, s = front ++ (trim s ++ back) ∧
    (∀ c ∈ front, isBlank c = true) ∧ ∀ c ∈ back, isBlank c = true := by
  have hfront : ∀ c ∈ s.takeWhile isBlank, isBlank c = true := List.all_eq_true.mp List.all_takeWhile
  have hsplit : s.takeWhile isBlank ++ trimStart isBlank s = s := List.takeWhile_append_dropWhile
  obtain ⟨back, hcut, hback⟩ := exists_trimEnd_append isBlank (trimStart isBlank s)
  refine ⟨s.takeWhile isBlank, back, ?_, hfront, hback⟩
  rw [trim, ← hcut, hsplit]

/-- A text is one character with blanks around it if trimming leaves that character. -/
theorem exists_of_trim_eq_singleton (htrim : trim s = [c]) : ∃ front back, s = front ++ c :: back ∧
    (∀ c ∈ front, isBlank c = true) ∧ ∀ c ∈ back, isBlank c = true := by
  have hsplit := exists_append_trim s
  rwa [htrim] at hsplit

/-- Blanks that are put around a text are trimmed off again. -/
theorem trim_append_append {front : List Char} (hfront : ∀ c ∈ front, isBlank c = true)
    (hblanks : ∀ c ∈ blanks, isBlank c = true) (s : List Char) :
    trim (front ++ (s ++ blanks)) = trim s := by
  rw [trim, trim, trimStart_append hfront]
  rcases forall_or_exists_first isBlank s with hall | ⟨start, c, rest, rfl, hstart, hc⟩
  · have hempty : trimStart isBlank blanks = [] := (trimStart_eq_nil_iff isBlank blanks).mpr hblanks
    have hempty' : trimStart isBlank s = [] := (trimStart_eq_nil_iff isBlank s).mpr hall
    rw [trimStart_append hall, hempty, hempty']
  · rw [List.append_assoc, trimStart_append hstart, trimStart_append hstart, List.cons_append,
      trimStart_cons hc, trimStart_cons hc, ← List.cons_append, trimEnd_append hblanks]

/-- Between blanks a single character stays. -/
theorem trim_append_cons {front : List Char} (hfront : ∀ c ∈ front, isBlank c = true)
    (hc : isBlank c = false) (hblanks : ∀ c ∈ blanks, isBlank c = true) :
    trim (front ++ c :: blanks) = [c] := by
  have hlone : trim [c] = [c] := by
    rw [trim, trimStart_cons hc]
    exact trimEnd_concat hc []
  rw [← List.singleton_append, trim_append_append hfront hblanks, hlone]

theorem length_trimStart_le (p : Char → Bool) (s : List Char) : (trimStart p s).length ≤ s.length :=
  (List.dropWhile_suffix p).length_le

theorem length_trimEnd_le (p : Char → Bool) (s : List Char) : (trimEnd p s).length ≤ s.length := by
  have hlength := (List.dropWhile_suffix p : s.reverse.dropWhile p <:+ s.reverse).length_le
  rw [trimEnd, List.length_reverse]
  rwa [List.length_reverse] at hlength

/-- Nothing is left of a text exactly when all of it is blank. -/
theorem trim_eq_nil_iff : trim s = [] ↔ ∀ c ∈ s, isBlank c = true := by
  constructor
  · intro htrim
    rcases forall_or_exists_first isBlank s with hall | ⟨blanks, c, rest, rfl, hblanks, hc⟩
    · exact hall
    · obtain ⟨cut, hcut, hall⟩ := exists_trimEnd_append isBlank (c :: rest)
      rw [trim, trimStart_append hblanks, trimStart_cons hc] at htrim
      rw [htrim, List.nil_append] at hcut
      have hblank := hall c (hcut ▸ List.mem_cons_self)
      rw [hc] at hblank
      cases hblank
  · intro hall
    rw [trim, (trimStart_eq_nil_iff isBlank s).mpr hall]
    rfl

theorem isBlankText_iff (text : String) : isBlankText text = true ↔ trimmed text = "" := by
  rw [isBlankText, trimmed, List.all_eq_true, ← trim_eq_nil_iff, String.ofList_eq_empty_iff]

theorem trim_eq_self_iff : trim s = s ↔ (∀ c, s.head? = some c → isBlank c = false) ∧
    ∀ c, s.getLast? = some c → isBlank c = false := by
  constructor
  · intro htrim
    have hlength := congrArg List.length htrim
    rw [trim] at hlength
    have hend := length_trimEnd_le isBlank (trimStart isBlank s)
    constructor
    · intro c hhead
      obtain ⟨rest, rfl⟩ := List.head?_eq_some_iff.mp hhead
      by_contra hblank
      have hdrop : trimStart isBlank (c :: rest) = trimStart isBlank rest :=
        List.dropWhile_cons_of_pos (by simpa using hblank)
      rw [hdrop] at hend hlength
      have hshorter := length_trimStart_le isBlank rest
      rw [List.length_cons] at hlength
      omega
    · intro c hlast
      obtain ⟨front, rfl⟩ := List.getLast?_eq_some_iff.mp hlast
      by_contra hblank
      have hstart := length_trimStart_le isBlank (front ++ [c])
      have hsame : trimStart isBlank (front ++ [c]) = front ++ [c] := by
        refine (List.dropWhile_suffix isBlank).eq_of_length ?_
        change (trimStart isBlank (front ++ [c])).length = _
        omega
      have hcut : trimEnd isBlank (front ++ [c]) = trimEnd isBlank front :=
        trimEnd_append (by simpa using hblank) front
      rw [hsame, hcut, List.length_append, List.length_singleton] at hlength
      have hshorter := length_trimEnd_le isBlank front
      omega
  · rintro ⟨hhead, hlast⟩
    rcases List.eq_nil_or_concat' s with rfl | ⟨front, c, rfl⟩
    · rfl
    · have hc : isBlank c = false := hlast c (by simp)
      have hstart : trimStart isBlank (front ++ [c]) = front ++ [c] := by
        cases front with
        | nil => exact trimStart_cons hc []
        | cons first front => exact trimStart_cons (hhead first rfl) (front ++ [c])
      rw [trim, hstart]
      exact trimEnd_concat hc front

theorem isBlank_lowerAscii (c : Char) : isBlank (lowerAscii c) = isBlank c :=
  lowerAscii_rec (p := fun c lower => isBlank lower = isBlank c) (by decide) (fun _ => rfl) c

/-- Whether a text begins or ends with a blank does not depend on the case of its letters. -/
theorem trim_eq_self_of_lowerAsciiText (htrim : trim (lowerAsciiText s) = lowerAsciiText s) :
    trim s = s := by
  rw [trim_eq_self_iff] at htrim ⊢
  constructor
  · intro c hhead
    rw [← isBlank_lowerAscii]
    exact htrim.1 (lowerAscii c) (by simp [lowerAsciiText, hhead])
  · intro c hlast
    rw [← isBlank_lowerAscii]
    exact htrim.2 (lowerAscii c) (by simp [lowerAsciiText, hlast])

end Reconcile.Text
