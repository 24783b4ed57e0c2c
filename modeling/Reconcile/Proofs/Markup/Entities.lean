import Reconcile.Proofs.Markup.OnePass
import Reconcile.Proofs.Text.Trim

namespace Reconcile.Markup

variable {s t : List Char} {c d : Char}

/-- A character is written as its entity if it has one, and as itself otherwise. -/
theorem escapeChar_cases (c : Char) :
    (∃ entry ∈ entities, entry.2 = c ∧ escapeChar c = entry.1.toList) ∨
      (∀ entry ∈ entities, entry.2 ≠ c) ∧ escapeChar c = [c] := by
  rw [escapeChar]
  cases hfind : entities.find? (·.2 == c) with
  | some entry =>
    have hentry : entry.2 = c := by simpa using List.find?_some hfind
    exact Or.inl ⟨entry, List.mem_of_find?_eq_some hfind, hentry, rfl⟩
  | none => exact Or.inr ⟨by simpa using List.find?_eq_none.mp hfind, rfl⟩

theorem unescape_escape (s : List Char) : unescape (escape s) = s := by
  rw [unescape_eq_resolveBy]
  induction s with
  | nil => exact resolveBy_nil entities
  | cons c s ih =>
    rw [escape, List.flatMap_cons, ← escape]
    rcases escapeChar_cases c with ⟨entry, hentry, hc, hwritten⟩ | ⟨hnone, hplain⟩
    · rw [hwritten, resolveBy_append_entity isTable_entities hentry, ih, hc]
    · have hordinary : c ≠ '&' := (hnone ("&amp;", '&') (by simp [entities])).symm
      have hcopied : ∀ entry ∈ entities, ¬ entry.1.toList <+: c :: escape s :=
        fun entry hentry => isTable_entities.not_prefix_of_ne hentry hordinary _
      rw [hplain, List.singleton_append, resolveBy_cons hcopied, ih]

/-- Resolving the entities is one pass through the text: what an entity is resolved to is no part of another
one, so the text in front of an entity and the text behind it are resolved on their own. It takes back the
writing of a text with entities. -/
theorem unescape_resolves_in_one_pass :
    (∀ s, unescape s = resolveBy entities s) ∧
      (∀ entry ∈ entities, ∀ before after,
        unescape (before ++ (entry.1.toList ++ after)) = unescape before ++ entry.2 :: unescape after) ∧
      ∀ s, unescape (escape s) = s := by
  refine ⟨unescape_eq_resolveBy, ?_, unescape_escape⟩
  intro entry hentry before after
  obtain ⟨code, hcode, -⟩ := isTable_entities.exists_code hentry
  have hcut := resolveBy_append_ampersand isTable_entities before (code ++ after)
  rw [← List.cons_append, ← hcode] at hcut
  rw [unescape_eq_resolveBy, unescape_eq_resolveBy, unescape_eq_resolveBy, hcut,
    resolveBy_append_entity isTable_entities hentry]

/-- Neither the ampersand that comes out of an entity nor a stray one makes an entity with what follows. -/
theorem unescape_resolves_in_one_pass_once :
    ("&lt;", '<') ∈ entities ∧
      unescape ("&amp;lt;&am".toList ++ ("&lt;".toList ++ "p;".toList)) = "&lt;&am<p;".toList := by
  have hentry : ("&lt;", '<') ∈ entities := by simp [entities]
  refine ⟨hentry, ?_⟩
  rw [unescape_resolves_in_one_pass.2.1 _ hentry]
  decide +kernel

/-- No special character but the ampersand is left in a text that is written with entities. -/
theorem notMem_escape (hd : d ∈ ['<', '>', '"', '\'']) : d ∉ escape s := by
  have hspecial : ∀ d ∈ ['<', '>', '"', '\''], (∃ entry ∈ entities, entry.2 = d) ∧
      ∀ entry ∈ entities, d ∉ entry.1.toList := by
    simp [entities]
  obtain ⟨⟨entry, hentry, hcode⟩, hnames⟩ := hspecial d hd
  rw [escape, List.mem_flatMap]
  rintro ⟨c, -, hmem⟩
  rcases escapeChar_cases c with ⟨other, hother, -, hwritten⟩ | ⟨hnone, hplain⟩
  · rw [hwritten] at hmem
    exact hnames other hother hmem
  · rw [hplain] at hmem
    obtain rfl := List.mem_singleton.mp hmem
    exact hnone entry hentry hcode

/-- What is written for a character begins with an ampersand or with the character. -/
theorem head?_escapeChar (c : Char) : (escapeChar c).head? = some '&' ∨ (escapeChar c).head? = some c := by
  have hnames : ∀ entry ∈ entities, entry.1.toList.head? = some '&' := by decide +kernel
  rcases escapeChar_cases c with ⟨entry, hentry, -, hwritten⟩ | ⟨-, hplain⟩
  · exact Or.inl (hwritten ▸ hnames entry hentry)
  · exact Or.inr (hplain ▸ rfl)

theorem getLast?_escapeChar (c : Char) :
    (escapeChar c).getLast? = some ';' ∨ escapeChar c = [c] := by
  have hnames : ∀ entry ∈ entities, entry.1.toList.getLast? = some ';' := by decide +kernel
  rcases escapeChar_cases c with ⟨entry, hentry, -, hwritten⟩ | ⟨-, hplain⟩
  · exact Or.inl (hwritten ▸ hnames entry hentry)
  · exact Or.inr hplain

theorem escape_append (s t : List Char) : escape (s ++ t) = escape s ++ escape t :=
  List.flatMap_append

theorem escape_singleton (c : Char) : escape [c] = escapeChar c := by
  rw [escape, List.flatMap_cons, List.flatMap_nil, List.append_nil]

/-- Writing a text with entities adds no blank at its ends. -/
theorem trim_escape (htrim : Text.trim s = s) : Text.trim (escape s) = escape s := by
  rw [Text.trim_eq_self_iff] at htrim ⊢
  obtain ⟨hhead, hlast⟩ := htrim
  constructor
  · intro c hc
    cases s with
    | nil => cases hc
    | cons first s =>
      rw [escape, List.flatMap_cons, List.head?_append] at hc
      rcases head?_escapeChar first with hbegins | hbegins
      · have hc' : c = '&' := by simpa [hbegins] using hc.symm
        rw [hc']
        rfl
      · have hc' : c = first := by simpa [hbegins] using hc.symm
        rw [hc']
        exact hhead first rfl
  · intro c hc
    rcases List.eq_nil_or_concat' s with rfl | ⟨front, final, rfl⟩
    · cases hc
    · rw [escape_append, escape_singleton] at hc
      rcases getLast?_escapeChar final with hends | hends
      · have hc' : c = ';' := by simpa [hends] using hc.symm
        rw [hc']
        rfl
      · have hc' : c = final := by simpa [hends] using hc.symm
        rw [hc']
        exact hlast final (by simp)

/-- If a text that is written with entities ends, blanks aside, with a character that begins and ends no
entity, then so does the text itself. -/
theorem exists_of_escape_eq {before blanks : List Char} (hd : d ≠ ';')
    (hwritten : escape s = before ++ d :: blanks) (hblanks : ∀ c ∈ blanks, Text.isBlank c = true) :
    ∃ before' blanks', s = before' ++ d :: blanks' ∧ ∀ c ∈ blanks', Text.isBlank c = true := by
  induction s using List.reverseRecOn generalizing blanks with
  | nil => simp [escape] at hwritten
  | append_singleton s c ih =>
    rw [escape_append, escape_singleton] at hwritten
    rcases List.eq_nil_or_concat' blanks with rfl | ⟨blanks, last, rfl⟩
    · have hends : (escape s ++ escapeChar c).getLast? = some d := by
        rw [hwritten, List.getLast?_concat]
      rcases getLast?_escapeChar c with hcode | hcode
      · have heq : ';' = d := by simpa [hcode] using hends
        exact absurd heq.symm hd
      · have heq : c = d := by simpa [hcode] using hends
        exact ⟨s, [], by rw [heq], by simp⟩
    · rw [← List.cons_append, ← List.append_assoc] at hwritten
      have hends : (escape s ++ escapeChar c).getLast? = some last := by
        rw [hwritten, List.getLast?_concat]
      have hlast : Text.isBlank last = true := hblanks last (by simp)
      rcases getLast?_escapeChar c with hcode | hcode
      · have heq : ';' = last := by simpa [hcode] using hends
        rw [← heq] at hlast
        cases hlast
      · rw [hcode] at hwritten
        obtain ⟨hfront, hc⟩ := List.append_inj' hwritten rfl
        cases hc
        obtain ⟨before', blanks', rfl, hblanks'⟩ :=
          ih hfront fun c hmem => hblanks c (List.mem_append_left _ hmem)
        refine ⟨before', blanks' ++ [c], by simp, fun x hx => ?_⟩
        rcases List.mem_append.mp hx with hx | hx
        · exact hblanks' x hx
        · rw [List.mem_singleton.mp hx]
          exact hlast

end Reconcile.Markup
