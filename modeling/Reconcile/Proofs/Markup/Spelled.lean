import Reconcile.Proofs.Markup.Elements
import Reconcile.Proofs.Markup.Lookup

namespace Reconcile.Markup

variable {name tag : String} {c : Char}

/-- A character that stands for itself in a value, and neither ends the value nor begins another one. -/
def isPlainChar (c : Char) : Bool :=
  !(['"', '\'', '&', '<', '>', '='].contains c)

theorem isPlainChar_of_isBlank (hc : Text.isBlank c = true) : isPlainChar c = true := by
  by_contra hspecial
  have hmem : c ∈ ['"', '\'', '&', '<', '>', '='] := by
    simpa [isPlainChar, or_iff_not_imp_left] using hspecial
  have hnot : ∀ c ∈ ['"', '\'', '&', '<', '>', '='], Text.isBlank c = false := by
    simp [Text.isBlank]
  rw [hnot c hmem] at hc
  cases hc

theorem isPlainChar_lowerAscii (c : Char) : isPlainChar (Text.lowerAscii c) = isPlainChar c :=
  Text.lowerAscii_rec (p := fun c lower => isPlainChar lower = isPlainChar c)
    (by decide) (fun _ => rfl) c

/-- An attribute as it may stand in a tag: what is between it and the text before it, what is around its
equals sign, and its quotes. -/
structure SpelledAttribute where
  name : String
  value : String
  gap : List Char := [' ']
  beforeEquals : List Char := []
  afterEquals : List Char := []
  quote : Char := '"'
  isName : IsName name := by decide +kernel
  isPlain : value.toList.all isPlainChar = true := by decide +kernel
  gap_ne_nil : gap ≠ [] := by decide
  isAsciiBlank_gap : gap.all Text.isAsciiBlank = true := by decide
  isBlank_beforeEquals : beforeEquals.all Text.isBlank = true := by decide
  isBlank_afterEquals : afterEquals.all Text.isBlank = true := by decide
  isQuote : quote = '"' ∨ quote = '\'' := by decide

theorem IsName.notMem_of_isBlank (hname : IsName name) (hc : Text.isBlank c = true) :
    c ∉ name.toList :=
  hname.notMem (by simp [isNameChar, hc])

namespace SpelledAttribute

/-- What stands in front of the value. -/
def front (entry : SpelledAttribute) : List Char :=
  entry.gap ++ (entry.name.toList ++ (entry.beforeEquals ++ '=' :: entry.afterEquals))

def text (entry : SpelledAttribute) : List Char :=
  entry.front ++ entry.quote :: (entry.value.toList ++ [entry.quote])

variable (entry : SpelledAttribute)

theorem notMem_value (hc : isPlainChar c = false) : c ∉ entry.value.toList := by
  intro hmem
  rw [List.all_eq_true.mp entry.isPlain c hmem] at hc
  cases hc

theorem isAsciiBlank_of_mem_gap (hc : c ∈ entry.gap) : Text.isAsciiBlank c = true :=
  List.all_eq_true.mp entry.isAsciiBlank_gap c hc

theorem blank_or_equals_of_mem_assignment
    (hc : c ∈ entry.beforeEquals ++ '=' :: entry.afterEquals) : Text.isBlank c = true ∨ c = '=' := by
  rcases List.mem_append.mp hc with hbefore | hafter
  · exact Or.inl (List.all_eq_true.mp entry.isBlank_beforeEquals c hbefore)
  · rcases List.mem_cons.mp hafter with rfl | hafter
    · exact Or.inr rfl
    · exact Or.inl (List.all_eq_true.mp entry.isBlank_afterEquals c hafter)

theorem notMem_front (hc : c ∈ ['"', '\'', '<', '>']) : c ∉ entry.front := by
  have hspecial : ∀ c ∈ ['"', '\'', '<', '>'], Text.isAsciiBlank c = false ∧ Text.isBlank c = false ∧
      c ≠ '=' ∧ isNameChar c = false := by
    simp [Text.isAsciiBlank, Text.isBlank, isNameChar]
  obtain ⟨hasciiBlank, hblank, hequals, hname⟩ := hspecial c hc
  intro hmem
  rcases List.mem_append.mp hmem with hgap | hmem
  · exact absurd (entry.isAsciiBlank_of_mem_gap hgap) (by simp [hasciiBlank])
  · rcases List.mem_append.mp hmem with hmem | hbehind
    · exact entry.isName.notMem hname hmem
    · rcases entry.blank_or_equals_of_mem_assignment hbehind with hblank' | heq
      · exact absurd hblank' (by simp [hblank])
      · exact hequals heq

theorem notMem_gap (hname : IsName name) (hc : c ∈ name.toList) : c ∉ entry.gap := fun hgap =>
  hname.notMem_of_isBlank (Text.isBlank_of_isAsciiBlank (entry.isAsciiBlank_of_mem_gap hgap)) hc

theorem notMem_assignment (hname : IsName name) (hc : c ∈ name.toList) :
    c ∉ entry.beforeEquals ++ '=' :: entry.afterEquals := by
  intro hbehind
  rcases entry.blank_or_equals_of_mem_assignment hbehind with hblank | rfl
  · exact hname.notMem_of_isBlank hblank hc
  · exact hname.notMem (by decide) hc

/-- Another name is not found in front of the value. -/
theorem not_infix_front (hname : IsName name) (hother : ¬ name.toList <:+: entry.name.toList) :
    ¬ name.toList <:+: entry.front := by
  obtain ⟨first, rest, hfirst⟩ := List.exists_cons_of_ne_nil hname.toList_ne_nil
  obtain ⟨c, behind, hbehind⟩ : ∃ c behind,
      entry.beforeEquals ++ '=' :: entry.afterEquals = c :: behind :=
    List.exists_cons_of_ne_nil (by simp)
  have hgap : first ∉ entry.gap := entry.notMem_gap hname (hfirst ▸ List.mem_cons_self)
  have hassignment : first ∉ c :: behind :=
    hbehind ▸ entry.notMem_assignment hname (hfirst ▸ List.mem_cons_self)
  have hc : c ∉ name.toList := fun hmem =>
    entry.notMem_assignment hname hmem (hbehind ▸ List.mem_cons_self)
  rw [front, hbehind]
  rw [hfirst] at hother hc ⊢
  refine Text.not_infix_append_of_notMem hgap
    (Text.not_infix_append_cons hother ?_ (Text.not_infix_of_notMem hassignment))
  exact fun hmem => hc (List.mem_of_mem_tail hmem)

/-- The quote behind the name of an attribute begins its value. -/
theorem assigns_front : assigns entry.name.toList entry.front = true := by
  have hne := entry.isName.toList_ne_nil
  have hcut : Text.cut? entry.name.toList entry.front =
      some (entry.gap, entry.beforeEquals ++ '=' :: entry.afterEquals) := by
    obtain ⟨first, rest, hfirst⟩ := List.exists_cons_of_ne_nil hne
    have hgap : first ∉ entry.gap := entry.notMem_gap entry.isName (hfirst ▸ List.mem_cons_self)
    rw [front, hfirst, Text.cut?_append_of_notMem hgap, Text.cut?_append_self]
    simp
  have hbetween : Text.trim (entry.beforeEquals ++ '=' :: entry.afterEquals) = ['='] :=
    Text.trim_append_cons (List.all_eq_true.mp entry.isBlank_beforeEquals) rfl
      (List.all_eq_true.mp entry.isBlank_afterEquals)
  have hgap : entry.gap.getLast?.all Text.isAsciiBlank = true := by
    rw [Option.all_eq_true]
    exact fun c hlast => entry.isAsciiBlank_of_mem_gap (List.mem_of_getLast? hlast)
  rw [assigns_of_cut? hne hcut, hbetween, hgap]
  rfl

/-- No quote begins a value behind a text without an equals sign. -/
theorem assigns_eq_false_of_notMem {name text : List Char} (htext : '=' ∉ text) :
    assigns name text = false := by
  rw [Bool.eq_false_iff]
  intro hassigns
  obtain ⟨front, after, rfl, hbetween, -⟩ := exists_of_assigns hassigns
  obtain ⟨blanks, blanks', rfl, -, -⟩ := Text.exists_of_trim_eq_singleton hbetween
  exact htext (by simp)

/-- The quote behind a value begins no other one. -/
theorem assigns_value (name : List Char) :
    assigns name (entry.quote :: entry.value.toList) = false := by
  refine assigns_eq_false_of_notMem fun hmem => ?_
  rcases List.mem_cons.mp hmem with hquote | hvalue
  · exact quote_ne_equals entry.isQuote hquote.symm
  · exact entry.notMem_value rfl hvalue

end SpelledAttribute

/-- An opening tag behind its name: attributes, and blanks in front of its end. -/
structure SpelledTag where
  attributes : List SpelledAttribute := []
  trailing : List Char := []
  isAsciiBlank_trailing : trailing.all Text.isAsciiBlank = true := by decide

namespace SpelledTag

def text (spelling : SpelledTag) : List Char :=
  spelling.attributes.flatMap (·.text) ++ spelling.trailing

variable (spelling : SpelledTag)

theorem text_cons (entry : SpelledAttribute) (later : List SpelledAttribute) (trailing : List Char)
    (htrailing : trailing.all Text.isAsciiBlank = true) :
    text ⟨entry :: later, trailing, htrailing⟩ = entry.front ++ entry.quote ::
      (entry.value.toList ++ entry.quote :: text ⟨later, trailing, htrailing⟩) := by
  simp [text, SpelledAttribute.text]

theorem isAsciiBlank_of_mem_head? : ∀ c ∈ spelling.text.head?, Text.isAsciiBlank c = true := by
  intro c hc
  obtain ⟨attributes, trailing, htrailing⟩ := spelling
  cases attributes with
  | nil => exact List.all_eq_true.mp htrailing c (List.mem_of_mem_head? hc)
  | cons entry later =>
    obtain ⟨first, gap, hgap⟩ := List.exists_cons_of_ne_nil entry.gap_ne_nil
    rw [text_cons, SpelledAttribute.front, hgap] at hc
    obtain rfl : first = c := Option.some.inj hc
    exact entry.isAsciiBlank_of_mem_gap (hgap ▸ List.mem_cons_self)

theorem notMem_text (hc : c ∈ ['<', '>']) : c ∉ spelling.text := by
  have hspecial : ∀ c ∈ ['<', '>'], c ∈ ['"', '\'', '<', '>'] ∧ isPlainChar c = false ∧
      Text.isAsciiBlank c = false ∧ ¬ (c = '"' ∨ c = '\'') := by
    simp [isPlainChar, Text.isAsciiBlank]
  obtain ⟨hfront, hvalue, hblank, hquote⟩ := hspecial c hc
  obtain ⟨attributes, trailing, htrailing⟩ := spelling
  induction attributes with
  | nil =>
    intro hmem
    exact absurd (List.all_eq_true.mp htrailing c hmem) (by simp [hblank])
  | cons entry later ih =>
    have hquote' : c ≠ entry.quote := fun heq => hquote (heq ▸ entry.isQuote)
    rw [text_cons]
    simp [entry.notMem_front hfront, entry.notMem_value hvalue, hquote', ih]

theorem endsName_text (hc : endsName (some c) = true) (rest : List Char) :
    endsName (spelling.text ++ c :: rest).head? = true := by
  have hblank := spelling.isAsciiBlank_of_mem_head?
  cases htext : spelling.text with
  | nil => exact hc
  | cons first more =>
    rw [htext] at hblank
    have hfirst : Text.isAsciiBlank first = true := hblank first rfl
    simp [endsName, hfirst]

theorem selfClosing?_text : selfClosing? spelling.text = none := by
  rw [selfClosing?, if_neg]
  obtain ⟨attributes, trailing, htrailing⟩ := spelling
  induction attributes with
  | nil =>
    intro hlast
    have hblank := List.all_eq_true.mp htrailing '/' (List.mem_of_getLast? hlast)
    cases hblank
  | cons entry later ih =>
    have hquote : entry.quote ≠ '/' := by
      rcases entry.isQuote with heq | heq <;> rw [heq] <;> decide
    rw [text_cons, ← List.cons_append, ← List.append_assoc, List.getLast?_append_cons, List.getLast?_cons]
    intro hlast
    cases hrest : (text ⟨later, trailing, htrailing⟩).getLast? with
    | none =>
      rw [hrest] at hlast
      exact hquote (Option.some.inj hlast)
    | some last =>
      rw [hrest] at hlast ih
      exact ih hlast

/-- A lookup answers with the value of the attribute that has the name. -/
theorem rawAttribute?_text (hname : IsName name) (hnames : ∀ other ∈ spelling.attributes,
      other.name ≠ name → ¬ name.toList <:+: other.name.toList) :
    rawAttribute? name.toList spelling.text =
      (spelling.attributes.find? (·.name == name)).map (·.value.toList) := by
  have hne := hname.toList_ne_nil
  have hnoBlank (c : Char) (hblank : Text.isAsciiBlank c = true) : c ∉ name.toList :=
    hname.notMem_of_isBlank (Text.isBlank_of_isAsciiBlank hblank)
  obtain ⟨attributes, trailing, htrailing⟩ := spelling
  induction attributes with
  | nil =>
    have habsent : ¬ name.toList <:+: trailing := by
      intro hoccurs
      obtain ⟨first, hfirst⟩ := List.exists_mem_of_ne_nil _ hne
      exact hnoBlank first (List.all_eq_true.mp htrailing first (hoccurs.subset hfirst)) hfirst
    exact rawAttribute?_of_cut?_eq_none (Text.cut?_eq_none_iff.mpr habsent)
  | cons entry later ih =>
    obtain ⟨hentry, hlater⟩ := List.forall_mem_cons.mp hnames
    let rest := text ⟨later, trailing, htrailing⟩
    have hquote : entry.quote ∉ name.toList := by
      rcases entry.isQuote with heq | heq <;> exact heq ▸ hname.notMem (by decide)
    have hfront : '"' ∉ entry.front.tail ∧ '\'' ∉ entry.front.tail :=
      ⟨fun hmem => entry.notMem_front (by simp) (List.mem_of_mem_tail hmem),
        fun hmem => entry.notMem_front (by simp) (List.mem_of_mem_tail hmem)⟩
    have hvalue : '"' ∉ entry.value.toList ∧ '\'' ∉ entry.value.toList :=
      ⟨entry.notMem_value (by decide), entry.notMem_value (by decide)⟩
    rw [text_cons, rawAttribute?_quoted hne hquote entry.isQuote hfront hvalue, entry.assigns_value,
      if_neg Bool.false_ne_true]
    by_cases hfound : entry.name = name
    · rw [← hfound, entry.assigns_front, if_pos rfl, List.find?_cons_of_pos (by simp)]
      rfl
    · have hpastFront : assigns name.toList entry.front = false :=
        assigns_of_cut?_eq_none
          (Text.cut?_eq_none_iff.mpr (entry.not_infix_front hname (hentry hfound)))
      have hpastQuote : rawAttribute? name.toList (entry.quote :: rest) =
          rawAttribute? name.toList rest :=
        rawAttribute?_cons_quote hne hquote fun c hc => hnoBlank c (isAsciiBlank_of_mem_head? _ c hc)
      rw [hpastFront, if_neg Bool.false_ne_true, hpastQuote, ih hlater,
        List.find?_cons_of_neg (by simpa using hfound)]

/-- What a lookup in a tag answers. -/
theorem attribute?_text (hname : IsName name) (hnames : ∀ other ∈ spelling.attributes,
      other.name ≠ name → ¬ name.toList <:+: other.name.toList) (body : List Char) :
    Element.attribute? ⟨spelling.text, body⟩ name =
      (spelling.attributes.find? (·.name == name)).map (·.value) := by
  rw [Element.attribute?, spelling.rawAttribute?_text hname hnames, Option.map_map]
  refine Option.map_congr fun entry _ => ?_
  have hplain : '&' ∉ entry.value.toList := entry.notMem_value (by decide)
  rw [Function.comp_apply, unescape_of_notMem hplain, String.ofList_toList]

end SpelledTag

end Reconcile.Markup
