import Reconcile.Proofs.Markup.Entities

namespace Reconcile.Markup

variable {name text before after : List Char} {c quote : Char}

/-- The characters that names of tags and attributes are made of. -/
def isNameChar (c : Char) : Bool :=
  !(Text.isBlank c || ['=', '"', '\'', '<', '>', '/'].contains c)

/-- A name of a tag or of an attribute. -/
def IsName (name : String) : Prop :=
  name ≠ "" ∧ name.toList.all isNameChar = true

instance (name : String) : Decidable (IsName name) :=
  inferInstanceAs (Decidable (_ ∧ _))

theorem IsName.notMem {name : String} (hname : IsName name) (hc : isNameChar c = false) :
    c ∉ name.toList := by
  intro hmem
  rw [List.all_eq_true.mp hname.2 c hmem] at hc
  cases hc

theorem IsName.toList_ne_nil {name : String} (hname : IsName name) : name.toList ≠ [] := by
  simpa using hname.1

/-- An attribute to be written into a tag. -/
structure Attribute where
  name : String
  value : String
  isName : IsName name := by decide +kernel

namespace Attribute

/-- An attribute as it stands in a tag. -/
def written (entry : Attribute) : List Char :=
  ' ' :: (entry.name.toList ++ '=' :: '"' :: (escape entry.value.toList ++ ['"']))

/-- Whether the value ends with an equals sign, blanks aside. -/
def EndsInEquals (value : String) : Prop :=
  (Text.trimEnd Text.isBlank value.toList).getLast? = some '='

instance (value : String) : Decidable (EndsInEquals value) :=
  inferInstanceAs (Decidable (_ = _))

/-- Escaping adds no equals sign, so one at the end of what was written comes from the value. -/
theorem endsInEquals_of_escape {value : String} {blanks : List Char}
    (hwritten : escape value.toList = before ++ '=' :: blanks)
    (hblanks : ∀ c ∈ blanks, Text.isBlank c = true) : EndsInEquals value := by
  obtain ⟨front, rest, hvalue, hrest⟩ := exists_of_escape_eq (by decide) hwritten hblanks
  rw [EndsInEquals, hvalue, Text.trimEnd_append_cons rfl hrest, List.getLast?_concat]

/-- An attribute ends with the quote that closes its value. -/
theorem written_eq_concat (entry : Attribute) : entry.written =
    ' ' :: (entry.name.toList ++ '=' :: '"' :: escape entry.value.toList) ++ ['"'] := by
  simp [written]

theorem notMem_written (entry : Attribute) (hc : c ∈ ['<', '>']) : c ∉ entry.written := by
  have hspecial : ∀ c ∈ ['<', '>'], isNameChar c = false ∧ c ∈ ['<', '>', '"', '\''] ∧
      c ≠ ' ' ∧ c ≠ '=' ∧ c ≠ '"' := by
    simp [isNameChar]
  obtain ⟨hname, hescaped, hblank, hequals, hquote⟩ := hspecial c hc
  have hname := entry.isName.notMem hname
  have hvalue : c ∉ escape entry.value.toList := notMem_escape hescaped
  simp [written, hname, hvalue, hblank, hequals, hquote]

end Attribute

/-- Attributes as they stand in a tag, one after the other. -/
def written (attributes : List Attribute) : List Char :=
  attributes.flatMap (·.written)

theorem notMem_written (attributes : List Attribute) (hc : c ∈ ['<', '>']) :
    c ∉ written attributes := by
  rw [written, List.mem_flatMap]
  rintro ⟨entry, -, hmem⟩
  exact entry.notMem_written hc hmem

theorem rawAttribute?_of_cut?_eq_none (hcut : Text.cut? name text = none) :
    rawAttribute? name text = none := by
  rw [rawAttribute?]
  split
  · rfl
  · split
    · rfl
    · rename_i hfound
      rw [hcut] at hfound
      cases hfound

/-- The search judges the first occurrence of the name and goes on behind it if that is none. -/
theorem rawAttribute?_of_cut? (hname : name ≠ []) (hcut : Text.cut? name text = some (before, after)) :
    rawAttribute? name text = match judge before after with
      | .value raw => some raw
      | .unfinished => none
      | .other => rawAttribute? name after := by
  rw [rawAttribute?, dif_neg hname]
  split
  · rename_i hnone
    rw [hcut] at hnone
    cases hnone
  · rename_i hfound
    rw [hcut] at hfound
    cases hfound
    rfl

/-- Only the last character before an occurrence is looked at. -/
theorem judge_congr {before' : List Char} (hlast : before.getLast? = before'.getLast?) :
    judge before after = judge before' after := by
  rw [judge, judge, hlast]

/-- An occurrence in front of a quote is no attribute if something else than an equals sign stands between
the two, blanks aside. -/
theorem judge_eq_other (hquote : Text.isBlank quote = false) (hequals : quote ≠ '=')
    (htext : '"' ∉ text ∧ '\'' ∉ text) (hbetween : Text.trim text ≠ ['='])
    (before rest : List Char) : judge before (text ++ quote :: rest) = .other := by
  rw [judge]
  rcases Text.forall_or_exists_first Text.isBlank text with hall | ⟨blanks, c, more, rfl, hblanks, hc⟩
  · rw [Text.trimStart_append hall, Text.trimStart_cons hquote]
    split
    · rename_i heq
      exact absurd (List.cons.inj heq).1 hequals
    · rfl
  · rw [List.append_assoc, Text.trimStart_append hblanks, List.cons_append, Text.trimStart_cons hc]
    split
    · rename_i value heq
      obtain ⟨rfl, rfl⟩ := List.cons.inj heq
      -- The equals sign is there; what follows it in the text is not the quote.
      rcases Text.forall_or_exists_first Text.isBlank more with
        hall | ⟨blanks', d, more', rfl, hblanks', hd⟩
      · exact absurd (Text.trim_append_cons hblanks hc hall) hbetween
      · have hd_quote : ¬ (d = '"' ∨ d = '\'') := by
          rintro (rfl | rfl)
          · exact htext.1 (by simp)
          · exact htext.2 (by simp)
        rw [List.append_assoc, Text.trimStart_append hblanks', List.cons_append,
          Text.trimStart_cons hd]
        dsimp only
        rw [if_neg hd_quote, ite_self]
    · rfl

/-- The search goes past a text in which the name does not occur. -/
theorem rawAttribute?_append_cons (hname : name ≠ []) (habsent : ¬ name <:+: text) (hc : c ∉ name)
    (rest : List Char) : rawAttribute? name (text ++ c :: rest) = rawAttribute? name (c :: rest) := by
  have htail : c ∉ name.tail := fun hmem => hc (List.mem_of_mem_tail hmem)
  have hpast := Text.cut?_append_cons (t := rest) habsent htail
  have hhere := Text.cut?_cons (Text.not_prefix_cons hname hc rest)
  rw [hhere] at hpast
  cases hrest : Text.cut? name rest with
  | none =>
    rw [hrest] at hpast hhere
    rw [rawAttribute?_of_cut?_eq_none hpast, rawAttribute?_of_cut?_eq_none hhere]
  | some pieces =>
    obtain ⟨front, back⟩ := pieces
    rw [hrest] at hpast hhere
    have hlast : (text ++ c :: front).getLast? = (c :: front).getLast? := List.getLast?_append_cons ..
    rw [rawAttribute?_of_cut? hname hpast, rawAttribute?_of_cut? hname hhere, judge_congr hlast]

end Reconcile.Markup
