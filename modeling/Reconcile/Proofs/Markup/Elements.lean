import Reconcile.Proofs.Markup.Attributes

namespace Reconcile.Markup

variable {tag other : String} {attributes : List Attribute} {document gap body head rest : List Char}

/-- An element as a tag that closes itself. -/
def emptyElement (tag : String) (attributes : List Attribute) : List Char :=
  opening tag ++ (written attributes ++ ['/', '>'])

/-- An element with its body between two tags. -/
def wholeElement (tag : String) (attributes : List Attribute) (body : List Char) : List Char :=
  opening tag ++ (written attributes ++ '>' :: (body ++ closing tag))

theorem notMem_of_mem_tag {c : Char} (htag : IsName tag) (hc : c ∈ ['<', '>', '/']) :
    c ∉ tag.toList := by
  have hspecial : ∀ c ∈ ['<', '>', '/'], isNameChar c = false := by simp [isNameChar]
  exact htag.notMem (hspecial c hc)

theorem notMem_tail_closing (htag : IsName tag) : '<' ∉ (closing tag).tail := by
  have hname : '<' ∉ tag.toList := notMem_of_mem_tag htag (by simp)
  simp [closing, hname]

/-- Behind a tag stands either its first attribute or the character that ends the tag. -/
theorem endsName_written {c : Char} (hc : endsName (some c) = true) (rest : List Char) :
    endsName (written attributes ++ c :: rest).head? = true := by
  cases attributes with
  | nil => exact hc
  | cons entry attributes => rfl

theorem selfClosing?_written (attributes : List Attribute) :
    selfClosing? (written attributes) = none := by
  rw [selfClosing?, if_neg]
  rcases List.eq_nil_or_concat' attributes with rfl | ⟨front, entry, rfl⟩
  · exact nofun
  · have hentry : entry.written.getLast? = some '"' := by
      rw [entry.written_eq_concat, List.getLast?_concat]
    have hlast : (written (front ++ [entry])).getLast? = some '"' := by
      rw [written, List.flatMap_append, List.flatMap_singleton, List.getLast?_append, hentry]
      rfl
    rw [hlast]
    decide

theorem selfClosing?_append_slash (head : List Char) : selfClosing? (head ++ ['/']) = some head := by
  rw [selfClosing?, List.getLast?_concat, if_pos rfl, List.dropLast_concat]

theorem elements_of_not_infix (habsent : ¬ opening tag <:+: document) :
    elements tag document = [] := by
  have hcut := Text.cut?_eq_none_iff.mpr habsent
  rw [elements]
  split
  · rfl
  · rename_i hfound
    rw [hcut] at hfound
    cases hfound

/-- The element behind the first opening tag is read, and the search goes on behind it. -/
theorem elements_of_cut? {before content : List Char}
    (hopen : Text.cut? (opening tag) document = some (before, rest))
    (hname : endsName rest.head? = true) (hend : Text.cut? ['>'] rest = some (head, content)) :
    elements tag document = match selfClosing? head with
      | some attributes => ⟨attributes, []⟩ :: elements tag content
      | none =>
        match Text.cut? (closing tag) content with
        | none => []
        | some (body, after) => ⟨head, body⟩ :: elements tag after := by
  rw [elements]
  split
  · rename_i hnone
    rw [hopen] at hnone
    cases hnone
  · rename_i hfound
    rw [hopen] at hfound
    cases hfound
    rw [if_pos hname]
    split
    · rename_i hnone
      rw [hend] at hnone
      cases hnone
    · rename_i hfound
      rw [hend] at hfound
      cases hfound
      cases selfClosing? head with
      | some attributes => rfl
      | none =>
        dsimp only
        split
        · rename_i hclose
          rw [hclose]
        · rename_i hclose
          rw [hclose]

/-- A tag that closes itself, whatever stands in it behind its name. -/
theorem elements_selfClosed (htag : IsName tag) (hgap : ¬ opening tag <:+: gap) (hhead : '>' ∉ head)
    (hname : endsName (head ++ '/' :: '>' :: rest).head? = true) :
    elements tag (gap ++ (opening tag ++ (head ++ '/' :: '>' :: rest))) =
      ⟨head, []⟩ :: elements tag rest := by
  have hopen : Text.cut? (opening tag) (gap ++ (opening tag ++ (head ++ '/' :: '>' :: rest))) =
      some (gap, head ++ '/' :: '>' :: rest) :=
    Text.cut?_append_pattern hgap (notMem_of_mem_tag htag (by simp)) _
  have hend : Text.cut? ['>'] (head ++ '/' :: '>' :: rest) = some (head ++ ['/'], rest) := by
    have habsent : '>' ∉ head ++ ['/'] := by simp [hhead]
    have hcut := Text.cut?_append_pattern (Text.not_infix_of_notMem habsent) List.not_mem_nil rest
    simpa using hcut
  rw [elements_of_cut? hopen hname hend, selfClosing?_append_slash]

/-- A tag and its closing tag, whatever stands in the one behind its name. -/
theorem elements_closed (htag : IsName tag) (hgap : ¬ opening tag <:+: gap) (hhead : '>' ∉ head)
    (hslash : selfClosing? head = none) (hbody : ¬ closing tag <:+: body)
    (hname : endsName (head ++ '>' :: (body ++ (closing tag ++ rest))).head? = true) :
    elements tag (gap ++ (opening tag ++ (head ++ '>' :: (body ++ (closing tag ++ rest))))) =
      ⟨head, body⟩ :: elements tag rest := by
  have hopen : Text.cut? (opening tag)
      (gap ++ (opening tag ++ (head ++ '>' :: (body ++ (closing tag ++ rest))))) =
        some (gap, head ++ '>' :: (body ++ (closing tag ++ rest))) :=
    Text.cut?_append_pattern hgap (notMem_of_mem_tag htag (by simp)) _
  have hend : Text.cut? ['>'] (head ++ '>' :: (body ++ (closing tag ++ rest))) =
      some (head, body ++ (closing tag ++ rest)) :=
    Text.cut?_append_pattern (Text.not_infix_of_notMem hhead) List.not_mem_nil _
  have hclose : Text.cut? (closing tag) (body ++ (closing tag ++ rest)) = some (body, rest) :=
    Text.cut?_append_pattern hbody (notMem_tail_closing htag) rest
  rw [elements_of_cut? hopen hname hend, hslash]
  simp only [hclose]

/-- An element without a body is found behind a gap without its tag. -/
theorem elements_emptyElement (htag : IsName tag) (hgap : ¬ opening tag <:+: gap) (rest : List Char) :
    elements tag (gap ++ (emptyElement tag attributes ++ rest)) =
      ⟨written attributes, []⟩ :: elements tag rest := by
  have hhead : '>' ∉ written attributes := notMem_written attributes (by simp)
  have hfound := elements_selfClosed htag hgap hhead (endsName_written rfl ('>' :: rest))
  simpa [emptyElement] using hfound

/-- An element with a body is found behind a gap without its tag, if the body does not close it. -/
theorem elements_wholeElement (htag : IsName tag) (hgap : ¬ opening tag <:+: gap)
    (hbody : ¬ closing tag <:+: body) (rest : List Char) :
    elements tag (gap ++ (wholeElement tag attributes body ++ rest)) =
      ⟨written attributes, body⟩ :: elements tag rest := by
  have hhead : '>' ∉ written attributes := notMem_written attributes (by simp)
  have hfound := elements_closed htag hgap hhead (selfClosing?_written attributes) hbody
    (endsName_written rfl (body ++ (closing tag ++ rest)))
  simpa [wholeElement] using hfound

/-- A document that is one element has that element. -/
theorem element?_wholeElement (htag : IsName tag) (hbody : ¬ closing tag <:+: body) :
    element? tag (wholeElement tag attributes body) = some ⟨written attributes, body⟩ := by
  have hnil : ¬ opening tag <:+: [] := by simp [opening]
  have hfound : elements tag ([] ++ (wholeElement tag attributes body ++ [])) =
      ⟨written attributes, body⟩ :: elements tag [] := elements_wholeElement htag hnil hbody []
  rw [List.nil_append, List.append_nil] at hfound
  rw [element?, hfound, List.head?_cons]

/-- An element neither begins nor ends with a blank. -/
theorem trim_wholeElement (tag : String) (attributes : List Attribute) (body : List Char) :
    Text.trim (wholeElement tag attributes body) = wholeElement tag attributes body := by
  rw [Text.trim_eq_self_iff]
  constructor
  · intro c hhead
    have hc : c = '<' := by simpa [wholeElement, opening] using hhead.symm
    rw [hc]
    rfl
  · intro c hlast
    have hend : wholeElement tag attributes body =
        opening tag ++ (written attributes ++ '>' :: (body ++ '<' :: '/' :: tag.toList)) ++ ['>'] := by
      simp [wholeElement, closing]
    rw [hend, List.getLast?_concat] at hlast
    obtain rfl := Option.some.inj hlast
    rfl

/-- An opening tag is not found in another one that begins with a different name. -/
theorem opening_not_infix_emptyElement (htag : IsName tag) (hother : IsName other)
    (hname : ¬ other.toList <:+: tag.toList) (hrest : ¬ opening other <:+: rest) :
    ¬ opening other <:+: emptyElement tag attributes ++ rest := by
  have hhead : '<' ∉ tag.toList ++ (written attributes ++ ['/', '>']) := by
    simp [notMem_of_mem_tag htag, notMem_written attributes]
  obtain ⟨c, more, hnext, hc⟩ : ∃ c more,
      written attributes ++ '/' :: '>' :: rest = c :: more ∧ isNameChar c = false := by
    cases attributes with
    | nil => exact ⟨'/', '>' :: rest, rfl, rfl⟩
    | cons entry attributes => exact ⟨' ', _, rfl, rfl⟩
  have hc_tail : c ∉ other.toList.tail := fun hmem => hother.notMem hc (List.mem_of_mem_tail hmem)
  have hstart : ¬ opening other <+: '<' :: (tag.toList ++ (written attributes ++ ['/', '>']) ++ rest) := by
    rw [opening, List.cons_prefix_cons]
    rintro ⟨-, hprefix⟩
    have htext : tag.toList ++ (written attributes ++ ['/', '>']) ++ rest =
        tag.toList ++ c :: more := by
      rw [← hnext]
      simp
    rw [htext] at hprefix
    exact Text.not_prefix_append_cons hname hc_tail htag.toList_ne_nil hprefix
  change ¬ opening other <:+: '<' :: (tag.toList ++ (written attributes ++ ['/', '>']) ++ rest)
  rw [List.infix_cons_iff, not_or]
  exact ⟨hstart, Text.not_infix_append_of_notMem hhead hrest⟩

/-- Behind an opening tag, a closing tag can only occur further on. -/
theorem closing_not_infix_opening (htag : IsName tag) (hhead : '<' ∉ head)
    (hrest : ¬ closing other <:+: rest) : ¬ closing other <:+: opening tag ++ (head ++ rest) := by
  have hname : '<' ∉ tag.toList ++ head := by simp [hhead, notMem_of_mem_tag htag]
  have hslash : '/' ∉ tag.toList := notMem_of_mem_tag htag (by simp)
  have hstart : ¬ closing other <+: '<' :: (tag.toList ++ head ++ rest) := by
    obtain ⟨c, name, htext⟩ := List.exists_cons_of_ne_nil htag.toList_ne_nil
    rw [htext] at hslash ⊢
    rintro ⟨after, hafter⟩
    simp only [closing, List.cons_append, List.cons.injEq] at hafter
    exact hslash (hafter.2.1 ▸ List.mem_cons_self)
  rw [opening, List.cons_append, ← List.append_assoc, List.infix_cons_iff, not_or]
  exact ⟨hstart, Text.not_infix_append_of_notMem hname hrest⟩

theorem closing_not_infix_emptyElement (htag : IsName tag) (hrest : ¬ closing other <:+: rest) :
    ¬ closing other <:+: emptyElement tag attributes ++ rest := by
  have hhead : '<' ∉ written attributes ++ ['/', '>'] := by simp [notMem_written attributes]
  rw [emptyElement, List.append_assoc]
  exact closing_not_infix_opening htag hhead hrest

/-- A closing tag occurs in no other one. -/
theorem closing_not_infix_closing (htag : IsName tag) (hother : IsName other) (hne : other ≠ tag)
    (hrest : ¬ closing other <:+: rest) : ¬ closing other <:+: closing tag ++ rest := by
  have hname : '<' ∉ '/' :: tag.toList ++ ['>'] := by simp [notMem_of_mem_tag htag]
  have hstart : ¬ closing other <+: '<' :: ('/' :: tag.toList ++ ['>'] ++ rest) := by
    rintro ⟨after, hafter⟩
    have htexts : other.toList ++ '>' :: after = tag.toList ++ '>' :: rest := by
      simpa [closing] using hafter
    have hcut {name : String} (hname : IsName name) (text : List Char) :
        Text.cut? ['>'] (name.toList ++ '>' :: text) = some (name.toList, text) := by
      have habsent : '>' ∉ name.toList := notMem_of_mem_tag hname (by simp)
      exact Text.cut?_append_pattern (Text.not_infix_of_notMem habsent) List.not_mem_nil text
    have hpieces := hcut hother after
    rw [htexts, hcut htag] at hpieces
    obtain ⟨hsame, -⟩ := Prod.mk.inj (Option.some.inj hpieces)
    exact hne (String.toList_inj.mp hsame.symm)
  change ¬ closing other <:+: '<' :: ('/' :: tag.toList ++ ['>'] ++ rest)
  rw [List.infix_cons_iff, not_or]
  exact ⟨hstart, Text.not_infix_append_of_notMem hname hrest⟩

/-- An element closes no other one, unless its body does. -/
theorem closing_not_infix_wholeElement (htag : IsName tag) (hother : IsName other) (hne : other ≠ tag)
    (hbody : ¬ closing other <:+: body) (hrest : ¬ closing other <:+: rest) :
    ¬ closing other <:+: wholeElement tag attributes body ++ rest := by
  have hclose : ¬ closing other <:+: closing tag ++ rest :=
    closing_not_infix_closing htag hother hne hrest
  have hafter : ¬ closing other <:+: body ++ (closing tag ++ rest) :=
    Text.not_infix_append_cons hbody (notMem_tail_closing hother) hclose
  have hhead : '<' ∉ written attributes ++ ['>'] := by simp [notMem_written attributes]
  have htext : wholeElement tag attributes body ++ rest =
      opening tag ++ ((written attributes ++ ['>']) ++ (body ++ (closing tag ++ rest))) := by
    simp [wholeElement]
  rw [htext]
  exact closing_not_infix_opening htag hhead hafter

variable {α : Type} {l : List α} {last : List Char} {entries : α → List Attribute}
  {content : α → List Char}

/-- Elements with one tag, each behind a gap. -/
def row (gap : List Char) (tag : String) (entries : α → List Attribute) (content : α → List Char)
    (l : List α) : List Char :=
  l.flatMap fun a => gap ++ wholeElement tag (entries a) (content a)

/-- Elements in a row are found one for one, by induction over the row. -/
theorem elements_row (htag : IsName tag) (hgap : '<' ∉ gap) (hlast : '<' ∉ last)
    (hcontent : ∀ a ∈ l, ¬ closing tag <:+: content a) :
    elements tag (row gap tag entries content l ++ last) =
      l.map fun a => ⟨written (entries a), content a⟩ := by
  induction l with
  | nil => exact elements_of_not_infix (Text.not_infix_of_notMem hlast)
  | cons a l ih =>
    obtain ⟨ha, hl⟩ := List.forall_mem_cons.mp hcontent
    have hopen : ¬ opening tag <:+: gap := Text.not_infix_of_notMem hgap
    rw [row, List.flatMap_cons, ← row, List.append_assoc, List.append_assoc,
      elements_wholeElement htag hopen ha, ih hl, List.map_cons]

/-- A row closes no element of another name, unless one of its bodies does. -/
theorem closing_not_infix_row (htag : IsName tag) (hother : IsName other) (hne : other ≠ tag)
    (hgap : '<' ∉ gap) (hlast : '<' ∉ last) (hcontent : ∀ a ∈ l, ¬ closing other <:+: content a) :
    ¬ closing other <:+: row gap tag entries content l ++ last := by
  induction l with
  | nil => exact Text.not_infix_of_notMem hlast
  | cons a l ih =>
    obtain ⟨ha, hl⟩ := List.forall_mem_cons.mp hcontent
    rw [row, List.flatMap_cons, ← row, List.append_assoc, List.append_assoc]
    exact Text.not_infix_append_of_notMem hgap
      (closing_not_infix_wholeElement htag hother hne ha (ih hl))

end Reconcile.Markup
