import Mathlib.Data.List.Pairwise
import Reconcile.Proofs.Markup.Elements

namespace Reconcile.Markup

/-- A place where an opening tag stands and its name ends behind it. -/
def IsTagAt (tag : String) (document : List Char) (place : Nat) : Prop :=
  ∃ rest, document.drop place = opening tag ++ rest ∧ endsName rest.head? = true

/-- The text of an element from its opening tag on, which the first `>` ends. If the tag does not close
itself, the first closing tag ends the element. -/
inductive Holds (tag : String) : List Char → Element → Prop
  | empty {attributes : List Char} (hend : '>' ∉ attributes) :
      Holds tag (opening tag ++ (attributes ++ ['/', '>'])) ⟨attributes, []⟩
  | whole {attributes body : List Char} (hend : '>' ∉ attributes)
      (hopen : attributes.getLast? ≠ some '/') (hbody : ¬ closing tag <:+: body) :
      Holds tag (opening tag ++ (attributes ++ '>' :: (body ++ closing tag))) ⟨attributes, body⟩

/-- What follows the name of an opening tag does not end the tag, or the tag does not close itself and no
closing tag follows it. -/
def IsUnfinished (tag : String) (rest : List Char) : Prop :=
  '>' ∉ rest ∨ ∃ attributes content, rest = attributes ++ '>' :: content ∧ '>' ∉ attributes ∧
    attributes.getLast? ≠ some '/' ∧ ¬ closing tag <:+: content

/-- A place where looking for elements ends. -/
def StopsAt (tag : String) (document : List Char) (place : Nat) : Prop :=
  ∃ rest, document.drop place = opening tag ++ rest ∧ endsName rest.head? = true ∧
    IsUnfinished tag rest

/-- The characters of a document from one place up to another, and the element they are read as. -/
structure Region where
  start : Nat
  stop : Nat
  element : Element

/-- A region of a document: a tag begins there, and its text is that of the element. -/
structure Region.IsIn (region : Region) (tag : String) (document : List Char) : Prop where
  begins : IsTagAt tag document region.start
  holds : ∃ text after, document.drop region.start = text ++ after ∧
    region.stop = region.start + text.length ∧ Holds tag text region.element

/-- The regions that are found in a document from a place on, and the place where looking ended before the
end of the document. -/
structure Reads (tag : String) (document : List Char) (cursor : Nat) (regions : List Region)
    (last : Option Nat) : Prop where
  isIn : ∀ region ∈ regions, region.IsIn tag document
  ahead : ∀ region ∈ regions, cursor ≤ region.start
  ordered : regions.Pairwise (·.stop ≤ ·.start)
  /-- No tag is passed over. -/
  complete : ∀ place, cursor ≤ place → IsTagAt tag document place →
    (∃ region ∈ regions, region.start ≤ place ∧ place < region.stop) ∨ ∃ stop ∈ last, stop ≤ place
  stops : ∀ stop ∈ last, StopsAt tag document stop ∧ cursor ≤ stop ∧ ∀ region ∈ regions, region.stop ≤ stop

variable {tag : String} {document rest head attributes body after text : List Char} {element : Element}
  {cursor place later : Nat} {region : Region} {regions regions' : List Region} {last last' : Option Nat}

@[simp] theorem length_opening (tag : String) : (opening tag).length = tag.toList.length + 1 :=
  rfl

@[simp] theorem length_closing (tag : String) : (closing tag).length = tag.toList.length + 3 := by
  simp [closing]

theorem IsTagAt.getElem?_eq (htag : IsTagAt tag document place) : document[place]? = some '<' := by
  obtain ⟨rest, htext, -⟩ := htag
  rw [← Nat.add_zero place, ← List.getElem?_drop, htext]
  rfl

/-- No tag begins in a text without the character that begins all of them. -/
theorem not_isTagAt_of_notMem (htext : '<' ∉ text) (hdrop : document.drop cursor = text ++ rest)
    (hplace : cursor ≤ place) (hinside : place < cursor + text.length) : ¬ IsTagAt tag document place := by
  intro htag
  have hchar : (text ++ rest)[place - cursor]? = some '<' := by
    rw [← hdrop, List.getElem?_drop, Nat.add_sub_cancel' hplace]
    exact htag.getElem?_eq
  rw [List.getElem?_append_left (by omega)] at hchar
  exact htext (List.mem_of_getElem? hchar)

/-- What an opening tag reaches over is part of its name. -/
theorem infix_of_opening (htag : document.drop place = opening tag ++ rest)
    (htext : document.drop later = text ++ after) (hplace : place < later)
    (hreach : later + text.length ≤ place + (opening tag).length) : text <:+: tag.toList := by
  obtain ⟨skipped, rfl⟩ := Nat.exists_eq_add_of_lt hplace
  rw [length_opening] at hreach
  have hname : tag.toList.drop skipped ++ rest = text ++ after := by
    rw [← List.drop_append_of_le_length (by omega), ← htext, Nat.add_assoc, ← List.drop_drop, htag]
    rfl
  have hprefix : text <+: tag.toList.drop skipped := by
    have hlength : text.length ≤ (tag.toList.drop skipped).length := by
      rw [List.length_drop]
      omega
    exact List.prefix_of_prefix_length_le (List.prefix_append text after)
      (hname ▸ List.prefix_append ..) hlength
  exact hprefix.isInfix.trans (List.drop_suffix ..).isInfix

theorem isTagAt_iff (hdrop : document.drop place = opening tag ++ rest) :
    IsTagAt tag document place ↔ endsName rest.head? = true := by
  constructor
  · rintro ⟨rest', hdrop', hends⟩
    rw [hdrop, List.append_cancel_left_eq] at hdrop'
    rwa [hdrop']
  · exact fun hends => ⟨rest, hdrop, hends⟩

/-- The element that a tag begins, and what follows it. -/
def elementBehind? (tag : String) (rest : List Char) : Option (Element × List Char) :=
  match Text.cut? ['>'] rest with
  | none => none
  | some (head, content) =>
    match selfClosing? head with
    | some attributes => some (⟨attributes, []⟩, content)
    | none => (Text.cut? (closing tag) content).map fun (body, after) => (⟨head, body⟩, after)

/-- An element is read to the end of a tag that closes itself, or to the end of the first closing tag. -/
theorem cases_of_elementBehind? (hbehind : elementBehind? tag rest = some (element, after)) :
    (∃ head attributes, Text.cut? ['>'] rest = some (head, after) ∧ selfClosing? head = some attributes ∧
      element = ⟨attributes, []⟩) ∨
    ∃ head content body, Text.cut? ['>'] rest = some (head, content) ∧ selfClosing? head = none ∧
      Text.cut? (closing tag) content = some (body, after) ∧ element = ⟨head, body⟩ := by
  rw [elementBehind?] at hbehind
  cases hend : Text.cut? ['>'] rest with
  | none => simp [hend] at hbehind
  | some cut =>
    obtain ⟨head, content⟩ := cut
    cases hself : selfClosing? head with
    | some attributes =>
      simp only [hend, hself, Option.some.injEq, Prod.mk.injEq] at hbehind
      obtain ⟨rfl, rfl⟩ := hbehind
      exact .inl ⟨head, attributes, rfl, hself, rfl⟩
    | none =>
      simp only [hend, hself, Option.map_eq_some_iff, Prod.exists, Prod.mk.injEq] at hbehind
      obtain ⟨body, after, hclose, rfl, rfl⟩ := hbehind
      exact .inr ⟨head, content, body, rfl, hself, hclose, rfl⟩

theorem selfClosing?_eq_some_iff : selfClosing? head = some attributes ↔ head = attributes ++ ['/'] := by
  constructor
  · intro hhead
    rw [selfClosing?, Option.ite_none_right_eq_some] at hhead
    obtain ⟨hlast, hattributes⟩ := hhead
    rw [← Option.some.inj hattributes]
    exact (List.dropLast_append_getLast? '/' hlast).symm
  · rintro rfl
    exact selfClosing?_append_slash attributes

theorem selfClosing?_eq_none_iff : selfClosing? head = none ↔ head.getLast? ≠ some '/' := by
  simp [selfClosing?]

theorem cut?_end_eq_some_iff {content : List Char} :
    Text.cut? ['>'] rest = some (head, content) ↔ rest = head ++ '>' :: content ∧ '>' ∉ head := by
  constructor
  · intro hcut
    refine ⟨Text.eq_append_of_cut? hcut, fun hmem => ?_⟩
    exact Text.not_infix_of_cut? (List.cons_ne_nil _ _) hcut ((List.singleton_infix_iff ..).mpr hmem)
  · rintro ⟨rfl, hend⟩
    exact Text.cut?_append_pattern (Text.not_infix_of_notMem hend) List.not_mem_nil content

theorem cut?_end_eq_none_iff : Text.cut? ['>'] rest = none ↔ '>' ∉ rest := by
  rw [Text.cut?_eq_none_iff, List.singleton_infix_iff]

/-- A tag that closes itself is an element without a body. -/
theorem elementBehind?_empty (hend : '>' ∉ attributes) (after : List Char) :
    elementBehind? tag (attributes ++ '/' :: '>' :: after) = some (⟨attributes, []⟩, after) := by
  have hcut : Text.cut? ['>'] (attributes ++ '/' :: '>' :: after) = some (attributes ++ ['/'], after) :=
    cut?_end_eq_some_iff.mpr ⟨by simp, by simp [hend]⟩
  rw [elementBehind?, hcut]
  simp only [selfClosing?_append_slash]

/-- An element goes up to the first closing tag behind it. -/
theorem elementBehind?_whole (hname : '<' ∉ tag.toList) (hend : '>' ∉ attributes)
    (hopen : attributes.getLast? ≠ some '/') (hbody : ¬ closing tag <:+: body) (after : List Char) :
    elementBehind? tag (attributes ++ '>' :: (body ++ (closing tag ++ after))) =
      some (⟨attributes, body⟩, after) := by
  have hcut : Text.cut? ['>'] (attributes ++ '>' :: (body ++ (closing tag ++ after))) =
      some (attributes, body ++ (closing tag ++ after)) := cut?_end_eq_some_iff.mpr ⟨rfl, hend⟩
  have htail : '<' ∉ (closing tag).tail := by simp [closing, hname]
  have hclose : Text.cut? (closing tag) (body ++ (closing tag ++ after)) = some (body, after) :=
    Text.cut?_append_pattern hbody htail after
  rw [elementBehind?, hcut]
  simp only [selfClosing?_eq_none_iff.mpr hopen, hclose, Option.map_some]

/-- The text that is read as an element, and what it is read as. -/
theorem elementBehind?_eq_some_iff (hname : '<' ∉ tag.toList) :
    elementBehind? tag rest = some (element, after) ↔
      ∃ text, opening tag ++ rest = text ++ after ∧ Holds tag text element := by
  constructor
  · intro hbehind
    obtain ⟨head, attributes, hend, hself, rfl⟩ | ⟨head, content, body, hend, hself, hclose, rfl⟩ :=
      cases_of_elementBehind? hbehind
    · obtain ⟨rfl, hhead⟩ := cut?_end_eq_some_iff.mp hend
      obtain rfl := selfClosing?_eq_some_iff.mp hself
      exact ⟨_, by simp, .empty fun hmem => hhead (List.mem_append_left _ hmem)⟩
    · obtain ⟨rfl, hhead⟩ := cut?_end_eq_some_iff.mp hend
      have hbody := Text.not_infix_of_cut? (List.cons_ne_nil _ _) hclose
      refine ⟨_, ?_, .whole hhead (selfClosing?_eq_none_iff.mp hself) hbody⟩
      simp [Text.eq_append_of_cut? hclose]
  · rintro ⟨_, htext, hend | ⟨hend, hopen, hbody⟩⟩
    · simp only [List.append_assoc, List.append_cancel_left_eq] at htext
      rw [htext]
      exact elementBehind?_empty hend after
    · simp only [List.append_assoc, List.cons_append, List.append_cancel_left_eq] at htext
      rw [htext]
      exact elementBehind?_whole hname hend hopen hbody after

theorem elementBehind?_eq_none_iff : elementBehind? tag rest = none ↔ IsUnfinished tag rest := by
  rw [elementBehind?]
  constructor
  · intro hnone
    cases hend : Text.cut? ['>'] rest with
    | none => exact .inl (cut?_end_eq_none_iff.mp hend)
    | some cut =>
      obtain ⟨head, content⟩ := cut
      obtain ⟨htext, hhead⟩ := cut?_end_eq_some_iff.mp hend
      cases hself : selfClosing? head with
      | some attributes => simp [hend, hself] at hnone
      | none =>
        simp only [hend, hself, Option.map_eq_none_iff] at hnone
        exact .inr ⟨head, content, htext, hhead, selfClosing?_eq_none_iff.mp hself,
          Text.cut?_eq_none_iff.mp hnone⟩
  · rintro (hend | ⟨head, content, htext, hhead, hopen, hclose⟩)
    · rw [cut?_end_eq_none_iff.mpr hend]
    · rw [cut?_end_eq_some_iff.mpr ⟨htext, hhead⟩]
      simp only [selfClosing?_eq_none_iff.mpr hopen, Text.cut?_eq_none_iff.mpr hclose, Option.map_none]

theorem Holds.exists_eq_opening_append (hholds : Holds tag text element) :
    ∃ rest, text = opening tag ++ rest ∧ rest ≠ [] := by
  cases hholds with
  | empty hend => exact ⟨_, rfl, by simp⟩
  | whole hend hopen hbody => exact ⟨_, rfl, by simp⟩

theorem Holds.notMem_attributes (hholds : Holds tag text element) : '>' ∉ element.attributes := by
  cases hholds with
  | empty hend => exact hend
  | whole hend hopen hbody => exact hend

theorem Holds.not_infix_body (hholds : Holds tag text element) : ¬ closing tag <:+: element.body := by
  cases hholds with
  | empty hend => simp [closing]
  | whole hend hopen hbody => exact hbody

/-- The text of an element ends with what closes it. -/
theorem Holds.exists_ending (hholds : Holds tag text element) :
    ∃ front ending, text = front ++ ending ∧ (ending = ['/', '>'] ∨ ending = closing tag) := by
  cases hholds with
  | @empty attributes => exact ⟨opening tag ++ attributes, _, by simp, .inl rfl⟩
  | @whole attributes body => exact ⟨opening tag ++ (attributes ++ '>' :: body), _, by simp, .inr rfl⟩

theorem StopsAt.isTagAt (hstops : StopsAt tag document place) : IsTagAt tag document place := by
  obtain ⟨rest, htext, hends, -⟩ := hstops
  exact ⟨rest, htext, hends⟩

namespace Region.IsIn

/-- A region is what the element that begins there takes up. -/
theorem exists_elementBehind? (hname : '<' ∉ tag.toList) (hregion : region.IsIn tag document) :
    ∃ rest after, document.drop region.start = opening tag ++ rest ∧
      elementBehind? tag rest = some (region.element, after) ∧
      region.stop + after.length = region.start + (document.drop region.start).length := by
  obtain ⟨text, after, htext, hstop, hholds⟩ := hregion.holds
  obtain ⟨rest, rfl, -⟩ := hholds.exists_eq_opening_append
  refine ⟨rest ++ after, after, by simpa using htext, ?_, ?_⟩
  · exact (elementBehind?_eq_some_iff hname).mpr ⟨_, by simp, hholds⟩
  · rw [hstop, htext]
    simp only [List.length_append]
    omega

theorem start_add_length_lt_stop (hregion : region.IsIn tag document) :
    region.start + (opening tag).length < region.stop := by
  obtain ⟨text, after, -, hstop, hholds⟩ := hregion.holds
  obtain ⟨rest, rfl, hrest⟩ := hholds.exists_eq_opening_append
  have hpos := List.length_pos_iff.mpr hrest
  rw [hstop, List.length_append]
  omega

theorem start_lt_stop (hregion : region.IsIn tag document) : region.start < region.stop :=
  (Nat.le_add_right ..).trans_lt hregion.start_add_length_lt_stop

theorem stop_le_length (hregion : region.IsIn tag document) : region.stop ≤ document.length := by
  obtain ⟨text, after, htext, hstop, -⟩ := hregion.holds
  have hlt := hregion.start_lt_stop
  have hlength := congrArg List.length htext
  rw [List.length_drop, List.length_append] at hlength
  omega

/-- At most one region begins at a place. -/
theorem eq_of_start_eq {other : Region} (hname : '<' ∉ tag.toList) (hregion : region.IsIn tag document)
    (hother : other.IsIn tag document) (hstart : region.start = other.start) : region = other := by
  obtain ⟨rest, after, htext, hbehind, hstop⟩ := hregion.exists_elementBehind? hname
  obtain ⟨rest', after', htext', hbehind', hstop'⟩ := hother.exists_elementBehind? hname
  rw [hstart, htext', List.append_cancel_left_eq] at htext
  rw [← htext, hbehind'] at hbehind
  obtain ⟨helement, hafter⟩ := Prod.mk.inj (Option.some.inj hbehind)
  rw [hstart, ← hafter] at hstop
  obtain ⟨start, stop, element⟩ := region
  obtain ⟨start', stop', element'⟩ := other
  simp only [Region.mk.injEq]
  exact ⟨hstart, by simp only at hstop hstop'; omega, helement.symm⟩

theorem not_stopsAt (hname : '<' ∉ tag.toList) (hregion : region.IsIn tag document) :
    ¬ StopsAt tag document region.start := by
  rintro ⟨rest', htext', -, hunfinished⟩
  obtain ⟨rest, after, htext, hbehind, -⟩ := hregion.exists_elementBehind? hname
  rw [htext, List.append_cancel_left_eq] at htext'
  rw [← htext', ← elementBehind?_eq_none_iff, hbehind] at hunfinished
  cases hunfinished

end Region.IsIn

/-- A region holds a tag that begins in it as a whole, with the character that ends its name, unless the name
could end a tag that closes itself. -/
theorem Region.IsIn.add_length_lt_stop (hname : '<' ∉ tag.toList) (hself : ¬ ['/', '>'] <:+: tag.toList)
    (hregion : region.IsIn tag document) (htag : IsTagAt tag document place) (hstop : place < region.stop) :
    place + (opening tag).length < region.stop := by
  obtain ⟨text, after, htext, hlength, hholds⟩ := hregion.holds
  obtain ⟨front, ending, rfl, hending⟩ := hholds.exists_ending
  rw [List.append_assoc] at htext
  rw [List.length_append] at hlength
  have hdrop : document.drop (region.start + front.length) = ending ++ after := by
    rw [← List.drop_drop, htext, List.drop_left]
  by_cases hfront : place < region.start + front.length
  · -- A tag that begins in front of the ending and goes beyond it would have the ending in its name.
    by_contra hbeyond
    obtain ⟨rest, hrest, -⟩ := htag
    have hoccurs : ending <:+: tag.toList := infix_of_opening hrest hdrop hfront (by omega)
    obtain rfl | rfl := hending
    · exact hself hoccurs
    · exact hname (hoccurs.subset List.mem_cons_self)
  · obtain rfl | rfl := hending
    · exact absurd htag (not_isTagAt_of_notMem (by simp) hdrop (by omega) (by omega))
    · have htail : '<' ∉ '/' :: tag.toList ++ ['>'] := by simp [hname]
      have hdrop' : document.drop (region.start + front.length + 1) =
          ('/' :: tag.toList ++ ['>']) ++ after := by
        rw [← List.drop_drop, hdrop]
        rfl
      rw [length_closing] at hlength
      by_cases hbehind : region.start + front.length + 1 ≤ place
      · refine absurd htag (not_isTagAt_of_notMem htail hdrop' hbehind ?_)
        simp only [List.length_append, List.length_cons, List.length_nil]
        omega
      · rw [length_opening]
        omega

namespace Reads

/-- Without any more tags there is no more region. -/
theorem nil (hnone : ∀ place, cursor ≤ place → ¬ IsTagAt tag document place) :
    Reads tag document cursor [] none where
  isIn := by simp
  ahead := by simp
  ordered := .nil
  complete place hplace htag := absurd htag (hnone place hplace)
  stops := by simp

theorem stop (hstops : StopsAt tag document cursor) : Reads tag document cursor [] (some cursor) where
  isIn := by simp
  ahead := by simp
  ordered := .nil
  complete place hplace _ := .inr ⟨cursor, rfl, hplace⟩
  stops := by
    rintro _ ⟨⟩
    exact ⟨hstops, le_rfl, by simp⟩

/-- A region at the cursor is followed by those that are read from its end on. -/
theorem cons (hregion : region.IsIn tag document) (hreads : Reads tag document region.stop regions last) :
    Reads tag document region.start (region :: regions) last where
  isIn := List.forall_mem_cons.mpr ⟨hregion, hreads.isIn⟩
  ahead := List.forall_mem_cons.mpr
    ⟨le_rfl, fun other hother => hregion.start_lt_stop.le.trans (hreads.ahead other hother)⟩
  ordered := .cons hreads.ahead hreads.ordered
  complete place hplace htag := by
    by_cases hinside : place < region.stop
    · exact .inl ⟨region, List.mem_cons_self, hplace, hinside⟩
    · obtain ⟨other, hother, hin⟩ | hstop := hreads.complete place (Nat.le_of_not_lt hinside) htag
      · exact .inl ⟨other, List.mem_cons_of_mem _ hother, hin⟩
      · exact .inr hstop
  stops stop hstop := by
    obtain ⟨hstops, hahead, hbefore⟩ := hreads.stops stop hstop
    exact ⟨hstops, hregion.start_lt_stop.le.trans hahead, List.forall_mem_cons.mpr ⟨hahead, hbefore⟩⟩

/-- Looking can begin earlier if no tag stands there. -/
theorem of_le (hreads : Reads tag document later regions last) (hle : cursor ≤ later)
    (hnone : ∀ place, cursor ≤ place → place < later → ¬ IsTagAt tag document place) :
    Reads tag document cursor regions last where
  isIn := hreads.isIn
  ahead region hregion := hle.trans (hreads.ahead region hregion)
  ordered := hreads.ordered
  complete place hplace htag := by
    by_cases hlater : later ≤ place
    · exact hreads.complete place hlater htag
    · exact absurd htag (hnone place hplace (Nat.lt_of_not_le hlater))
  stops stop hstop := by
    obtain ⟨hstops, hahead, hbefore⟩ := hreads.stops stop hstop
    exact ⟨hstops, hle.trans hahead, hbefore⟩

/-- The regions behind the first one are read from its end on. -/
theorem tail (hreads : Reads tag document cursor (region :: regions) last) :
    Reads tag document region.stop regions last where
  isIn := fun other hother => hreads.isIn other (List.mem_cons_of_mem _ hother)
  ahead := (List.pairwise_cons.mp hreads.ordered).1
  ordered := hreads.ordered.of_cons
  complete place hplace htag := by
    have hlt := (hreads.isIn region List.mem_cons_self).start_lt_stop
    have hcursor := hreads.ahead region List.mem_cons_self
    obtain ⟨other, hother, hstart, hstop⟩ | hstop := hreads.complete place (by omega) htag
    · obtain rfl | hother := List.mem_cons.mp hother
      · omega
      · exact .inl ⟨other, hother, hstart, hstop⟩
    · exact .inr hstop
  stops stop hstop := by
    obtain ⟨hstops, -, hbefore⟩ := hreads.stops stop hstop
    obtain ⟨hregion, hregions⟩ := List.forall_mem_cons.mp hbefore
    exact ⟨hstops, hregion, hregions⟩

/-- The first region begins with the first tag. -/
theorem start_le (hreads : Reads tag document cursor (region :: regions) last) (hplace : cursor ≤ place)
    (htag : IsTagAt tag document place) : region.start ≤ place := by
  have hlt := (hreads.isIn region List.mem_cons_self).start_lt_stop
  obtain ⟨other, hother, hstart, -⟩ | ⟨stop, hstop, hle⟩ := hreads.complete place hplace htag
  · obtain rfl | hother := List.mem_cons.mp hother
    · exact hstart
    · have hbehind := (List.pairwise_cons.mp hreads.ordered).1 other hother
      omega
  · have hbehind := (hreads.stops stop hstop).2.2 region List.mem_cons_self
    omega

/-- Looking does not both end at once and find something. -/
theorem not_nil (hname : '<' ∉ tag.toList) (hreads : Reads tag document cursor (region :: regions) last) :
    ¬ Reads tag document cursor [] last' := by
  intro hnone
  have hregion := hreads.isIn region List.mem_cons_self
  have hcursor := hreads.ahead region List.mem_cons_self
  obtain ⟨_, hnil, -⟩ | ⟨stop, hstop, hle⟩ := hnone.complete region.start hcursor hregion.begins
  · cases hnil
  · obtain ⟨hstops, hahead, -⟩ := hnone.stops stop hstop
    have hstart := hreads.start_le hahead hstops.isTagAt
    obtain rfl : region.start = stop := Nat.le_antisymm hstart hle
    exact hregion.not_stopsAt hname hstops

/-- If nothing is found, looking ends at the first tag. -/
theorem mem_last (hreads : Reads tag document cursor [] last) (hreads' : Reads tag document cursor [] last') :
    ∀ stop ∈ last, stop ∈ last' := by
  intro stop hstop
  obtain ⟨hstops, hahead, -⟩ := hreads.stops stop hstop
  obtain ⟨_, hnil, -⟩ | ⟨earlier, hearlier, hle⟩ := hreads'.complete stop hahead hstops.isTagAt
  · cases hnil
  · obtain ⟨hstops', hahead', -⟩ := hreads'.stops earlier hearlier
    obtain ⟨_, hnil, -⟩ | ⟨first, hfirst, hle'⟩ := hreads.complete earlier hahead' hstops'.isTagAt
    · cases hnil
    · obtain rfl : first = stop := Option.mem_unique hfirst hstop
      obtain rfl : first = earlier := Nat.le_antisymm hle' hle
      exact hearlier

/-- The tags alone decide which regions are found. -/
theorem unique (hname : '<' ∉ tag.toList) (hreads : Reads tag document cursor regions last)
    (hreads' : Reads tag document cursor regions' last') : regions = regions' ∧ last = last' := by
  induction regions generalizing cursor regions' with
  | nil =>
    cases regions' with
    | nil => exact ⟨rfl, Option.ext fun stop => ⟨hreads.mem_last hreads' stop, hreads'.mem_last hreads stop⟩⟩
    | cons region' regions' => exact absurd hreads (hreads'.not_nil hname)
  | cons region regions ih =>
    cases regions' with
    | nil => exact absurd hreads' (hreads.not_nil hname)
    | cons region' regions' =>
      have hregion := hreads.isIn region List.mem_cons_self
      have hregion' := hreads'.isIn region' List.mem_cons_self
      have hstart := hreads.start_le (hreads'.ahead region' List.mem_cons_self) hregion'.begins
      have hstart' := hreads'.start_le (hreads.ahead region List.mem_cons_self) hregion.begins
      obtain rfl := hregion.eq_of_start_eq hname hregion' (Nat.le_antisymm hstart hstart')
      obtain ⟨rfl, rfl⟩ := ih hreads.tail hreads'.tail
      exact ⟨rfl, rfl⟩

end Reads

end Reconcile.Markup
