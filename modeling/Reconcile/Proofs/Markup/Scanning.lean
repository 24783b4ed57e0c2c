import Reconcile.Proofs.Markup.Regions
import Reconcile.Proofs.Text.Bytes

namespace Reconcile.Markup

variable {tag : String} {document rest before after front : List Char} {element : Element}
  {cursor place : Nat}

/-- What is found behind the first opening tag. -/
theorem elements_of_opening (hcut : Text.cut? (opening tag) document = some (before, rest)) :
    elements tag document =
      if endsName rest.head? then
        match elementBehind? tag rest with
        | none => []
        | some (element, after) => element :: elements tag after
      else elements tag rest := by
  rw [elements]
  split
  · rename_i hnone
    rw [hcut] at hnone
    cases hnone
  · rename_i hfound
    rw [hcut] at hfound
    cases hfound
    by_cases hends : endsName rest.head? = true
    · rw [if_pos hends, if_pos hends, elementBehind?]
      split
      · rename_i hend
        rw [hend]
      · rename_i head content hend
        simp only [hend]
        cases selfClosing? head with
        | some attributes => rfl
        | none =>
          dsimp only
          split
          · rename_i hclose
            rw [hclose]
            rfl
          · rename_i hclose
            rw [hclose]
            rfl
    · rw [if_neg hends, if_neg hends]

/-- A text is gone through from tag to tag. -/
theorem tag_induction (tag : String) {motive : List Char → Prop}
    (absent : ∀ s, Text.cut? (opening tag) s = none → motive s)
    (longer : ∀ s before rest, Text.cut? (opening tag) s = some (before, rest) →
      endsName rest.head? = false → motive rest → motive s)
    (unfinished : ∀ s before rest, Text.cut? (opening tag) s = some (before, rest) →
      endsName rest.head? = true → elementBehind? tag rest = none → motive s)
    (found : ∀ s before rest element after, Text.cut? (opening tag) s = some (before, rest) →
      endsName rest.head? = true → elementBehind? tag rest = some (element, after) → motive after →
        motive s)
    (s : List Char) : motive s := by
  induction s using elements.induct tag with
  | case1 s hcut => exact absent s hcut
  | case2 s before rest hcut hends hnone =>
    exact unfinished s before rest hcut hends (by simp [elementBehind?, hnone])
  | case3 s before rest hcut hends head content hend attributes hself ih =>
    exact found s before rest ⟨attributes, []⟩ content hcut hends (by simp [elementBehind?, hend, hself]) ih
  | case4 s before rest hcut hends head content hend hself hclose =>
    exact unfinished s before rest hcut hends (by simp [elementBehind?, hend, hself, hclose])
  | case5 s before rest hcut hends head content hend hself body after hclose ih =>
    exact found s before rest ⟨head, body⟩ after hcut hends
      (by simp [elementBehind?, hend, hself, hclose]) ih
  | case6 s before rest hcut hends ih =>
    exact longer s before rest hcut (by simpa using hends) ih

/-- No occurrence ahead means no tag ahead. -/
theorem not_isTagAt_of_cut?_eq_none (hcut : Text.cut? (opening tag) (document.drop cursor) = none)
    (hplace : cursor ≤ place) : ¬ IsTagAt tag document place := by
  rintro ⟨rest, hrest, -⟩
  have hsuffix : document.drop place <:+ document.drop cursor := by
    rw [← Nat.add_sub_cancel' hplace, ← List.drop_drop]
    exact List.drop_suffix ..
  rw [hrest] at hsuffix
  exact Text.cut?_eq_none_iff.mp hcut ((List.prefix_append ..).isInfix.trans hsuffix.isInfix)

/-- Up to the first occurrence there is no tag. -/
theorem not_isTagAt_of_cut? (hcut : Text.cut? (opening tag) (document.drop cursor) = some (before, rest))
    (hplace : cursor ≤ place) (hearlier : place < cursor + before.length) :
    ¬ IsTagAt tag document place := by
  rintro ⟨rest', hrest, -⟩
  have hdrop := List.drop_drop (i := place - cursor) (j := cursor) (l := document)
  rw [Nat.add_sub_cancel' hplace, hrest] at hdrop
  exact Text.not_prefix_drop_of_cut? hcut (by omega) ⟨rest', hdrop.symm⟩

theorem drop_of_cut? (hcut : Text.cut? (opening tag) (document.drop cursor) = some (before, rest)) :
    document.drop (cursor + before.length) = opening tag ++ rest := by
  rw [← List.drop_drop, Text.eq_append_of_cut? hcut, List.drop_left]

/-- Up to the end of a longer name there is no tag. -/
theorem not_isTagAt_of_longer_name (hname : '<' ∉ tag.toList)
    (hcut : Text.cut? (opening tag) (document.drop cursor) = some (before, rest))
    (hlonger : endsName rest.head? = false) (hplace : cursor ≤ place)
    (hearlier : place < cursor + before.length + (opening tag).length) : ¬ IsTagAt tag document place := by
  have hdrop := drop_of_cut? hcut
  rcases Nat.lt_trichotomy place (cursor + before.length) with hbefore | rfl | hbehind
  · exact not_isTagAt_of_cut? hcut hplace hbefore
  · rw [isTagAt_iff hdrop, hlonger]
    exact Bool.false_ne_true
  · have hinside : document.drop (cursor + before.length + 1) = tag.toList ++ rest := by
      rw [← List.drop_drop, hdrop]
      rfl
    rw [length_opening] at hearlier
    exact not_isTagAt_of_notMem hname hinside hbehind (by omega)

/-- The elements of a document are those of its regions. -/
theorem exists_reads (hname : '<' ∉ tag.toList) (document : List Char) (cursor : Nat) :
    ∃ regions last, Reads tag document cursor regions last ∧
      elements tag (document.drop cursor) = regions.map (·.element) := by
  generalize hahead : document.drop cursor = ahead
  induction ahead using tag_induction tag generalizing cursor with
  | absent ahead hcut =>
    subst hahead
    exact ⟨[], none, .nil fun _ => not_isTagAt_of_cut?_eq_none hcut,
      elements_of_not_infix (Text.cut?_eq_none_iff.mp hcut)⟩
  | longer ahead before rest hcut hlonger ih =>
    subst hahead
    have hrest : document.drop (cursor + before.length + (opening tag).length) = rest := by
      rw [← List.drop_drop, drop_of_cut? hcut, List.drop_left]
    obtain ⟨regions, last, hreads, helements⟩ := ih _ hrest
    refine ⟨regions, last, hreads.of_le (by omega) fun _ => ?_, ?_⟩
    · exact not_isTagAt_of_longer_name hname hcut hlonger
    · rw [elements_of_opening hcut, hlonger, if_neg Bool.false_ne_true, helements]
  | unfinished ahead before rest hcut hends hnone =>
    subst hahead
    have hstops : StopsAt tag document (cursor + before.length) :=
      ⟨rest, drop_of_cut? hcut, hends, elementBehind?_eq_none_iff.mp hnone⟩
    refine ⟨[], some _, (Reads.stop hstops).of_le (Nat.le_add_right ..) fun _ => not_isTagAt_of_cut? hcut, ?_⟩
    rw [elements_of_opening hcut, if_pos hends, hnone]
    rfl
  | found ahead before rest element after hcut hends hbehind ih =>
    subst hahead
    have hdrop := drop_of_cut? hcut
    obtain ⟨text, htext, hholds⟩ := (elementBehind?_eq_some_iff hname).mp hbehind
    let region : Region := ⟨cursor + before.length, cursor + before.length + text.length, element⟩
    have hregion : region.IsIn tag document :=
      ⟨⟨rest, hdrop, hends⟩, text, after, hdrop.trans htext, rfl, hholds⟩
    have hafter : document.drop region.stop = after := by
      rw [← List.drop_drop, hdrop, htext, List.drop_left]
    obtain ⟨regions, last, hreads, helements⟩ := ih _ hafter
    refine ⟨region :: regions, last,
      (Reads.cons hregion hreads).of_le (Nat.le_add_right ..) fun _ => not_isTagAt_of_cut? hcut, ?_⟩
    rw [elements_of_opening hcut, if_pos hends, hbehind]
    exact congrArg (element :: ·) helements

/-- The element of a tag whose name ends at a byte, with the byte behind the element, if the tag is
finished. The scan itself has no answer if it would cut the document inside a character or behind its end. -/
def readAt? (tag document : String) (place : Nat) : Option (Option (Element × Nat)) := do
  let behind ← Text.fromByte? document place
  match Text.findByte? ['>'] behind with
  | none => return none
  | some length =>
    let head ← Text.uptoByte? behind length
    let content := place + length + 1
    match selfClosing? head.toList with
    | some attributes => return some (⟨attributes, []⟩, content)
    | none =>
      let inside ← Text.fromByte? document content
      match Text.findByte? (closing tag) inside with
      | none => return none
      | some length =>
        let body ← Text.between? document content (content + length)
        return some (⟨head.toList, body.toList⟩, content + length + Text.bytes (closing tag))

/-- The elements found from a byte on, behind those that were found before. There is no answer if the scan has
not ended after so many rounds, or would cut the document where it cannot be cut. -/
def scan? (tag document : String) :
    (rounds cursor : Nat) → (found : List Element) → Option (List Element)
  | 0, _, _ => none
  | rounds + 1, cursor, found => do
    let ahead ← Text.fromByte? document cursor
    match Text.findByte? (opening tag) ahead with
    | none => return found
    | some distance =>
      let place := cursor + distance + Text.bytes (opening tag)
      let behind ← Text.fromByte? document place
      if endsName behind.toList.head? then
        match ← readAt? tag document place with
        | none => return found
        | some (element, next) => scan? tag document rounds next (found ++ [element])
      else scan? tag document rounds place found

variable {text : String} {head content : List Char} {found : List Element}

/-- What is passed when an occurrence is found behind what was passed before. -/
theorem eq_passed_append {whole pattern : List Char} (hwhole : whole = front ++ rest)
    (hcut : Text.cut? pattern rest = some (before, after)) :
    whole = (front ++ before ++ pattern) ++ after := by
  simp [hwhole, Text.eq_append_of_cut? hcut]

/-- Each byte that is reached is the number of bytes in front of the border of a character. -/
theorem readAt?_of_cut? (htext : text.toList = front ++ rest)
    (hend : Text.cut? ['>'] rest = some (head, content)) :
    readAt? tag text (Text.bytes front) = some (match selfClosing? head with
      | some attributes => some (⟨attributes, []⟩, Text.bytes (front ++ head ++ ['>']))
      | none => (Text.cut? (closing tag) content).map fun (body, _) =>
        (⟨head, body⟩, Text.bytes (front ++ head ++ ['>'] ++ body ++ closing tag))) := by
  have hcontent := eq_passed_append htext hend
  have hone : Text.bytes ['>'] = 1 := rfl
  have hbyte : Text.bytes front + Text.bytes head + 1 = Text.bytes (front ++ head ++ ['>']) := by
    rw [Text.bytes_append, Text.bytes_append, hone]
  have hhead : Text.uptoByte? (String.ofList rest) (Text.bytes head) = some (String.ofList head) :=
    Text.uptoByte?_bytes (by rw [String.toList_ofList, Text.eq_append_of_cut? hend])
  simp only [readAt?, Text.fromByte?_bytes htext, Option.bind_eq_bind, Option.bind_some,
    Text.findByte?_ofList, hend, Option.map_some, hhead, String.toList_ofList, hbyte]
  cases selfClosing? head with
  | some attributes => rfl
  | none =>
    simp only [Text.fromByte?_bytes hcontent, Option.bind_some, Text.findByte?_ofList]
    cases hclose : Text.cut? (closing tag) content with
    | none => rfl
    | some pieces =>
      obtain ⟨body, after⟩ := pieces
      rw [Text.eq_append_of_cut? hclose] at hcontent
      simp only [Option.map_some, Text.between?_bytes hcontent, Option.bind_some, String.toList_ofList,
        Text.bytes_append _ body, Text.bytes_append _ (closing tag)]
      rfl

/-- At a tag that is not finished the scan reads nothing, and says so. -/
theorem readAt?_of_eq_none (htext : text.toList = front ++ rest) (hbehind : elementBehind? tag rest = none) :
    readAt? tag text (Text.bytes front) = some none := by
  rw [elementBehind?] at hbehind
  cases hend : Text.cut? ['>'] rest with
  | none =>
    simp [readAt?, Text.fromByte?_bytes htext, Text.findByte?_ofList, hend]
  | some cut =>
    obtain ⟨head, content⟩ := cut
    rw [readAt?_of_cut? htext hend]
    cases hself : selfClosing? head with
    | some attributes => simp [hend, hself] at hbehind
    | none =>
      simp only [hend, hself, Option.map_eq_none_iff] at hbehind
      rw [hbehind]
      rfl

theorem length_lt_of_elementBehind? (hbehind : elementBehind? tag rest = some (element, after)) :
    after.length < rest.length := by
  obtain ⟨head, _, hend, -⟩ | ⟨head, content, body, hend, -, hclose, -⟩ :=
    cases_of_elementBehind? hbehind
  · exact Text.length_rest_lt_of_cut? (List.cons_ne_nil _ _) hend
  · have hcontent := Text.length_rest_lt_of_cut? (List.cons_ne_nil _ _) hend
    have hafter := Text.length_rest_lt_of_cut? (List.cons_ne_nil _ _) hclose
    exact hafter.trans hcontent

/-- A scan reads the element that is there, and goes on at the byte behind it. -/
theorem exists_readAt? (htext : text.toList = front ++ rest)
    (hbehind : elementBehind? tag rest = some (element, after)) :
    ∃ passed, text.toList = passed ++ after ∧
      readAt? tag text (Text.bytes front) = some (some (element, Text.bytes passed)) := by
  obtain ⟨head, attributes, hend, hself, rfl⟩ | ⟨head, content, body, hend, hself, hclose, rfl⟩ :=
    cases_of_elementBehind? hbehind
  · refine ⟨_, eq_passed_append htext hend, ?_⟩
    rw [readAt?_of_cut? htext hend, hself]
  · refine ⟨_, eq_passed_append (eq_passed_append htext hend) hclose, ?_⟩
    rw [readAt?_of_cut? htext hend, hself]
    simp only [hclose, Option.map_some]

/-- A round of the scan goes to the next occurrence and reads what is there. -/
theorem scan?_of_cut? (htext : text.toList = front ++ rest)
    (hcut : Text.cut? (opening tag) rest = some (before, after)) (rounds : Nat) :
    let place := Text.bytes (front ++ before ++ opening tag)
    scan? tag text (rounds + 1) (Text.bytes front) found =
      if endsName after.head? then
        (readAt? tag text place).bind fun
          | none => some found
          | some (element, next) => scan? tag text rounds next (found ++ [element])
      else scan? tag text rounds place found := by
  have hafter := eq_passed_append htext hcut
  intro place
  rw [scan?]
  simp only [Text.fromByte?_bytes htext, Option.bind_eq_bind, Option.bind_some, Text.findByte?_ofList,
    String.toList_ofList, hcut, Option.map_some, ← Text.bytes_append, Text.fromByte?_bytes hafter]
  rfl

/-- A scan goes on from the border of a character, and finds the elements of the text from there on. It takes
at most one round for each character, and a last one. -/
theorem scan?_bytes {rounds : Nat} (htext : text.toList = front ++ rest) (hrounds : rest.length < rounds)
    (found : List Element) :
    scan? tag text rounds (Text.bytes front) found = some (found ++ elements tag rest) := by
  induction rounds generalizing front rest found with
  | zero => exact absurd hrounds (Nat.not_lt_zero _)
  | succ rounds ih =>
    cases hcut : Text.cut? (opening tag) rest with
    | none =>
      rw [scan?, elements_of_not_infix (Text.cut?_eq_none_iff.mp hcut)]
      simp [Text.fromByte?_bytes htext, Text.findByte?_ofList, hcut]
    | some pieces =>
      obtain ⟨before, behind⟩ := pieces
      have hbehind := eq_passed_append htext hcut
      have hshorter := Text.length_rest_lt_of_cut? (List.cons_ne_nil _ _) hcut
      rw [scan?_of_cut? htext hcut, elements_of_opening hcut]
      by_cases hends : endsName behind.head? = true
      · rw [if_pos hends, if_pos hends]
        cases hread : elementBehind? tag behind with
        | none => rw [readAt?_of_eq_none hbehind hread, Option.bind_some, List.append_nil]
        | some read =>
          obtain ⟨element, after⟩ := read
          obtain ⟨passed, hpassed, hnext⟩ := exists_readAt? hbehind hread
          have hafter := length_lt_of_elementBehind? hread
          rw [hnext, Option.bind_some]
          dsimp only
          rw [ih hpassed (by omega), List.append_assoc, List.singleton_append]
      · rw [if_neg hends, if_neg hends, ih hbehind (by omega)]

/-- A scan ends after at most one round for each character and a last one, cuts the document between
characters only, and finds the elements of the document. They are what the regions of the document are read
as, and the tags decide which regions these are. A region holds each tag that begins in it as a whole, with the character
that ends the name, unless a tag that closes itself can end inside the name. Where a longer name stands, no
region begins and no scan ends. -/
theorem scan?_finds_regions (hname : '<' ∉ tag.toList) (document : String) :
    (∀ rounds, document.toList.length < rounds →
      scan? tag document rounds 0 [] = some (elements tag document.toList)) ∧
      ∃ regions last, Reads tag document.toList 0 regions last ∧
        elements tag document.toList = regions.map (·.element) ∧
        (∀ regions' last', Reads tag document.toList 0 regions' last' →
          regions' = regions ∧ last' = last) ∧
        (∀ region ∈ regions, region.start + (opening tag).length < region.stop ∧
          region.stop ≤ document.toList.length ∧ '>' ∉ region.element.attributes ∧
          ¬ closing tag <:+: region.element.body) ∧
        (¬ ['/', '>'] <:+: tag.toList → ∀ region ∈ regions, ∀ place, IsTagAt tag document.toList place →
          place < region.stop → place + (opening tag).length < region.stop) ∧
        ∀ place rest, document.toList.drop place = opening tag ++ rest → endsName rest.head? = false →
          (∀ region ∈ regions, region.start ≠ place) ∧ last ≠ some place := by
  obtain ⟨regions, last, hreads, helements⟩ := exists_reads hname document.toList 0
  have hstart : document.toList = [] ++ document.toList := rfl
  refine ⟨fun rounds hrounds => scan?_bytes hstart hrounds [], regions, last, hreads, helements, ?_, ?_,
    ?_, ?_⟩
  · intro regions' last' hreads'
    exact hreads'.unique hname hreads
  · intro region hregion
    have hin := hreads.isIn region hregion
    obtain ⟨_, _, -, -, hholds⟩ := hin.holds
    exact ⟨hin.start_add_length_lt_stop, hin.stop_le_length, hholds.notMem_attributes,
      hholds.not_infix_body⟩
  · intro hself region hregion place htag hstop
    exact (hreads.isIn region hregion).add_length_lt_stop hname hself htag hstop
  · intro place rest hdrop hlonger
    have hnone : ¬ IsTagAt tag document.toList place := by
      rw [isTagAt_iff hdrop, hlonger]
      exact Bool.false_ne_true
    refine ⟨fun region hregion hstart => ?_, fun hlast => ?_⟩
    · exact hnone (hstart ▸ (hreads.isIn region hregion).begins)
    · exact hnone (hreads.stops place hlast).1.isTagAt

/-- Behind a longer name, a tag that closes itself, an element around another one, and a tag that is not
closed. -/
theorem scan?_finds_regions_mixed :
    '<' ∉ "p".toList ∧
      scan? "p" "é<px/><p a/><p>ü<p/></p><p>" 28 0 [] = some [⟨[' ', 'a'], []⟩, ⟨[], "ü<p/>".toList⟩] ∧
      ∃ regions last, Reads "p" "é<px/><p a/><p>ü<p/></p><p>".toList 0 regions last ∧
        regions.map (·.element) = [⟨[' ', 'a'], []⟩, ⟨[], "ü<p/>".toList⟩] := by
  have hname : '<' ∉ "p".toList := by decide
  have helements : elements "p" "é<px/><p a/><p>ü<p/></p><p>".toList =
      [⟨[' ', 'a'], []⟩, ⟨[], "ü<p/>".toList⟩] := by decide +kernel
  obtain ⟨hscan, regions, last, hreads, hregions, -⟩ :=
    scan?_finds_regions hname "é<px/><p a/><p>ü<p/></p><p>"
  rw [helements] at hscan hregions
  exact ⟨hname, hscan 28 (by decide), regions, last, hreads, hregions.symm⟩

end Reconcile.Markup
