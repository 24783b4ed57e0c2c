import Reconcile.Proofs.Markup.Attributes

namespace Reconcile.Markup

variable {text before after : List Char} {c quote : Char} {name : String} {entry next : Attribute}
  {later : List Attribute}

/-- Whether a quote behind a text is taken for the start of the value: one of the occurrences of the name,
each searched for behind the one before, has an equals sign behind it and a blank in front of it, if
anything is left there. -/
def assigns (name text : List Char) : Bool :=
  if _ : name = [] then false
  else
    match _ : Text.cut? name text with
    | none => false
    | some (before, after) =>
      (Text.trim after == ['='] && before.getLast?.all Text.isAsciiBlank) || assigns name after
termination_by text.length
decreasing_by exact Text.length_rest_lt_of_cut? (by assumption) (by assumption)

theorem assigns_of_cut?_eq_none {name : List Char} (hcut : Text.cut? name text = none) :
    assigns name text = false := by
  rw [assigns]
  split
  · rfl
  · split
    · rfl
    · rename_i hfound
      rw [hcut] at hfound
      cases hfound

/-- A text assigns a name where an occurrence is an attribute up to its quote, or where the text
    behind does. -/
theorem assigns_of_cut? {name : List Char} (hname : name ≠ [])
    (hcut : Text.cut? name text = some (before, after)) : assigns name text =
      ((Text.trim after == ['='] && before.getLast?.all Text.isAsciiBlank) || assigns name after) := by
  rw [assigns, dif_neg hname]
  split
  · rename_i hnone
    rw [hcut] at hnone
    cases hnone
  · rename_i hfound
    rw [hcut] at hfound
    cases hfound
    rfl

/-- What the search for a name reads in written attributes. Behind a value that assigns, this is the text
between its closing quote and the next opening one. -/
def readBack? (name : String) : List Attribute → Option String
  | [] => none
  | entry :: later =>
    if assigns name.toList (' ' :: (entry.name.toList ++ ['='])) then some entry.value
    else if assigns name.toList ('"' :: escape entry.value.toList) then
      later.head?.map fun next => String.ofList (unescape (' ' :: (next.name.toList ++ ['='])))
    else readBack? name later

theorem isBlank_quote (hquote : quote = '"' ∨ quote = '\'') : Text.isBlank quote = false := by
  rcases hquote with rfl | rfl <;> rfl

theorem quote_ne_equals (hquote : quote = '"' ∨ quote = '\'') : quote ≠ '=' := by
  rcases hquote with rfl | rfl <;> decide

/-- An occurrence with an equals sign behind it, in front of a quote. -/
theorem judge_of_equals (hquote : quote = '"' ∨ quote = '\'') (hbetween : Text.trim text = ['='])
    (before rest : List Char) : judge before (text ++ quote :: rest) =
      if before.getLast?.all Text.isAsciiBlank then
        match Text.cut? [quote] rest with
        | some (raw, _) => .value raw
        | none => .unfinished
      else .other := by
  obtain ⟨front, back, rfl, hfront, hback⟩ := Text.exists_of_trim_eq_singleton hbetween
  have hequals : Text.trimStart Text.isBlank (front ++ '=' :: back ++ quote :: rest) =
      '=' :: (back ++ quote :: rest) := by
    rw [List.append_assoc, Text.trimStart_append hfront, List.cons_append, Text.trimStart_cons rfl]
  have hbehind : Text.trimStart Text.isBlank (back ++ quote :: rest) = quote :: rest := by
    rw [Text.trimStart_append hback, Text.trimStart_cons (isBlank_quote hquote)]
  rw [judge, hequals]
  refine if_congr Iff.rfl ?_ rfl
  rw [hbehind]
  exact if_pos hquote

theorem mem_tail_append {name : List Char} (hname : name ≠ []) (hmem : c ∈ after) :
    c ∈ (before ++ (name ++ after)).tail := by
  cases before with
  | nil =>
    obtain ⟨first, rest, rfl⟩ := List.exists_cons_of_ne_nil hname
    simp [hmem]
  | cons => simp [hmem]

/-- One text between two quotes: either the next quote begins the value, or the search comes to that
quote. -/
theorem rawAttribute?_append_quote {name : List Char} (hname : name ≠ []) (hapart : quote ∉ name)
    (hquote : quote = '"' ∨ quote = '\'') (htext : '"' ∉ text.tail ∧ '\'' ∉ text.tail)
    (rest : List Char) : rawAttribute? name (text ++ quote :: rest) =
      if assigns name text then (Text.cut? [quote] rest).map (·.1)
      else rawAttribute? name (quote :: rest) := by
  induction hlength : text.length using Nat.strongRecOn generalizing text with
  | ind length ih =>
    cases hcut : Text.cut? name text with
    | none =>
      have habsent : ¬ name <:+: text := Text.cut?_eq_none_iff.mp hcut
      rw [assigns_of_cut?_eq_none hcut, if_neg Bool.false_ne_true]
      exact rawAttribute?_append_cons hname habsent hapart rest
    | some pieces =>
      obtain ⟨before, after⟩ := pieces
      have hafter : '"' ∉ after ∧ '\'' ∉ after := by
        rw [Text.eq_append_of_cut? hcut] at htext
        exact ⟨fun hmem => htext.1 (mem_tail_append hname hmem),
          fun hmem => htext.2 (mem_tail_append hname hmem)⟩
      have hbehind : '"' ∉ after.tail ∧ '\'' ∉ after.tail :=
        ⟨fun hmem => hafter.1 (List.mem_of_mem_tail hmem),
          fun hmem => hafter.2 (List.mem_of_mem_tail hmem)⟩
      have hshorter := Text.length_rest_lt_of_cut? hname hcut
      have hgoesOn := ih after.length (hlength ▸ hshorter) hbehind rfl
      have hcut' := Text.cut?_append_of_eq_some hcut (quote :: rest)
      rw [rawAttribute?_of_cut? hname hcut', assigns_of_cut? hname hcut]
      by_cases hbetween : Text.trim after = ['=']
      · rw [judge_of_equals hquote hbetween, hbetween]
        cases hblank : before.getLast?.all Text.isAsciiBlank with
        | true => cases Text.cut? [quote] rest <;> rfl
        | false => simpa using hgoesOn
      · rw [judge_eq_other (isBlank_quote hquote) (quote_ne_equals hquote) hafter hbetween]
        simpa [hbetween] using hgoesOn

/-- A text and a value in quotes behind it: the text assigns the value, or the value assigns what follows it,
or the search goes past both. -/
theorem rawAttribute?_quoted {name value : List Char} (hname : name ≠ []) (hapart : quote ∉ name)
    (hquote : quote = '"' ∨ quote = '\'') (htext : '"' ∉ text.tail ∧ '\'' ∉ text.tail)
    (hvalue : '"' ∉ value ∧ '\'' ∉ value) (rest : List Char) :
    rawAttribute? name (text ++ quote :: (value ++ quote :: rest)) =
      if assigns name text then some value
      else if assigns name (quote :: value) then (Text.cut? [quote] rest).map (·.1)
      else rawAttribute? name (quote :: rest) := by
  have hcut : Text.cut? [quote] (value ++ quote :: rest) = some (value, rest) := by
    have habsent : quote ∉ value := by
      rcases hquote with rfl | rfl
      · exact hvalue.1
      · exact hvalue.2
    exact Text.cut?_append_pattern (Text.not_infix_of_notMem habsent) List.not_mem_nil rest
  have hbehind : '"' ∉ (quote :: value).tail ∧ '\'' ∉ (quote :: value).tail := hvalue
  rw [rawAttribute?_append_quote hname hapart hquote htext, hcut, Option.map_some, ← List.cons_append,
    rawAttribute?_append_quote hname hapart hquote hbehind]

/-- A quote changes nothing for the search if the text behind it does not begin with the name. -/
theorem rawAttribute?_cons_quote {name : List Char} (hname : name ≠ []) (hapart : quote ∉ name)
    (hnext : ∀ c ∈ text.head?, c ∉ name) :
    rawAttribute? name (quote :: text) = rawAttribute? name text := by
  have habsent : ¬ name <:+: [quote] := by
    intro hoccurs
    obtain ⟨first, hfirst⟩ := List.exists_mem_of_ne_nil name hname
    exact hapart (List.mem_singleton.mp (hoccurs.subset hfirst) ▸ hfirst)
  cases text with
  | nil =>
    have hnil : ¬ name <:+: [] := by rwa [List.infix_nil]
    rw [rawAttribute?_of_cut?_eq_none (Text.cut?_eq_none_iff.mpr habsent),
      rawAttribute?_of_cut?_eq_none (Text.cut?_eq_none_iff.mpr hnil)]
  | cons c text => exact rawAttribute?_append_cons hname habsent (hnext c rfl) text

/-- A text assigns with its last occurrence: only that one can have an equals sign behind it. What stands
in front of it is either a blank or the occurrence before. -/
theorem exists_of_assigns {name : List Char} (hassigns : assigns name text = true) :
    ∃ front after, text = front ++ (name ++ after) ∧ Text.trim after = ['='] ∧
      (front = [] ∨ name <:+ front ∨ ∃ c ∈ front.getLast?, Text.isAsciiBlank c = true) := by
  have hname : name ≠ [] := by
    rintro rfl
    rw [assigns, dif_pos rfl] at hassigns
    cases hassigns
  induction hlength : text.length using Nat.strongRecOn generalizing text with
  | ind length ih =>
    cases hcut : Text.cut? name text with
    | none =>
      rw [assigns_of_cut?_eq_none hcut] at hassigns
      cases hassigns
    | some pieces =>
      obtain ⟨before, after⟩ := pieces
      have hsplit := Text.eq_append_of_cut? hcut
      have hshorter := Text.length_rest_lt_of_cut? hname hcut
      rw [assigns_of_cut? hname hcut, Bool.or_eq_true, Bool.and_eq_true, beq_iff_eq] at hassigns
      rcases hassigns with ⟨hbetween, hblank⟩ | hbehind
      · refine ⟨before, after, hsplit, hbetween, ?_⟩
        rcases List.eq_nil_or_concat' before with rfl | ⟨front, last, rfl⟩
        · exact Or.inl rfl
        · exact Or.inr (Or.inr ⟨last, by simp, by simpa using hblank⟩)
      · obtain ⟨front, back, rfl, hbetween, hfront⟩ :=
          ih after.length (hlength ▸ hshorter) hbehind rfl
        refine ⟨before ++ (name ++ front), back, by rw [hsplit]; simp, hbetween, ?_⟩
        rcases hfront with rfl | hagain | ⟨c, hlast, hblank⟩
        · exact Or.inr (Or.inl ⟨before, by simp⟩)
        · exact Or.inr (Or.inl (hagain.trans ⟨before ++ name, by simp⟩))
        · refine Or.inr (Or.inr ⟨c, ?_, hblank⟩)
          rw [Option.mem_def] at hlast ⊢
          rw [← List.append_assoc, List.getLast?_append, hlast, Option.some_or]

theorem assigns_self (hname : IsName name) :
    assigns name.toList (' ' :: (name.toList ++ ['='])) = true := by
  have hblank : ' ' ∉ name.toList := hname.notMem (by decide)
  have hcut : Text.cut? name.toList (' ' :: (name.toList ++ ['='])) = some ([' '], ['=']) := by
    rw [Text.cut?_cons (Text.not_prefix_cons hname.toList_ne_nil hblank _), Text.cut?_append_self]
    rfl
  rw [assigns_of_cut? hname.toList_ne_nil hcut, Bool.or_eq_true]
  exact Or.inl rfl

/-- Another name that assigns ends with the looked up name twice over. -/
theorem eq_or_suffix_of_assigns (hname : IsName name) {other : String} (hother : IsName other)
    (hassigns : assigns name.toList (' ' :: (other.toList ++ ['='])) = true) :
    other = name ∨ name.toList ++ name.toList <:+ other.toList := by
  have hblank : ∀ c ∈ other.toList, Text.isBlank c = false := by
    intro c hc
    have hallowed := List.all_eq_true.mp hother.2 c hc
    by_contra hc'
    simp [isNameChar, hc'] at hallowed
  have hspace : ' ' ∉ name.toList := hname.notMem (by decide)
  have hne := hname.toList_ne_nil
  obtain ⟨front, after, htext, hbetween, hfront⟩ := exists_of_assigns hassigns
  obtain ⟨blanks, blanks', rfl, hblanks, -⟩ := Text.exists_of_trim_eq_singleton hbetween
  -- There is one equals sign only, and no blank but the first character.
  have hequals : '=' ∉ ' ' :: other.toList := by
    have hno : '=' ∉ other.toList := hother.notMem (by decide)
    simp [hno]
  have hsplit : ' ' :: other.toList ++ '=' :: [] = front ++ (name.toList ++ blanks) ++ '=' :: blanks' := by
    simpa using htext
  obtain ⟨hends, -, -⟩ := (List.append_cons_inj_of_notMem hequals List.not_mem_nil).mp hsplit
  obtain rfl : blanks = [] := by
    rw [List.eq_nil_iff_forall_not_mem]
    intro c hc
    have hmem : c ∈ (front ++ (name.toList ++ blanks)).tail := mem_tail_append hne hc
    rw [← hends, List.tail_cons] at hmem
    exact absurd (hblanks c hc) (by simp [hblank c hmem])
  rw [List.append_nil] at hends
  rcases hfront with rfl | ⟨first, rfl⟩ | ⟨c, hlast, hc⟩
  · rw [List.nil_append] at hends
    exact absurd (hends ▸ List.mem_cons_self) hspace
  · have hsuffix : name.toList ++ name.toList <:+ ' ' :: other.toList := ⟨first, by rw [hends]; simp⟩
    rcases List.suffix_cons_iff.mp hsuffix with hwhole | htwice
    · have hmem : ' ' ∈ name.toList ++ name.toList := hwhole ▸ List.mem_cons_self
      exact absurd (by simpa using hmem) hspace
    · exact Or.inr htwice
  · obtain ⟨first, rfl⟩ := List.getLast?_eq_some_iff.mp hlast
    cases first with
    | nil =>
      left
      exact String.toList_injective (by simpa using (List.cons.inj hends).2)
    | cons d first =>
      have hmem : c ∈ other.toList := by
        rw [(List.cons.inj hends).2]
        simp
      exact absurd (Text.isBlank_of_isAsciiBlank hc) (by simp [hblank c hmem])

/-- A value that assigns ends with an equals sign. -/
theorem endsInEquals_of_assigns {name : List Char} {value : String}
    (hassigns : assigns name ('"' :: escape value.toList) = true) : Attribute.EndsInEquals value := by
  obtain ⟨front, after, htext, hbetween, -⟩ := exists_of_assigns hassigns
  obtain ⟨blanks, blanks', rfl, -, hblanks'⟩ := Text.exists_of_trim_eq_singleton hbetween
  have hsplit : '"' :: escape value.toList = front ++ (name ++ blanks) ++ '=' :: blanks' := by
    simpa using htext
  cases hfirst : front ++ (name ++ blanks) with
  | nil =>
    rw [hfirst] at hsplit
    cases hsplit
  | cons d first =>
    rw [hfirst] at hsplit
    exact Attribute.endsInEquals_of_escape (List.cons.inj hsplit).2 hblanks'

theorem written_cons (entry : Attribute) (later : List Attribute) : written (entry :: later) =
    ' ' :: (entry.name.toList ++ ['=']) ++ '"' :: (escape entry.value.toList ++ '"' :: written later) := by
  simp [written, Attribute.written]

theorem eq_blank_of_mem_head?_written {attributes : List Attribute}
    (hc : c ∈ (written attributes).head?) : c = ' ' := by
  cases attributes with
  | nil => simp [written] at hc
  | cons entry later =>
    rw [written_cons] at hc
    exact (Option.some.inj hc).symm

/-- The next opening quote is the one of the next attribute. -/
theorem cut?_written (attributes : List Attribute) : (Text.cut? ['"'] (written attributes)).map (·.1) =
    attributes.head?.map fun next => ' ' :: (next.name.toList ++ ['=']) := by
  cases attributes with
  | nil => rfl
  | cons next later =>
    have hname : '"' ∉ ' ' :: (next.name.toList ++ ['=']) := by
      have hno : '"' ∉ next.name.toList := next.isName.notMem (by decide)
      simp [hno]
    have hcut := Text.cut?_append_pattern (Text.not_infix_of_notMem hname) List.not_mem_nil
      (escape next.value.toList ++ '"' :: written later)
    rw [List.singleton_append] at hcut
    rw [written_cons, hcut]
    rfl

/-- A lookup reads what `readBack?` says. -/
theorem attribute?_written_eq_readBack? (hname : IsName name) (attributes : List Attribute)
    (body : List Char) :
    Element.attribute? ⟨written attributes, body⟩ name = readBack? name attributes := by
  have hne := hname.toList_ne_nil
  have hquote : '"' ∉ name.toList := hname.notMem (by decide)
  induction attributes with
  | nil =>
    have hnil : ¬ name.toList <:+: [] := by rwa [List.infix_nil]
    rw [Element.attribute?, written, List.flatMap_nil,
      rawAttribute?_of_cut?_eq_none (Text.cut?_eq_none_iff.mpr hnil)]
    rfl
  | cons entry later ih =>
    have hfront : '"' ∉ (' ' :: (entry.name.toList ++ ['='])).tail ∧
        '\'' ∉ (' ' :: (entry.name.toList ++ ['='])).tail := by
      have hno : '"' ∉ entry.name.toList ∧ '\'' ∉ entry.name.toList :=
        ⟨entry.isName.notMem (by decide), entry.isName.notMem (by decide)⟩
      simp [hno]
    have hvalue : '"' ∉ escape entry.value.toList ∧ '\'' ∉ escape entry.value.toList :=
      ⟨notMem_escape (by simp), notMem_escape (by simp)⟩
    rw [Element.attribute?, written_cons, rawAttribute?_quoted hne hquote (Or.inl rfl) hfront hvalue,
      readBack?]
    split
    · rw [Option.map_some, unescape_escape, String.ofList_toList]
    · split
      · rw [cut?_written, Option.map_map]
        rfl
      · have hblank : ∀ c ∈ (written later).head?, c ∉ name.toList :=
          fun c hc => eq_blank_of_mem_head?_written hc ▸ hname.notMem (by decide)
        rw [rawAttribute?_cons_quote hne hquote hblank, ← ih]
        rfl

/-- A lookup is exact unless a name in front of the attribute ends with the looked up one twice over, or a
value in front of it ends with an equals sign. -/
theorem readBack?_eq_find? (hname : IsName name) (attributes : List Attribute)
    (hnames : ∀ other ∈ attributes.takeWhile (·.name != name),
      ¬ name.toList ++ name.toList <:+ other.name.toList)
    (hvalues : ∀ other ∈ attributes.dropLast.takeWhile (·.name != name),
      ¬ Attribute.EndsInEquals other.value) :
    readBack? name attributes = (attributes.find? (·.name == name)).map (·.value) := by
  induction attributes with
  | nil => rfl
  | cons entry later ih =>
    rw [readBack?]
    by_cases hfound : entry.name = name
    · rw [hfound, assigns_self hname, if_pos rfl, List.find?_cons_of_pos (by simpa using hfound)]
      rfl
    · have hother : (entry.name != name) = true := by simpa using hfound
      rw [List.takeWhile_cons, if_pos hother, List.forall_mem_cons] at hnames
      have hpastName : ¬ assigns name.toList (' ' :: (entry.name.toList ++ ['='])) = true := by
        intro hassigns
        rcases eq_or_suffix_of_assigns hname entry.isName hassigns with heq | htwice
        · exact hfound heq
        · exact hnames.1 htwice
      rw [if_neg hpastName, List.find?_cons_of_neg (by simpa using hfound)]
      cases later with
      | nil =>
        rw [List.head?_nil, Option.map_none, readBack?, ite_self]
        rfl
      | cons next later =>
        rw [List.dropLast_cons_cons, List.takeWhile_cons, if_pos hother, List.forall_mem_cons] at hvalues
        have hpastValue : ¬ assigns name.toList ('"' :: escape entry.value.toList) = true :=
          fun hassigns => hvalues.1 (endsInEquals_of_assigns hassigns)
        rw [if_neg hpastValue]
        exact ih hnames.2 hvalues.2

/-- Every attribute of a tag is found if no name stands in an earlier one and no value but the last ends
with an equals sign. -/
theorem attribute?_written (attributes : List Attribute)
    (hnames : (attributes.map (·.name)).Pairwise fun earlier later =>
      ¬ later.toList <:+: earlier.toList)
    (hends : ∀ other ∈ attributes.dropLast, ¬ Attribute.EndsInEquals other.value)
    (body : List Char) : ∀ entry ∈ attributes,
      Element.attribute? ⟨written attributes, body⟩ entry.name = some entry.value := by
  intro entry hentry
  obtain ⟨earlier, later, rfl⟩ := List.append_of_mem hentry
  rw [List.pairwise_map, List.pairwise_append] at hnames
  have hearlier : ∀ other ∈ earlier, ¬ entry.name.toList <:+: other.name.toList :=
    fun other hother => hnames.2.2 other hother entry List.mem_cons_self
  have hdifferent : ∀ other ∈ earlier, (other.name != entry.name) = true := by
    intro other hother
    rw [bne_iff_ne]
    exact fun heq => hearlier other hother (heq ▸ List.infix_rfl)
  have hsearched : ∀ other ∈ (earlier ++ entry :: later).takeWhile (·.name != entry.name),
      ¬ entry.name.toList ++ entry.name.toList <:+ other.name.toList := by
    rw [List.takeWhile_append_of_pos hdifferent, List.takeWhile_cons_of_neg (by simp), List.append_nil]
    intro other hother htwice
    exact hearlier other hother ((List.prefix_append _ _).isInfix.trans htwice.isInfix)
  have hfound : (earlier ++ entry :: later).find? (·.name == entry.name) = some entry := by
    rw [List.find?_append, List.find?_eq_none.mpr (by simpa using hdifferent), Option.none_or,
      List.find?_cons_of_pos (by simp)]
  rw [attribute?_written_eq_readBack? entry.isName, readBack?_eq_find? entry.isName _ hsearched, hfound]
  · rfl
  · exact fun other hother => hends other ((List.takeWhile_sublist _).subset hother)

theorem attribute?_written_singleton (entry : Attribute) (body : List Char) :
    Element.attribute? ⟨written [entry], body⟩ entry.name = some entry.value :=
  attribute?_written [entry] (List.pairwise_singleton _ _) nofun body entry List.mem_cons_self

/-- An equals sign at the end of a value is taken for the one behind a name, and the quote that ends the
value for the one that begins it. -/
example : Element.attribute?
    ⟨written [{ name := "id", value := "a name=" }, { name := "name", value := "b" }], []⟩ "name" =
      some " name=" := by
  cbv

/-- What a lookup in written attributes answers, whatever their names and values are, and when that is the
value of the attribute, or nothing if there is no such attribute. The search goes from one occurrence of the
name to the next and forgets what stood in front of one that it has rejected. So it reads from the wrong place
behind a name that ends with the looked up one twice over, and behind a value that ends with an equals sign;
everywhere else it is exact. -/
theorem attribute?_reads_back (hname : IsName name) (attributes : List Attribute) (body : List Char) :
    Element.attribute? ⟨written attributes, body⟩ name = readBack? name attributes ∧
      ((∀ other ∈ attributes.takeWhile (·.name != name),
          ¬ name.toList ++ name.toList <:+ other.name.toList) →
        (∀ other ∈ attributes.dropLast.takeWhile (·.name != name),
          ¬ Attribute.EndsInEquals other.value) →
        Element.attribute? ⟨written attributes, body⟩ name =
          (attributes.find? (·.name == name)).map (·.value)) := by
  have hanswer := attribute?_written_eq_readBack? hname attributes body
  refine ⟨hanswer, fun hnames hvalues => ?_⟩
  rw [hanswer]
  exact readBack?_eq_find? hname attributes hnames hvalues

theorem isName_id : IsName "id" :=
  ⟨by decide, by decide⟩

/-- Attributes between which a lookup finds its way: the name stands inside another one and inside a value,
but neither assigns. -/
theorem attribute?_reads_back_inside :
    let attributes : List Attribute :=
      [{ name := "policy-id", value := "a" }, { name := "title", value := "see id=1" },
        { name := "id", value := "b", isName := isName_id }]
    IsName "id" ∧
      (∀ other ∈ attributes.takeWhile (·.name != "id"),
        ¬ "id".toList ++ "id".toList <:+ other.name.toList) ∧
      (∀ other ∈ attributes.dropLast.takeWhile (·.name != "id"),
        ¬ Attribute.EndsInEquals other.value) ∧
      Element.attribute? ⟨written attributes, []⟩ "id" = some "b" := by
  intro attributes
  have hnames : ∀ other ∈ attributes.takeWhile (·.name != "id"),
      ¬ "id".toList ++ "id".toList <:+ other.name.toList := by
    decide +kernel
  have hvalues : ∀ other ∈ attributes.dropLast.takeWhile (·.name != "id"),
      ¬ Attribute.EndsInEquals other.value := by
    decide +kernel
  refine ⟨isName_id, hnames, hvalues, ?_⟩
  rw [(attribute?_reads_back isName_id attributes []).2 hnames hvalues]
  decide +kernel

/-- Behind an occurrence that is rejected, the name right behind it is not seen to stand inside another
one. -/
theorem attribute?_mistakes_repeated :
    let attributes : List Attribute :=
      [{ name := "idid", value := "x" }, { name := "id", value := "y", isName := isName_id }]
    (attributes.map (·.name)).Nodup ∧ IsName "id" ∧
      (attributes.find? (·.name == "id")).map (·.value) = some "y" ∧
      Element.attribute? ⟨written attributes, []⟩ "id" = some "x" := by
  exact ⟨by decide +kernel, isName_id, by decide +kernel, by decide +kernel⟩

end Reconcile.Markup
