import Reconcile.Proofs.Markup.Spelled
import Reconcile.Proofs.Policy.TruthValue

namespace Reconcile

variable {value : String} {flag : Bool}

/-- No spelling of a truth value needs a character that a value cannot have. -/
theorem SpellsFlag.isPlain (hvalue : SpellsFlag value flag) :
    value.toList.all Markup.isPlainChar = true := by
  obtain ⟨front, word, back, hvalue, hfront, hback, hlower⟩ := hvalue
  have hword : word.all Markup.isPlainChar = true := by
    have hletters : (toString flag).toList.all Markup.isPlainChar = true := by
      cases flag <;> decide +kernel
    rw [← hlower, Text.lowerAsciiText, List.all_map] at hletters
    simpa [Function.comp_def, Markup.isPlainChar_lowerAscii] using hletters
  rw [hvalue, List.all_append, List.all_append, hword,
    List.all_eq_true.mpr fun c hc => Markup.isPlainChar_of_isBlank (hfront c hc),
    List.all_eq_true.mpr fun c hc => Markup.isPlainChar_of_isBlank (hback c hc)]
  rfl

namespace Compatibility

open Markup

/-- The flags of a team project. -/
inductive Flag where
  | teamExplorer
  | teamprise
  | nonInstalled
deriving DecidableEq, Repr

/-- The attribute that a flag is written in. -/
def Flag.name : Flag → String
  | teamExplorer => "teamExplorer"
  | teamprise => "teamprise"
  | nonInstalled => "nonInstalled"

def get (flags : Compatibility) : Flag → Bool
  | .teamExplorer => flags.teamExplorer
  | .teamprise => flags.teamprise
  | .nonInstalled => flags.nonInstalled

theorem Flag.isName (flag : Flag) : IsName flag.name := by
  cases flag <;> decide +kernel

theorem Flag.not_infix {flag other : Flag} (hne : other.name ≠ flag.name) :
    ¬ flag.name.toList <:+: other.name.toList := by
  revert hne
  cases flag <;> cases other <;> decide +kernel

theorem Flag.name_inj {flag other : Flag} (hname : flag.name = other.name) : flag = other := by
  revert hname
  cases flag <;> cases other <;> decide +kernel

/-- An overrides annotation in any layout: a root with one element that the flags are written into. -/
structure Spelling where
  prolog : List Char := []
  root : SpelledTag := {}
  /-- What stands in the root in front of the element. -/
  before : List Char := []
  tag : SpelledTag
  /-- Whether the tag closes itself; otherwise a closing tag follows. -/
  closesItself : Bool := true
  /-- What stands in the root behind the element. -/
  after : List Char := []
  epilog : List Char := []
  not_infix_prolog : ¬ opening "overrides" <:+: prolog := by decide +kernel
  not_infix_before : ¬ opening "compatibility" <:+: before := by decide +kernel
  closing_not_infix_before : ¬ closing "overrides" <:+: before := by decide +kernel
  closing_not_infix_after : ¬ closing "overrides" <:+: after := by decide +kernel
  exists_flag : ∀ entry ∈ tag.attributes, ∃ flag : Flag, entry.name = flag.name
  distinct : (tag.attributes.map (·.name)).Nodup := by decide +kernel

namespace Spelling

variable (spelling : Spelling)

/-- The end of the tag, and the closing tag if there is one. -/
def ending (closesItself : Bool) : List Char :=
  if closesItself then ['/', '>'] else '>' :: closing "compatibility"

def element : List Char :=
  opening "compatibility" ++ (spelling.tag.text ++ ending spelling.closesItself)

def body : List Char :=
  spelling.before ++ (spelling.element ++ spelling.after)

def text : List Char :=
  spelling.prolog ++ (opening "overrides" ++
    (spelling.root.text ++ '>' :: (spelling.body ++ (closing "overrides" ++ spelling.epilog))))

/-- What a spelling tells: each attribute spells the flag it is named for, and the other flags are off. -/
structure Tells (flags : Compatibility) : Prop where
  written : ∀ entry ∈ spelling.tag.attributes, ∀ flag : Flag, entry.name = flag.name →
    SpellsFlag entry.value (flags.get flag)
  left_out : ∀ flag : Flag, (∀ entry ∈ spelling.tag.attributes, entry.name ≠ flag.name) →
    flags.get flag = false

theorem isName_tags : IsName "overrides" ∧ IsName "compatibility" := by
  decide +kernel

theorem closing_not_infix_body : ¬ closing "overrides" <:+: spelling.body := by
  have hhead : '<' ∉ spelling.tag.text := spelling.tag.notMem_text (by simp)
  have hending : ¬ closing "overrides" <:+: ending spelling.closesItself ++ spelling.after := by
    cases spelling.closesItself with
    | true =>
      have hend : '<' ∉ ['/', '>'] := by decide
      exact Text.not_infix_append_of_notMem hend spelling.closing_not_infix_after
    | false =>
      have hend : '<' ∉ ['>'] := by decide
      have hclosing := closing_not_infix_closing isName_tags.2 isName_tags.1 (by decide)
        spelling.closing_not_infix_after
      change ¬ closing "overrides" <:+: ['>'] ++ (closing "compatibility" ++ spelling.after)
      exact Text.not_infix_append_of_notMem hend hclosing
  have helement : ¬ closing "overrides" <:+: spelling.element ++ spelling.after := by
    rw [element, List.append_assoc, List.append_assoc]
    exact closing_not_infix_opening isName_tags.2 hhead hending
  exact Text.not_infix_append_cons spelling.closing_not_infix_before
    (notMem_tail_closing isName_tags.1) helement

theorem element?_text :
    element? "overrides" spelling.text = some ⟨spelling.root.text, spelling.body⟩ := by
  have hhead : '>' ∉ spelling.root.text := spelling.root.notMem_text (by simp)
  rw [element?, text, elements_closed isName_tags.1 spelling.not_infix_prolog hhead
    spelling.root.selfClosing?_text spelling.closing_not_infix_body
    (spelling.root.endsName_text rfl _), List.head?_cons]

theorem child?_body (head : List Char) :
    Element.child? ⟨head, spelling.body⟩ "compatibility" = some ⟨spelling.tag.text, []⟩ := by
  have hhead : '>' ∉ spelling.tag.text := spelling.tag.notMem_text (by simp)
  have htext : spelling.body = spelling.before ++ (opening "compatibility" ++
      (spelling.tag.text ++ (ending spelling.closesItself ++ spelling.after))) := by
    simp [body, element]
  have hfound : ∃ later, elements "compatibility" spelling.body = ⟨spelling.tag.text, []⟩ :: later := by
    rw [htext]
    cases spelling.closesItself with
    | true =>
      exact ⟨_, elements_selfClosed isName_tags.2 spelling.not_infix_before hhead
        (spelling.tag.endsName_text rfl ('>' :: spelling.after))⟩
    | false =>
      have hempty : ¬ closing "compatibility" <:+: [] := by decide
      exact ⟨_, elements_closed isName_tags.2 spelling.not_infix_before hhead
        spelling.tag.selfClosing?_text hempty
        (spelling.tag.endsName_text rfl (closing "compatibility" ++ spelling.after))⟩
  obtain ⟨later, hlater⟩ := hfound
  rw [Element.child?, element?, hlater, List.head?_cons]

/-- What is read for a flag. -/
def answer (flag : Flag) : Except AnnotationError Bool :=
  match (spelling.tag.attributes.find? (·.name == flag.name)).map (·.value) with
  | none => .ok false
  | some raw => readFlag flag.name raw

/-- Of all the text, only what the attributes say for the three flags is read. -/
theorem ofAnnotation_text : ofAnnotation (String.ofList spelling.text) = do
    return {
      teamExplorer := ← spelling.answer .teamExplorer
      teamprise := ← spelling.answer .teamprise
      nonInstalled := ← spelling.answer .nonInstalled } := by
  have hread (flag : Flag) : Element.attribute? ⟨spelling.tag.text, []⟩ flag.name =
      (spelling.tag.attributes.find? (·.name == flag.name)).map (·.value) := by
    refine spelling.tag.attribute?_text flag.isName (fun other hother hne => ?_) []
    obtain ⟨flag', hflag'⟩ := spelling.exists_flag other hother
    rw [hflag'] at hne ⊢
    exact Flag.not_infix hne
  unfold ofAnnotation
  rw [String.toList_ofList, element?_text]
  dsimp only
  rw [child?_body, answer, answer, answer, ← hread, ← hread, ← hread]
  rfl

variable {flags : Compatibility} {entry : SpelledAttribute}

/-- A flag that is left out is down. -/
theorem answer_of_left_out {flag : Flag}
    (hnone : ∀ entry ∈ spelling.tag.attributes, entry.name ≠ flag.name) :
    spelling.answer flag = .ok false := by
  have hfind : spelling.tag.attributes.find? (·.name == flag.name) = none :=
    List.find?_eq_none.mpr (by simpa using hnone)
  rw [answer, hfind, Option.map_none]

/-- A flag is read from the value that it was given. -/
theorem answer_of_mem {flag : Flag} (hentry : entry ∈ spelling.tag.attributes)
    (hname : entry.name = flag.name) : spelling.answer flag = readFlag flag.name entry.value := by
  obtain ⟨earlier, later, hsplit⟩ := List.append_of_mem hentry
  have hdistinct := spelling.distinct
  rw [hsplit, List.map_append, List.nodup_append] at hdistinct
  have hearlier : ∀ other ∈ earlier, other.name ≠ flag.name := by
    intro other hother
    rw [← hname]
    exact hdistinct.2.2 _ (List.mem_map_of_mem hother) _ (List.mem_map_of_mem List.mem_cons_self)
  have hfind : spelling.tag.attributes.find? (·.name == flag.name) = some entry :=
    List.find?_eq_some_iff_append.mpr
      ⟨by simpa using hname, earlier, later, hsplit, by simpa using hearlier⟩
  rw [answer, hfind, Option.map_some]

theorem answer_of_tells {spelling : Spelling} (htells : spelling.Tells flags) (flag : Flag) :
    spelling.answer flag = .ok (flags.get flag) := by
  by_cases hwritten : ∃ entry ∈ spelling.tag.attributes, entry.name = flag.name
  · obtain ⟨entry, hentry, hname⟩ := hwritten
    rw [spelling.answer_of_mem hentry hname]
    exact readFlag_of_spellsFlag (htells.written entry hentry flag hname) flag.name
  · have hnone : ∀ entry ∈ spelling.tag.attributes, entry.name ≠ flag.name :=
      fun entry hentry hname => hwritten ⟨entry, hentry, hname⟩
    rw [spelling.answer_of_left_out hnone, htells.left_out flag hnone]

theorem ofAnnotation_of_tells {spelling : Spelling} (htells : spelling.Tells flags) :
    ofAnnotation (String.ofList spelling.text) = .ok flags := by
  rw [ofAnnotation_text, answer_of_tells htells, answer_of_tells htells, answer_of_tells htells]
  rfl

/-- One value that spells no truth value is reported, wherever its attribute stands among the others. -/
theorem ofAnnotation_of_misspelled (hentry : entry ∈ spelling.tag.attributes)
    (hvalue : ∀ flag, ¬ SpellsFlag entry.value flag)
    (hothers : ∀ other ∈ spelling.tag.attributes, other.name ≠ entry.name →
      ∃ flag, SpellsFlag other.value flag) :
    ofAnnotation (String.ofList spelling.text) =
      .error (.invalidValue entry.name (Text.trimmed entry.value)) := by
  obtain ⟨flag, hflag⟩ := spelling.exists_flag entry hentry
  have hfails : spelling.answer flag = .error (.invalidValue entry.name (Text.trimmed entry.value)) := by
    rw [spelling.answer_of_mem hentry hflag, ← hflag, readFlag_of_not_spellsFlag hvalue]
  have hreads (other : Flag) (hne : other ≠ flag) : ∃ read, spelling.answer other = .ok read := by
    by_cases hwritten : ∃ entry ∈ spelling.tag.attributes, entry.name = other.name
    · obtain ⟨entry', hentry', hname⟩ := hwritten
      have hdifferent : entry'.name ≠ entry.name := by
        rw [hname, hflag]
        exact fun heq => hne (Flag.name_inj heq)
      obtain ⟨read, hread⟩ := hothers entry' hentry' hdifferent
      exact ⟨read, by rw [spelling.answer_of_mem hentry' hname, readFlag_of_spellsFlag hread]⟩
    · exact ⟨false, spelling.answer_of_left_out fun entry' hentry' hname =>
        hwritten ⟨entry', hentry', hname⟩⟩
  -- The flags in front of it are read without an error; those behind it are not read any more.
  rw [ofAnnotation_text]
  cases flag with
  | teamExplorer =>
    rw [hfails]
    rfl
  | teamprise =>
    obtain ⟨teamExplorer, hfirst⟩ := hreads .teamExplorer (by decide)
    rw [hfirst, hfails]
    rfl
  | nonInstalled =>
    obtain ⟨teamExplorer, hfirst⟩ := hreads .teamExplorer (by decide)
    obtain ⟨teamprise, hsecond⟩ := hreads .teamprise (by decide)
    rw [hfirst, hsecond, hfails]
    rfl

end Spelling

variable (flags : Compatibility)

def writtenAttribute (flag : Flag) : SpelledAttribute where
  name := flag.name
  value := toString (flags.get flag)
  isName := flag.isName
  isPlain := (spellsFlag_toString (flags.get flag)).isPlain

/-- The spelling in which overrides are written. -/
def writtenSpelling : Spelling where
  tag := { attributes := [.teamExplorer, .teamprise, .nonInstalled].map flags.writtenAttribute }
  exists_flag := by
    intro entry hentry
    obtain ⟨flag, -, rfl⟩ := List.mem_map.mp hentry
    exact ⟨flag, rfl⟩
  distinct := by
    rw [List.map_map]
    change ([Flag.teamExplorer, .teamprise, .nonInstalled].map Flag.name).Nodup
    decide +kernel

theorem toAnnotation_eq : flags.toAnnotation = String.ofList flags.writtenSpelling.text := by
  obtain ⟨teamExplorer, teamprise, nonInstalled⟩ := flags
  cases teamExplorer <;> cases teamprise <;> cases nonInstalled <;> decide +kernel

theorem tells_writtenSpelling : flags.writtenSpelling.Tells flags where
  written := by
    intro entry hentry flag hname
    obtain ⟨flag', -, rfl⟩ := List.mem_map.mp hentry
    obtain rfl := Flag.name_inj hname
    exact spellsFlag_toString (flags.get flag')
  left_out := by
    intro flag hnone
    have hmem : flag ∈ [Flag.teamExplorer, .teamprise, .nonInstalled] := by
      cases flag <;> decide
    exact absurd rfl (hnone _ (List.mem_map_of_mem hmem))

/-- The flags that an overrides annotation says are read from every spelling of it, and so from the one that
is written; a flag that is left out is off. If one value spells no truth value, it is reported with the name
of its attribute and without the blanks around it. -/
theorem ofAnnotation_reads_spellings :
    (∀ (spelling : Spelling) (flags : Compatibility), spelling.Tells flags →
        ofAnnotation (String.ofList spelling.text) = .ok flags) ∧
      (∀ (spelling : Spelling), ∀ entry ∈ spelling.tag.attributes,
        (∀ flag, ¬ SpellsFlag entry.value flag) →
        (∀ other ∈ spelling.tag.attributes, other.name ≠ entry.name →
          ∃ flag, SpellsFlag other.value flag) →
        ofAnnotation (String.ofList spelling.text) =
          .error (.invalidValue entry.name (Text.trimmed entry.value))) ∧
      ∀ flags : Compatibility, ofAnnotation flags.toAnnotation = .ok flags := by
  refine ⟨fun _ _ htells => Spelling.ofAnnotation_of_tells htells,
    fun spelling _ hentry hvalue hothers => spelling.ofAnnotation_of_misspelled hentry hvalue hothers,
    fun flags => ?_⟩
  rw [toAnnotation_eq]
  exact Spelling.ofAnnotation_of_tells flags.tells_writtenSpelling

/-- A prolog, an element that is closed by a tag of its own, both kinds of quotes, blanks that are not ASCII,
and a name inside the value of another attribute. -/
theorem ofAnnotation_reads_spellings_sprawling :
    let loud : Spelling :=
      { prolog := "<?xml version=\"1.0\"?><!-- overridesfile -->\n".toList
        root := { attributes := [{ name := "xmlns", value := "urn:reconcile" }] }
        before := "\n  ".toList
        tag :=
          { attributes := [
              { name := "nonInstalled", value := "\u2003TRUE\t", gap := ['\n', '\t'],
                beforeEquals := [' '], afterEquals := ['\r', '\n'], quote := '\'' },
              { name := "teamExplorer", value := "False" }]
            trailing := [' '] }
        closesItself := false
        after := "\n".toList
        epilog := "<overrides/>".toList
        exists_flag := by
          simp only [List.forall_mem_cons]
          exact ⟨⟨.nonInstalled, rfl⟩, ⟨.teamExplorer, rfl⟩, nofun⟩ }
    let wrong : SpelledAttribute := { name := "teamprise", value := " teamExplorer " }
    let misspelled : Spelling :=
      { tag := { attributes := [wrong, { name := "teamExplorer", value := "true" }] }
        exists_flag := by
          simp only [List.forall_mem_cons]
          exact ⟨⟨.teamprise, rfl⟩, ⟨.teamExplorer, rfl⟩, nofun⟩ }
    loud.Tells ⟨false, false, true⟩ ∧
      ofAnnotation (String.ofList loud.text) = .ok ⟨false, false, true⟩ ∧
      (∀ flag, ¬ SpellsFlag wrong.value flag) ∧
      ofAnnotation (String.ofList misspelled.text) =
        .error (.invalidValue "teamprise" "teamExplorer") := by
  intro loud wrong misspelled
  have htells : loud.Tells ⟨false, false, true⟩ := by
    constructor
    · simp only [loud, List.forall_mem_cons]
      refine ⟨fun flag hname => ?_, fun flag hname => ?_, nofun⟩
      · obtain rfl : Flag.nonInstalled = flag := Flag.name_inj hname
        decide +kernel
      · obtain rfl : Flag.teamExplorer = flag := Flag.name_inj hname
        decide +kernel
    · intro flag hnone
      cases flag with
      | teamExplorer => rfl
      | teamprise => rfl
      | nonInstalled => exact absurd rfl (hnone _ List.mem_cons_self)
  have hwrong : ∀ flag, ¬ SpellsFlag wrong.value flag := by
    intro flag
    cases flag <;> decide +kernel
  have hothers : ∀ other ∈ misspelled.tag.attributes, other.name ≠ wrong.name →
      ∃ flag, SpellsFlag other.value flag := by
    simp only [misspelled, List.forall_mem_cons]
    exact ⟨fun hne => absurd rfl hne, fun _ => ⟨true, by decide +kernel⟩, nofun⟩
  refine ⟨htells, ofAnnotation_reads_spellings.1 loud _ htells, hwrong, ?_⟩
  have htrimmed : Text.trimmed wrong.value = "teamExplorer" := by decide +kernel
  rw [ofAnnotation_reads_spellings.2.1 misspelled wrong List.mem_cons_self hwrong hothers, htrimmed]

end Compatibility

end Reconcile
