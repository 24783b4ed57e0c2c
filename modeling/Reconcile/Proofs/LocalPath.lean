import Mathlib.Data.List.Basic
import Reconcile.LocalPath
import Reconcile.Proofs.OsText

namespace Reconcile

namespace Text

variable {α : Type} [DecidableEq α] {separator : α} {s t : List α}

theorem splitOn_append_separator (separator : α) (s t : List α) :
    splitOn separator (s ++ separator :: t) = splitOn separator s ++ splitOn separator t := by
  induction s with
  | nil => simp [splitOn]
  | cons c s ih =>
    by_cases hc : c = separator
    · simp [splitOn, hc, ih]
    · obtain ⟨piece, pieces, hs⟩ := List.exists_cons_of_ne_nil (splitOn_ne_nil separator s)
      simp [splitOn, hc, ih, hs]

theorem splitOn_of_notMem (hs : separator ∉ s) : splitOn separator s = [s] := by
  induction s with
  | nil => rfl
  | cons c s ih =>
    have hc : c ≠ separator := fun heq => hs (heq ▸ List.mem_cons_self)
    have hrest : separator ∉ s := fun hmem => hs (List.mem_cons_of_mem _ hmem)
    simp [splitOn, hc, ih hrest]

theorem notMem_of_mem_splitOn {piece : List α} (hpiece : piece ∈ splitOn separator s) :
    separator ∉ piece := by
  induction s generalizing piece with
  | nil => simp_all [splitOn]
  | cons c s ih =>
    obtain ⟨first, pieces, hs⟩ := List.exists_cons_of_ne_nil (splitOn_ne_nil separator s)
    rw [hs] at ih
    by_cases hc : c = separator
    · rw [splitOn, if_pos hc, hs] at hpiece
      rcases List.mem_cons.mp hpiece with rfl | hpiece
      · exact List.not_mem_nil
      · exact ih hpiece
    · rw [splitOn, if_neg hc, hs] at hpiece
      rcases List.mem_cons.mp hpiece with rfl | hpiece
      · exact List.not_mem_cons_of_ne_of_not_mem (Ne.symm hc) (ih List.mem_cons_self)
      · exact ih (List.mem_cons_of_mem _ hpiece)

/-- Pieces that stand behind separators are split apart again, behind an empty one. -/
theorem splitOn_flatMap_separator {pieces : List (List α)}
    (hpieces : ∀ piece ∈ pieces, separator ∉ piece) :
    splitOn separator (pieces.flatMap (separator :: ·)) = [] :: pieces := by
  induction pieces with
  | nil => rfl
  | cons piece pieces ih =>
    obtain ⟨hpiece, hpieces⟩ := List.forall_mem_cons.mp hpieces
    have hrest := ih hpieces
    have hpiece := splitOn_of_notMem hpiece
    cases pieces with
    | nil => simpa [splitOn] using hpiece
    | cons next pieces =>
      have hnext : splitOn separator (next ++ pieces.flatMap (separator :: ·)) = next :: pieces := by
        simpa [splitOn] using hrest
      simp [splitOn, splitOn_append_separator, hpiece, hnext]

end Text

namespace LocalPath

variable {path folder : LocalPath} {bytes piece : List UInt8} {segment : OsText} {component : Component}

theorem bytes_eq_nil_iff {text : OsText} : text.bytes = [] ↔ text = "" :=
  ⟨fun hnil => congrArg OsText.mk hnil, fun heq => heq ▸ rfl⟩

/-- What stands behind another slash adds the component that it names and changes none before it. -/
theorem componentsOf_append_slash (hbytes : bytes ≠ []) (hpiece : slash ∉ piece) :
    componentsOf (bytes ++ slash :: piece) = componentsOf bytes ++ [piece].filterMap component? := by
  have hpieces : Text.splitOn slash (bytes ++ slash :: piece) = Text.splitOn slash bytes ++ [piece] := by
    rw [Text.splitOn_append_separator, Text.splitOn_of_notMem hpiece]
  have hhead : (bytes ++ slash :: piece).head? = bytes.head? :=
    List.head?_append_of_ne_nil _ hbytes
  have hfirst : (Text.splitOn slash bytes ++ [piece]).head? = (Text.splitOn slash bytes).head? :=
    List.head?_append_of_ne_nil _ (Text.splitOn_ne_nil slash bytes)
  simp only [componentsOf, hpieces, hhead, hfirst, List.filterMap_append]
  split_ifs <;> rfl

/-- A segment that is pushed adds the component that it names. It adds none if it is empty or a
    single dot. -/
theorem components_push (hpath : path.text ≠ "") (hsegment : slash ∉ segment.bytes) :
    (path.push segment).components = path.components ++ [segment.bytes].filterMap component? := by
  have hne : path.text.bytes ≠ [] := mt bytes_eq_nil_iff.mp hpath
  rw [push, components, components]
  split
  case isTrue hslash =>
    obtain ⟨front, hfront⟩ : ∃ front, path.text.bytes = front ++ [slash] :=
      List.getLast?_eq_some_iff.mp (hslash.resolve_left hne)
    rw [hfront, List.append_assoc, List.singleton_append]
    by_cases hempty : front = []
    · subst hempty
      have hsplit : Text.splitOn slash (slash :: segment.bytes) = [[], segment.bytes] := by
        simp [Text.splitOn, Text.splitOn_of_notMem hsegment]
      rw [List.nil_append, componentsOf, hsplit]
      rfl
    · -- The separator at the end of the path begins an empty piece, which is no step.
      have hfold : componentsOf (front ++ [slash]) = componentsOf front :=
        (componentsOf_append_slash hempty List.not_mem_nil).trans (List.append_nil _)
      rw [componentsOf_append_slash hempty hsegment, hfold]
  case isFalse => rw [componentsOf_append_slash hne hsegment]

theorem push_text_ne (hpath : path.text ≠ "") : (path.push segment).text ≠ "" := by
  have hne : path.text.bytes ≠ [] := mt bytes_eq_nil_iff.mp hpath
  rw [Ne, ← bytes_eq_nil_iff, push]
  split <;> simp [hne]

/-- Pushing segments adds their components in order, by induction over the segments. -/
theorem components_foldl_push {segments : List OsText} (hpath : path.text ≠ "")
    (hsegments : ∀ segment ∈ segments, slash ∉ segment.bytes) :
    (segments.foldl push path).components =
      path.components ++ (segments.map (·.bytes)).filterMap component? := by
  induction segments generalizing path with
  | nil => simp
  | cons segment segments ih =>
    obtain ⟨hsegment, hsegments⟩ := List.forall_mem_cons.mp hsegments
    rw [List.foldl_cons, ih (push_text_ne hpath) hsegments, components_push hpath hsegment,
      List.append_assoc, ← List.filterMap_append, List.singleton_append, List.map_cons]

/-- A component that a piece between separators stands for, whatever comes before it. -/
def Component.IsStep (component : Component) : Prop :=
  slash ∉ component.text.bytes ∧ component? component.text.bytes = some component

theorem text_of_component? (hstep : component? piece = some component) :
    component.text.bytes = piece := by
  rw [component?] at hstep
  split at hstep
  · cases hstep
  · split at hstep
    case isTrue hparent =>
      cases hstep
      exact hparent.symm
    case isFalse =>
      cases hstep
      rfl

theorem isStep_of_component? (hpiece : slash ∉ piece) (hstep : component? piece = some component) :
    component.IsStep := by
  rw [Component.IsStep, text_of_component? hstep]
  exact ⟨hpiece, hstep⟩

theorem component?_isSome (hempty : piece ≠ []) (hdot : piece ≠ [dot]) :
    ∃ component, component? piece = some component := by
  rw [component?, if_neg (by simp [hempty, hdot])]
  split_ifs <;> exact ⟨_, rfl⟩

/-- Every piece that is neither empty nor a dot is read back from its component. -/
theorem map_text_filterMap_component? {segments : List OsText}
    (hsegments : ∀ segment ∈ segments, segment.bytes ≠ [] ∧ segment.bytes ≠ [dot]) :
    ((segments.map (·.bytes)).filterMap component?).map (·.text) = segments := by
  induction segments with
  | nil => rfl
  | cons segment segments ih =>
    obtain ⟨⟨hempty, hdot⟩, hsegments⟩ := List.forall_mem_cons.mp hsegments
    obtain ⟨component, hcomponent⟩ := component?_isSome hempty hdot
    have htext : component.text = segment := congrArg OsText.mk (text_of_component? hcomponent)
    rw [List.map_cons, List.filterMap_cons_some hcomponent, List.map_cons, htext, ih hsegments]

theorem isStep_of_mem_steps (hmem : component ∈ (Text.splitOn slash bytes).filterMap component?) :
    component.IsStep := by
  obtain ⟨piece, hpiece, hstep⟩ := List.mem_filterMap.mp hmem
  exact isStep_of_component? (Text.notMem_of_mem_splitOn hpiece) hstep

theorem isStep_of_mem_tail (hmem : component ∈ path.components.tail) : component.IsStep := by
  simp only [components, componentsOf] at hmem
  split_ifs at hmem
  · exact isStep_of_mem_steps hmem
  · exact isStep_of_mem_steps hmem
  · exact isStep_of_mem_steps (List.mem_of_mem_tail hmem)

theorem depth_pos (hpath : path.text ≠ "") : 0 < path.depth := by
  have hne : path.text.bytes ≠ [] := mt bytes_eq_nil_iff.mp hpath
  obtain ⟨byte, rest, htext⟩ := List.exists_cons_of_ne_nil hne
  obtain ⟨piece, pieces, hrest⟩ := List.exists_cons_of_ne_nil (Text.splitOn_ne_nil slash rest)
  rw [depth, components, componentsOf, htext]
  by_cases hslash : byte = slash
  · simp [hslash]
  · by_cases hdot : byte :: piece = [dot]
    · simp [Text.splitOn, hslash, hrest, hdot]
    · obtain ⟨component, hcomponent⟩ := component?_isSome (List.cons_ne_nil byte piece) hdot
      simp [Text.splitOn, hslash, hrest, hdot, hcomponent]

theorem startsWith_iff : path.startsWith folder = true ↔ folder.components <+: path.components := by
  rw [startsWith, List.isPrefixOf_iff_prefix]

/-- Below a folder that is not the empty path, a path has steps only. -/
theorem isStep_of_mem_below (hfolder : folder.text ≠ "") (hmem : component ∈ path.below folder) :
    component.IsStep := by
  have hpos := depth_pos hfolder
  have hdepth : folder.depth = (folder.depth - 1) + 1 := by omega
  rw [below, hdepth, ← List.drop_tail] at hmem
  exact isStep_of_mem_tail (List.mem_of_mem_drop hmem)

/-- The components of a path are those of the folder it starts with, and those below. -/
theorem components_append_below (hstarts : path.startsWith folder = true) :
    folder.components ++ path.below folder = path.components :=
  List.prefix_iff_eq_append.mp (startsWith_iff.mp hstarts)

/-- Steps that are pushed as texts are read back as the same steps. -/
theorem components_foldl_push_steps {steps : List Component} (hpath : path.text ≠ "")
    (hsteps : ∀ component ∈ steps, component.IsStep) :
    ((steps.map (·.text)).foldl push path).components = path.components ++ steps := by
  have hsegments : ∀ segment ∈ steps.map (·.text), slash ∉ segment.bytes := by
    intro segment hsegment
    obtain ⟨component, hmem, rfl⟩ := List.mem_map.mp hsegment
    exact (hsteps component hmem).1
  have hread : ((steps.map (·.text)).map (·.bytes)).filterMap component? = steps := by
    rw [List.map_map, List.filterMap_map]
    refine (List.filterMap_congr fun component hmem => ?_).trans List.filterMap_some
    exact (hsteps component hmem).2
  rw [components_foldl_push hpath hsegments, hread]

theorem Component.IsStep.shown_ne_nil (hstep : component.IsStep) : component.text.shown ≠ [] := by
  intro hnil
  have hread := hstep.2
  rw [OsText.eq_ofList_of_shown hnil (by simp)] at hread
  cases hread

/-- The component that is read from what is shown for one. -/
def Component.asShown : Component → Component
  | normal name => normal (OsText.ofList name.shown)
  | component => component

theorem Component.text_asShown (component : Component) :
    component.asShown.text = OsText.ofList component.text.shown := by
  cases component with
  | normal name => rfl
  | root | current | parent => decide

/-- Only a component that is a text is read back from what is shown for it. -/
theorem Component.asShown_eq_iff : component.asShown = component ↔ component.text.IsText := by
  cases component with
  | normal name => rw [asShown, normal.injEq, text, OsText.isText_iff]
  | root => exact ⟨fun _ => ⟨_, rfl⟩, fun _ => rfl⟩
  | current => exact ⟨fun _ => ⟨_, rfl⟩, fun _ => rfl⟩
  | parent => exact ⟨fun _ => ⟨_, rfl⟩, fun _ => rfl⟩

/-- A name stands for a step unless it is empty, reads as dots, or has a separator in it. -/
theorem Component.isStep_normal_iff {name : OsText} : (normal name).IsStep ↔
    name ≠ "" ∧ name ≠ "." ∧ name ≠ ".." ∧ slash ∉ name.bytes := by
  have hread (chars : String) : name ≠ chars ↔ name.bytes ≠ (OsText.ofString chars).bytes :=
    not_congr ⟨congrArg OsText.bytes, congrArg OsText.mk⟩
  have hnil : (OsText.ofString "").bytes = [] := rfl
  have hdot : (OsText.ofString ".").bytes = [dot] := rfl
  have hdots : (OsText.ofString "..").bytes = [dot, dot] := rfl
  have hnormal : component? name.bytes = some (normal name) ↔
      name.bytes ≠ [] ∧ name.bytes ≠ [dot] ∧ name.bytes ≠ [dot, dot] := by
    rw [component?]
    split_ifs with hnone hparent
    · simp only [false_iff]
      tauto
    · simp [hparent]
    · simp [not_or.mp hnone, hparent]
  rw [hread, hread, hread, hnil, hdot, hdots, IsStep, text, hnormal]
  tauto

/-- What is shown for a step stands for a step: a name that is shown as dots has to be dots. -/
theorem Component.IsStep.asShown (hstep : component.IsStep) : component.asShown.IsStep := by
  cases component with
  | root => exact hstep
  | current => exact hstep
  | parent => exact hstep
  | normal name =>
    obtain ⟨hempty, hdot, hdots, hslash⟩ := isStep_normal_iff.mp hstep
    have hshown (s : String) (hascii : ∀ c ∈ s.toList, c.toNat < 0x80) (hne : name ≠ s) :
        OsText.ofList name.shown ≠ s :=
      fun heq => hne (OsText.eq_ofList_of_shown (OsText.ofList_inj.mp heq) hascii)
    have hnone : '/' ∉ name.shown := OsText.notMem_shown (by decide) hslash
    exact isStep_normal_iff.mpr ⟨hshown "" (by simp) hempty, hshown "." (by simp) hdot,
      hshown ".." (by simp) hdots, OsText.notMem_bytes_ofList (by decide) hnone⟩

end LocalPath

end Reconcile
