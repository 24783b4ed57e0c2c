import Mathlib.Data.List.Infix
import Reconcile.Proofs.LocalPath
import Reconcile.Proofs.ServerPath
import Reconcile.Proofs.ServerPath.Project

namespace Reconcile

namespace Text

variable {separator c : Char} {s t : List Char}

/-- A character that is no separator belongs to the first piece. -/
theorem exists_splitOn_cons (hc : c ≠ separator) (s : List Char) : ∃ piece pieces,
    splitOn separator s = piece :: pieces ∧ splitOn separator (c :: s) = (c :: piece) :: pieces := by
  obtain ⟨piece, pieces, hs⟩ := List.exists_cons_of_ne_nil (splitOn_ne_nil separator s)
  exact ⟨piece, pieces, hs, by rw [splitOn, if_neg hc, hs]⟩

/-- The pieces of a text are the first pieces of the texts that are equal to it or go on with a separator. -/
theorem splitOn_prefix_iff :
    splitOn separator s <+: splitOn separator t ↔ s = t ∨ s ++ [separator] <+: t := by
  induction s generalizing t with
  | nil =>
    cases t with
    | nil => simp
    | cons d t =>
      by_cases hd : d = separator
      · simp [splitOn, hd]
      · obtain ⟨piece, pieces, -, ht⟩ := exists_splitOn_cons hd t
        rw [ht]
        simp [splitOn, Ne.symm hd]
  | cons c s ih =>
    by_cases hc : c = separator
    · obtain ⟨first, rest, hs⟩ := List.exists_cons_of_ne_nil (splitOn_ne_nil separator s)
      cases t with
      | nil => simp [splitOn, hc, hs]
      | cons d t =>
        by_cases hd : d = separator
        · simp [splitOn, hc, hd, ih]
        · obtain ⟨piece, pieces, -, ht⟩ := exists_splitOn_cons hd t
          rw [ht]
          simp [splitOn, hc, Ne.symm hd]
    · obtain ⟨piece, pieces, hs, hcs⟩ := exists_splitOn_cons hc s
      cases t with
      | nil =>
        rw [hcs]
        simp [splitOn]
      | cons d t =>
        by_cases hd : d = separator
        · rw [hcs]
          simp [splitOn, hd, hc]
        · obtain ⟨piece', pieces', ht, hdt⟩ := exists_splitOn_cons hd t
          have hrest := ih (t := t)
          rw [hs, ht, List.cons_prefix_cons] at hrest
          rw [hcs, hdt, List.cons_append, List.cons_prefix_cons, List.cons_prefix_cons, List.cons.injEq,
            List.cons.injEq, and_assoc, hrest, and_or_left]

/-- Nothing that could be trimmed off is left at the end of a text that was trimmed. -/
theorem eq_nil_of_trimEnd_eq {p : Char → Bool} {front cut : List Char}
    (htrim : trimEnd p s = front ++ cut) (hcut : ∀ c ∈ cut, p c = true) : cut = [] := by
  rcases List.eq_nil_or_concat' cut with rfl | ⟨middle, c, rfl⟩
  · rfl
  · have hkept := List.head?_dropWhile_not p s.reverse
    rw [trimEnd, List.reverse_eq_iff, ← List.append_assoc, List.reverse_concat] at htrim
    rw [htrim] at hkept
    simp [hcut c List.mem_concat_self] at hkept

end Text

namespace ServerPath

variable {path other folder item : ServerPath}

theorem folded_eq_trimEnd (path : ServerPath) :
    path.folded = Text.trimEnd (· == '/') (Text.lowerAsciiText path.toList) := by
  have hslash : (· == '/') ∘ Text.lowerAscii = (· == '/') := by
    funext c
    rw [Function.comp_apply, Bool.eq_iff_iff, beq_iff_eq, beq_iff_eq, lowerAscii_eq_slash_iff]
  rw [folded, stem, Text.trimEnd, Text.trimEnd, Text.lowerAsciiText, Text.lowerAsciiText,
    ← List.map_reverse, List.dropWhile_map, hslash, List.map_reverse]

/-- Whether an item lies under a folder can be told by the names of both as folders. -/
theorem isUnder_iff_folded : item.isUnder folder = true ↔
    folder.folded = item.folded ∨ folder.folded ++ ['/'] <+: item.folded := by
  refine ⟨fun hitem => ?_, fun hfolded => isUnder_of_folded (hfolded.imp_left Eq.symm)⟩
  obtain ⟨cut, hlower, hcut⟩ := Text.exists_trimEnd_append (· == '/') (Text.lowerAsciiText item.toList)
  rw [← folded_eq_trimEnd] at hlower
  rw [isUnder_iff, hlower] at hitem
  have hnone {name slashes : List Char} (hfolder : folder.folded = name ++ slashes)
      (hslashes : ∀ c ∈ slashes, (c == '/') = true) : slashes = [] :=
    Text.eq_nil_of_trimEnd_eq (folded_eq_trimEnd folder ▸ hfolder) hslashes
  rcases hitem with heq | ⟨more, hstart⟩
  · rw [hnone heq.symm hcut, List.append_nil] at heq
    exact Or.inl heq.symm
  · rw [List.append_assoc, List.append_eq_append_iff] at hstart
    rcases hstart with ⟨rest, hfolded, hrest⟩ | ⟨rest, hfolded, hrest⟩
    · rw [hfolded]
      cases rest with
      | nil => exact Or.inl (List.append_nil _).symm
      | cons c rest =>
        obtain ⟨rfl, -⟩ := List.cons.inj hrest
        exact Or.inr ⟨rest, by simp⟩
    · -- The slash behind the folder is one of those at the end of the item.
      have hslashes : ∀ c ∈ rest, (c == '/') = true :=
        fun c hc => hcut c (hrest ▸ List.mem_append_left _ hc)
      rw [hnone hfolded hslashes, List.append_nil] at hfolded
      exact Or.inl hfolded

/-- Which folder is meant depends neither on the case of its name nor on the slashes at its end. -/
theorem folded_append_congr (hcase : Text.equalIgnoringCase path other = true)
    {slashes slashes' : List Char} (hslashes : ∀ c ∈ slashes, c = '/')
    (hslashes' : ∀ c ∈ slashes', c = '/') :
    folded (path ++ String.ofList slashes) = folded (other ++ String.ofList slashes') := by
  have hstem (name : ServerPath) {slashes : List Char} (hslashes : ∀ c ∈ slashes, c = '/') :
      folded (name ++ String.ofList slashes) = name.folded := by
    rw [folded, folded, stem, stem, String.toList_append, String.toList_ofList,
      Text.trimEnd_append fun c hc => beq_iff_eq.mpr (hslashes c hc)]
  rw [hstem path hslashes, hstem other hslashes', folded_eq_trimEnd, folded_eq_trimEnd,
    Text.equalIgnoringCase_iff.mp hcase]

/-- The names on the way from the top of the tree to a path. -/
def levels (path : ServerPath) : List (List Char) :=
  Text.splitOn '/' path.folded

/-- What lies under a folder are the paths whose levels begin with those of the folder. -/
theorem isUnder_iff_levels : item.isUnder folder = true ↔ folder.levels <+: item.levels := by
  rw [isUnder_iff_folded, levels, levels, Text.splitOn_prefix_iff]

theorem isUnder_refl (path : ServerPath) : path.isUnder path = true :=
  isUnder_iff_levels.mpr List.prefix_rfl

theorem isUnder_trans (hitem : item.isUnder path = true) (hpath : path.isUnder folder = true) :
    item.isUnder folder = true := by
  rw [isUnder_iff_levels] at hitem hpath ⊢
  exact hpath.trans hitem

/-- Paths that lie under one another have the same name as folders. -/
theorem folded_eq_of_isUnder (hpath : path.isUnder other = true) (hother : other.isUnder path = true) :
    path.folded = other.folded := by
  rw [isUnder_iff_folded] at hpath hother
  rcases hpath with heq | hlonger
  · exact heq.symm
  · rcases hother with heq | hlonger'
    · exact heq
    · have hlength := hlonger.length_le
      have hlength' := hlonger'.length_le
      rw [List.length_append, List.length_singleton] at hlength hlength'
      omega

theorem isUnder_append (folder rest : ServerPath) : isUnder (folder ++ "/" ++ rest) folder = true := by
  rw [isUnder_iff, String.toList_append, String.toList_append, Text.lowerAsciiText_append,
    Text.lowerAsciiText_append]
  right
  rcases eq_folded_or_slash folder with heq | hslash
  · rw [heq]
    exact List.prefix_append _ _
  · rw [List.append_assoc]
    exact hslash.trans (List.prefix_append _ _)

theorem isUnder_project (path : ServerPath) : path.isUnder path.project = true := by
  by_cases hroot : root <+: path.toList
  · rcases eq_project_append hroot with hinside | ⟨hproject, -⟩
    · have hunder := isUnder_append path.project path.insideProject
      rwa [← hinside] at hunder
    · have hunder := isUnder_refl path
      rwa [← hproject]
  · rw [project_outside hroot]
    exact isUnder_refl path

/-- Lying under a folder is an order by levels: every path lies under itself and under whatever a folder
above it lies under; paths under one another differ only in case and in slashes at the end; and of two
folders above one item, one lies under the other. Neither the case of the letters nor slashes at the end of
the folder matter. And every path lies under its team project. -/
theorem isUnder_orders_by_levels (item path folder : ServerPath) :
    (item.isUnder folder = true ↔ folder.levels <+: item.levels) ∧
    path.isUnder path = true ∧
    (item.isUnder path = true → path.isUnder folder = true → item.isUnder folder = true) ∧
    (path.isUnder folder = true → folder.isUnder path = true → path.folded = folder.folded) ∧
    (item.isUnder path = true → item.isUnder folder = true →
      path.isUnder folder = true ∨ folder.isUnder path = true) ∧
    (∀ (item' folder' : ServerPath) (count count' : Nat), Text.equalIgnoringCase item item' = true →
      Text.equalIgnoringCase folder folder' = true →
      isUnder item' (folder' ++ String.ofList (List.replicate count' '/')) =
        isUnder item (folder ++ String.ofList (List.replicate count '/'))) ∧
    path.isUnder path.project = true := by
  refine ⟨isUnder_iff_levels, isUnder_refl path, isUnder_trans, folded_eq_of_isUnder, isUnder_or_isUnder,
    fun item' folder' count count' hitem hfolder => ?_, isUnder_project path⟩
  have hname := folded_append_congr hfolder (fun c => List.eq_of_mem_replicate (n := count))
    (fun c => List.eq_of_mem_replicate (n := count'))
  rw [← isUnder_congr hitem, Bool.eq_iff_iff, isUnder_iff_folded, isUnder_iff_folded, hname]

/-- The slash that ends the name of a folder is no level of its own, but an empty name between two slashes
is one. -/
theorem isUnder_orders_by_levels_respelled :
    isUnder "$/proj/SRC/x" "$/Proj/src//" = true ∧ isUnder "$/Proj/src//" "$/PROJ/" = true ∧
      isUnder "$/proj/SRC/x" "$/PROJ/" = true ∧
      isUnder "$/PROJ//src/x" "$/PROJ/" = isUnder "$/proj//SRC/X" "$/Proj///" ∧
      isUnder "$/proj//SRC/X" (project "$/proj//SRC/X") = true := by
  have hitem : isUnder "$/proj/SRC/x" "$/Proj/src//" = true := by decide +kernel
  have hpath : isUnder "$/Proj/src//" "$/PROJ/" = true := by decide +kernel
  obtain ⟨-, -, htrans, -⟩ := isUnder_orders_by_levels "$/proj/SRC/x" "$/Proj/src//" "$/PROJ/"
  obtain ⟨-, -, -, -, -, hspelling, hproject⟩ :=
    isUnder_orders_by_levels "$/proj//SRC/X" "$/proj//SRC/X" "$/Proj"
  exact ⟨hitem, hpath, htrans hitem hpath,
    hspelling "$/PROJ//src/x" "$/PROJ" 3 1 (by decide +kernel) (by decide +kernel), hproject⟩

end ServerPath

end Reconcile
