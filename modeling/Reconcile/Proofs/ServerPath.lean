import Reconcile.ServerPath

namespace Reconcile

theorem Text.equalIgnoringCase_iff {s t : String} :
    equalIgnoringCase s t = true ↔ lowerAsciiText s.toList = lowerAsciiText t.toList := by
  rw [equalIgnoringCase, beq_iff_eq]

namespace ServerPath

variable {path other folder item : ServerPath}

/-- The name that a path is compared by as a folder. -/
def folded (path : ServerPath) : List Char :=
  Text.lowerAsciiText path.stem

/-- An item lies under a folder if it is the folder or goes on behind a slash, up to case. -/
theorem isUnder_iff :
    item.isUnder folder = true ↔ Text.lowerAsciiText item.toList = folder.folded ∨
      folder.folded ++ ['/'] <+: Text.lowerAsciiText item.toList := by
  rw [isUnder, Bool.or_eq_true, beq_iff_eq, List.isPrefixOf_iff_prefix, folded]

/-- Names that differ in case only lie under the same folders. -/
theorem isUnder_congr (hcase : Text.equalIgnoringCase path other = true) (folder : ServerPath) :
    path.isUnder folder = other.isUnder folder := by
  rw [isUnder, isUnder, Text.equalIgnoringCase_iff.mp hcase]

/-- A name goes on with slashes alone where the name it is compared by as a folder ends. -/
theorem eq_folded_or_slash (path : ServerPath) :
    Text.lowerAsciiText path.toList = path.folded ∨
      path.folded ++ ['/'] <+: Text.lowerAsciiText path.toList := by
  obtain ⟨cut, hpath, hcut⟩ := Text.exists_trimEnd_append (· == '/') path.toList
  have hlower := congrArg Text.lowerAsciiText hpath
  rw [Text.lowerAsciiText_append] at hlower
  rw [hlower, folded, stem]
  cases cut with
  | nil => exact Or.inl (List.append_nil _)
  | cons c cut =>
    obtain rfl : c = '/' := by simpa using hcut c List.mem_cons_self
    exact Or.inr ⟨Text.lowerAsciiText cut, by rw [List.append_assoc]; rfl⟩

theorem folded_of_isUnder (hitem : item.isUnder folder = true) :
    folder.folded <+: Text.lowerAsciiText item.toList := by
  rcases isUnder_iff.mp hitem with heq | hstart
  · exact heq ▸ List.prefix_rfl
  · exact (List.prefix_append _ _).trans hstart

theorem isUnder_of_folded
    (hfolded : path.folded = folder.folded ∨ folder.folded ++ ['/'] <+: path.folded) :
    path.isUnder folder = true := by
  rw [isUnder_iff]
  rcases hfolded with heq | hstart
  · rw [← heq]
    exact eq_folded_or_slash path
  · rcases eq_folded_or_slash path with hpath | hpath
    · rw [hpath]
      exact Or.inr hstart
    · exact Or.inr (hstart.trans ((List.prefix_append _ _).trans hpath))

/-- Between a folder and an item under it stand only the folder itself and what is under it. -/
theorem isUnder_of_between (hitem : item.isUnder folder = true)
    (hpath : path.folded <+: Text.lowerAsciiText item.toList)
    (hfolder : folder.folded <+: path.folded) : path.isUnder folder = true := by
  refine isUnder_of_folded ?_
  rcases isUnder_iff.mp hitem with heq | hstart
  · rw [heq] at hpath
    exact Or.inl (hpath.eq_of_length_le hfolder.length_le)
  · rcases List.prefix_or_prefix_of_prefix hstart hpath with hslash | hslash
    · exact Or.inr hslash
    · by_cases hlength : path.folded.length ≤ folder.folded.length
      · exact Or.inl (hfolder.eq_of_length_le hlength).symm
      · have hlonger : (folder.folded ++ ['/']).length ≤ path.folded.length := by
          rw [List.length_append, List.length_singleton]
          omega
        exact Or.inr (hslash.eq_of_length_le hlonger ▸ List.prefix_rfl)

/-- Of two folders above one item, one lies under the other. -/
theorem isUnder_or_isUnder (hpath : item.isUnder path = true) (hother : item.isUnder other = true) :
    path.isUnder other = true ∨ other.isUnder path = true := by
  rcases List.prefix_or_prefix_of_prefix (folded_of_isUnder hpath) (folded_of_isUnder hother) with
    hstart | hstart
  · exact Or.inr (isUnder_of_between hpath (folded_of_isUnder hother) hstart)
  · exact Or.inl (isUnder_of_between hother (folded_of_isUnder hpath) hstart)

theorem lowerAscii_eq_slash_iff {c : Char} : Text.lowerAscii c = '/' ↔ c = '/' :=
  Text.lowerAscii_rec (p := fun c lower => lower = '/' ↔ c = '/') (by decide) (fun _ => Iff.rfl) c

/-- An item under a folder is the name of the folder in letters of any case, and then nothing or a
slash and more. -/
theorem exists_append_of_isUnder (hitem : item.isUnder folder = true) :
    ∃ mapped rest, item.toList = mapped ++ rest ∧
      Text.lowerAsciiText mapped = Text.lowerAsciiText folder.stem ∧
      (rest = [] ∨ ∃ more, rest = '/' :: more) := by
  have hlength : folder.folded.length = folder.stem.length := Text.length_lowerAsciiText _
  refine ⟨item.toList.take folder.stem.length, item.toList.drop folder.stem.length,
    (List.take_append_drop _ _).symm, ?_, ?_⟩
  · have hstart := folded_of_isUnder hitem
    rw [List.prefix_iff_eq_take, hlength] at hstart
    rw [Text.lowerAsciiText, List.map_take]
    exact hstart.symm
  · rcases isUnder_iff.mp hitem with heq | ⟨more, hstart⟩
    · have hsame := congrArg List.length heq
      rw [Text.length_lowerAsciiText, hlength] at hsame
      exact Or.inl (List.drop_eq_nil_of_le (Nat.le_of_eq hsame))
    · have hrest := congrArg (List.drop folder.stem.length) hstart
      rw [List.append_assoc, List.drop_append_of_le_length (Nat.le_of_eq hlength.symm),
        List.drop_eq_nil_of_le (Nat.le_of_eq hlength), List.nil_append, Text.lowerAsciiText,
        ← List.map_drop] at hrest
      cases hdrop : item.toList.drop folder.stem.length with
      | nil => exact Or.inl rfl
      | cons c more =>
        rw [hdrop] at hrest
        obtain ⟨hslash, -⟩ := List.cons.inj hrest
        exact Or.inr ⟨more, by rw [lowerAscii_eq_slash_iff.mp hslash.symm]⟩

end ServerPath

end Reconcile
