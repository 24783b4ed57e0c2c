import Mathlib.Data.List.TakeWhile
import Reconcile.Proofs.Text.Trim
import Reconcile.ServerPath

namespace Reconcile.ServerPath

/-- The forms that a path can have, by the name of its project. -/
inductive Form : ServerPath → Prop
  | outside {path : ServerPath} (hroot : ¬ root <+: path.toList) : Form path
  | root : Form (String.ofList root)
  | project {name : List Char} (hname : '/' ∉ name) (hne : name ≠ []) :
      Form (String.ofList (ServerPath.root ++ name))
  | inside {name : List Char} (hname : '/' ∉ name) (inside : List Char) :
      Form (String.ofList (ServerPath.root ++ (name ++ '/' :: inside)))

variable {path : ServerPath} {name : List Char}

/-- Every path has one of the forms: outside the root, a project, or something inside one. -/
theorem form (path : ServerPath) : path.Form := by
  by_cases hroot : root <+: path.toList
  · obtain ⟨rest, hrest⟩ := hroot
    rw [← String.ofList_toList (s := path), ← hrest]
    by_cases hslash : '/' ∈ rest
    · obtain ⟨name, inside, rfl, hname⟩ := List.eq_append_cons_of_mem hslash
      exact .inside hname inside
    · cases rest with
      | nil => exact .root
      | cons c rest => exact .project hslash (List.cons_ne_nil c rest)
  · exact .outside hroot

theorem bne_slash_of_mem (hname : '/' ∉ name) : ∀ c ∈ name, (c != '/') = true :=
  fun _ hc => bne_iff_ne.mpr (ne_of_mem_of_not_mem hc hname)

theorem after?_root (name : List Char) : Text.after? root (root ++ name) = some name :=
  Text.after?_eq_some_iff.mpr rfl

theorem after?_outside (hroot : ¬ root <+: path.toList) : Text.after? root path.toList = none := by
  cases hafter : Text.after? root path.toList with
  | none => rfl
  | some rest => exact absurd ⟨rest, (Text.after?_eq_some_iff.mp hafter).symm⟩ hroot

theorem project_outside (hroot : ¬ root <+: path.toList) : path.project = path := by
  rw [project, after?_outside hroot]

theorem project_root : project (String.ofList root) = "$" := by
  decide +kernel

theorem insideProject_root : insideProject (String.ofList root) = "" := by
  decide +kernel

theorem project_of_name (hname : '/' ∉ name) (hne : name ≠ []) :
    project (String.ofList (root ++ name)) = String.ofList (root ++ name) := by
  obtain ⟨front, c, rfl⟩ := (List.eq_nil_or_concat' name).resolve_left hne
  have hlast : (c == '/') = false := by
    rw [beq_eq_false_iff_ne]
    rintro rfl
    exact hname List.mem_concat_self
  rw [project, stem, String.toList_ofList, after?_root]
  dsimp only
  rw [if_neg hname, ← List.append_assoc, Text.trimEnd_concat (p := (· == '/')) hlast]

theorem insideProject_of_name (hname : '/' ∉ name) :
    insideProject (String.ofList (root ++ name)) = "" := by
  rw [insideProject, String.toList_ofList, after?_root]
  simp [List.dropWhile_eq_nil_iff.mpr (bne_slash_of_mem hname)]

/-- The first slash behind the root ends the name of the project. -/
theorem project_of_inside (hname : '/' ∉ name) (inside : List Char) :
    project (String.ofList (root ++ (name ++ '/' :: inside))) = String.ofList (root ++ name) := by
  rw [project, String.toList_ofList, after?_root]
  simp [List.takeWhile_append_of_pos (bne_slash_of_mem hname)]

/-- Inside a project lies what stands behind its name and a slash. -/
theorem insideProject_of_inside (hname : '/' ∉ name) (inside : List Char) :
    insideProject (String.ofList (root ++ (name ++ '/' :: inside))) = String.ofList inside := by
  rw [insideProject, String.toList_ofList, after?_root]
  simp [List.dropWhile_append_of_pos (bne_slash_of_mem hname)]

/-- Both parts of a path below the root are cut at the same slash. -/
theorem eq_project_append (hroot : root <+: path.toList) :
    path = path.project ++ "/" ++ path.insideProject ∨
      path = path.project ∧ path.insideProject = "" := by
  cases path.form with
  | outside houtside => exact absurd hroot houtside
  | root => exact Or.inl (by rw [project_root, insideProject_root]; rfl)
  | project hname hne =>
    exact Or.inr ⟨(project_of_name hname hne).symm, insideProject_of_name hname⟩
  | inside hname inside =>
    left
    rw [project_of_inside hname, insideProject_of_inside hname, ← String.ofList_toList (s := "/"),
      ← String.ofList_append, ← String.ofList_append]
    simp

theorem ofList_root_append_eq_iff : String.ofList (root ++ name) = "$/" ↔ name = [] := by
  rw [← String.toList_inj, String.toList_ofList]
  exact List.append_right_eq_self

/-- The project of a path is the root exactly if a second slash follows the root. -/
theorem project_eq_root_iff : path.project = "$/" ↔ root ++ ['/'] <+: path.toList := by
  cases path.form with
  | outside hroot =>
    rw [project_outside hroot]
    refine ⟨?_, fun hstart => absurd ((List.prefix_append root ['/']).trans hstart) hroot⟩
    rintro rfl
    exact absurd List.prefix_rfl hroot
  | root => decide +kernel
  | project hname hne =>
    rw [project_of_name hname hne, ofList_root_append_eq_iff, String.toList_ofList,
      List.prefix_append_right_inj]
    exact ⟨fun hnil => absurd hnil hne, fun hstart => absurd (hstart.subset List.mem_cons_self) hname⟩
  | @inside name hname inside =>
    rw [project_of_inside hname, ofList_root_append_eq_iff, String.toList_ofList,
      List.prefix_append_right_inj]
    cases name with
    | nil => simp
    | cons c name =>
      have hc : '/' ≠ c := (List.ne_and_not_mem_of_not_mem_cons hname).1
      simp [hc]

/-- A name behind the root is the name of a project, unless it is empty. -/
theorem project_ofList_iff (hname : '/' ∉ name) :
    project (String.ofList (root ++ name)) = String.ofList (root ++ name) ↔ name ≠ [] := by
  cases name with
  | nil => decide +kernel
  | cons c name =>
    have hne := List.cons_ne_nil c name
    exact iff_of_true (project_of_name hname hne) hne

/-- The project of a path is its own project, too, unless it is the root. -/
theorem project_project_iff : path.project.project = path.project ↔ path.project ≠ "$/" := by
  cases path.form with
  | outside hroot =>
    rw [project_outside hroot, project_outside hroot]
    refine iff_of_true rfl ?_
    rintro rfl
    exact hroot List.prefix_rfl
  | root => decide +kernel
  | project hname hne =>
    rw [project_of_name hname hne, Ne, ofList_root_append_eq_iff]
    exact project_ofList_iff hname
  | inside hname inside =>
    rw [project_of_inside hname, Ne, ofList_root_append_eq_iff]
    exact project_ofList_iff hname

end Reconcile.ServerPath
