import Reconcile.Proofs.Workspace.RoundTrip

namespace Reconcile

namespace ServerPath

/-- The names between the slashes of a text. -/
def segments (text : List Char) : List (List Char) :=
  (Text.splitOn '/' text).filter (· ≠ [])

/-- A text without the slashes that stand before another slash or at its end. -/
def squeezed : List Char → List Char
  | [] => []
  | c :: text =>
    if c = '/' ∧ (squeezed text).head?.all (· == '/') then squeezed text else c :: squeezed text

/-- Squeezing drops the pieces between slashes that are empty. -/
theorem squeezed_eq {text piece : List Char} {pieces : List (List Char)}
    (hsplit : Text.splitOn '/' text = piece :: pieces) :
    squeezed text = piece ++ (pieces.filter (· ≠ [])).flatMap ('/' :: ·) := by
  induction text generalizing piece pieces with
  | nil =>
    cases hsplit
    rfl
  | cons c text ih =>
    obtain ⟨first, rest, hrest⟩ := List.exists_cons_of_ne_nil (Text.splitOn_ne_nil '/' text)
    have htail := ih hrest
    by_cases hslash : c = '/'
    · subst hslash
      have hpieces : [] :: first :: rest = piece :: pieces := by
        rw [← hsplit, Text.splitOn, if_pos rfl, hrest]
      cases hpieces
      cases first with
      | nil =>
        -- The slash before an empty piece is one of those that go.
        have hgoes : (squeezed text).head?.all (· == '/') = true := by
          rw [htail]
          cases rest.filter (· ≠ []) <;> rfl
        rw [squeezed, if_pos ⟨rfl, hgoes⟩, htail]
        simp
      | cons d first =>
        have hpiece : '/' ∉ d :: first :=
          Text.notMem_of_mem_splitOn (s := text) (hrest ▸ List.mem_cons_self)
        have hname : d ≠ '/' := fun heq => hpiece (heq ▸ List.mem_cons_self)
        have hstays : (squeezed text).head?.all (· == '/') = false := by
          rw [htail]
          simpa using hname
        rw [squeezed, if_neg (by simp [hstays]), htail]
        simp
    · have hpieces : (c :: first) :: rest = piece :: pieces := by
        rw [← hsplit, Text.splitOn, if_neg hslash, hrest]
      cases hpieces
      rw [squeezed, if_neg (by simp [hslash]), htail, List.cons_append]

/-- Behind a folder, the segments with a slash before each of them are the text that is squeezed. -/
theorem flatMap_segments {text : List Char} (htext : text = [] ∨ ∃ more, text = '/' :: more) :
    (segments text).flatMap ('/' :: ·) = squeezed text := by
  have hhead : ∃ pieces, Text.splitOn '/' text = [] :: pieces := by
    rcases htext with rfl | ⟨more, rfl⟩
    · exact ⟨[], rfl⟩
    · exact ⟨Text.splitOn '/' more, by rw [Text.splitOn, if_pos rfl]⟩
  obtain ⟨pieces, hpieces⟩ := hhead
  rw [squeezed_eq hpieces, segments, hpieces, List.filter_cons_of_neg (by simp), List.nil_append]

theorem notMem_of_mem_segments {text segment : List Char} (hsegment : segment ∈ segments text) :
    '/' ∉ segment :=
  Text.notMem_of_mem_splitOn (List.mem_of_mem_filter hsegment)

/-- No segment behind a folder is a dot if none of the whole path is. -/
theorem ne_of_mem_segments {item mapped rest segment : List Char} (hitem : item = mapped ++ rest)
    (hrest : rest = [] ∨ ∃ more, rest = '/' :: more) (hdots : ['.'] ∉ Text.splitOn '/' item)
    (hsegment : segment ∈ segments rest) : segment ≠ [] ∧ segment ≠ ['.'] := by
  obtain ⟨hpiece, hne⟩ := List.mem_filter.mp hsegment
  refine ⟨by simpa using hne, ?_⟩
  rintro rfl
  rcases hrest with rfl | ⟨more, rfl⟩
  · simp [Text.splitOn] at hpiece
  · have hmore : ['.'] ∈ Text.splitOn '/' more := by simpa [Text.splitOn] using hpiece
    rw [hitem, Text.splitOn_append_separator] at hdots
    exact hdots (List.mem_append_right _ hmore)

end ServerPath

namespace WorkingFolder

variable {folder : WorkingFolder} {item : ServerPath} {mapped rest : List Char}

/-- The segments behind the name of the folder are pushed onto its local path, however the name is
    spelled. -/
theorem toLocal_eq (hitem : item.toList = mapped ++ rest)
    (hmapped : Text.lowerAsciiText mapped = Text.lowerAsciiText folder.serverPath.stem) :
    folder.toLocal item =
      ((ServerPath.segments rest).map OsText.ofList).foldl LocalPath.push folder.localPath := by
  have hlength := congrArg List.length hmapped
  rw [Text.length_lowerAsciiText, Text.length_lowerAsciiText] at hlength
  rw [toLocal, hitem, ← hlength, List.drop_left]
  rfl

/-- Each segment becomes a component, but for those that are a single dot. -/
theorem components_toLocal (hfolder : folder.localPath.text ≠ "")
    (hitem : item.toList = mapped ++ rest)
    (hmapped : Text.lowerAsciiText mapped = Text.lowerAsciiText folder.serverPath.stem) :
    (folder.toLocal item).components = folder.localPath.components ++
      (((ServerPath.segments rest).map OsText.ofList).map (·.bytes)).filterMap
        LocalPath.component? := by
  have hsegments : ∀ segment ∈ (ServerPath.segments rest).map OsText.ofList,
      LocalPath.slash ∉ segment.bytes := by
    intro segment hsegment
    obtain ⟨chars, hchars, rfl⟩ := List.mem_map.mp hsegment
    exact OsText.notMem_bytes_ofList (by decide) (ServerPath.notMem_of_mem_segments hchars)
  rw [toLocal_eq hitem hmapped, LocalPath.components_foldl_push hfolder hsegments]

/-- Forth and back through one folder, a server path keeps the segments behind the folder. -/
theorem toList_toServer_toLocal (hfolder : folder.localPath.text ≠ "")
    (hitem : item.toList = mapped ++ rest)
    (hmapped : Text.lowerAsciiText mapped = Text.lowerAsciiText folder.serverPath.stem)
    (hsegments : ∀ segment ∈ ServerPath.segments rest, segment ≠ [] ∧ segment ≠ ['.']) :
    (folder.toServer (folder.toLocal item)).toList =
      folder.serverPath.stem ++ (ServerPath.segments rest).flatMap ('/' :: ·) := by
  have hbelow : (folder.toLocal item).below folder.localPath =
      (((ServerPath.segments rest).map OsText.ofList).map (·.bytes)).filterMap
        LocalPath.component? := by
    rw [LocalPath.below, components_toLocal hfolder hitem hmapped, LocalPath.depth, List.drop_left]
  have hnames : ∀ name ∈ (ServerPath.segments rest).map OsText.ofList,
      name.bytes ≠ [] ∧ name.bytes ≠ [LocalPath.dot] := by
    intro name hname
    obtain ⟨segment, hsegment, rfl⟩ := List.mem_map.mp hname
    obtain ⟨hempty, hdot⟩ := hsegments segment hsegment
    have hne {chars : List Char} (hchars : segment ≠ chars) :
        (OsText.ofList segment).bytes ≠ (OsText.ofList chars).bytes :=
      fun heq => hchars (OsText.ofList_inj.mp (congrArg OsText.mk heq))
    exact ⟨hne hempty, hne hdot⟩
  have hread : ((((ServerPath.segments rest).map OsText.ofList).map (·.bytes)).filterMap
      LocalPath.component?).map (·.text.shown) = ServerPath.segments rest := by
    calc _ = ((((ServerPath.segments rest).map OsText.ofList).map (·.bytes)).filterMap
          LocalPath.component? |>.map (·.text)).map OsText.shown := (List.map_map ..).symm
      _ = ((ServerPath.segments rest).map OsText.ofList).map OsText.shown := by
        rw [LocalPath.map_text_filterMap_component? hnames]
      _ = (ServerPath.segments rest).map id := by
        rw [List.map_map]
        exact List.map_congr_left fun segment _ => OsText.shown_ofList segment
      _ = ServerPath.segments rest := List.map_id _
  rw [toList_toServer, hbelow, hread]

end WorkingFolder

namespace Workspace

variable {workspace : Workspace} {path : LocalPath} {item : ServerPath} {folder : WorkingFolder}

/-- The folder that answers is one of the workspace and covers the item. -/
theorem mem_of_serverFolder? (hfolder : workspace.serverFolder? item = some folder) :
    folder ∈ workspace.folders ∧ item.isUnder folder.serverPath = true := by
  rw [serverFolder?] at hfolder
  exact List.mem_filter.mp (mem_of_deepest? hfolder)

/-- A folder answers for a local path if no other one covers it as deeply. -/
theorem localFolder?_of_deepest (hmem : folder ∈ workspace.folders)
    (hcovers : path.startsWith folder.localPath = true)
    (hdeepest : ∀ other ∈ workspace.folders, other ≠ folder →
      folder.localPath.depth ≤ other.localPath.depth → path.startsWith other.localPath = false) :
    workspace.localFolder? path = some folder := by
  rw [localFolder?]
  refine deepest?_eq_some (List.mem_filter.mpr ⟨hmem, hcovers⟩) fun other hother hne => ?_
  obtain ⟨hthere, hstarts⟩ := List.mem_filter.mp hother
  by_contra hnot
  rw [hdeepest other hthere hne (by omega)] at hstarts
  cases hstarts

/-- The local path of a server path without dots leads back to the server, unless a folder other than the
one that mapped it covers the local path as deeply. It leads to the name of the folder and then to what
followed the name in the first path, slashes that separate nothing aside. -/
theorem toServer?_of_toLocal?
    (hfolders : ∀ folder ∈ workspace.folders, folder.localPath.text ≠ "")
    (hdots : ['.'] ∉ Text.splitOn '/' item.toList)
    (hpath : workspace.toLocal? item = some path)
    (hfolder : workspace.serverFolder? item = some folder)
    (hdeepest : ∀ other ∈ workspace.folders, other ≠ folder →
      folder.localPath.depth ≤ other.localPath.depth → path.startsWith other.localPath = false) :
    ∃ mapped rest back, item.toList = mapped ++ rest ∧
      (rest = [] ∨ ∃ more, rest = '/' :: more) ∧
      Text.lowerAsciiText mapped = Text.lowerAsciiText folder.serverPath.stem ∧
      workspace.toServer? path = some back ∧
      back.toList = folder.serverPath.stem ++ (ServerPath.segments rest).flatMap ('/' :: ·) ∧
      back.toList = folder.serverPath.stem ++ ServerPath.squeezed rest ∧
      back.isUnder folder.serverPath = true := by
  obtain ⟨hmem, hunder⟩ := mem_of_serverFolder? hfolder
  obtain ⟨mapped, rest, hitem, hmapped, hrest⟩ := ServerPath.exists_append_of_isUnder hunder
  have hlocal : path = folder.toLocal item := by
    rw [toLocal?, hfolder, Option.map_some] at hpath
    exact (Option.some.inj hpath).symm
  have hcovers : path.startsWith folder.localPath = true := by
    rw [LocalPath.startsWith_iff, hlocal,
      WorkingFolder.components_toLocal (hfolders folder hmem) hitem hmapped]
    exact List.prefix_append _ _
  have hback : workspace.toServer? path = some (folder.toServer path) := by
    rw [toServer?, localFolder?_of_deepest hmem hcovers hdeepest, Option.map_some]
  have hsegments : (folder.toServer path).toList =
      folder.serverPath.stem ++ (ServerPath.segments rest).flatMap ('/' :: ·) := by
    rw [hlocal]
    refine WorkingFolder.toList_toServer_toLocal (hfolders folder hmem) hitem hmapped ?_
    exact fun segment => ServerPath.ne_of_mem_segments hitem hrest hdots
  refine ⟨mapped, rest, folder.toServer path, hitem, hrest, hmapped, hback, hsegments, ?_,
    WorkingFolder.isUnder_toServer⟩
  rw [hsegments, ServerPath.flatMap_segments hrest]

/-- The project is spelled in small letters, and the path below it goes up and has idle slashes. -/
theorem toServer?_of_toLocal?_respelled :
    let workspace : Workspace := ⟨"main", "alice", .ofUri "http://server",
      [⟨"$/Proj/", ⟨"/w/p/."⟩⟩, ⟨"$/", ⟨"/w"⟩⟩]⟩
    workspace.toLocal? "$/proj//../SRC/a.txt/" = some ⟨"/w/p/./../SRC/a.txt"⟩ ∧
      workspace.toServer? ⟨"/w/p/./../SRC/a.txt"⟩ = some "$/Proj/../SRC/a.txt" ∧
      ServerPath.isUnder "$/Proj/../SRC/a.txt" "$/Proj/" = true := by
  intro workspace
  have hpath : workspace.toLocal? "$/proj//../SRC/a.txt/" = some ⟨"/w/p/./../SRC/a.txt"⟩ := by
    decide +kernel
  have hfolder : workspace.serverFolder? "$/proj//../SRC/a.txt/" = some ⟨"$/Proj/", ⟨"/w/p/."⟩⟩ := by
    decide +kernel
  have hfolders : ∀ folder ∈ workspace.folders, folder.localPath.text ≠ "" := by decide
  obtain ⟨mapped, rest, back, hitem, -, hmapped, hback, -, hsqueezed, hunder⟩ :=
    toServer?_of_toLocal? hfolders (by decide +kernel) hpath hfolder (by decide +kernel)
  have hlength := congrArg List.length hmapped
  rw [Text.length_lowerAsciiText, Text.length_lowerAsciiText] at hlength
  have hrest : rest = "//../SRC/a.txt/".toList := by
    have hdrop := congrArg (List.drop mapped.length) hitem
    rw [List.drop_left, hlength] at hdrop
    exact hdrop.symm
  have hname : back = "$/Proj/../SRC/a.txt" := by
    rw [hrest] at hsqueezed
    exact String.toList_inj.mp (hsqueezed.trans (by decide +kernel))
  rw [hname] at hback hunder
  exact ⟨hpath, hback, hunder⟩

end Workspace

end Reconcile
