import Reconcile.Proofs.Deepest
import Reconcile.Proofs.Text.Bytes
import Reconcile.Proofs.Text.Trim
import Reconcile.Proofs.Workspace.FromServer

namespace Reconcile

/-- Of two folders that cover a local path the less deep one covers the other. -/
theorem LocalPath.startsWith_of_depth_le {path folder other : LocalPath}
    (hfolder : path.startsWith folder = true) (hother : path.startsWith other = true)
    (hdepth : other.depth ≤ folder.depth) : folder.startsWith other = true := by
  rw [startsWith_iff] at hfolder hother ⊢
  exact List.prefix_of_prefix_length_le hother hfolder hdepth

namespace ServerPath

variable {path other folder item : ServerPath}

/-- Of two folders that cover an item the one with the shorter name covers the other. -/
theorem isUnder_of_length_le (hpath : item.isUnder path = true) (hother : item.isUnder other = true)
    (hlength : other.stem.length ≤ path.stem.length) : path.isUnder other = true := by
  have hfolded : other.folded.length ≤ path.folded.length := by simpa [folded] using hlength
  apply isUnder_of_between hother (folded_of_isUnder hpath)
  exact List.prefix_of_prefix_length_le (folded_of_isUnder hother) (folded_of_isUnder hpath) hfolded

/-- Of two folders above one item, the one whose name has fewer bytes has fewer characters. -/
theorem bytes_stem_lt_iff (hpath : item.isUnder path = true) (hother : item.isUnder other = true) :
    Text.bytes path.stem < Text.bytes other.stem ↔ path.stem.length < other.stem.length := by
  simpa [folded] using Text.bytes_lt_iff (folded_of_isUnder hpath) (folded_of_isUnder hother)

/-- An item under a folder can be cut at the byte where the name of the folder ends, and the part before
that is the name in letters of any case. -/
theorem exists_cut_of_isUnder (hitem : item.isUnder folder = true) :
    ∃ mapped rest : String, item = mapped ++ rest ∧
      mapped.utf8ByteSize = Text.bytes folder.stem ∧
      Text.equalIgnoringCase mapped (String.ofList folder.stem) = true ∧
      Text.fromByte? item (Text.bytes folder.stem) = some rest ∧
      rest.toList = item.toList.drop folder.stem.length := by
  obtain ⟨mapped, rest, hsplit, hmapped, -⟩ := exists_append_of_isUnder hitem
  have happend : item = String.ofList mapped ++ String.ofList rest := by
    rw [← String.ofList_append, ← hsplit, String.ofList_toList]
  have hbytes : (String.ofList mapped).utf8ByteSize = Text.bytes folder.stem :=
    Text.bytes_eq_of_lowerAsciiText hmapped
  have hlength : mapped.length = folder.stem.length := by
    simpa using congrArg List.length hmapped
  refine ⟨String.ofList mapped, String.ofList rest, happend, hbytes, ?_, ?_, ?_⟩
  · simpa [Text.equalIgnoringCase_iff] using hmapped
  · exact Text.fromByte?_eq_some_iff.mpr ⟨String.ofList mapped, happend, hbytes⟩
  · rw [hsplit, ← hlength, List.drop_left, String.toList_ofList]

/-- Slashes in front of a text are no segments. -/
theorem segments_trimStart (text : List Char) :
    segments (Text.trimStart (· == '/') text) = segments text := by
  induction text with
  | nil => rfl
  | cons c text ih =>
    by_cases hslash : c = '/'
    · subst hslash
      have htrim : Text.trimStart (· == '/') ('/' :: text) = Text.trimStart (· == '/') text :=
        List.dropWhile_cons_of_pos rfl
      have hempty : segments ('/' :: text) = segments text := by
        rw [segments, Text.splitOn, if_pos rfl, List.filter_cons_of_neg (by simp), segments]
      rw [htrim, ih, hempty]
    · rw [Text.trimStart_cons (by simpa using hslash)]

end ServerPath

/-- The local path of a server path, with the segments read from the byte on at which the name of the
folder ends; none if the server path cannot be cut there. -/
def WorkingFolder.toLocalFromByte? (folder : WorkingFolder) (item : ServerPath) : Option LocalPath :=
  (Text.fromByte? item (Text.bytes folder.serverPath.stem)).map fun rest =>
    ((ServerPath.segments (Text.trimStart (· == '/') rest.toList)).map OsText.ofList).foldl
      LocalPath.push folder.localPath

/-- The byte behind the name of the folder is one at which the item can be cut. -/
theorem WorkingFolder.toLocalFromByte?_eq {folder : WorkingFolder} {item : ServerPath}
    (hitem : item.isUnder folder.serverPath = true) :
    folder.toLocalFromByte? item = some (folder.toLocal item) := by
  obtain ⟨mapped, rest, -, -, -, hcut, hrest⟩ := ServerPath.exists_cut_of_isUnder hitem
  rw [toLocalFromByte?, hcut, Option.map_some, ServerPath.segments_trimStart, hrest]
  rfl

namespace Workspace

variable {workspace : Workspace} {path : LocalPath} {item : ServerPath} {folder : WorkingFolder}

/-- The local path of a server item, looked up in bytes: names are measured in bytes and the item is cut
at a byte. The outer answer is none if the item cannot be cut there. -/
def toLocalByBytes? (workspace : Workspace) (item : ServerPath) : Option (Option LocalPath) :=
  let fitting := workspace.folders.filter fun folder => item.isUnder folder.serverPath
  match deepest? (fun folder => Text.bytes folder.serverPath.stem) fitting with
  | none => some none
  | some folder => (folder.toLocalFromByte? item).map some

/-- For folders that cover one item, counting characters and counting bytes find the same folder. -/
theorem serverFolder?_eq_bytes (workspace : Workspace) (item : ServerPath) :
    workspace.serverFolder? item = deepest? (fun folder => Text.bytes folder.serverPath.stem)
      (workspace.folders.filter fun folder => item.isUnder folder.serverPath) := by
  apply deepest?_congr
  intro a ha b hb
  exact (ServerPath.bytes_stem_lt_iff (List.mem_filter.mp ha).2 (List.mem_filter.mp hb).2).symm

/-- Looking up a server item in bytes always works, and finds the same local path. -/
theorem toLocalByBytes?_eq (workspace : Workspace) (item : ServerPath) :
    workspace.toLocalByBytes? item = some (workspace.toLocal? item) := by
  rw [toLocalByBytes?, toLocal?, serverFolder?_eq_bytes]
  split
  case h_1 hnone => rw [hnone, Option.map_none]
  case h_2 folder hfolder =>
    have hunder := (List.mem_filter.mp (mem_of_deepest? hfolder)).2
    rw [hfolder, Option.map_some, WorkingFolder.toLocalFromByte?_eq hunder, Option.map_some]

/-- The folder that answers for a local path lies below every other one that covers it. -/
theorem startsWith_of_localFolder? (hfolder : workspace.localFolder? path = some folder) :
    ∀ other ∈ workspace.folders, path.startsWith other.localPath = true →
      folder.localPath.startsWith other.localPath = true := by
  intro other hother hcovers
  have hdepth := depth_le_of_deepest? hfolder other (List.mem_filter.mpr ⟨hother, hcovers⟩)
  exact LocalPath.startsWith_of_depth_le (mem_of_localFolder? hfolder).2 hcovers hdepth

/-- The folder that answers for an item lies below every other one that covers it. -/
theorem isUnder_of_serverFolder? (hfolder : workspace.serverFolder? item = some folder) :
    ∀ other ∈ workspace.folders, item.isUnder other.serverPath = true →
      folder.serverPath.isUnder other.serverPath = true := by
  intro other hother hcovers
  have hlength := depth_le_of_deepest? hfolder other (List.mem_filter.mpr ⟨hother, hcovers⟩)
  exact ServerPath.isUnder_of_length_le (mem_of_serverFolder? hfolder).2 hcovers hlength

/-- A path is looked up in vain exactly if no folder covers it. Otherwise the folder that answers lies at
or below every folder that covers the path. A server path can always be cut where the name of the folder
that answers ends, counted in bytes: it begins with that name in letters of any case. -/
theorem lookups_ask_deepest_folder (workspace : Workspace) (path : LocalPath) (item : ServerPath) :
    (workspace.toServer? path = none ↔
      ∀ folder ∈ workspace.folders, path.startsWith folder.localPath = false) ∧
    (∀ folder, workspace.localFolder? path = some folder →
      workspace.toServer? path = some (folder.toServer path) ∧
      folder ∈ workspace.folders ∧
      folder.localPath.components ++ path.below folder.localPath = path.components ∧
      ∀ other ∈ workspace.folders, path.startsWith other.localPath = true →
        folder.localPath.startsWith other.localPath = true) ∧
    (workspace.toLocal? item = none ↔
      ∀ folder ∈ workspace.folders, item.isUnder folder.serverPath = false) ∧
    (∀ folder, workspace.serverFolder? item = some folder →
      workspace.toLocal? item = some (folder.toLocal item) ∧
      folder ∈ workspace.folders ∧ item.isUnder folder.serverPath = true ∧
      (∀ other ∈ workspace.folders, item.isUnder other.serverPath = true →
        folder.serverPath.isUnder other.serverPath = true) ∧
      ∃ mapped rest : String, item = mapped ++ rest ∧
        mapped.utf8ByteSize = Text.bytes folder.serverPath.stem ∧
        Text.equalIgnoringCase mapped (String.ofList folder.serverPath.stem) = true ∧
        Text.fromByte? item (Text.bytes folder.serverPath.stem) = some rest) ∧
    workspace.toLocalByBytes? item = some (workspace.toLocal? item) := by
  refine ⟨?_, ?_, ?_, ?_, toLocalByBytes?_eq workspace item⟩
  · rw [toServer?, Option.map_eq_none_iff, localFolder?_eq_none_iff]
  · intro folder hfolder
    obtain ⟨hmem, hcovers⟩ := mem_of_localFolder? hfolder
    refine ⟨?_, hmem, LocalPath.components_append_below hcovers, startsWith_of_localFolder? hfolder⟩
    rw [toServer?, hfolder, Option.map_some]
  · rw [toLocal?, Option.map_eq_none_iff, serverFolder?_eq_none_iff]
  · intro folder hfolder
    obtain ⟨hmem, hcovers⟩ := mem_of_serverFolder? hfolder
    obtain ⟨mapped, rest, happend, hbytes, hname, hcut, -⟩ := ServerPath.exists_cut_of_isUnder hcovers
    refine ⟨?_, hmem, hcovers, isUnder_of_serverFolder? hfolder,
      mapped, rest, happend, hbytes, hname, hcut⟩
    rw [toLocal?, hfolder, Option.map_some]

/-- Three folders lie one below the other, and their names are not in ASCII alone. The item is found
through the one with the longest name, which ends after its sixteenth byte and eleventh character. -/
theorem lookups_ask_deepest_folder_umlauts :
    let workspace : Workspace := ⟨"main", "alice", .ofUri "http://server",
      [⟨"$/", ⟨"/w"⟩⟩, ⟨"$/PÄ/Größe€//", ⟨"/w/a/b"⟩⟩, ⟨"$/pÄ", ⟨"/w/a"⟩⟩]⟩
    let folder : WorkingFolder := ⟨"$/PÄ/Größe€//", ⟨"/w/a/b"⟩⟩
    workspace.serverFolder? "$/pÄ/gRößE€/ü" = some folder ∧
      workspace.localFolder? ⟨"/w/a/./b/c"⟩ = some folder ∧
      workspace.toServer? ⟨"/w/a/./b/c"⟩ = some "$/PÄ/Größe€/c" ∧
      workspace.toLocal? "$/pÄ/gRößE€/ü" = some ⟨"/w/a/b/ü"⟩ ∧
      Text.bytes folder.serverPath.stem = 16 ∧ folder.serverPath.stem.length = 11 ∧
      ServerPath.isUnder "$/PÄ/Größe€//" "$/pÄ" = true ∧
      LocalPath.startsWith ⟨"/w/a/b"⟩ ⟨"/w/a"⟩ = true := by
  intro workspace folder
  have hserver : workspace.serverFolder? "$/pÄ/gRößE€/ü" = some folder := by decide +kernel
  have hlocal : workspace.localFolder? ⟨"/w/a/./b/c"⟩ = some folder := by decide +kernel
  obtain ⟨-, hfromLocal, -, hfromServer, -⟩ :=
    lookups_ask_deepest_folder workspace ⟨"/w/a/./b/c"⟩ "$/pÄ/gRößE€/ü"
  obtain ⟨htoServer, -, -, hstarts⟩ := hfromLocal folder hlocal
  obtain ⟨htoLocal, -, -, hunder, -⟩ := hfromServer folder hserver
  have hitem : folder.toServer ⟨"/w/a/./b/c"⟩ = "$/PÄ/Größe€/c" := by decide +kernel
  have hpath : folder.toLocal "$/pÄ/gRößE€/ü" = ⟨"/w/a/b/ü"⟩ := by decide +kernel
  refine ⟨hserver, hlocal, hitem ▸ htoServer, hpath ▸ htoLocal, by decide +kernel, by decide +kernel,
    hunder ⟨"$/pÄ", ⟨"/w/a"⟩⟩ (by decide) (by decide +kernel),
    hstarts ⟨"$/pÄ", ⟨"/w/a"⟩⟩ (by decide) (by decide +kernel)⟩

end Workspace

end Reconcile
