import Reconcile.Text.Case
import Reconcile.Text.Search

namespace Reconcile.Text

variable {s t : List Char} {text back : String} {byte : Nat}

/-- How many bytes a text takes. -/
def bytes (s : List Char) : Nat :=
  (String.ofList s).utf8ByteSize

@[simp] theorem bytes_append (s t : List Char) : bytes (s ++ t) = bytes s + bytes t := by
  rw [bytes, String.ofList_append, String.utf8ByteSize_append, bytes, bytes]

theorem bytes_cons (c : Char) (s : List Char) : bytes (c :: s) = c.utf8Size + bytes s := by
  have hone : bytes [c] = c.utf8Size := by
    rw [bytes, ← String.singleton_eq_ofList, String.utf8ByteSize_singleton]
  rw [← List.singleton_append, bytes_append, hone]

theorem bytes_pos (hs : s ≠ []) : 0 < bytes s := by
  obtain ⟨c, rest, rfl⟩ := List.exists_cons_of_ne_nil hs
  have hsize := c.utf8Size_pos
  rw [bytes_cons]
  omega

theorem utf8Size_lowerAscii (c : Char) : (lowerAscii c).utf8Size = c.utf8Size :=
  lowerAscii_rec (p := fun c lower => lower.utf8Size = c.utf8Size) (by decide) (fun _ => rfl) c

@[simp] theorem bytes_lowerAsciiText (s : List Char) : bytes (lowerAsciiText s) = bytes s := by
  induction s with
  | nil => rfl
  | cons c s ih =>
    rw [lowerAsciiText, List.map_cons, bytes_cons, bytes_cons, utf8Size_lowerAscii]
    exact congrArg (c.utf8Size + ·) ih

theorem bytes_eq_of_lowerAsciiText (hcase : lowerAsciiText s = lowerAsciiText t) : bytes s = bytes t := by
  rw [← bytes_lowerAsciiText s, hcase, bytes_lowerAsciiText]

/-- Of two starts of one text, the one with fewer bytes is the one with fewer characters. -/
theorem bytes_lt_iff {whole : List Char} (hs : s <+: whole) (ht : t <+: whole) :
    bytes s < bytes t ↔ s.length < t.length := by
  rcases List.prefix_or_prefix_of_prefix hs ht with ⟨rest, rfl⟩ | ⟨rest, rfl⟩
  · by_cases hrest : rest = []
    · simp [hrest]
    · have hbytes := bytes_pos hrest
      have hlength := List.length_pos_iff.mpr hrest
      rw [bytes_append, List.length_append]
      omega
  · rw [bytes_append, List.length_append]
    omega

/-- The text from a byte on; none if the byte lies behind the end of the text or inside a character. -/
def fromByte? (text : String) (byte : Nat) : Option String :=
  if h : String.Pos.Raw.IsValid text ⟨byte⟩ then some (text.sliceFrom (text.pos ⟨byte⟩ h)).copy
  else none

theorem fromByte?_eq_some_iff :
    fromByte? text byte = some back ↔ ∃ front, text = front ++ back ∧ front.utf8ByteSize = byte := by
  rw [fromByte?]
  constructor
  · intro hcut
    obtain ⟨hvalid, hback⟩ := Option.dite_none_right_eq_some.mp hcut
    have hsplits := (text.pos ⟨byte⟩ hvalid).splits
    refine ⟨(text.sliceTo (text.pos ⟨byte⟩ hvalid)).copy, ?_, ?_⟩
    · rw [← Option.some.inj hback]
      exact hsplits.eq_append
    · exact (congrArg String.Pos.Raw.byteIdx hsplits.offset_eq_rawEndPos).symm
  · rintro ⟨front, rfl, rfl⟩
    have hvalid : String.Pos.Raw.IsValid (front ++ back) ⟨front.utf8ByteSize⟩ :=
      String.Pos.Raw.isValid_iff_exists_append.mpr ⟨front, back, rfl, rfl⟩
    have hsplits : ((front ++ back).pos ⟨front.utf8ByteSize⟩ hvalid).Splits front back := ⟨rfl, rfl⟩
    rw [dif_pos hvalid]
    exact congrArg some ((String.Pos.splits _).eq_right hsplits)

/-- The text up to a byte; none if the byte lies behind the end of the text or inside a character. -/
def uptoByte? (text : String) (byte : Nat) : Option String :=
  if h : String.Pos.Raw.IsValid text ⟨byte⟩ then some (text.sliceTo (text.pos ⟨byte⟩ h)).copy
  else none

/-- The text from one byte up to another that is not earlier. -/
def between? (text : String) (start stop : Nat) : Option String :=
  if start ≤ stop then (fromByte? text start).bind (uptoByte? · (stop - start)) else none

/-- The byte at which a pattern begins for the first time in a text. -/
def findByte? (pattern : List Char) (text : String) : Option Nat :=
  (cut? pattern text.toList).map fun (before, _) => bytes before

/-- The byte at which a pattern is found is the size of the text in front of it. -/
theorem findByte?_ofList (pattern s : List Char) :
    findByte? pattern (String.ofList s) = (cut? pattern s).map fun (before, _) => bytes before := by
  rw [findByte?, String.toList_ofList]

theorem fromByte?_bytes (htext : text.toList = s ++ t) :
    fromByte? text (bytes s) = some (String.ofList t) := by
  refine fromByte?_eq_some_iff.mpr ⟨String.ofList s, ?_, rfl⟩
  rw [← String.ofList_append, ← htext, String.ofList_toList]

theorem uptoByte?_bytes (htext : text.toList = s ++ t) :
    uptoByte? text (bytes s) = some (String.ofList s) := by
  obtain rfl : text = String.ofList s ++ String.ofList t := by
    rw [← String.ofList_append, ← htext, String.ofList_toList]
  have hvalid : String.Pos.Raw.IsValid (String.ofList s ++ String.ofList t) ⟨bytes s⟩ :=
    String.Pos.Raw.isValid_iff_exists_append.mpr ⟨_, _, rfl, rfl⟩
  have hsplits : ((String.ofList s ++ String.ofList t).pos ⟨bytes s⟩ hvalid).Splits
      (String.ofList s) (String.ofList t) := ⟨rfl, rfl⟩
  rw [uptoByte?, dif_pos hvalid]
  exact congrArg some ((String.Pos.splits _).eq_left hsplits)

/-- A piece is cut out by the sizes of what stands before and within. -/
theorem between?_bytes {inner : List Char} (htext : text.toList = s ++ (inner ++ t)) :
    between? text (bytes s) (bytes s + bytes inner) = some (String.ofList inner) := by
  rw [between?, if_pos (Nat.le_add_right ..), fromByte?_bytes htext, Option.bind_some,
    Nat.add_sub_cancel_left]
  exact uptoByte?_bytes String.toList_ofList

end Reconcile.Text
