import Reconcile.Text.CaseTable

namespace Reconcile.Text

/-- The small letter of a capital from A to Z; every other character is its own. -/
def lowerAscii (c : Char) : Char :=
  if 'A' ≤ c ∧ c ≤ 'Z' then Char.ofNat (c.toNat + 32) else c

/-- A text in small letters, as far as A to Z go. -/
def lowerAsciiText (s : List Char) : List Char :=
  s.map lowerAscii

/-- What holds of every capital and its small letter, and of every character and itself, holds of every
    character and its lower case. -/
theorem lowerAscii_rec {p : Char → Char → Prop}
    (hletter : ∀ n < 26, p (Char.ofNat (65 + n)) (Char.ofNat (65 + n + 32))) (hother : ∀ c, p c c)
    (c : Char) : p c (lowerAscii c) := by
  rw [lowerAscii]
  split
  case isTrue hcapital =>
    have hfirst : 65 ≤ c.toNat := hcapital.1
    have hlast : c.toNat ≤ 90 := hcapital.2
    have hnumber : 65 + (c.toNat - 65) = c.toNat := by omega
    have hlower := hletter (c.toNat - 65) (by omega)
    rwa [hnumber, Char.ofNat_toNat] at hlower
  case isFalse => exact hother c

@[simp] theorem length_lowerAsciiText (s : List Char) :
    (lowerAsciiText s).length = s.length := by
  simp [lowerAsciiText]

theorem lowerAsciiText_cons (c : Char) (s : List Char) :
    lowerAsciiText (c :: s) = lowerAscii c :: lowerAsciiText s :=
  rfl

@[simp] theorem lowerAsciiText_append (s t : List Char) :
    lowerAsciiText (s ++ t) = lowerAsciiText s ++ lowerAsciiText t := by
  simp [lowerAsciiText]

/-- Equality up to the case of A to Z. -/
def equalIgnoringCase (s t : String) : Bool :=
  lowerAsciiText s.toList == lowerAsciiText t.toList

/-- Whether a number lies in one of some ranges. -/
def isInRanges (ranges : List (Nat × Nat)) (n : Nat) : Bool :=
  ranges.any fun (first, last) => first ≤ n && n ≤ last

/-- The number that a run maps `n` to, if `n` belongs to it. -/
def CaseRun.map? (run : CaseRun) (n : Nat) : Option Nat :=
  let (first, last, step, shift) := run
  if first ≤ n ∧ n ≤ last ∧ (n - first) % step = 0 then some (n + shift).toNat else none

/-- The lower case of a character by itself. -/
def lowerChar (c : Char) : List Char :=
  if c.toNat < 128 then [c.toLower]
  else
    match lowerSpecials.lookup c.toNat with
    | some mapped => mapped.map Char.ofNat
    | none => [((lowerRuns.findSome? (·.map? c.toNat)).map Char.ofNat).getD c]

/-- Whether the first character of a text that is not passed over has a case. -/
def startsCased (s : List Char) : Bool :=
  match s.dropWhile fun c => isInRanges passedOverRanges c.toNat with
  | [] => false
  | c :: _ => isInRanges casedRanges c.toNat

/-- The lower case of a text that follows `before`, which is listed from its end. -/
def lowerAfter (before : List Char) : List Char → List Char
  | [] => []
  | c :: s =>
    let mapped :=
      if c = 'Σ' then
        if startsCased before && !startsCased s then ['ς'] else ['σ']
      else lowerChar c
    mapped ++ lowerAfter (c :: before) s

/-- A text in lower case. One character may become several, and a capital sigma at the end of a word
    becomes the final form of the small one. -/
def lower (s : String) : String :=
  String.ofList (lowerAfter [] s.toList)

end Reconcile.Text
