import Reconcile.Text.Number
import Reconcile.Toml

namespace Reconcile.Toml

/-- The digits of a number in which an underscore may stand between two digits. -/
def groupedDigits? (isDigit : Char → Bool) : List Char → Option (List Char)
  | [] => none
  | [c] => if isDigit c then some [c] else none
  | c :: '_' :: s =>
    if isDigit c then (groupedDigits? isDigit s).map (c :: ·) else none
  | c :: s => if isDigit c then (groupedDigits? isDigit s).map (c :: ·) else none

/-- A sign and what follows it; whether the number is negative. -/
def takeSign : List Char → Bool × List Char
  | '-' :: s => (true, s)
  | '+' :: s => (false, s)
  | s => (false, s)

/-- The digits of a whole number: a zero stands alone. -/
def wholeDigits? (s : List Char) : Option (List Char) :=
  match groupedDigits? Char.isDigit s with
  | some ('0' :: _ :: _) => none
  | digits => digits

/-- A whole number, if it has 64 bits. -/
def ofInt? (value : Int) : Option Toml :=
  if -0x8000000000000000 ≤ value ∧ value < 0x8000000000000000 then some (.integer value) else none

/-- A whole number without a sign that is not written in tens. -/
def ofBase? (base : Nat) (s : List Char) : Option Toml := do
  let digits ← groupedDigits? (fun c => (Text.hexValue? c).any (· < base)) s
  let values ← digits.mapM Text.hexValue?
  ofInt? (values.foldl (fun n d => n * base + d) 0 : Nat)

def readInteger? : List Char → Option Toml
  | '0' :: 'x' :: s => ofBase? 16 s
  | '0' :: 'o' :: s => ofBase? 8 s
  | '0' :: 'b' :: s => ofBase? 2 s
  | s => do
    let (negative, s) := takeSign s
    let digits ← wholeDigits? s
    ofInt? (if negative then -(Decimal.ofDigits digits : Int) else Decimal.ofDigits digits)

/-- Both sides of the first character that satisfies `p`; without one, all of the text and
    nothing. -/
def cutBefore (p : Char → Bool) (s : List Char) : List Char × Option (List Char) :=
  match s.span (!p ·) with
  | (before, []) => (before, none)
  | (before, _ :: rest) => (before, some rest)

/-- The digits of a part that may be missing. -/
def optionalDigits? : Option (List Char) → Option (List Char)
  | none => some []
  | some s => groupedDigits? Char.isDigit s

/-- A number with a fraction or an exponent, or one that is no number at all. A positive one has
    to fit a double. -/
def readFloat? (s : List Char) : Option Toml := do
  let (negative, s) := takeSign s
  if s = ['i', 'n', 'f'] ∨ s = ['n', 'a', 'n'] then return .float
  let (mantissa, exponent) := cutBefore (fun c => c == 'e' || c == 'E') s
  let (whole, fraction) := cutBefore (· == '.') mantissa
  if fraction = none ∧ exponent = none then none
  let whole ← wholeDigits? whole
  let fraction ← optionalDigits? fraction
  let (below, exponent) := match exponent with
    | none => (false, none)
    | some e => ((takeSign e).1, some (takeSign e).2)
  let exponent ← optionalDigits? exponent
  let power : Int := Decimal.ofDigits exponent
  let power := (if below then -power else power) - fraction.length
  if negative ∨ Decimal.fitsDouble (Decimal.ofDigits (whole ++ fraction)) power then
    return .float
  else none

/-- A number in exactly two digits. -/
def twoDigits? : List Char → Option Nat
  | [a, b] => if a.isDigit ∧ b.isDigit then some (Decimal.ofDigits [a, b]) else none
  | _ => none

/-- How many days a month of a year has. -/
def daysIn (year month : Nat) : Nat :=
  if month = 2 then
    if year % 4 = 0 ∧ (year % 100 ≠ 0 ∨ year % 400 = 0) then 29 else 28
  else if month = 4 ∨ month = 6 ∨ month = 9 ∨ month = 11 then 30
  else 31

/-- Whether ten characters write a date. -/
def isDate : List Char → Bool
  | [y1, y2, y3, y4, '-', m1, m2, '-', d1, d2] =>
    [y1, y2, y3, y4].all Char.isDigit &&
      match twoDigits? [m1, m2], twoDigits? [d1, d2] with
      | some month, some day =>
        1 ≤ month && month ≤ 12 && 1 ≤ day &&
          day ≤ daysIn (Decimal.ofDigits [y1, y2, y3, y4]) month
      | _, _ => false
  | _ => false

/-- Whether five characters write hours and minutes. -/
def isHourMinute : List Char → Bool
  | [h1, h2, ':', m1, m2] =>
    (twoDigits? [h1, h2]).any (· ≤ 23) && (twoDigits? [m1, m2]).any (· ≤ 59)
  | _ => false

/-- Whether characters write a distance from universal time. -/
def isOffset : List Char → Bool
  | ['Z'] => true
  | ['z'] => true
  | '+' :: s => isHourMinute s
  | '-' :: s => isHourMinute s
  | _ => false

/-- What follows the fraction of a second, which may be missing. -/
def afterFraction? : List Char → Option (List Char)
  | '.' :: s =>
    match Decimal.spanDigits s with
    | ([], _) => none
    | (_, s) => some s
  | s => some s

/-- What follows a time of day at the start of a text. -/
def afterTime? (s : List Char) : Option (List Char) :=
  match s.drop 5 with
  | ':' :: s1 :: s2 :: rest =>
    if isHourMinute (s.take 5) ∧ (twoDigits? [s1, s2]).any (· ≤ 60) then afterFraction? rest
    else none
  | _ => none

/-- Whether a word is a date, a time, or both; only both together may have an offset. -/
def isDatetime (s : List Char) : Bool :=
  if afterTime? s = some [] then true
  else
    isDate (s.take 10) &&
      match s.drop 10 with
      | [] => true
      | c :: rest =>
        (c == 'T' || c == 't' || c == ' ') &&
          match afterTime? rest with
          | some [] => true
          | some offset => isOffset offset
          | none => false

/-- The value that is written as one word. A word is taken as a whole, so it writes a value only if
    all of it does. -/
def readWord? (s : List Char) : Option Toml :=
  if s = ['t', 'r', 'u', 'e'] then some (.boolean true)
  else if s = ['f', 'a', 'l', 's', 'e'] then some (.boolean false)
  else if isDatetime s then some .datetime
  else readInteger? s <|> readFloat? s

/-- Whether a character ends a word. -/
def endsWord (c : Char) : Bool :=
  c == ' ' || c == '\t' || c == '\n' || c == '\x0d' || c == ',' || c == ']' || c == '\x7d' ||
    c == '#'

/-- The word at the start of a text, and what follows it. A date and a time after a single space
    are one word. -/
def spanWord (s : List Char) : List Char × List Char :=
  match s.span (!endsWord ·) with
  | (word, ' ' :: c :: rest) =>
    if isDate word ∧ c.isDigit then
      let (time, rest) := (c :: rest).span (!endsWord ·)
      (word ++ ' ' :: time, rest)
    else (word, ' ' :: c :: rest)
  | split => split

end Reconcile.Toml
