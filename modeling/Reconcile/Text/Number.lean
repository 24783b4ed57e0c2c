namespace Reconcile

namespace Text

def hexValue? (c : Char) : Option Nat :=
  if '0' ≤ c ∧ c ≤ '9' then some (c.toNat - '0'.toNat)
  else if 'a' ≤ c ∧ c ≤ 'f' then some (c.toNat - 'a'.toNat + 10)
  else if 'A' ≤ c ∧ c ≤ 'F' then some (c.toNat - 'A'.toNat + 10)
  else none

/-- The number that hexadecimal digits write. -/
def hexNumber? (digits : List Char) : Option Nat :=
  (digits.mapM hexValue?).map fun values => values.foldl (fun n d => n * 16 + d) 0

/-- The hexadecimal digit of a value below sixteen, in lower case. -/
def hexDigit (n : Nat) : Char :=
  if n < 10 then Char.ofNat ('0'.toNat + n) else Char.ofNat ('a'.toNat + (n - 10))

/-- A number in at least `width` hexadecimal digits, with `digit` for the digits. -/
def hexDigits (digit : Nat → Char) (width n : Nat) : List Char :=
  let digits := (Nat.toDigits 16 n).map fun c => digit ((hexValue? c).getD 0)
  List.replicate (width - digits.length) '0' ++ digits

end Text

namespace Decimal

def digit (c : Char) : Nat :=
  c.toNat - '0'.toNat

/-- The number that some digits write. -/
def ofDigits (digits : List Char) : Nat :=
  digits.foldl (fun n c => n * 10 + digit c) 0

/-- The least magnitude that does not fit a double: half a unit above the largest one. -/
def doubleBound : Nat :=
  Nat.pow 2 1024 - Nat.pow 2 970

/-- Whether `digits` times ten to the power of `exponent` fits a double. -/
def fitsDouble (digits : Nat) (exponent : Int) : Bool :=
  let magnitude := (Nat.toDigits 10 digits).length + exponent
  if digits = 0 ∨ magnitude < 309 then true
  else if 309 < magnitude then false
  else if 0 ≤ exponent then digits * Nat.pow 10 exponent.toNat < doubleBound
  else digits < doubleBound * Nat.pow 10 (-exponent).toNat

/-- The digits at the start of a text, and what follows them. -/
def spanDigits (s : List Char) : List Char × List Char :=
  s.span Char.isDigit

end Decimal

namespace Text

/-- Why a text is not a whole number. -/
inductive IntegerError where
  | empty
  | invalidDigit
  | tooLarge
  | tooSmall
deriving DecidableEq, Repr, Inhabited

def IntegerError.message : IntegerError → String
  | empty => "cannot parse integer from empty string"
  | invalidDigit => "invalid digit found in string"
  | tooLarge => "number too large to fit in target type"
  | tooSmall => "number too small to fit in target type"

/-- Whether a number has 32 bits. -/
def fitsInt32 (n : Int) : Bool :=
  -0x80000000 ≤ n && n < 0x80000000

/-- The number that `digits` add to the digits read so far, whose sign is `sign`. -/
def readDigits (sign : Int) : (soFar : Int) → (digits : List Char) → Except IntegerError Int
  | soFar, [] => .ok soFar
  | soFar, c :: digits =>
    if !c.isDigit then .error .invalidDigit
    else
      let next := soFar * 10 + sign * Decimal.digit c
      if fitsInt32 next then readDigits sign next digits
      else .error (if sign < 0 then .tooSmall else .tooLarge)

/-- The whole number of 32 bits with a sign that a text writes, as people type it. Of several faults
    the first one from the left is reported. -/
def readInt32 (s : List Char) : Except IntegerError Int :=
  match s with
  | [] => .error .empty
  | '+' :: [] => .error .invalidDigit
  | '-' :: [] => .error .invalidDigit
  | '+' :: digits => readDigits 1 0 digits
  | '-' :: digits => readDigits (-1) 0 digits
  | digits => readDigits 1 0 digits

end Text

end Reconcile
