import Reconcile.Text.Number

namespace Reconcile.Toml

/-- The length of the longest row of a character. -/
def longestRow (c : Char) (s : List Char) : Nat :=
  (s.foldl (fun (longest, row) d =>
    if d = c then (max longest (row + 1), row + 1) else (longest, 0)) (0, 0)).1

/-- Whether a character can only be written by an escape. -/
def needsEscape (c : Char) : Bool :=
  (c.toNat < 0x20 && c != '\t' && c != '\n') || c.toNat == 0x7F

/-- The forms of a string. -/
inductive QuoteStyle where
  | basic
  | literal
  | longBasic
  | longLiteral
deriving DecidableEq, Repr, Inhabited

/-- The form in which a string is written. -/
def QuoteStyle.of (s : List Char) : QuoteStyle :=
  let escapes := s.any needsEscape
  let backslash := s.contains '\\'
  let newline := s.contains '\n'
  let doubles := longestRow '"' s
  let singles := longestRow '\'' s
  if !escapes ∧ !backslash ∧ doubles = 0 ∧ !newline then .basic
  else if !escapes ∧ singles = 0 ∧ !newline then .literal
  else if !escapes ∧ !backslash ∧ doubles ≤ 2 then .longBasic
  else if !escapes ∧ singles ≤ 2 then .longLiteral
  else if newline then .longBasic
  else .basic

/-- How a character other than a quote or a line feed is written in a string with escapes. -/
def escapeChar (c : Char) : List Char :=
  if c = '\x08' then ['\\', 'b']
  else if c = '\t' then ['\\', 't']
  else if c = '\x0c' then ['\\', 'f']
  else if c = '\x0d' then ['\\', 'r']
  else if c = '\\' then ['\\', '\\']
  else if c.toNat < 0x20 ∨ c.toNat = 0x7F then
    ['\\', 'u'] ++ Text.hexDigits (fun n => (Text.hexDigit n).toUpper) 4 c.toNat
  else [c]

/-- The text between the quotes of a string with escapes on one line. -/
def escapeBasic (s : List Char) : List Char :=
  s.flatMap fun c =>
    if c = '"' then ['\\', '"'] else if c = '\n' then ['\\', 'n'] else escapeChar c

/-- The text between the quotes of a string with escapes on several lines. No more than two quotes
    stand next to each other; `row` is how many do so far. -/
def escapeLong (row : Nat) : List Char → List Char
  | [] => []
  | c :: s =>
    if c = '"' then
      if row < 2 then '"' :: escapeLong (row + 1) s else '\\' :: '"' :: escapeLong 0 s
    else if c = '\n' then '\n' :: escapeLong 0 s
    else escapeChar c ++ escapeLong 0 s

/-- A string as it is written: in the plainest form that needs no escapes, first on one line and
    then on several, and else with escapes. One that has line feeds begins on a line of its own. -/
def quote (value : String) : String :=
  let s := value.toList
  let start := if s.contains '\n' then ['\n'] else []
  String.ofList <|
    match QuoteStyle.of s with
    | .basic => ['"'] ++ escapeBasic s ++ ['"']
    | .literal => ['\''] ++ s ++ ['\'']
    | .longBasic => ['"', '"', '"'] ++ start ++ escapeLong 0 s ++ ['"', '"', '"']
    | .longLiteral => ['\'', '\'', '\''] ++ start ++ s ++ ['\'', '\'', '\'']

end Reconcile.Toml
