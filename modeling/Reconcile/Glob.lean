namespace Reconcile.Glob

/-- The bytes of a text, each as the character of that number. -/
def units (s : String) : Array Char :=
  s.toUTF8.data.map fun b => Char.ofNat b.toNat

/-- A star to come back to: where it stands in the pattern, and where its next attempt starts in
    the path. A path position of zero means that there is none. -/
structure Resume where
  pattern : Nat := 0
  path : Nat := 0
deriving DecidableEq, Repr, Inhabited

/-- How far pattern and path have been read. -/
structure Cursor where
  pattern : Nat := 0
  path : Nat := 0
  star : Resume := {}
  globstar : Resume := {}
deriving DecidableEq, Repr, Inhabited

/-- A run of the matcher, which walks through pattern and path once and remembers where to resume:
    behind the last star, behind the last `**`, and at each open alternative. -/
structure Run where
  cursor : Cursor := {}
  /-- The cursors at which alternatives were opened, the innermost first. -/
  opened : List Cursor := []
  /-- How far the longest alternative so far reaches in the path. -/
  longest : Nat := 0
deriving DecidableEq, Repr, Inhabited

/-- How many alternatives can be open at a time. -/
def maxOpened : Nat := 10

/-- What a step of the matcher comes to. -/
inductive Move where
  | go (run : Run)
  /-- Pattern and path do not fit here. -/
  | stuck (run : Run)
  /-- The pattern is malformed. -/
  | malformed

/-- Behind a `**` at `index`, skips further `/**` components. -/
def skipGlobstars (pattern : Array Char) (index : Nat) : Nat → Nat
  | 0 => index
  | fuel + 1 =>
    if pattern[index]? = some '/' ∧ pattern[index + 1]? = some '*' ∧
        pattern[index + 2]? = some '*' then
      skipGlobstars pattern (index + 3) fuel
    else index

/-- The index of the last `**` of a row of them that starts at `index`. -/
def lastGlobstar (pattern : Array Char) (index : Nat) : Nat :=
  skipGlobstars pattern (index + 2) pattern.size - 2

/-- Where the rest of an alternative ends. -/
inductive Skipped where
  /-- Behind the comma before the next alternative. -/
  | comma (index : Nat)
  /-- Behind the closing brace. -/
  | brace (index : Nat)
  /-- The braces are not closed. -/
  | unclosed

/-- Skips the rest of an alternative: up to the next comma of the same braces, if `stopAtComma`,
    and else to the closing brace. Braces and commas inside a class do not count. -/
def skipAlternative (pattern : Array Char) (stopAtComma : Bool) :
    (depth : Nat) → (inClass : Bool) → (index : Nat) → (fuel : Nat) → Skipped
  | 0, _, index, _ => .brace index
  | _ + 1, _, _, 0 => .unclosed
  | depth + 1, inClass, index, fuel + 1 =>
    match pattern[index]? with
    | none => .unclosed
    | some c =>
      if c = ']' then skipAlternative pattern stopAtComma (depth + 1) false (index + 1) fuel
      else if inClass then skipAlternative pattern stopAtComma (depth + 1) true (index + 1) fuel
      else if c = '\x7b' then
        skipAlternative pattern stopAtComma (depth + 2) false (index + 1) fuel
      else if c = '\x7d' then skipAlternative pattern stopAtComma depth false (index + 1) fuel
      else if c = ',' ∧ stopAtComma ∧ depth = 0 then .comma (index + 1)
      else if c = '[' then skipAlternative pattern stopAtComma (depth + 1) true (index + 1) fuel
      else if c = '*' ∧ pattern[index + 1]? = some '*' then
        skipAlternative pattern stopAtComma (depth + 1) false (lastGlobstar pattern index + 2) fuel
      else skipAlternative pattern stopAtComma (depth + 1) false (index + 1) fuel

/-- Leaves the innermost alternative: the path goes on where the longest one ended, and stars
    from before the braces are in force again. -/
def Run.leave (run : Run) (cursor : Cursor) : Run :=
  match run.opened with
  | [] => { run with cursor }
  | outer :: opened =>
    { cursor := { cursor with path := run.longest, star := outer.star, globstar := outer.globstar }
      opened
      longest := if opened.isEmpty then 0 else run.longest }

/-- Reads a `*` or a row of `**`. -/
def readStar (pattern path : Array Char) (run : Run) : Move :=
  let c := run.cursor
  let double := pattern[c.pattern + 1]? = some '*'
  let here := if double then lastGlobstar pattern c.pattern else c.pattern
  let star : Resume := ⟨here, c.path + 1⟩
  let behind := if double then here + 2 else here + 1
  -- A double star counts as such at the end of the pattern, or as a component of its own.
  let atEnd := behind = pattern.size
  let component := (behind < 3 ∨ pattern[behind - 3]? = some '/') ∧ pattern[behind]? = some '/'
  let crosses := double ∧ (atEnd ∨ component)
  let globstar := if crosses then star else c.globstar
  -- At the start of a component the separator behind the double star may be missing.
  let atStart := c.path = 0 ∨ (c.path < path.size ∧ path[c.path - 1]? = some '/')
  let behind := if crosses ∧ ¬atEnd ∧ atStart then behind + 1 else behind
  -- At a separator a single star ends, or gives way to an earlier double star.
  let blocked := globstar.path ≠ star.path ∧ path[c.path]? = some '/'
  let resumes := globstar.path > 0 ∧ c.path + 1 < path.size
  let (behind, star) :=
    if blocked then
      if resumes then (globstar.pattern, { star with pattern := globstar.pattern })
      else (behind, { star with path := 0 })
    else (behind, star)
  let cursor := { c with pattern := behind, star, globstar }
  let ends := pattern[behind]? = some ',' ∨ pattern[behind]? = some '\x7d'
  if run.opened ≠ [] ∧ ends then
    match skipAlternative pattern false 1 false behind pattern.size with
    | .brace index => .go { run with cursor := { cursor with pattern := index } }
    | .comma index => .go { run with cursor := { cursor with pattern := index } }
    | .unclosed => .malformed
  else .go { run with cursor }

/-- Reads the ranges of a class from `index` on: whether one of them holds `c`, and the index
    behind the class. A `]` that comes first belongs to the class. -/
def readClass (pattern : Array Char) (c : Char) :
    (first held : Bool) → (index : Nat) → (fuel : Nat) → Option (Bool × Nat)
  | _, _, _, 0 => none
  | first, held, index, fuel + 1 =>
    match pattern[index]? with
    | none => none
    | some low =>
      if low = ']' ∧ ¬first then some (held, index + 1)
      else
        match pattern[index + 1]?, pattern[index + 2]? with
        | some '-', some high =>
          if high = ']' then
            readClass pattern c false (held || low == c) (index + 1) fuel
          else
            readClass pattern c false (held || (low ≤ c && c ≤ high)) (index + 3) fuel
        | _, _ => readClass pattern c false (held || low == c) (index + 1) fuel

/-- Reads the item of the pattern at the cursor, if it fits the path. A class that does not fit has
    been read all the same. -/
def advance (pattern path : Array Char) (run : Run) : Move :=
  let c := run.cursor
  let further : Cursor := { c with pattern := c.pattern + 1, path := c.path + 1 }
  match pattern[c.pattern]?, path[c.path]? with
  | none, _ => .stuck run
  | some '*', _ => readStar pattern path run
  | some '?', some x => if x = '/' then .stuck run else .go { run with cursor := further }
  | some '[', some x =>
    let negated := pattern[c.pattern + 1]? = some '^' ∨ pattern[c.pattern + 1]? = some '!'
    let start := if negated then c.pattern + 2 else c.pattern + 1
    match readClass pattern x true false start (pattern.size + 1) with
    | none => .malformed
    | some (held, behind) =>
      if held = decide ¬negated then
        .go { run with cursor := { c with pattern := behind, path := c.path + 1 } }
      else .stuck { run with cursor := { c with pattern := behind } }
  | some '\x7b', some _ =>
    if maxOpened ≤ run.opened.length then .malformed
    else
      .go { run with
        cursor := { pattern := c.pattern + 1, path := c.path }
        opened := c :: run.opened }
  | some item, x? =>
    match run.opened with
    | outer :: _ =>
      if item = '\x7d' then
        let run := { run with longest := max run.longest c.path }
        .go (run.leave { c with pattern := c.pattern + 1 })
      else if item = ',' then
        .go { run with
          cursor := { pattern := c.pattern + 1, path := outer.path }
          longest := max run.longest c.path }
      else
        match x? with
        | none => .stuck run
        | some x =>
          if item = x then
            -- A character directly behind a closing brace leaves one more alternative.
            let run :=
              if c.pattern > 0 ∧ pattern[c.pattern - 1]? = some '\x7d' then
                { run with longest := c.path }.leave c
              else run
            let c := run.cursor
            .go { run with cursor := literal item c }
          else .stuck run
    | [] =>
      if x? = some item then .go { run with cursor := literal item c } else .stuck run
where
  /-- The cursor behind a plain character. One that is no separator settles an earlier `**`. -/
  literal (item : Char) (c : Cursor) : Cursor :=
    { c with
      pattern := c.pattern + 1
      path := c.path + 1
      globstar := if item = '/' then c.globstar else { c.globstar with path := 0 } }

/-- Resumes behind the last star, if it can take more of the path. -/
def Cursor.resume? (c : Cursor) (path : Array Char) : Option Cursor :=
  if 0 < c.star.path ∧ c.star.path ≤ path.size then
    some { c with pattern := c.star.pattern, path := c.star.path }
  else none

/-- Goes back to where another attempt can be made: a star, the next alternative, the longest
    alternative so far, or a star before the braces. -/
def retreat (pattern path : Array Char) (run : Run) : Move :=
  match run.cursor.resume? path with
  | some cursor => .go { run with cursor }
  | none =>
    match run.opened with
    | [] => .stuck run
    | outer :: opened =>
      match skipAlternative pattern true 1 false run.cursor.pattern pattern.size with
      | .unclosed => .malformed
      | .comma index =>
        .go { run with cursor := { run.cursor with pattern := index, path := outer.path } }
      | .brace index =>
        if run.longest > 0 then .go (run.leave { run.cursor with pattern := index })
        else
          match outer.resume? path with
          | some cursor => .go { run with cursor, opened }
          | none => .stuck run

/-- Runs the matcher to its end: whether the pattern, its negation aside, fits the whole path,
    or nothing if it is malformed. -/
def search (pattern path : Array Char) : (fuel : Nat) → Run → Option Bool
  | 0, _ => some false
  | fuel + 1, run =>
    if pattern.size ≤ run.cursor.pattern ∧ path.size ≤ run.cursor.path then some true
    else
      match advance pattern path run with
      | .go run => search pattern path fuel run
      | .malformed => none
      | .stuck run =>
        match retreat pattern path run with
        | .go run => search pattern path fuel run
        | .malformed => none
        | .stuck _ => some false

/-- More steps than the matcher takes: each step moves on in the pattern or the path, or goes
    back to one of the places it remembers. -/
def maxSteps (pattern path : Array Char) : Nat :=
  Nat.pow (pattern.size + 2) 3 * Nat.pow (path.size + 2) 3

/-- Whether a path matches a pattern, byte by byte and with `/` as the separator: `?` is one byte of
    a component and `*` any number of them; `**`, standing for a whole component, also crosses
    separators; `[a-z]` is one byte of a class, and `[!a-z]` or `[^a-z]` one outside it; `{a,b}` is
    one of several alternatives, of which the longest that fits is taken; a leading `!` negates the
    whole pattern. There are no escapes. A malformed class or alternative matches nothing, not even
    when negated. -/
def fits (pattern path : String) : Bool :=
  let pattern := units pattern
  let path := units path
  let bangs := (pattern.toList.takeWhile (· == '!')).length
  let negated := bangs % 2 == 1
  match search pattern path (maxSteps pattern path) { cursor := { pattern := bangs } } with
  | none => false
  | some fit => fit != negated

end Reconcile.Glob
