import Reconcile.Text.Blank
import Reconcile.Text.Search

namespace Reconcile.Markup

/-- An element of a small document written by machines, with the text of its opening tag and its
    body. Documents never nest an element inside one of the same tag. -/
structure Element where
  /-- The text between the tag name and the end of the opening tag. -/
  attributes : List Char
  /-- The text between the opening and the closing tag; empty if the opening tag closes
      itself. -/
  body : List Char
deriving DecidableEq, Repr, Inhabited

def opening (tag : String) : List Char :=
  '<' :: tag.toList

/-- A whole closing tag. -/
def closing (tag : String) : List Char :=
  '<' :: '/' :: tag.toList ++ ['>']

/-- Whether the character after a tag name ends the name, so that `policy` is not found in
    `policies`. -/
def endsName : Option Char → Bool
  | some c => c == '>' || c == '/' || Text.isAsciiBlank c
  | none => false

/-- The attributes of a tag that closes itself. -/
def selfClosing? (head : List Char) : Option (List Char) :=
  if head.getLast? = some '/' then some head.dropLast else none

/-- The elements with a tag, in document order. The first `>` ends an opening tag, even inside a
    quoted value, and the first closing tag ends the element. The search ends at an opening tag
    that does not end, or whose element is not closed. -/
def elements (tag : String) (document : List Char) : List Element :=
  match _ : Text.cut? (opening tag) document with
  | none => []
  | some (_, rest) =>
    if endsName rest.head? then
      match _ : Text.cut? ['>'] rest with
      | none => []
      | some (head, content) =>
        match selfClosing? head with
        | some attributes => ⟨attributes, []⟩ :: elements tag content
        | none =>
          match _ : Text.cut? (closing tag) content with
          | none => []
          | some (body, after) => ⟨head, body⟩ :: elements tag after
    else elements tag rest
termination_by document.length
decreasing_by
  · have hopen := Text.length_rest_lt_of_cut? (by simp [opening]) ‹Text.cut? (opening tag) _ = _›
    have hend := Text.length_rest_of_cut? ‹Text.cut? ['>'] _ = _›
    simp at hend
    omega
  · have hopen := Text.length_rest_lt_of_cut? (by simp [opening]) ‹Text.cut? (opening tag) _ = _›
    have hend := Text.length_rest_of_cut? ‹Text.cut? ['>'] _ = _›
    have hclose := Text.length_rest_of_cut? ‹Text.cut? (closing tag) _ = _›
    simp at hend
    omega
  · exact Text.length_rest_lt_of_cut? (by simp [opening]) ‹Text.cut? (opening tag) _ = _›

/-- The first element with a tag. -/
def element? (tag : String) (document : List Char) : Option Element :=
  (elements tag document).head?

/-- The standard entities and what they stand for, in the order in which they are resolved. The
    ampersand comes last, so that no text is resolved twice. -/
def entities : List (String × Char) :=
  [("&lt;", '<'), ("&gt;", '>'), ("&quot;", '"'), ("&apos;", '\''), ("&amp;", '&')]

def unescape (s : List Char) : List Char :=
  entities.foldl (fun s (name, c) => Text.replace name.toList [c] s) s

/-- How a character is written inside a value or a body. -/
def escapeChar (c : Char) : List Char :=
  match entities.find? (·.2 == c) with
  | some (name, _) => name.toList
  | none => [c]

def escape (s : List Char) : List Char :=
  s.flatMap escapeChar

/-- What an occurrence of an attribute name turns out to be. -/
inductive Occurrence where
  /-- The attribute, with its value as written. -/
  | value (raw : List Char)
  /-- No attribute; the search goes on behind the name. -/
  | other
  /-- An attribute without a value: the text ends where the value should begin or before it is
      closed. -/
  | unfinished
deriving DecidableEq, Repr

/-- Judges an occurrence of an attribute name by the text before and after it. It has to stand
    at the start or after a blank and be followed by `=` and a quoted value, blanks aside. -/
def judge (before after : List Char) : Occurrence :=
  let separated := before.getLast?.all Text.isAsciiBlank
  match Text.trimStart Text.isBlank after with
  | '=' :: value =>
    if separated then
      match Text.trimStart Text.isBlank value with
      | [] => .unfinished
      | quote :: inner =>
        if quote = '"' ∨ quote = '\'' then
          match Text.cut? [quote] inner with
          | some (raw, _) => .value raw
          | none => .unfinished
        else .other
    else .other
  | _ => .other

/-- The value of an attribute as written in the text of an opening tag. After an occurrence of
    the name that is no attribute, what follows it counts as a new start of the text. -/
def rawAttribute? (name : List Char) (attributes : List Char) : Option (List Char) :=
  if _ : name = [] then none
  else
    match _ : Text.cut? name attributes with
    | none => none
    | some (before, after) =>
      match judge before after with
      | .value raw => some raw
      | .unfinished => none
      | .other => rawAttribute? name after
termination_by attributes.length
decreasing_by exact Text.length_rest_lt_of_cut? (by assumption) (by assumption)

namespace Element

/-- The value of an attribute, entities resolved. -/
def attribute? (element : Element) (name : String) : Option String :=
  (rawAttribute? name.toList element.attributes).map fun raw => String.ofList (unescape raw)

def children (element : Element) (tag : String) : List Element :=
  elements tag element.body

def child? (element : Element) (tag : String) : Option Element :=
  element? tag element.body

def trimmedBody (element : Element) : List Char :=
  Text.trim element.body

/-- The text of an element: its body without the blanks around it, entities resolved. -/
def text (element : Element) : String :=
  String.ofList (unescape element.trimmedBody)

end Element

end Reconcile.Markup
