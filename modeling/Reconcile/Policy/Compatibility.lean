import Reconcile.Markup
import Reconcile.Text.Case

namespace Reconcile

/-- Why the value of an annotation cannot be read. -/
inductive AnnotationError where
  | missingRoot (tag : String)
  | missingField (field : String)
  | invalidValue (field value : String)
deriving DecidableEq, Repr, Inhabited

def AnnotationError.message : AnnotationError → String
  | missingRoot tag => s!"policy annotation has no <{tag}> root element"
  | missingField field => s!"policy definition is missing '{field}'"
  | invalidValue field value => s!"invalid value '{value}' for '{field}'"

/-- Which policy definitions a team project honours: those without configuration, those with one,
    and whether a policy that is not installed here is reported. A team project can override the
    defaults by an annotation. -/
structure Compatibility where
  /-- Definitions without configuration, as written by Team Explorer, are honoured. -/
  teamExplorer : Bool := true
  /-- Definitions with a configuration, as written by Teamprise, are honoured. -/
  teamprise : Bool := true
  /-- A policy that is not installed counts as a failure instead of being passed over. -/
  nonInstalled : Bool := false
deriving DecidableEq, Repr, Inhabited

/-- A flag as written: `true` or `false` in any case, with blanks around it. -/
def readFlag (field raw : String) : Except AnnotationError Bool :=
  let value := Text.trimmed raw
  if Text.equalIgnoringCase value "true" then .ok true
  else if Text.equalIgnoringCase value "false" then .ok false
  else .error (.invalidValue field value)

namespace Compatibility

/-- Whether definitions of any kind are honoured. -/
def evaluates (flags : Compatibility) : Bool :=
  flags.teamExplorer || flags.teamprise

/-- Reads the value of an overrides annotation. A flag that is not written is `false`. -/
def ofAnnotation (value : String) : Except AnnotationError Compatibility := do
  let some root := Markup.element? "overrides" value.toList
    | throw (.missingRoot "overrides")
  let some element := root.child? "compatibility"
    | throw (.missingField "compatibility")
  let flag (name : String) : Except AnnotationError Bool :=
    match element.attribute? name with
    | none => .ok false
    | some raw => readFlag name raw
  return {
    teamExplorer := ← flag "teamExplorer"
    teamprise := ← flag "teamprise"
    nonInstalled := ← flag "nonInstalled" }

/-- The value of an overrides annotation that says these flags. -/
def toAnnotation (flags : Compatibility) : String :=
  s!"<overrides><compatibility teamExplorer=\"{flags.teamExplorer}\"" ++
    s!" teamprise=\"{flags.teamprise}\" nonInstalled=\"{flags.nonInstalled}\"/></overrides>"

end Compatibility

end Reconcile
