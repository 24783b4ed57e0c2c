namespace Reconcile

structure Output where
  shown : String := ""
  warned : String := ""
deriving DecidableEq, Repr, Inhabited

/-- How a command ended that did not fail. -/
inductive ExitCode where
  | success
  | failure
deriving DecidableEq, Repr, Inhabited

/-- The number that a program ends with. -/
def ExitCode.number : ExitCode → Nat
  | success => 0
  | failure => 1

/-- A command in a monad for everything outside. It writes lines for the user and, apart from them,
    warnings. It ends well, or it ends badly after having shown everything, or it fails with its
    causes, the outermost first. -/
abbrev CommandM (m : Type → Type) := ExceptT (List String) (StateT Output m)

namespace CommandM

variable {m : Type → Type} [Monad m]

/-- An action of the outside. -/
def outside (action : m α) : CommandM m α :=
  ExceptT.lift (StateT.lift action)

def write (text : String) : CommandM m Unit :=
  modify fun output => { output with shown := output.shown ++ text }

def showLine (line : String) : CommandM m Unit :=
  write (line ++ "\n")

def showLines (lines : List String) : CommandM m Unit :=
  write (String.join (lines.map (· ++ "\n")))

/-- Shows a line among the warnings. -/
def warnLine (line : String) : CommandM m Unit :=
  modify fun output => { output with warned := output.warned ++ line ++ "\n" }

/-- The value of a result; an error fails the command, with its causes named by `causes`. -/
def orFail (causes : ε → List String) : Except ε α → CommandM m α
  | .ok value => pure value
  | .error error => throw (causes error)

end CommandM

end Reconcile
