/-
  Repartee.Turn.Basic — the state of a turn and what it reports.

  A turn answers one message of one user. While it runs it changes the user, follows redirects,
  takes draws, and notes what it did: a step for every search, the text of every redirect, and
  a diagnostic for every tag that could not be played. Going too deep ends it.
-/

import Repartee.Draws
import Repartee.Rulebook

namespace Repartee

/-- Something that went wrong while a reply was rendered and did not end it, but for the last
step of a redirect too deep. -/
inductive Diagnostic where
  | starOutOfRange (index available : Nat)
  | historyOutOfRange (index : Nat)
  | undefinedMacro (name : String)
  | macroFailed (name : String) (error : MacroError)
  | notANumber (name value : String)
  | divisionByZero (name : String)
  | redirectTooDeep (depth : Nat)
  | unknownTopic (topic : String)
  deriving DecidableEq, Repr

def Diagnostic.message : Diagnostic → String
  | .starOutOfRange index available =>
    "<star" ++ toString index ++ "> requested but only " ++ toString available ++ " captured"
  | .historyOutOfRange index => "history index " ++ toString index ++ " outside 1..=9"
  | .undefinedMacro name => "object macro '" ++ name ++ "' is not defined"
  | .macroFailed name error => "object macro '" ++ name ++ "' failed: " ++ error.message
  | .notANumber name value => "'" ++ value ++ "' is not a number (variable '" ++ name ++ "')"
  | .divisionByZero name => "division by zero (variable '" ++ name ++ "')"
  | .redirectTooDeep depth => "redirect depth " ++ toString depth ++ " exceeded"
  | .unknownTopic topic => "topic '" ++ topic ++ "' does not exist, falling back to 'random'"

/-- One search for a trigger. -/
structure Step where
  /-- The words that were looked up, as one text. -/
  input : String
  topic : String
  /-- The pattern that answered. -/
  matched : Option String
  tried : Nat
  /-- How many redirects led here. -/
  depth : Nat
  deriving DecidableEq, Repr

/-- The trigger that answered the message itself. -/
structure Matched where
  trigger : TriggerId
  pattern : String
  topic : String
  stars : List String
  botStars : List String
  usedPrevious : Bool
  deriving DecidableEq, Repr

/-- What a turn reads and never changes. -/
structure Scene where
  rules : Rulebook
  macros : Macros
  settings : Settings
  draws : Draws

/-- What a turn changes. -/
structure Turn where
  user : User
  /-- How many draws have been taken. -/
  drawn : Nat := 0
  diagnostics : List Diagnostic := []
  redirects : List String := []
  steps : List Step := []
  /-- How many candidates the searches have tried. -/
  tried : Nat := 0
  deriving DecidableEq, Repr

/-- The end of a turn whose redirects go too deep. -/
inductive Abort where
  | tooDeep
  deriving DecidableEq, Repr

/-- A part of a turn that always comes to its end. -/
abbrev Act := StateM Turn

/-- A part of a turn that may abort it; what was noted before the abort is kept. -/
abbrev Play := ExceptT Abort Act

namespace Turn

def diagnose (d : Diagnostic) : Act Unit :=
  modify fun t => { t with diagnostics := t.diagnostics ++ [d] }

def editUser (f : User → User) : Act Unit := modify fun t => { t with user := f t.user }

/-- The next draw, modulo `n`. -/
def draw (s : Scene) (n : Nat) : Act Nat := do
  let t ← get
  set { t with drawn := t.drawn + 1 }
  return s.draws t.drawn % n

end Turn

end Repartee
