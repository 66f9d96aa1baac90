/-
  Repartee.LoadError — why rules could not be loaded.
-/

import Repartee.Macro
import Repartee.RuleFault
import Repartee.Script.Basic

namespace Repartee

inductive LoadError where
  /-- A file or directory that cannot be read. -/
  | unreadable (path : String)
  /-- A rule text that is not a script. -/
  | script (origin : String) (error : Script.SyntaxError)
  /-- A trigger, reply or condition that does not compile. -/
  | rule (origin : String) (line : Nat) (fault : RuleFault)
  /-- An object that the handler of its language does not take. -/
  | object (name language : String) (error : MacroError)
  deriving DecidableEq, Repr

/-- A text's origin and the line that a fault is on. -/
def locus (origin : String) (line : Nat) : String := origin ++ " line " ++ toString line ++ ": "

def LoadError.message : LoadError → String
  | .unreadable path => "failed to read " ++ path
  | .script origin error => locus origin error.line ++ error.fault.message
  | .rule origin line fault => locus origin line ++ fault.message
  | .object name language error =>
    "object '" ++ name ++ "' rejected by the '" ++ language ++ "' handler: " ++ error.message

end Repartee
