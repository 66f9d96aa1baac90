/-
  Repartee.Script.Basic — a script: what one rule text declares.

  Nothing is compiled yet. Patterns, replies and conditions are kept as text with the number
  of the line they start on; topics, triggers and definitions are in the order they were
  declared. The first topic is always the home topic, on line 0.
-/

import Repartee.Reserved

namespace Repartee

/-- A text and the number of the line it starts on. -/
structure Line where
  text : String
  number : Nat
  deriving DecidableEq, Repr, Inhabited

namespace Script

/-- A trigger as declared: `previous` is its `%` line and `redirect` its `@` line. -/
structure Trigger where
  pattern : Line
  previous : Option Line := none
  replies : List Line := []
  conditions : List Line := []
  redirect : Option Line := none
  deriving DecidableEq, Repr, Inhabited

structure Topic where
  name : String
  line : Nat
  includes : List String := []
  inherits : List String := []
  triggers : List Trigger := []
  deriving DecidableEq, Repr, Inhabited

/-- A block of code in some language, callable by its name. -/
structure Object where
  name : String
  language : String
  code : String
  line : Nat
  deriving DecidableEq, Repr, Inhabited

end Script

structure Script where
  /-- The file or name that errors refer to. -/
  origin : String
  version : Option String := none
  globals : List (String × String) := []
  vars : List (String × String) := []
  subs : List (String × String) := []
  arrays : List (String × List String) := []
  topics : List Script.Topic := [{ name := homeTopic, line := 0 }]
  objects : List Script.Object := []
  deriving DecidableEq, Repr, Inhabited

def Script.triggerCount (s : Script) : Nat := s.topics.foldl (fun n t => n + t.triggers.length) 0

namespace Script

/-- Why a rule text is not a script. -/
inductive Fault where
  | emptyTrigger
  | outsideTrigger (mark : Char)
  | unnamedTopic
  | incompleteObject
  | unclosedObject (name : String)
  | nothingToContinue
  | unknownCommand (mark : Char)
  | unknownLocal (name value : String)
  | unknownDefinition (kind : String)
  | strayHeaderWord (word : String)
  | unknownBlock (kind : String)
  | unexpectedClose (kind : String)
  deriving DecidableEq, Repr

def Fault.message : Fault → String
  | .emptyTrigger => "empty trigger"
  | .outsideTrigger mark => "'" ++ mark.toString ++ "' line outside of a trigger"
  | .unnamedTopic => "topic without a name"
  | .incompleteObject => "object needs a name and a language"
  | .unclosedObject name => "object '" ++ name ++ "' is never closed"
  | .nothingToContinue => "continuation '^' with nothing to continue"
  | .unknownCommand mark => "unknown command '" ++ mark.toString ++ "'"
  | .unknownLocal name value => "unknown local option '" ++ name ++ " = " ++ value ++ "'"
  | .unknownDefinition kind => "unknown definition type '" ++ kind ++ "'"
  | .strayHeaderWord word => "unexpected word '" ++ word ++ "' in topic header"
  | .unknownBlock kind => "unknown block type '" ++ kind ++ "'"
  | .unexpectedClose kind => "unexpected close '< " ++ kind ++ "'"

/-- A fault and the line that has it. -/
structure SyntaxError where
  line : Nat
  fault : Fault
  deriving DecidableEq, Repr

end Script

end Repartee
