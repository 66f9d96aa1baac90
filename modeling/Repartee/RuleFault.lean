/-
  Repartee.RuleFault — what can be wrong with a trigger, a reply or a condition.
-/

namespace Repartee

/-- The reply tags that need their end. -/
inductive Unclosed where
  | random
  | redirect
  | call
  | casing
  deriving DecidableEq, Repr

def Unclosed.name : Unclosed → String
  | .random => "\x7brandom\x7d"
  | .redirect => "\x7b@...\x7d"
  | .call => "<call>"
  | .casing => "\x7bsentence\x7d/\x7bformal\x7d/\x7buppercase\x7d/\x7blowercase\x7d"

/-- A fault and the text that has it. -/
inductive RuleFault where
  | emptyPattern
  | unbalanced (bracket : Char) (text : String)
  | emptyGroup (text : String)
  | unknownTag (tag text : String)
  | badWeight (value text : String)
  | unknownArray (name text : String)
  | embeddedWildcard (sigil : Char) (text : String)
  | unclosed (tag : Unclosed) (text : String)
  | malformedCondition (text : String)
  deriving DecidableEq, Repr

def inQuotes (text : String) : String := "\"" ++ text ++ "\""

def RuleFault.message : RuleFault → String
  | .emptyPattern => "empty pattern"
  | .unbalanced bracket text => "unbalanced '" ++ bracket.toString ++ "' in " ++ inQuotes text
  | .emptyGroup text => "empty group in " ++ inQuotes text
  | .unknownTag tag text => "unknown tag '" ++ tag ++ "' in pattern " ++ inQuotes text
  | .badWeight value text => "invalid weight '" ++ value ++ "' in " ++ inQuotes text
  | .unknownArray name text => "unknown array '@" ++ name ++ "' in " ++ inQuotes text
  | .embeddedWildcard sigil text => "wildcard '" ++ sigil.toString ++ "' must stand alone in " ++ inQuotes text
  | .unclosed tag text => "unterminated " ++ tag.name ++ " in " ++ inQuotes text
  | .malformedCondition text => "malformed condition " ++ inQuotes text

end Repartee
