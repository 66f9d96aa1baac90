/-
  Repartee.Settings.Basic — how a bot is set up.
-/

import Repartee.Dict
import Repartee.Regex.Reader

namespace Repartee

structure Settings where
  /-- How many redirects may follow each other in one turn. -/
  maxDepth : Nat := 50
  /-- Said when no trigger answers. -/
  noMatchReply : String := "ERR: No Reply Matched"
  /-- Said when the trigger that answers has nothing to say. -/
  noReplyFound : String := "ERR: No Reply Found"
  /-- Said when the redirects of a turn go too deep. -/
  deepRecursionReply : String := "ERR: Deep Recursion Detected"
  /-- The regular expression of what is removed from words. -/
  punctuation : String := "[^\\p\x7bL\x7d\\p\x7bN\x7d\\s]"
  /-- Substitutions on top of those of the rule texts. -/
  substitutions : Dict String := ∅
  /-- The time allowed for macros, in milliseconds. -/
  macroTimeout : Option Nat := none
  seed : Option Nat := none
  /-- The extensions of the files that make up a directory of rules. -/
  extensions : List String := ["rive"]
  /-- Whether unusual rule texts are refused. -/
  strict : Bool := false
  deriving DecidableEq, Repr

/-- What makes settings unusable. -/
inductive SettingsFault where
  /-- The document is not one of settings. -/
  | document
  /-- The punctuation is not a regular expression. -/
  | punctuation
  deriving DecidableEq, Repr

def SettingsFault.message : SettingsFault → String
  | .document => "invalid configuration"
  | .punctuation => "invalid punctuation pattern"

def Settings.punctuationRegex (s : Settings) : Except SettingsFault Regex :=
  match Regex.read? s.punctuation with
  | some r => .ok r
  | none => .error .punctuation

end Repartee
