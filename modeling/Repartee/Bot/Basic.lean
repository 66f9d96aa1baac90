/-
  Repartee.Bot.Basic — a bot: the rules it has loaded, its macros and its users.

  Every turn runs on the rulebook compiled from the sources at the last successful load. Each
  turn has draws of its own.
-/

import Repartee.Turn.Play

namespace Repartee

/-- Where the text of a source comes from. -/
inductive SourcePlace where
  | file (path : String)
  | inline (name : String)
  deriving DecidableEq, Repr

def SourcePlace.name : SourcePlace → String
  | .file path => path
  | .inline name => name

/-- A loaded script and where it comes from. -/
structure Source where
  place : SourcePlace
  script : Script
  deriving DecidableEq, Repr

structure Bot where
  settings : Settings
  /-- What the settings' punctuation denotes. -/
  punctuation : Regex
  rules : Rulebook
  sources : List Source := []
  macros : Macros := {}
  roster : Roster := {}
  /-- The draws of each turn. -/
  draws : Nat → Draws
  turns : Nat := 0

namespace Bot

/-- A bot without rules. -/
def new (settings : Settings) : Except SettingsFault Bot := do
  let punctuation ← settings.punctuationRegex
  .ok {
    settings
    punctuation
    rules := .empty punctuation settings
    draws := .ofSeed (settings.seed.getD 0) }

/-! ## Macros -/

def setSubroutine (b : Bot) (name : String) (s : Subroutine) : Bot :=
  { b with macros := b.macros.setSubroutine name s }

def removeSubroutine (b : Bot) (name : String) : Bot :=
  { b with macros := b.macros.removeSubroutine name }

/-- Register the handler of a language, whose name is not case sensitive. -/
def setHandler (b : Bot) (language : String) (handler : Handler) : Bot :=
  { b with macros := b.macros.setHandler (Text.lowercase language) handler }

/-! ## Turns -/

def scene (b : Bot) : Scene :=
  { rules := b.rules, macros := b.macros, settings := b.settings, draws := b.draws b.turns }

/-- Answer a message and report how. -/
def reply (b : Bot) (user message : String) : Turn.Report × Bot :=
  let (report, u) := Turn.play b.scene (b.roster.user user) message
  (report, { b with roster := b.roster.keep user u, turns := b.turns + 1 })

/-! ## Users -/

def uservar (b : Bot) (user name : String) : String :=
  ((b.roster.existing? user).map (·.get name)).getD undefinedText

def uservars? (b : Bot) (user : String) : Option (Dict String) :=
  (b.roster.existing? user).map (·.vars)

/-- Write variables in order, creating the user if needed. -/
def setUservars (b : Bot) (user : String) (vars : List (String × String)) : Bot :=
  { b with roster := b.roster.keep user (vars.foldl (fun u (name, value) => u.set name value) (b.roster.user user)) }

def setUservar (b : Bot) (user name value : String) : Bot := b.setUservars user [(name, value)]

/-- The last messages and replies of a user. -/
def history? (b : Bot) (user : String) : Option (History × History) :=
  (b.roster.existing? user).map fun u => (u.inputs, u.replies)

/-- The pattern that answered the user's last message. -/
def lastMatch? (b : Bot) (user : String) : Option String := do
  let u ← b.roster.existing? user
  if u.lastMatch = undefinedText then none else some u.lastMatch

def sourceNames (b : Bot) : List String := b.sources.map (·.place.name)

end Bot

end Repartee
