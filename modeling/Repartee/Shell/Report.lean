/-
  Repartee.Shell.Report — how turns, topics, variables and histories are shown.

  A report is text with at most one gap for the times of a turn, which only the outer layer
  knows. With colours on, parts are put between escape sequences.
-/

import Repartee.Bot.Overview
import Repartee.Text.Quoted

namespace Repartee.Shell

/-- A part of what is printed. -/
inductive Output where
  | text (s : String)
  /-- The times that the turn took. -/
  | elapsed
  deriving DecidableEq, Repr

/-- The printed text, with `times` in the gap. -/
def Output.render (times : String) : List Output → String
  | [] => ""
  | .text s :: rest => s ++ render times rest
  | .elapsed :: rest => times ++ render times rest

/-! ## Colours -/

inductive Style where
  | bold
  | dim
  | green
  | yellow
  | blue
  | cyan
  | gray
  deriving DecidableEq, Repr

def Style.code : Style → String
  | .bold => "1"
  | .dim => "2"
  | .green => "32"
  | .yellow => "33"
  | .blue => "34"
  | .cyan => "36"
  | .gray => "90"

/-- Put a text in a style, if colours are on. -/
def paint (color : Bool) (style : Style) (s : String) : String :=
  if color then "\x1b[" ++ style.code ++ "m" ++ s ++ "\x1b[0m" else s

def line (s : String) : String := s ++ "\n"

/-- A headline. -/
def headline (color : Bool) (title : String) : String :=
  "\n" ++ line (paint color .gray ("━━━ " ++ title ++ " ━━━"))

/-! ## Turns -/

def matchLines (color : Bool) : Option Matched → String
  | none => line (paint color .dim "  No trigger matched")
  | some m =>
    line ("  " ++ paint color .dim "trigger:" ++ " " ++ paint color .bold (paint color .green m.pattern) ++
      "  " ++ paint color .dim "│ topic:" ++ " " ++ paint color .blue m.topic) ++
    (if m.stars.isEmpty then ""
      else line ("  " ++ paint color .dim "stars:" ++ " " ++ paint color .yellow (Text.quotedList m.stars))) ++
    (if m.usedPrevious then
      line ("  " ++ paint color .dim "previous:" ++ " " ++ paint color .yellow (Text.quotedList m.botStars))
      else "")

def redirectLine (color : Bool) (s : Step) : String :=
  let answer := match s.matched with
    | some pattern => paint color .green pattern
    | none => paint color .dim "no match"
  line ("  " ++ paint color .gray ("[" ++ toString s.depth ++ "]") ++ " " ++ paint color .cyan s.input ++
    " " ++ paint color .dim "→" ++ " " ++ answer)

def redirectLines (color : Bool) (steps : List Step) : String :=
  match steps.tail with
  | [] => ""
  | followed => headline color "Redirects" ++ String.join (followed.map (redirectLine color))

def diagnosticLines (color : Bool) (r : Turn.Report) : String :=
  if r.diagnostics.isEmpty && !r.aborted then ""
  else
    headline color "Diagnostics" ++
    String.join (r.diagnostics.map fun d => line ("  " ++ paint color .yellow "•" ++ " " ++ d.message)) ++
    (if r.aborted then line ("  " ++ paint color .yellow "turn aborted") else "")

/-- The times of a turn: all of it, and what of it went into matching and into rendering. -/
structure Times where
  total : String
  matching : String
  render : String

/-- What stands in the gap of a report. -/
def Times.text (color : Bool) (t : Times) : String :=
  paint color .green t.total ++ "  │  Matching: " ++ paint color .cyan t.matching ++
    "  │  Render: " ++ paint color .dim t.render

/-- The report of a turn. -/
def turnReport (color : Bool) (r : Turn.Report) : List Output :=
  [.text ("\n" ++ line (paint color .bold (paint color .cyan ("⚙  Message: \"" ++ r.message ++ "\""))) ++
      headline color "Match" ++ matchLines color r.matched ++
      redirectLines color r.steps ++ diagnosticLines color r ++
      headline color "Timing" ++ "  Total: "),
    .elapsed,
    .text (line ("  │  Tried: " ++ paint color .yellow (toString r.tried) ++
      "  │  Topic now: " ++ paint color .blue r.topic) ++ "\n")]

/-! ## Rules -/

def categoryName : Pattern.Category → String
  | .literal => "literal"
  | .wildcard => "wildcard"
  | .optional => "optional"
  | .catchAll => "catch-all"

/-- What a trigger answers with: its redirect, or how many bodies it has. -/
def answerText (color : Bool) (t : TriggerOverview) : String :=
  match t.redirect with
  | some target => " " ++ paint color .dim "@" ++ " " ++ paint color .cyan target
  | none =>
    let bodies := t.replies.length + t.conditions.length
    paint color .dim (" " ++ toString bodies ++ " repl" ++ (if bodies = 1 then "y" else "ies"))

def triggerText (color : Bool) (t : TriggerOverview) : String :=
  paint color .green t.pattern ++
  (match t.previous with
    | some previous => " " ++ paint color .dim "%" ++ " " ++ paint color .yellow previous
    | none => "") ++
  " " ++ paint color .dim ("│ " ++ categoryName t.category) ++
  (if 0 < t.weight then paint color .dim (" w=" ++ toString t.weight) else "") ++
  answerText color t

/-- The edges of a topic after a keyword, if it has any. -/
def edgesText (color : Bool) (keyword : String) (names : List String) : String :=
  if names.isEmpty then "" else " " ++ paint color .dim keyword ++ " " ++ Text.spaced names

def topicLines (color : Bool) (t : TopicOverview) : String :=
  line ("  " ++ paint color .bold (paint color .blue t.name) ++
    edgesText color "includes" t.includes ++ edgesText color "inherits" t.inherits) ++
  (if t.triggers.isEmpty then line ("    " ++ paint color .dim "(no triggers of its own)")
    else String.join (t.triggers.map fun trigger =>
      line ("    " ++ paint color .gray "+" ++ " " ++ triggerText color trigger)))

def topicsReport (color : Bool) (topics : List TopicOverview) : String :=
  headline color "Topics" ++ String.join (topics.map (topicLines color)) ++ "\n"

/-- The triggers of a topic, numbered in the order they are tried. -/
def sortedReport (color : Bool) (topic : String) (triggers : List TriggerOverview) : String :=
  headline color ("Sorted: " ++ topic) ++
  String.join (triggers.zipIdx.map fun (t, n) =>
    line ("  " ++ paint color .gray ("[" ++ toString n ++ "]") ++ " " ++ triggerText color t ++
      (if t.topic = topic then "" else paint color .dim (" (from " ++ t.topic ++ ")")))) ++ "\n"

/-! ## Users -/

def varsReport (color : Bool) (user : String) (vars : Dict String) : String :=
  headline color ("Variables: " ++ user) ++
  (if vars.isEmpty then line (paint color .dim "  none") else "") ++
  String.join (vars.entries.map fun (name, value) =>
    line ("  " ++ paint color .cyan name ++ " = " ++ value)) ++ "\n"

/-- The turns of a history that have a message, by their indexes, latest first. -/
def rememberedTurns (inputs replies : History) : List (Nat × String × String) :=
  ((inputs.entries.zip replies.entries).zipIdx 1).filterMap fun ((input, reply), n) =>
    if input = undefinedText then none else some (n, input, reply)

def historyReport (color : Bool) (inputs replies : History) : String :=
  headline color "History" ++
  String.join ((rememberedTurns inputs replies).map fun (n, input, reply) =>
    line ("  " ++ paint color .gray ("[" ++ toString n ++ "]") ++ " " ++ paint color .cyan input ++ " " ++
      paint color .dim "→") ++ line ("      " ++ reply)) ++ "\n"

end Repartee.Shell
