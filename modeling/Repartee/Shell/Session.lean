/-
  Repartee.Shell.Session — a chat at the terminal.

  A line is trimmed first. An empty one does nothing; one whose first word starts with `/` is a
  command, known or not; any other is a message to the bot. `/quit` or `/exit`, alone on its
  line, ends the session, and so does the end of the input. Files can change between lines, so
  each line has the files as they are when it is carried out.
-/

import Repartee.Bot.Load
import Repartee.Shell.Report

namespace Repartee.Shell

/-- The name and version that the program greets with. -/
def programVersion : String := "parley 0.4.0"

structure Session where
  bot : Bot
  user : String
  verbose : Bool
  color : Bool

namespace Session

/-- What a line asks for. -/
inductive Request where
  | nothing
  | quit
  | help
  | lastMatch
  | toggleReport
  | history
  | vars
  | topics
  | sortedAll
  | sorted (topic : String)
  | reload
  | unknown (command : String)
  | say (message : String)
  deriving DecidableEq, Repr

/-- What a command line asks for, by its words; a line that starts otherwise asks for nothing. -/
def command? : List String → Option Request
  | [] => some .nothing
  | ["/quit"] | ["/exit"] => some .quit
  | ["/help"] => some .help
  | ["/last"] => some .lastMatch
  | ["/verbose"] => some .toggleReport
  | ["/history"] => some .history
  | ["/vars"] => some .vars
  | ["/dump", "topics"] => some .topics
  | ["/dump", "sorted"] => some .sortedAll
  | ["/dump", "sorted", topic] => some (.sorted topic)
  | ["/reload"] => some .reload
  | word :: _ => if word.toList.head? = some '/' then some (.unknown word) else none

def request (line : String) : Request :=
  (command? (Text.wordsOf line)).getD (.say (Text.trimmed line))

def greeting : String := line (programVersion ++ " - type /help for commands, /quit to exit")

def prompt : String := "You> "

def helpText : String :=
  "Commands:\n" ++
  "  /help                 Show this help.\n" ++
  "  /quit                 Leave the shell.\n" ++
  "  /last                 Show the trigger that answered your last message.\n" ++
  "  /vars                 Show your user variables.\n" ++
  "  /history              Show your last nine messages and replies.\n" ++
  "  /verbose              Toggle the match report.\n" ++
  "  /dump topics          List topics with their includes, inherits and triggers.\n" ++
  "  /dump sorted [TOPIC]  Show triggers in the order they are tried.\n" ++
  "  /reload               Re-read rule files from disk.\n"

/-- Send a message to the bot and show the reply, with the report if it is on. -/
def say (s : Session) (message : String) : Session × List Output :=
  let (report, bot) := s.bot.reply s.user message
  ({ s with bot },
    .text (line report.reply) :: if s.verbose then turnReport s.color report else [])

def lastMatchText (s : Session) : String :=
  match s.bot.lastMatch? s.user with
  | some pattern => line ("last match: " ++ pattern)
  | none => line "no match yet"

def historyText (s : Session) : String :=
  match s.bot.history? s.user with
  | some (inputs, replies) => historyReport s.color inputs replies
  | none => line "no history yet"

def sortedText (s : Session) (topic : String) : String :=
  match s.bot.sortedTriggers? topic with
  | some triggers => sortedReport s.color topic triggers
  | none => line ("no topic named '" ++ topic ++ "'")

/-- The rankings of all topics. -/
def sortedAllText (s : Session) : String :=
  String.join (s.bot.topics.filterMap fun t =>
    (s.bot.sortedTriggers? t.name).map (sortedReport s.color t.name))

def reload (s : Session) (files : Files) : Session × String :=
  let (bot, done) := s.bot.reload files
  ({ s with bot },
    match done with
    | .ok () => line ("reloaded " ++ toString bot.sourceNames.length ++ " source(s)")
    | .error e => line ("reload failed: " ++ e.message))

/-- Carry out a request; no session is left after the last one. -/
def perform (s : Session) (files : Files) : Request → Option Session × List Output
  | .nothing => (some s, [])
  | .quit => (none, [])
  | .help => (some s, [.text helpText])
  | .lastMatch => (some s, [.text s.lastMatchText])
  | .toggleReport =>
    let verbose := !s.verbose
    (some { s with verbose }, [.text (line (if verbose then "verbose on" else "verbose off"))])
  | .history => (some s, [.text s.historyText])
  | .vars => (some s, [.text (varsReport s.color s.user ((s.bot.uservars? s.user).getD ∅))])
  | .topics => (some s, [.text (topicsReport s.color s.bot.topics)])
  | .sortedAll => (some s, [.text s.sortedAllText])
  | .sorted topic => (some s, [.text (s.sortedText topic)])
  | .reload =>
    let (s, text) := s.reload files
    (some s, [.text text])
  | .unknown command => (some s, [.text (line ("unknown command " ++ command ++ "; try /help"))])
  | .say message =>
    let (s, out) := s.say message
    (some s, .text "Bot> " :: out)

/-- Answer lines from the one with number `n` on, with a prompt before each and one before their end.
The files of line `k` are `disk k`. -/
def answerLines (s : Session) (disk : Nat → Files) (n : Nat) : List String → Session × List Output
  | [] => (s, [.text prompt, .text "\n"])
  | l :: ls =>
    match s.perform (disk n) (request l) with
    | (none, out) => (s, .text prompt :: out)
    | (some s, out) =>
      let (s, rest) := s.answerLines disk (n + 1) ls
      (s, .text prompt :: out ++ rest)

/-- A whole session. -/
def run (s : Session) (disk : Nat → Files) (input : String) : Session × List Output :=
  let (s, out) := s.answerLines disk 0 (Text.lines input)
  (s, .text greeting :: out)

end Session

end Repartee.Shell
