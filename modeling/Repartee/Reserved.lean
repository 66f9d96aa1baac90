/-
  Repartee.Reserved — the names and texts with a meaning of their own.
-/

namespace Repartee

/-- The topic every user starts in, which every rulebook has. -/
def homeTopic : String := "random"

/-- What an unset variable and an unused history slot read as. -/
def undefinedText : String := "undefined"

/-- The value that erases a variable or definition when it is written to it. -/
def erasingValue : String := "<undef>"

/-- The user variable that holds the topic. -/
def topicVariable : String := "topic"

/-- The user variable that holds the pattern which answered the last turn. -/
def lastMatchVariable : String := "__lastmatch__"

end Repartee
