/-
  Repartee.Macro — what `<call>` can call.

  A subroutine is native: a function of the call and the calling user, which it may change. An
  object is code from a rule text, handed to the handler of its language when the text is
  loaded. A handler decides by all that it was handed before whether it takes another object,
  and runs its objects by all that it was handed. Nothing is taken back from it. A subroutine
  hides an object of the same name.
-/

import Repartee.User

namespace Repartee

structure MacroCall where
  name : String
  args : List String
  /-- Whether the time allowed for macros is over. -/
  expired : Bool
  deriving DecidableEq, Repr

inductive MacroError where
  | failed (text : String)
  | deadlineExceeded
  | noHandler (language : String)
  deriving DecidableEq, Repr

def MacroError.message : MacroError → String
  | .failed text => text
  | .deadlineExceeded => "deadline exceeded"
  | .noHandler language => "no handler for language '" ++ language ++ "'"

abbrev Subroutine := MacroCall → User → Except MacroError String × User

/-- An object as its handler receives it. -/
structure ObjectCode where
  name : String
  code : String
  deriving DecidableEq, Repr

/-- A language: whether it takes an object and how it runs one, given all it was handed before,
earliest first and refused objects included. -/
structure Handler where
  accept : List ObjectCode → ObjectCode → Except MacroError Unit
  run : List ObjectCode → Subroutine

/-- A handler at work, with all that it was handed. -/
structure Workshop where
  handler : Handler
  received : List ObjectCode := []

structure Macros where
  subroutines : Dict Subroutine := ∅
  /-- By language. -/
  workshops : Dict Workshop := ∅
  /-- The language of each object by name. -/
  objects : Dict String := ∅

namespace Macros

def setSubroutine (m : Macros) (name : String) (s : Subroutine) : Macros :=
  { m with subroutines := m.subroutines.put name s }

def removeSubroutine (m : Macros) (name : String) : Macros :=
  { m with subroutines := m.subroutines.erase name }

/-- Register a handler, which was handed nothing yet, in place of an earlier one. -/
def setHandler (m : Macros) (language : String) (handler : Handler) : Macros :=
  { m with workshops := m.workshops.put language { handler } }

def hasHandler (m : Macros) (language : String) : Bool := m.workshops.contains language

/-- Hand an object to the handler of its language, which keeps what it was handed even if it does
not take it. -/
def loadObject (m : Macros) (name language code : String) : Macros × Except MacroError Unit :=
  match m.workshops.find? language with
  | none => (m, .error (.noHandler language))
  | some w =>
    let handed := { m with
      workshops := m.workshops.put language { w with received := w.received ++ [⟨name, code⟩] } }
    match w.handler.accept w.received ⟨name, code⟩ with
    | .error e => (handed, .error e)
    | .ok () => ({ handed with objects := handed.objects.put name language }, .ok ())

def isDefined (m : Macros) (name : String) : Bool :=
  m.subroutines.contains name || m.objects.contains name

/-- The code that a call of `name` runs. -/
def resolve? (m : Macros) (name : String) : Option Subroutine :=
  match m.subroutines.find? name with
  | some s => some s
  | none => do
    let language ← m.objects.find? name
    let w ← m.workshops.find? language
    some (w.handler.run w.received)

end Macros

end Repartee
