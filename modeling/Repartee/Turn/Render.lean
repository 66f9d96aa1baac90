/-
  Repartee.Turn.Render — rendering a template.

  Pieces are played from left to right and their texts joined. What a redirect answers is a
  parameter, so that rendering recurs on the pieces alone. A tag that cannot be played leaves a
  diagnostic and no text.
-/

import Repartee.Decimal.Written
import Repartee.Turn.Basic

namespace Repartee

/-- The captures a template can name. -/
structure Captures where
  stars : List String
  botStars : List String
  deriving DecidableEq, Repr

namespace Turn

/-- The capture at an index from 1 on. -/
def capture (captures : List String) : Nat → Act String
  | 0 => do
    diagnose (.starOutOfRange 0 captures.length)
    return ""
  | i + 1 =>
    match captures[i]? with
    | some text => return text
    | none => do
      diagnose (.starOutOfRange (i + 1) captures.length)
      return ""

def remembered (entry : User → Nat → Option String) (index : Nat) : Act String := do
  match entry (← get).user index with
  | some text => return text
  | none =>
    diagnose (.historyOutOfRange index)
    return ""

/-- The number a variable holds; one that is not set holds zero. -/
def currentText (u : User) (name : String) : String :=
  if u.get name = undefinedText then "0" else u.get name

def compute (op : MathOp) (a b : Float) : Float :=
  match op with
  | .add => a + b
  | .sub => a - b
  | .mult => a * b
  | .div => a / b

/-- Update a variable by a number. -/
def applyMath (op : MathOp) (name operand : String) : Act Unit := do
  let current := currentText (← get).user name
  match Decimal.float? (Text.trimmed current), Decimal.float? (Text.trimmed operand) with
  | none, _ => diagnose (.notANumber name current)
  | some _, none => diagnose (.notANumber name operand)
  | some a, some b =>
    if op = .div ∧ b == 0.0 then diagnose (.divisionByZero name)
    else editUser (·.set name (Decimal.written (compute op a b)))

/-- Call a macro by a line of its name and arguments. -/
def callMacro (s : Scene) (line : String) : Act String :=
  match Text.wordsOf line with
  | [] => do
    diagnose (.undefinedMacro "")
    return ""
  | name :: args =>
    match s.macros.resolve? name with
    | none => do
      diagnose (.undefinedMacro name)
      return ""
    | some subroutine => do
      let t ← get
      let (result, user) := subroutine { name, args, expired := s.settings.macroTimeout == some 0 } t.user
      set { t with user }
      match result with
      | .ok text => return text
      | .error e =>
        diagnose (.macroFailed name e)
        return ""

mutual

/-- The text of one piece; `redirect` answers a redirect's target. -/
def renderPiece (s : Scene) (redirect : String → Play String) (captures : Captures) :
    Piece → Play String
  | .text text => return text
  | .star index => capture captures.stars index
  | .botStar index => capture captures.botStars index
  | .input index => remembered User.input? index
  | .reply index => remembered User.reply? index
  | .get name => return (← get).user.get name
  | .bot name => return (s.rules.vars.find? name).getD undefinedText
  | .env name => return (s.rules.globals.find? name).getD undefinedText
  | .userId => return (← get).user.id
  | .set name value => do
    let value ← renderPieces s redirect captures value
    editUser (·.set name value)
    return ""
  | .math op name operand => do
    let operand ← renderPieces s redirect captures operand
    applyMath op name operand
    return ""
  | .topic name => do
    editUser (·.setTopic name)
    return ""
  | .call line => do
    let line ← renderPieces s redirect captures line
    callMacro s line
  | .redirect target => do
    let target ← renderPieces s redirect captures target
    redirect (Text.trimmed target)
  | .random alternatives => do
    if alternatives.isEmpty then return ""
    let i ← draw s alternatives.length
    renderNth s redirect captures alternatives i
  | .recase r body => do
    let text ← renderPieces s redirect captures body
    return r.apply text

def renderPieces (s : Scene) (redirect : String → Play String) (captures : Captures) :
    List Piece → Play String
  | [] => return ""
  | p :: ps => do
    let text ← renderPiece s redirect captures p
    let rest ← renderPieces s redirect captures ps
    return text ++ rest

/-- The text of the alternative at an index. -/
def renderNth (s : Scene) (redirect : String → Play String) (captures : Captures) :
    List (List Piece) → Nat → Play String
  | [], _ => return ""
  | ps :: _, 0 => renderPieces s redirect captures ps
  | _ :: alternatives, i + 1 => renderNth s redirect captures alternatives i

end

def render (s : Scene) (redirect : String → Play String) (captures : Captures) (t : Template) :
    Play String :=
  renderPieces s redirect captures t.pieces

end Turn

end Repartee
