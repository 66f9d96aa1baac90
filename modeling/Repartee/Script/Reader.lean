/-
  Repartee.Script.Reader — reading a rule text, line by line.

  A physical line is part of an object, part of a block comment, or a rule line. A rule line
  has a mark, its first character, and a body. `^` continues the command before it; `>` and
  `<` act at once; any other command waits for its continuations and acts when the next
  command comes, or at the end. Inside a begin block nothing acts but `>` and `<`.

  Where a text is only unusual (an unknown command or block, a stray word), a strict reader
  refuses it and a lenient one passes over it.
-/

import Repartee.Script.Basic
import Repartee.Text.Casing

namespace Repartee.Script

open Text

/-- What stands between a command's body and its continuation. -/
inductive Joiner where
  | nothing
  | space
  | lineFeed
  deriving DecidableEq, Repr

def Joiner.chars : Joiner → List Char
  | .nothing => []
  | .space => [' ']
  | .lineFeed => ['\n']

/-- A command that waits for its continuations. -/
structure Command where
  mark : Char
  body : List Char
  line : Nat
  deriving DecidableEq, Repr

/-- What the lines to come are part of. -/
inductive Mode where
  | rules
  | comment
  | object (o : Object)
  deriving DecidableEq, Repr

structure Reader where
  strict : Bool
  script : Script
  joiner : Joiner := .nothing
  /-- The position of the open topic in the script. -/
  current : Nat := 0
  inBegin : Bool := false
  mode : Mode := .rules
  pending : Option Command := none
  deriving DecidableEq, Repr

namespace Reader

/-- A fault that only a strict reader refuses. -/
def complain (r : Reader) (line : Nat) (fault : Fault) : Except SyntaxError Reader :=
  if r.strict then .error ⟨line, fault⟩ else .ok r

def editTopic (r : Reader) (index : Nat) (f : Topic → Topic) : Reader :=
  { r with script := { r.script with topics := r.script.topics.modify index f } }

/-! ## Definitions -/

/-- The items of an array: the pieces between bars if there is one, otherwise the words. -/
def arrayItems (value : List Char) : List String :=
  if value.contains '|' then
    (((fields (· == '|') value).map trim).filter (!·.isEmpty)).map .ofList
  else (words value).map .ofList

/-- The name and value around the first equals sign, or the name alone. -/
def nameAndValue (rest : List Char) : List Char × List Char :=
  match cutOnce (· == '=') rest with
  | some (name, value) => (trim name, trim value)
  | none => (trim rest, [])

def joinerNamed? (name value : String) : Option Joiner :=
  if name = "concat" then
    if value = "none" then some .nothing
    else if value = "space" then some .space
    else if value = "newline" then some .lineFeed
    else none
  else none

def define (r : Reader) (body : List Char) (line : Nat) : Except SyntaxError Reader :=
  let (kindChars, rest) := (cutOnce Unicode.isBlank body).getD (body, [])
  let (nameChars, valueChars) := nameAndValue rest
  let kind := String.ofList kindChars
  let name := String.ofList nameChars
  let value := String.ofList valueChars
  let s := r.script
  if kind = "version" then .ok { r with script := { s with version := some value } }
  else if kind = "local" then
    match joinerNamed? name value with
    | some joiner => .ok { r with joiner }
    | none => r.complain line (.unknownLocal name value)
  else if kind = "global" then
    .ok { r with script := { s with globals := s.globals ++ [(name, value)] } }
  else if kind = "var" then
    .ok { r with script := { s with vars := s.vars ++ [(name, value)] } }
  else if kind = "sub" then
    .ok { r with script := { s with subs := s.subs ++ [(lowercase name, value)] } }
  else if kind = "array" then
    .ok { r with script := { s with arrays := s.arrays ++ [(name, arrayItems valueChars)] } }
  else r.complain line (.unknownDefinition kind)

/-! ## Blocks -/

/-- The edges that a topic header can declare. -/
inductive Edge where
  | includes
  | inherits
  deriving DecidableEq, Repr

def pushUnique (names : List String) (name : String) : List String :=
  if names.contains name then names else names ++ [name]

def Edge.add (t : Topic) (other : String) : Edge → Topic
  | .includes => { t with includes := pushUnique t.includes other }
  | .inherits => { t with inherits := pushUnique t.inherits other }

/-- Add the edges of a header to a topic. Words before `includes` or `inherits` have no place;
the first such word ends the reading. -/
def readEdges (t : Topic) (edge : Option Edge) : List String → Topic × Option String
  | [] => (t, none)
  | w :: ws =>
    if w = "includes" then readEdges t (some .includes) ws
    else if w = "inherits" then readEdges t (some .inherits) ws
    else
      match edge with
      | some e => readEdges (e.add t (lowercase w)) edge ws
      | none => (t, some (lowercase w))

/-- The position of the topic `name`, declared on `line` if it is new. -/
def locate (r : Reader) (name : String) (line : Nat) : Reader × Nat :=
  match r.script.topics.findIdx? (·.name = name) with
  | some index => (r, index)
  | none =>
    ({ r with script := { r.script with topics := r.script.topics ++ [{ name, line }] } },
      r.script.topics.length)

def openTopic (r : Reader) (name : String) (header : List String) (line : Nat) :
    Except SyntaxError Reader :=
  let (r, index) := r.locate (lowercase name) line
  let (topic, stray) := readEdges (r.script.topics.getD index default) none header
  let r := r.editTopic index fun _ => topic
  match stray with
  | some word => r.complain line (.strayHeaderWord word)
  | none => .ok { r with current := index }

def openBlock (r : Reader) (body : List Char) (line : Nat) : Except SyntaxError Reader :=
  match (words body).map String.ofList with
  | "topic" :: header =>
    match header with
    | [] => .error ⟨line, .unnamedTopic⟩
    | name :: edges => r.openTopic name edges line
  | "object" :: header =>
    match header with
    | name :: language :: _ =>
      .ok { r with mode := .object { name, language := lowercase language, code := "", line } }
    | _ => .error ⟨line, .incompleteObject⟩
  | "begin" :: _ => .ok { r with inBegin := true }
  | kind => r.complain line (.unknownBlock (kind.headD ""))

def closeBlock (r : Reader) (body : List Char) (line : Nat) : Except SyntaxError Reader :=
  match (words body).map String.ofList with
  | "topic" :: _ => .ok { r with current := 0 }
  | "begin" :: _ => .ok { r with inBegin := false }
  | kind => r.complain line (.unexpectedClose (kind.headD ""))

/-! ## Triggers and what belongs to them -/

/-- Add a `-`, `*`, `%` or `@` line to a trigger; a later `%` or `@` replaces an earlier one. -/
def attach (mark : Char) (l : Line) (t : Trigger) : Trigger :=
  if mark = '-' then { t with replies := t.replies ++ [l] }
  else if mark = '*' then { t with conditions := t.conditions ++ [l] }
  else if mark = '%' then { t with previous := some l }
  else { t with redirect := some l }

def editLast (f : Trigger → Trigger) (ts : List Trigger) : List Trigger :=
  ts.modify (ts.length - 1) f

def currentTopic (r : Reader) : Topic := r.script.topics.getD r.current default

/-- Whether a command adds to the trigger before it. -/
def isAttachment (mark : Char) : Bool := mark == '-' || mark == '*' || mark == '%' || mark == '@'

/-- Carry out a command whose body is complete. -/
def act (r : Reader) (c : Command) : Except SyntaxError Reader :=
  if r.inBegin && c.mark ≠ '<' && c.mark ≠ '>' then .ok r
  else if c.mark = '!' then r.define c.body c.line
  else if c.mark = '>' then r.openBlock c.body c.line
  else if c.mark = '<' then r.closeBlock c.body c.line
  else if c.mark = '+' then
    if c.body.isEmpty then .error ⟨c.line, .emptyTrigger⟩
    else
      .ok (r.editTopic r.current fun t =>
        { t with triggers := t.triggers ++ [{ pattern := ⟨.ofList c.body, c.line⟩ }] })
  else if isAttachment c.mark then
    if r.currentTopic.triggers.isEmpty then .error ⟨c.line, .outsideTrigger c.mark⟩
    else
      .ok (r.editTopic r.current fun t =>
        { t with triggers := editLast (attach c.mark ⟨.ofList c.body, c.line⟩) t.triggers })
  else r.complain c.line (.unknownCommand c.mark)

/-! ## Lines -/

/-- The text between a command and a continuation. Definitions have a rule of their own: a bar
once the body has one, otherwise a space. -/
def separator (r : Reader) (c : Command) : List Char :=
  if c.mark = '!' then if c.body.contains '|' then ['|'] else [' '] else r.joiner.chars

/-- Carry out the command that waits, if any. -/
def flush (r : Reader) : Except SyntaxError Reader :=
  match r.pending with
  | some c => ({ r with pending := none } : Reader).act c
  | none => .ok r

def continueWith (r : Reader) (body : List Char) (line : Nat) : Except SyntaxError Reader :=
  match r.pending with
  | some c => .ok { r with pending := some { c with body := c.body ++ r.separator c ++ body } }
  | none => r.complain line .nothingToContinue

def command (r : Reader) (c : Command) : Except SyntaxError Reader := do
  let r ← r.flush
  if c.mark = '>' ∨ c.mark = '<' then r.act c else .ok { r with pending := some c }

def startsWith (start : String) (cs : List Char) : Bool := (after? start.toList cs).isSome

def endsComment (cs : List Char) : Bool := occurs ['*', '/'] cs

/-- A line outside objects and comments, trimmed. -/
def ruleLine (r : Reader) (line : Nat) (cs : List Char) : Except SyntaxError Reader :=
  if startsWith "/*" cs then .ok { r with mode := if endsComment cs then .rules else .comment }
  else
    match cs with
    | [] => .ok r
    | mark :: rest =>
      if startsWith "//" cs then .ok r
      else if mark = '^' then r.continueWith (trim rest) line
      else r.command ⟨mark, trim rest, line⟩

def closesObject (raw : List Char) : Bool := startsWith "< object" (trimStart raw)

def objectLine (r : Reader) (o : Object) (raw : List Char) : Reader :=
  if closesObject raw then
    { r with mode := .rules, script := { r.script with objects := r.script.objects ++ [o] } }
  else { r with mode := .object { o with code := o.code ++ .ofList (raw ++ ['\n']) } }

def physicalLine (r : Reader) (line : Nat) (raw : List Char) : Except SyntaxError Reader :=
  match r.mode with
  | .object o => .ok (r.objectLine o raw)
  | .comment => .ok (if endsComment (trim raw) then { r with mode := .rules } else r)
  | .rules => r.ruleLine line (trim raw)

def readLines (r : Reader) (line : Nat) : List (List Char) → Except SyntaxError Reader
  | [] => .ok r
  | raw :: raws => do
    let r ← r.physicalLine line raw
    r.readLines (line + 1) raws

/-- The script once the text has ended. -/
def finish (r : Reader) : Except SyntaxError Script := do
  let r ← r.flush
  match r.mode with
  | .object o => .error ⟨o.line, .unclosedObject o.name⟩
  | _ => .ok r.script

end Reader

/-- Read a rule text; `origin` is the name that errors give it. -/
def read (strict : Bool) (origin text : String) : Except SyntaxError Script := do
  let start : Reader := { strict, script := { origin } }
  let r ← start.readLines 1 (linesOfPieces (fields (· == '\n') text.toList))
  r.finish

end Repartee.Script
