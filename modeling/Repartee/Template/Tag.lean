/-
  Repartee.Template.Tag — the tag at the beginning of a text.

  `tag?` reads one tag and leaves what the tag holds unread, so that it does not recur: a
  block, assignment or call gives the characters inside it. Text in braces or angle brackets
  that is no tag gives nothing. A block whose end is missing is a tag of its own, since it
  makes the whole reply faulty.
-/

import Repartee.RuleFault
import Repartee.Template.Basic
import Repartee.Unicode.Number

namespace Repartee.Template

open Text

inductive Tag where
  | weight (value : List Char)
  /-- A tag that holds nothing to read. -/
  | piece (p : Piece)
  | set (name : String) (value : List Char)
  | math (op : MathOp) (name : String) (operand : List Char)
  | call (line : List Char)
  | redirect (target : List Char)
  | random (body : List Char)
  | recase (r : Recase) (body : List Char)
  | unclosed (what : Unclosed)

/-- What a tag holds unread. -/
def Tag.inside : Tag → List Char
  | .set _ cs | .math _ _ cs | .call cs | .redirect cs | .random cs | .recase _ cs => cs
  | .weight _ | .piece _ | .unclosed _ => []

/-! ## Blocks -/

def openingOf (name : String) : List Char := ("\x7b" ++ name ++ "\x7d").toList

def closingOf (name : String) : List Char := ("\x7b/" ++ name ++ "\x7d").toList

/-- The body of the block `name` whose opening has been read, and what follows its closing. The
blocks of the same name inside it, `depth` of which are open, keep their own closings. -/
def blockBody? (name : String) (depth : Nat) : List Char → Option (List Char × List Char)
  | [] => none
  | c :: cs =>
    if (after? (openingOf name) (c :: cs)).isSome then
      (blockBody? name (depth + 1) cs).map (prepend c)
    else
      match after? (closingOf name) (c :: cs), depth with
      | some rest, 0 => some ([], rest)
      | some _, depth + 1 => (blockBody? name depth cs).map (prepend c)
      | none, depth => (blockBody? name depth cs).map (prepend c)

/-- Cut at the bars that stand outside inner random blocks, `depth` of which are open. -/
def cutBars (depth : Nat) : List Char → List (List Char)
  | [] => [[]]
  | c :: cs =>
    if (after? (openingOf "random") (c :: cs)).isSome then (cutBars (depth + 1) cs).modifyHead (c :: ·)
    else if (after? (closingOf "random") (c :: cs)).isSome then (cutBars (depth - 1) cs).modifyHead (c :: ·)
    else if c = '|' ∧ depth = 0 then [] :: cutBars 0 cs
    else (cutBars depth cs).modifyHead (c :: ·)

/-- The alternatives of a random block: the pieces between bars, or the words if it has none. -/
def alternatives (body : List Char) : List (List Char) :=
  match cutBars 0 body with
  | [_] => words body
  | pieces => pieces

/-! ## Tags in braces -/

def recaseNames : List (String × Recase) :=
  [("sentence", .sentence), ("formal", .formal), ("uppercase", .upper), ("lowercase", .lower)]

/-- The block `name` at the beginning of a text. -/
def blockTag? (name : String) (tag : List Char → Tag) (what : Unclosed) (cs : List Char) :
    Option (Tag × List Char) :=
  match after? (openingOf name) cs with
  | none => none
  | some inside =>
    match blockBody? name 0 inside with
    | some (body, rest) => some (tag body, rest)
    | none => some (.unclosed what, [])

/-- What stands between `start`, at the beginning of the text, and the next closing brace; the
outer option is none if the text begins otherwise, the inner one if no brace closes. -/
def bracedAfter? (start : String) (cs : List Char) : Option (Option (List Char × List Char)) :=
  (after? start.toList cs).map (cutOnce (· == '}'))

def weightTag? (cs : List Char) : Option (Tag × List Char) :=
  (bracedAfter? "\x7bweight=" cs).join.map fun (value, rest) => (.weight (trim value), rest)

def redirectTag? (cs : List Char) : Option (Tag × List Char) :=
  (bracedAfter? "\x7b@" cs).map fun found =>
    match found with
    | some (target, rest) => (.redirect (trim target), rest)
    | none => (.unclosed .redirect, [])

def topicTag? (cs : List Char) : Option (Tag × List Char) :=
  (bracedAfter? "\x7btopic=" cs).join.map fun (name, rest) =>
    (.piece (.topic (.ofList (lower (trim name)))), rest)

def recaseTag? (cs : List Char) : Option (Tag × List Char) :=
  recaseNames.findSome? fun (name, r) => blockTag? name (.recase r) .casing cs

/-- The tag in braces at the beginning of a text. -/
def braceTag? (cs : List Char) : Option (Tag × List Char) :=
  weightTag? cs <|> blockTag? "random" .random .random cs <|> redirectTag? cs <|> topicTag? cs <|> recaseTag? cs

/-! ## Tags in angle brackets -/

/-- Up to the bracket that closes one read before, passing over `depth` inner pairs. -/
def angleBody? (depth : Nat) : List Char → Option (List Char × List Char)
  | [] => none
  | c :: cs =>
    if c = '<' then (angleBody? (depth + 1) cs).map (prepend c)
    else if c = '>' then
      match depth with
      | 0 => some ([], cs)
      | depth + 1 => (angleBody? depth cs).map (prepend c)
    else (angleBody? depth cs).map (prepend c)

/-- Variable names: letters, numbers, underscores, hyphens and points. -/
def isIdentifier (cs : List Char) : Bool :=
  !cs.isEmpty && cs.all fun c => Unicode.isAlphanumeric c || c == '_' || c == '-' || c == '.'

/-- The tags that hold a number, the longer names first. -/
def indexedNames : List (String × (Nat → Piece)) :=
  [("botstar", .botStar), ("star", .star), ("input", .input), ("reply", .reply)]

/-- The index written in a tag, at the end of its name or after it; 1 if there is none. -/
def index? (suffix args : List Char) : Option Nat :=
  if suffix.isEmpty && args.isEmpty then some 1
  else if suffix.isEmpty then Decimal.natural Decimal.bound64 args
  else if args.isEmpty then Decimal.natural Decimal.bound64 suffix
  else none

def indexed? (name args : List Char) : Option Piece :=
  (indexedNames.findSome? fun (start, piece) =>
    (after? start.toList name).map fun suffix => (index? suffix args).map piece).join

/-- A tag that reads one variable. -/
def reading? (name : String) : Option (String → Piece) :=
  if name = "get" then some .get
  else if name = "bot" then some .bot
  else if name = "env" then some .env
  else none

/-- A tag that writes one variable. -/
def writing? (name : String) : Option (String → List Char → Tag) :=
  if name = "set" then some .set
  else if name = "add" then some (.math .add)
  else if name = "sub" then some (.math .sub)
  else if name = "mult" then some (.math .mult)
  else if name = "div" then some (.math .div)
  else none

/-- The first capture, which the short forms act on. -/
def firstStar : List Piece := [.star 1]

/-- The tag that a name and its arguments make. -/
def namedTag? (name args : List Char) : Option Tag :=
  let word := String.ofList name
  if word = "@" ∧ args = [] then some (.piece (.redirect firstStar))
  else if word = "id" ∧ args = [] then some (.piece .userId)
  else
    match reading? word, writing? word, recaseNames.lookup word with
    | some piece, _, _ => if isIdentifier args then some (.piece (piece (.ofList args))) else none
    | none, some tag, _ =>
      match cutOnce (· == '=') args with
      | some (var, value) =>
        if isIdentifier (trim var) then some (tag (.ofList (trim var)) (trim value)) else none
      | none => none
    | none, none, some r =>
      if args = [] then some (.piece (.recase r firstStar)) else none
    | none, none, none => (indexed? name args).map .piece

/-- A call reaches to the first closing tag. -/
def callTag? (cs : List Char) : Option (Tag × List Char) :=
  (after? "<call>".toList cs).map fun inside =>
    match cutAt "</call>".toList inside with
    | some (line, rest) => (.call (trim line), rest)
    | none => (.unclosed .call, [])

/-- The tag in angle brackets that begins a text, after its opening bracket. -/
def pairedTag? (cs : List Char) : Option (Tag × List Char) :=
  match angleBody? 0 cs with
  | none => none
  | some (inside, rest) =>
    let (name, args) := (cutOnce Unicode.isBlank inside).getD (inside, [])
    (namedTag? name (trim args)).map (·, rest)

/-- The tag at the beginning of a text, and what follows it. -/
def tag? : List Char → Option (Tag × List Char)
  | [] => none
  | c :: cs =>
    if c = '{' then braceTag? (c :: cs)
    else if c = '<' then callTag? (c :: cs) <|> pairedTag? cs
    else none

end Repartee.Template
