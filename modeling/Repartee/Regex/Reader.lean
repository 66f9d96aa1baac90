/-
  Repartee.Regex.Reader — reading a regular expression.

  The text is first cut into tokens: single-character parts (a literal, `.`, an escape, a class
  in square brackets), assertions, parentheses, bars and quantities. The tokens are then put
  together with one frame for every group that is still open. A group may be capturing, named
  or neither; what it captures is not kept, but no two groups have one name. Anything outside this
  grammar is refused.
-/

import Repartee.Regex.Basic
import Repartee.Decimal.Reading
import Repartee.Text.Split

namespace Repartee.Regex

inductive Token where
  | part (r : Regex)
  | openGroup (name : Option String)
  | closeGroup
  | bar
  | quantity (low : Nat) (more : Option Nat) (greedy : Bool)
  deriving Repr

/-- What a backslash can introduce. -/
inductive Escape where
  | literal (c : Char)
  | property (p : Property) (negated : Bool)
  | assertion (a : Assertion)
  deriving Repr

/-- The properties with a one-letter or a long name. -/
def propertyNames : List (String × Property) :=
  [("L", .letter), ("Letter", .letter), ("N", .number), ("Number", .number), ("Nd", .digit),
   ("Decimal_Number", .digit), ("P", .punctuation), ("Punctuation", .punctuation),
   ("Alphabetic", .alphabetic), ("White_Space", .blank)]

/-- The name after `\p`: one letter, or any name in braces. -/
def propertyName? : List Char → Option (String × List Char)
  | [] => none
  | '{' :: cs => (Text.cutOnce (· == '}') cs).map fun (name, rest) => (.ofList name, rest)
  | c :: cs => some (c.toString, cs)

/-- The escapes that stand for one control character. -/
def controlEscapes : List (Char × Char) :=
  [('t', '\t'), ('n', '\n'), ('r', '\r'), ('a', '\x07'), ('f', '\x0c'), ('v', '\x0b')]

def classEscapes : List (Char × Escape) :=
  [('d', .property .digit false), ('D', .property .digit true),
   ('s', .property .blank false), ('S', .property .blank true),
   ('w', .property .word false), ('W', .property .word true),
   ('A', .assertion .textStart), ('z', .assertion .textEnd),
   ('b', .assertion .wordEdge), ('B', .assertion .noWordEdge)]

/-- The escape whose backslash has been read. Punctuation stands for itself. -/
def escape? : List Char → Option (Escape × List Char)
  | [] => none
  | c :: cs =>
    if c = 'p' ∨ c = 'P' then do
      let (name, rest) ← propertyName? cs
      let p ← propertyNames.lookup name
      some (.property p (c = 'P'), rest)
    else
      match classEscapes.lookup c, controlEscapes.lookup c with
      | some e, _ => some (e, cs)
      | none, some control => some (.literal control, cs)
      | none, none =>
        if c.toNat < 128 && !c.isAlphanum && c ≠ '<' && c ≠ '>' then some (.literal c, cs) else none

/-- The upper end of a range whose hyphen has been read. -/
def rangeEnd? : List Char → Option (Char × List Char)
  | [] => none
  | '\\' :: cs =>
    match escape? cs with
    | some (.literal c, rest) => some (c, rest)
    | _ => none
  | c :: cs => some (c, cs)

/-- The item of a class that starts with the character `c`: `c` alone, or a range from it. -/
def rangeFrom? (c : Char) : List Char → Option (ClassItem × List Char)
  | '-' :: ']' :: cs => some (.range c c, '-' :: ']' :: cs)
  | '-' :: '-' :: cs => some (.range c c, '-' :: '-' :: cs)
  | '-' :: cs => do
    let (last, rest) ← rangeEnd? cs
    if c ≤ last then some (.range c last, rest) else none
  | cs => some (.range c c, cs)

/-- A property as an item of a class; no range starts with one. -/
def propertyItem? (item : ClassItem) : List Char → Option (ClassItem × List Char)
  | '-' :: ']' :: cs => some (item, '-' :: ']' :: cs)
  | '-' :: _ => none
  | cs => some (item, cs)

/-- The next item of a class. A bracket would nest a class and a doubled sign would combine two;
neither is part of the grammar. -/
def classItem? : List Char → Option (ClassItem × List Char)
  | [] => none
  | '[' :: _ => none
  | '&' :: '&' :: _ => none
  | '-' :: '-' :: _ => none
  | '~' :: '~' :: _ => none
  | '\\' :: cs =>
    match escape? cs with
    | some (.literal c, rest) => rangeFrom? c rest
    | some (.property p negated, rest) => propertyItem? (.property p negated) rest
    | _ => none
  | c :: cs => rangeFrom? c cs

/-- The items up to the closing bracket. -/
def classItems? (items : List ClassItem) (cs : List Char) : Option (List ClassItem × List Char) :=
  if cs.head? = some ']' then some (items.reverse, cs.tail)
  else
    match classItem? cs with
    | none => none
    | some (item, rest) =>
      if rest.length < cs.length then classItems? (item :: items) rest else none
termination_by cs.length

/-- A class whose opening bracket has been read. In first place a closing bracket is literal, and so are all
hyphens there. -/
def class? (cs : List Char) : Option (CharClass × List Char) :=
  let (negated, cs) := match cs with
    | '^' :: rest => (true, rest)
    | _ => (false, cs)
  let (first, cs) := match cs with
    | ']' :: rest => ([ClassItem.range ']' ']'], rest)
    | cs => ((cs.takeWhile (· = '-')).map fun c => ClassItem.range c c, cs.dropWhile (· = '-'))
  (classItems? first cs).map fun (items, rest) => ({ items, negated }, rest)

/-- A count of copies: digits, which may have blanks around them. -/
def count? (cs : List Char) : Option Nat :=
  let digits := Text.trim cs
  if digits.all Char.isDigit then Decimal.natural Decimal.bound32 digits else none

/-- The bounds of a counted repetition whose opening brace has been read. -/
def bounds? (cs : List Char) : Option (Nat × Option Nat × List Char) := do
  let (inside, rest) ← Text.cutOnce (· == '}') cs
  match Text.fields (· == ',') inside with
  | [low] => do
    let low ← count? low
    some (low, some 0, rest)
  | [low, []] => do
    let low ← count? low
    some (low, none, rest)
  | [low, high] => do
    let low ← count? low
    let high ← count? high
    if low ≤ high then some (low, some (high - low), rest) else none
  | _ => none

/-- A question mark after a quantity makes it lazy. -/
def quantity (low : Nat) (more : Option Nat) : List Char → Token × List Char
  | '?' :: cs => (.quantity low more false, cs)
  | cs => (.quantity low more true, cs)

/-- A group's name starts with a letter or an underscore and goes on with these, numbers, dots and brackets. -/
def isGroupName : List Char → Bool
  | [] => false
  | c :: cs => (c = '_' || Unicode.isAlphabetic c) && cs.all fun c => "_.[]".contains c || Unicode.isAlphanumeric c

/-- What follows an opening parenthesis and belongs to it: nothing, `?:`, or a name. -/
def groupOpening? : List Char → Option (Option String × List Char)
  | '?' :: ':' :: cs => some (none, cs)
  | '?' :: 'P' :: '<' :: cs | '?' :: '<' :: cs => do
    let (name, rest) ← Text.cutOnce (· == '>') cs
    if isGroupName name then some (some (.ofList name), rest) else none
  | '?' :: _ => none
  | cs => some (none, cs)

def escapeToken : Escape → Token
  | .literal c => .part (.one (.single c))
  | .property p negated => .part (.one { items := [.property p negated] })
  | .assertion a => .part (.assert a)

def token? : List Char → Option (Token × List Char)
  | [] => none
  | '(' :: cs => (groupOpening? cs).map fun (name, rest) => (.openGroup name, rest)
  | ')' :: cs => some (.closeGroup, cs)
  | '|' :: cs => some (.bar, cs)
  | '*' :: cs => some (quantity 0 none cs)
  | '+' :: cs => some (quantity 1 none cs)
  | '?' :: cs => some (quantity 0 (some 1) cs)
  | '{' :: cs => (bounds? cs).map fun (low, more, rest) => quantity low more rest
  | '[' :: cs => (class? cs).map fun (k, rest) => (.part (.one k), rest)
  | '.' :: cs => some (.part (.one { items := [.property .notLineFeed false] }), cs)
  | '^' :: cs => some (.part (.assert .textStart), cs)
  | '$' :: cs => some (.part (.assert .textEnd), cs)
  | '\\' :: cs => (escape? cs).map fun (e, rest) => (escapeToken e, rest)
  | c :: cs => some (.part (.one (.single c)), cs)

def tokens? (cs : List Char) : Option (List Token) :=
  if cs.isEmpty then some []
  else
    match token? cs with
    | none => none
    | some (token, rest) =>
      if rest.length < cs.length then (tokens? rest).map (token :: ·) else none
termination_by cs.length

/-- A group that is still open: its finished alternatives and the parts of the current one, both
latest first. -/
structure Frame where
  alternatives : List Regex := []
  parts : List Regex := []

def sequence : List Regex → Regex
  | [] => .empty
  | [r] => r
  | r :: rs => .seq r (sequence rs)

def Frame.closeAlternative (f : Frame) : Frame :=
  { alternatives := sequence f.parts.reverse :: f.alternatives }

def alternation : List Regex → Regex
  | [] => .empty
  | [r] => r
  | r :: rs => .alt r (alternation rs)

def Frame.regex (f : Frame) : Regex := alternation f.closeAlternative.alternatives.reverse

def Frame.push (f : Frame) (r : Regex) : Frame := { f with parts := r :: f.parts }

/-- Put tokens together, with the innermost open group first. -/
def assemble : List Frame → List Token → Option Regex
  | [frame], [] => some frame.regex
  | frame :: outer, .part r :: ts => assemble (frame.push r :: outer) ts
  | frame :: outer, .bar :: ts => assemble (frame.closeAlternative :: outer) ts
  | frame :: outer, .openGroup _ :: ts => assemble ({} :: frame :: outer) ts
  | frame :: parent :: outer, .closeGroup :: ts => assemble (parent.push frame.regex :: outer) ts
  | frame :: outer, .quantity low more greedy :: ts =>
    match frame.parts with
    | [] => none
    | r :: parts => assemble ({ frame with parts := .repeat r low more greedy :: parts } :: outer) ts
  | _, _ => none

def Token.groupName? : Token → Option String
  | .openGroup name => name
  | _ => none

/-- The regular expression a text denotes, if it is well formed. -/
def read? (s : String) : Option Regex := do
  let tokens ← tokens? s.toList
  if (tokens.filterMap Token.groupName?).Nodup then assemble [{}] tokens else none

end Repartee.Regex
