/-
  Repartee.Toml.Token — the smallest parts of a TOML document: blanks, strings, keys, integers.

  Every reader takes the characters that are left and gives what it read with what is left
  then, or nothing if the document is not well formed there.
-/

import Repartee.Decimal.Reading
import Repartee.Text.Split

namespace Repartee.Toml

def isSpace (c : Char) : Bool := c == ' ' || c == '\t'

def skipSpace (cs : List Char) : List Char := cs.dropWhile isSpace

/-- Control characters other than tab; they stand nowhere but in line ends. -/
def isControl (c : Char) : Bool := (c.toNat < 0x20 && c ≠ '\t') || c.toNat == 0x7F

/-- A line feed, with or without a carriage return before it. -/
def lineEnd? : List Char → Option (List Char)
  | '\n' :: cs => some cs
  | '\r' :: '\n' :: cs => some cs
  | _ => none

/-- Pass over a comment, if there is one. -/
def skipComment (cs : List Char) : List Char :=
  if cs.head? = some '#' then cs.dropWhile (!isControl ·) else cs

/-- Pass over blanks and a comment to the end of the line or document. -/
def finishLine? (cs : List Char) : Option (List Char) :=
  match skipComment (skipSpace cs) with
  | [] => some []
  | cs => lineEnd? cs

/-- Pass over blanks, comments and line ends. -/
def skipLines (cs : List Char) : List Char :=
  let cs' := skipComment (skipSpace cs)
  match lineEnd? cs' with
  | some rest => if rest.length < cs.length then skipLines rest else rest
  | none => cs'
termination_by cs.length

/-! ## Strings -/

def hexValue? (c : Char) : Option Nat :=
  if c.isDigit then some (c.toNat - '0'.toNat)
  else if 'a' ≤ c && c ≤ 'f' then some (c.toNat - 'a'.toNat + 10)
  else if 'A' ≤ c && c ≤ 'F' then some (c.toNat - 'A'.toNat + 10)
  else none

/-- The character whose number is written in so many hexadecimal digits. -/
def hexChar? (digits : Nat) (cs : List Char) : Option (Char × List Char) := do
  let ds ← (cs.take digits).mapM hexValue?
  let n := ds.foldl (fun n d => 16 * n + d) 0
  if ds.length = digits ∧ n.isValidChar then some (.ofNat n, cs.drop digits) else none

def simpleEscapes : List (Char × Char) :=
  [('b', '\x08'), ('t', '\t'), ('n', '\n'), ('f', '\x0c'), ('r', '\r'), ('e', '\x1b'), ('"', '"'), ('\\', '\\')]

/-- An escape whose backslash has been read. -/
def escape? : List Char → Option (Char × List Char)
  | [] => none
  | 'x' :: cs => hexChar? 2 cs
  | 'u' :: cs => hexChar? 4 cs
  | 'U' :: cs => hexChar? 8 cs
  | c :: cs => (simpleEscapes.lookup c).map (·, cs)

/-- A backslash at the end of a line takes the blanks and line ends after it away. -/
def foldedLine? (cs : List Char) : Option (List Char) :=
  (lineEnd? (skipSpace cs)).map fun rest =>
    rest.dropWhile fun c => isSpace c || c == '\n' || c == '\r'

/-- How a string is written. -/
structure Quoting where
  quote : Char
  /-- Whether backslashes escape. -/
  escapes : Bool
  /-- Whether it is between three quotes and may have more lines. -/
  long : Bool

/-- How many quotes the text begins with, up to five. -/
def quoteRun (quote : Char) (cs : List Char) : Nat := ((cs.take 5).takeWhile (· == quote)).length

/-- The rest of a string, up to its end. A long string ends with the last three of up to five
quotes. -/
def stringRest? (q : Quoting) (read : List Char) (cs : List Char) : Option (List Char × List Char) :=
  match cs with
  | [] => none
  | c :: rest =>
    if c = q.quote ∧ !q.long then some (read.reverse, rest)
    else if c = q.quote ∧ 3 ≤ quoteRun q.quote (c :: rest) then
      let n := quoteRun q.quote (c :: rest)
      some (read.reverse ++ List.replicate (n - 3) c, (c :: rest).drop n)
    else if c = '\\' ∧ q.escapes then
      match escape? rest, foldedLine? rest with
      | some (e, after), _ => if after.length < (c :: rest).length then stringRest? q (e :: read) after else none
      | none, some after =>
        if !q.long then none
        else if after.length < (c :: rest).length then stringRest? q read after
        else none
      | none, none => none
    else
      match lineEnd? (c :: rest) with
      | some after =>
        if !q.long then none
        else if after.length < (c :: rest).length then stringRest? q ('\n' :: read) after
        else none
      | none => if isControl c then none else stringRest? q (c :: read) rest
termination_by cs.length
decreasing_by
  all_goals
    simp only [List.length_cons] at *
    omega

/-- A string at the beginning of the text. A line end right after three opening quotes is not
part of it. -/
def string? (allowLong : Bool) : List Char → Option (String × List Char)
  | [] => none
  | c :: cs =>
    if c = '"' ∨ c = '\'' then
      let long := allowLong && quoteRun c cs ≥ 2
      let body := if long then (lineEnd? (cs.drop 2)).getD (cs.drop 2) else cs
      (stringRest? ⟨c, c = '"', long⟩ [] body).map fun (s, rest) => (.ofList s, rest)
    else none

/-! ## Keys -/

def isBareKeyChar (c : Char) : Bool := c.isAlphanum || c == '_' || c == '-'

/-- One part of a key: a string on one line, or bare characters. -/
def keyPart? (cs : List Char) : Option (String × List Char) :=
  match string? false cs with
  | some found => some found
  | none =>
    let bare := cs.takeWhile isBareKeyChar
    if bare.isEmpty then none else some (.ofList bare, cs.drop bare.length)

/-- The parts of a key, with points between them. -/
def key? (cs : List Char) : Option (List String × List Char) := do
  let (part, rest) ← keyPart? (skipSpace cs)
  match skipSpace rest with
  | '.' :: more =>
    if more.length < cs.length then
      let (parts, rest) ← key? more
      some (part :: parts, rest)
    else none
  | rest => some ([part], rest)
termination_by cs.length

/-! ## Integers -/

/-- The value of digits in a base; underscores stand only between digits. -/
def digits? (base : Nat) (cs : List Char) : Option Nat :=
  let groups := Text.fields (· == '_') cs
  if groups.any List.isEmpty then none
  else do
    let ds ← groups.flatten.mapM hexValue?
    if ds.all (· < base) then some (ds.foldl (fun n d => base * n + d) 0) else none

/-- A decimal number has no zeros in front. -/
def decimal? (cs : List Char) : Option Nat :=
  if cs.head? = some '0' ∧ cs.length ≠ 1 then none else digits? 10 cs

def integerText? : List Char → Option Int
  | '0' :: 'x' :: cs => (digits? 16 cs).map Int.ofNat
  | '0' :: 'o' :: cs => (digits? 8 cs).map Int.ofNat
  | '0' :: 'b' :: cs => (digits? 2 cs).map Int.ofNat
  | '+' :: cs => (decimal? cs).map Int.ofNat
  | '-' :: cs => (decimal? cs).map fun n => -(n : Int)
  | cs => (decimal? cs).map Int.ofNat

end Repartee.Toml
