/-
  Repartee.Toml.Reader — reading a TOML document into its statements.
-/

import Repartee.Toml.Basic
import Repartee.Toml.Token

namespace Repartee.Toml

/-- The characters of a value that is neither quoted nor bracketed. -/
def isPlainChar (c : Char) : Bool := c.isAlphanum || c == '_' || c == '-' || c == '+' || c == '.' || c == ':'

def plain? (cs : List Char) : Option Value :=
  if cs = "true".toList then some (.boolean true)
  else if cs = "false".toList then some (.boolean false)
  else (integerText? cs).map .integer

mutual

/-- A value at the beginning of the text. -/
def value? (cs : List Char) : Option (Value × List Char) :=
  match cs with
  | [] => none
  | c :: rest =>
    if c = '[' then (items? rest).map fun (vs, rest) => (.array vs, rest)
    else if c = '{' then (entries? rest).map fun (es, rest) => (.table es, rest)
    else
      match string? true (c :: rest) with
      | some (s, rest) => some (.text s, rest)
      | none =>
        let word := (c :: rest).takeWhile isPlainChar
        (plain? word).map (·, (c :: rest).drop word.length)
termination_by (cs.length, 0)

/-- The items of an array whose bracket has been read. A comma may follow the last one. -/
def items? (cs : List Char) : Option (List Value × List Char) :=
  let start := skipLines cs
  if start.head? = some ']' then some ([], start.tail)
  else if start.length ≤ cs.length then
    match value? start with
    | none => none
    | some (v, rest) =>
      match skipLines rest with
      | ',' :: rest =>
        if rest.length < cs.length then (items? rest).map fun (vs, rest) => (v :: vs, rest) else none
      | ']' :: rest => some ([v], rest)
      | _ => none
  else none
termination_by (cs.length, 1)
decreasing_by
  · rename_i h
    rcases Nat.lt_or_eq_of_le h with h | h
    · exact Prod.Lex.left _ _ h
    · exact h ▸ Prod.Lex.right _ Nat.zero_lt_one
  · exact Prod.Lex.left _ _ (by assumption)

/-- The entries of a table in braces whose brace has been read. A comma may follow the last one. -/
def entries? (cs : List Char) : Option (List (Key × Value) × List Char) :=
  let start := skipLines cs
  if start.head? = some '}' then some ([], start.tail)
  else
    match key? start with
    | some (key, '=' :: rest) =>
      let rest := skipSpace rest
      if rest.length < cs.length then
        match value? rest with
        | none => none
        | some (v, rest) =>
          match skipLines rest with
          | ',' :: rest =>
            if rest.length < cs.length then
              (entries? rest).map fun (es, rest) => ((key, v) :: es, rest)
            else none
          | '}' :: rest => some ([(key, v)], rest)
          | _ => none
      else none
    | _ => none
termination_by (cs.length, 1)
decreasing_by
  · exact Prod.Lex.left _ _ (by assumption)
  · exact Prod.Lex.left _ _ (by assumption)

end

/-- A header at the beginning of a line. -/
def header? : List Char → Option (Statement × List Char)
  | '[' :: '[' :: cs =>
    match key? cs with
    | some (key, ']' :: ']' :: rest) => some (.tableOfArray key, rest)
    | _ => none
  | '[' :: cs =>
    match key? cs with
    | some (key, ']' :: rest) => some (.table key, rest)
    | _ => none
  | _ => none

def assignment? (cs : List Char) : Option (Statement × List Char) :=
  match key? cs with
  | some (key, '=' :: rest) => (value? (skipSpace rest)).map fun (v, rest) => (.assign key v, rest)
  | _ => none

def statement? (cs : List Char) : Option (Statement × List Char) :=
  if cs.head? = some '[' then header? cs else assignment? cs

/-- The statements of the text, one to a line. -/
def statements? (cs : List Char) : Option (List Statement) :=
  match skipLines cs with
  | [] => some []
  | start =>
    match statement? start with
    | none => none
    | some (s, rest) =>
      match finishLine? rest with
      | none => none
      | some rest =>
        if rest.length < cs.length then (statements? rest).map (s :: ·) else none
termination_by cs.length

/-- The statements of a document; a byte order mark in front does not count. -/
def read? (text : String) : Option (List Statement) :=
  match text.toList with
  | '\uFEFF' :: cs => statements? cs
  | cs => statements? cs

end Repartee.Toml
