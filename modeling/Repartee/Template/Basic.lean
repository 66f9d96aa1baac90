/-
  Repartee.Template.Basic — a reply body: text and the tags that are played when it is said.

  Tags nest: what a tag renders, assigns or redirects to is a list of pieces of its own. A
  template also keeps its text as written and the weight it has among the replies of its
  trigger, 0 if it names none.
-/

import Repartee.Decimal.Reading
import Repartee.Text.Casing

namespace Repartee

/-- An update of a variable by a number. -/
inductive MathOp where
  | add
  | sub
  | mult
  | div
  deriving DecidableEq, Repr

/-- A change of case. -/
inductive Recase where
  | sentence
  | formal
  | upper
  | lower
  deriving DecidableEq, Repr

def Recase.apply (r : Recase) (s : String) : String :=
  let cs := s.toList
  .ofList <|
    match r with
    | .sentence => Text.sentence cs
    | .formal => Text.formal cs
    | .upper => Text.upper cs
    | .lower => Text.lower cs

inductive Piece where
  | text (s : String)
  /-- A capture of the trigger, counted from 1. -/
  | star (index : Nat)
  /-- A capture of the trigger's `%` line. -/
  | botStar (index : Nat)
  /-- One of the user's last messages, the latest being 1. -/
  | input (index : Nat)
  /-- One of the last replies to the user. -/
  | reply (index : Nat)
  | get (name : String)
  | bot (name : String)
  | env (name : String)
  | userId
  | set (name : String) (value : List Piece)
  | math (op : MathOp) (name : String) (operand : List Piece)
  | topic (name : String)
  /-- A macro call; the rendered line holds its name and arguments. -/
  | call (line : List Piece)
  /-- What the bot would answer to the rendered text. -/
  | redirect (target : List Piece)
  | random (alternatives : List (List Piece))
  | recase (r : Recase) (body : List Piece)
  deriving Repr

structure Template where
  source : String
  pieces : List Piece
  weight : Nat
  deriving Repr

/-- How a condition compares its sides. -/
inductive Comparison where
  | eq
  | ne
  | lt
  | le
  | gt
  | ge
  deriving DecidableEq, Repr

/-- Both sides as numbers. -/
def numbers? (left right : String) : Option (Float × Float) := do
  let l ← Decimal.float? left
  let r ← Decimal.float? right
  some (l, r)

/-- Equality is that of the trimmed texts; an order holds only between numbers. -/
def Comparison.holds (c : Comparison) (left right : String) : Bool :=
  let left := Text.trimmed left
  let right := Text.trimmed right
  match c with
  | .eq => left == right
  | .ne => left != right
  | .lt => (numbers? left right).any fun (l, r) => l < r
  | .le => (numbers? left right).any fun (l, r) => l ≤ r
  | .gt => (numbers? left right).any fun (l, r) => r < l
  | .ge => (numbers? left right).any fun (l, r) => r ≤ l

/-- A reply body that is said when two templates compare. -/
structure Condition where
  source : String
  left : Template
  comparison : Comparison
  right : Template
  body : Template
  deriving Repr

end Repartee
