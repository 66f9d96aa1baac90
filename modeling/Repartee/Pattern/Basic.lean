/-
  Repartee.Pattern.Basic — a compiled trigger: the items that a message must consist of.

  A word stands for itself. A wildcard takes one or more words: any, only digits, or only
  letters. A choice takes one of its alternatives, an optional group one of its alternatives
  or nothing. Wildcards and choices are captured, optional groups are not.
-/

import Repartee.Unicode.Letter

namespace Repartee

inductive Wildcard where
  /-- `*`: any words. -/
  | any
  /-- `#`: words of digits. -/
  | digits
  /-- `_`: words of letters. -/
  | letters
  deriving DecidableEq, Repr

def Wildcard.ofSigil? (c : Char) : Option Wildcard :=
  if c = '*' then some .any
  else if c = '#' then some .digits
  else if c = '_' then some .letters
  else none

def isSigil (c : Char) : Bool := (Wildcard.ofSigil? c).isSome

/-- Whether the wildcard can take the word. -/
def Wildcard.accepts : Wildcard → String → Bool
  | .any, _ => true
  | .digits, w => !w.isEmpty && w.toList.all Char.isDigit
  | .letters, w => !w.isEmpty && w.toList.all Unicode.isAlphabetic

/-- An alternative of an optional group: given words, or one or more words of any kind. -/
inductive OptionAlt where
  | words (ws : List String)
  | anyWords
  deriving DecidableEq, Repr

inductive Item where
  | word (w : String)
  | wildcard (k : Wildcard)
  | choice (alternatives : List (List String))
  | optional (alternatives : List OptionAlt)
  deriving DecidableEq, Repr

/-- The fewest words an item takes. -/
def Item.minWidth : Item → Nat
  | .word _ | .wildcard _ => 1
  | .choice alternatives => ((alternatives.map List.length).min?).getD 1
  | .optional _ => 0

/-- The fewest words that items take together. -/
def minWords : List Item → Nat
  | [] => 0
  | i :: items => i.minWidth + minWords items

def Item.isStar : Item → Bool
  | .wildcard .any => true
  | _ => false

def Item.isWildcard : Item → Bool
  | .wildcard _ => true
  | _ => false

def Item.isOptional : Item → Bool
  | .optional _ => true
  | _ => false

structure Pattern where
  /-- The trigger as written, with its weight. -/
  text : String
  items : List Item
  weight : Nat
  deriving DecidableEq, Repr

/-- Which kinds of items a pattern has. -/
structure Flags where
  star : Bool := false
  digits : Bool := false
  letters : Bool := false
  optional : Bool := false
  choice : Bool := false
  /-- Every item is `*`. -/
  catchAll : Bool := false
  deriving DecidableEq, Repr

namespace Flags

/-- The flags that either one has. -/
def union (f g : Flags) : Flags :=
  { star := f.star || g.star
    digits := f.digits || g.digits
    letters := f.letters || g.letters
    optional := f.optional || g.optional
    choice := f.choice || g.choice
    catchAll := f.catchAll || g.catchAll }

def wildcard (f : Flags) : Bool := f.star || f.digits || f.letters

end Flags

/-- What an item adds to the flags of its pattern. -/
def Item.flags : Item → Flags
  | .word _ => {}
  | .wildcard .any => { star := true }
  | .wildcard .digits => { digits := true }
  | .wildcard .letters => { letters := true }
  | .choice _ => { choice := true }
  | .optional _ => { optional := true }

namespace Pattern

def flags (p : Pattern) : Flags :=
  let found := p.items.foldl (fun f i => f.union i.flags) {}
  if p.items.all Item.isStar then found.union { catchAll := true } else found

/-- How open a pattern is, the narrowest first. -/
inductive Category where
  /-- Only words and choices. -/
  | literal
  /-- Some wildcard. -/
  | wildcard
  /-- Some optional group. -/
  | optional
  /-- Nothing but `*`. -/
  | catchAll
  deriving DecidableEq, Repr

def Category.rank : Category → Nat
  | .literal => 0
  | .wildcard => 1
  | .optional => 2
  | .catchAll => 3

def category (p : Pattern) : Category :=
  if p.flags.catchAll then .catchAll
  else if p.flags.optional then .optional
  else if p.flags.wildcard then .wildcard
  else .literal

/-- How many items are wildcards or optional groups. -/
def openCount (p : Pattern) : Nat := p.items.countP fun i => i.isWildcard || i.isOptional

/-- How many items are words or choices. -/
def closedCount (p : Pattern) : Nat := p.items.countP fun i => !(i.isWildcard || i.isOptional)

/-- A lone `*`. -/
def isBareStar (p : Pattern) : Bool := p.items == [.wildcard .any]

end Pattern

end Repartee
