/-
  Repartee.Regex.Basic — regular expressions and what they match.

  A match is leftmost and prefers what is written first: the earlier alternative, one more
  repetition when the repetition is greedy, one fewer when it is lazy. A repetition without a
  bound cannot go on from a copy that passes no character. `Regex.ends` lists the places where a
  match from a given place can end, best first; `Regex.erase` removes every match from a text,
  scanning from the left and going on after each one. An empty match removes nothing.
-/

import Repartee.Unicode.Blank
import Repartee.Unicode.Number
import Repartee.Unicode.WordChar

namespace Repartee

namespace Regex

/-- The character properties that a class can name. -/
inductive Property where
  | letter
  | number
  | digit
  | punctuation
  | alphabetic
  | blank
  | word
  | notLineFeed
  deriving DecidableEq, Repr

def Property.holds : Property → Char → Bool
  | .letter, c => Unicode.isLetter c
  | .number, c => Unicode.isNumber c
  | .digit, c => Unicode.isDigit c
  | .punctuation, c => Unicode.isPunctuation c
  | .alphabetic, c => Unicode.isAlphabetic c
  | .blank, c => Unicode.isBlank c
  | .word, c => Unicode.isWordChar c
  | .notLineFeed, c => c ≠ '\n'

/-- One member of a class: a range of characters, or a property or its complement. -/
inductive ClassItem where
  | range (first last : Char)
  | property (p : Property) (negated : Bool)
  deriving DecidableEq, Repr

def ClassItem.holds : ClassItem → Char → Bool
  | .range first last, c => first ≤ c && c ≤ last
  | .property p negated, c => p.holds c != negated

/-- A set of characters: any of the items, or none of them. -/
structure CharClass where
  items : List ClassItem
  negated : Bool := false
  deriving DecidableEq, Repr

def CharClass.holds (k : CharClass) (c : Char) : Bool := k.items.any (·.holds c) != k.negated

def CharClass.single (c : Char) : CharClass := { items := [.range c c] }

/-- Conditions on a place that match no character. -/
inductive Assertion where
  | textStart
  | textEnd
  | wordEdge
  | noWordEdge
  deriving DecidableEq, Repr

/-- A place in a text: the character before it, if any, and what follows. -/
structure Place where
  before : Option Char
  rest : List Char
  deriving DecidableEq, Repr

def Place.wordBefore (p : Place) : Bool := p.before.any Unicode.isWordChar

def Place.wordAfter (p : Place) : Bool := p.rest.head?.any Unicode.isWordChar

def Assertion.holds : Assertion → Place → Bool
  | .textStart, p => p.before.isNone
  | .textEnd, p => p.rest.isEmpty
  | .wordEdge, p => p.wordBefore != p.wordAfter
  | .noWordEdge, p => p.wordBefore == p.wordAfter

end Regex

inductive Regex where
  | empty
  | one (k : Regex.CharClass)
  | assert (a : Regex.Assertion)
  | seq (first second : Regex)
  | alt (first second : Regex)
  /-- At least `low` copies, then at most `more` further ones, any number if `more` is none. -/
  | repeat (body : Regex) (low : Nat) (more : Option Nat) (greedy : Bool)
  deriving DecidableEq, Repr

namespace Regex

/-- Exactly `n` steps in a row. -/
def exactly (step : Place → List Place) : Nat → Place → List Place
  | 0, p => [p]
  | n + 1, p => (step p).flatMap (exactly step n)

/-- The places ahead, and the place itself: last for a greedy choice, first for a lazy one. -/
def orStay (greedy : Bool) (p : Place) (ahead : List Place) : List Place :=
  (if greedy then ahead ++ [p] else p :: ahead).eraseDups

/-- At most `n` steps in a row. -/
def atMost (step : Place → List Place) (greedy : Bool) : Nat → Place → List Place
  | 0, p => [p]
  | n + 1, p => orStay greedy p ((step p).flatMap (atMost step greedy n))

/-- Whether a step from `p` to `q` passes a character. -/
def passes (p q : Place) : Bool := q.rest.length < p.rest.length

/-- One step, then any number of further ones. If the first passes no character it is the last, and a later
one that passes none only comes back to where it is. So there are no more steps than characters. -/
def oneOrMore (step : Place → List Place) (greedy : Bool) (p : Place) : List Place :=
  (step p).flatMap fun q =>
    if passes p q then atMost (fun r => (step r).filter (passes r)) greedy q.rest.length q else [q]

/-- The places where a match from `p` can end, best first. -/
def ends : Regex → Place → List Place
  | .empty, p => [p]
  | .one k, p =>
    match p.rest with
    | c :: cs => if k.holds c then [⟨some c, cs⟩] else []
    | [] => []
  | .assert a, p => if a.holds p then [p] else []
  | .seq first second, p => (first.ends p).flatMap second.ends
  | .alt first second, p => first.ends p ++ second.ends p
  | .repeat body low (some more) greedy, p => (exactly body.ends low p).flatMap (atMost body.ends greedy more)
  | .repeat body 0 none greedy, p => orStay greedy p (oneOrMore body.ends greedy p)
  | .repeat body (low + 1) none greedy, p => (exactly body.ends low p).flatMap (oneOrMore body.ends greedy)

/-- Remove every match from the text that follows `before`. -/
def eraseAfter (r : Regex) (before : Option Char) : List Char → List Char
  | [] => []
  | c :: cs =>
    match r.ends ⟨before, c :: cs⟩ with
    | [] => c :: eraseAfter r (some c) cs
    | p :: _ =>
      if _h : p.rest.length < (c :: cs).length then eraseAfter r p.before p.rest
      else c :: eraseAfter r (some c) cs
termination_by cs => cs.length
decreasing_by
  all_goals
    simp only [List.length_cons] at *
    omega

def erase (r : Regex) (cs : List Char) : List Char := r.eraseAfter none cs

end Regex

end Repartee
