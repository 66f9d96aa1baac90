/-
  Repartee.Catalog.Search — which trigger answers, and with which captures.

  A candidate of the constrained band answers if its `%` line aligns with the last reply and
  its pattern with the message, any other one if its pattern does. The first to answer wins. If
  none does, the ranking's catch-all takes the whole message as its capture.
-/

import Repartee.Catalog.Ranking
import Repartee.Pattern.Align

namespace Repartee

/-- The candidate that answers. -/
structure Finding where
  candidate : Candidate
  stars : List String
  botStars : List String
  usedPrevious : Bool
  /-- How many candidates were tried, this one included. -/
  tried : Nat
  deriving DecidableEq, Repr

/-- The first entry that fits, with its position and what it fits by. -/
def firstFit {α β : Type} (fit : α → Option β) : List α → Option (Nat × α × β)
  | [] => none
  | a :: as =>
    match fit a with
    | some b => some (0, a, b)
    | none => (firstFit fit as).map fun (n, found) => (n + 1, found)

namespace Catalog

/-- The captures of an ordinary candidate. -/
def fit (c : Catalog) (words : List String) (candidate : Candidate) : Option (List String) :=
  c.triggers[candidate.trigger]?.bind (·.pattern.align words)

/-- The captures of a constrained candidate: of its pattern, and of its `%` line. -/
def constrainedFit (c : Catalog) (words lastReply : List String) (candidate : Candidate) :
    Option (List String × List String) := do
  let trigger ← c.triggers[candidate.trigger]?
  let previous ← trigger.previous
  let botStars ← previous.align lastReply
  let stars ← trigger.pattern.align words
  some (stars, botStars)

def search (c : Catalog) (r : Ranking) (words lastReply : List String) : Option Finding :=
  match firstFit (c.constrainedFit words lastReply) r.constrained with
  | some (n, candidate, stars, botStars) =>
    some { candidate, stars, botStars, usedPrevious := true, tried := n + 1 }
  | none =>
    match firstFit (c.fit words) r.ordinary with
    | some (n, candidate, stars) =>
      some { candidate, stars, botStars := [], usedPrevious := false, tried := r.constrained.length + n + 1 }
    | none =>
      r.catchAll.map fun candidate =>
        { candidate, stars := [Text.spaced words], botStars := [], usedPrevious := false, tried := r.size }

end Catalog

end Repartee
