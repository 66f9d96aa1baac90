/-
  Repartee.Catalog.Ranking — the order in which a topic's triggers are tried.

  Triggers with a `%` line come first, as a band of their own. Within a band the order is: the
  greater weight, the smaller depth, the narrower category, own before included, fewer open
  items, more closed items, and at last the place in the pool, so that no two candidates are
  equal.
-/

import Repartee.Catalog.Reach

namespace Repartee

/-- What a candidate is ranked by. -/
structure RankKey where
  weight : Nat
  depth : Nat
  category : Nat
  included : Bool
  openCount : Nat
  closedCount : Nat
  position : Nat
  deriving DecidableEq, Repr

def RankKey.compare (a b : RankKey) : Ordering :=
  (Ord.compare b.weight a.weight).then <|
  (Ord.compare a.depth b.depth).then <|
  (Ord.compare a.category b.category).then <|
  (Ord.compare a.included b.included).then <|
  (Ord.compare a.openCount b.openCount).then <|
  (Ord.compare b.closedCount a.closedCount).then <|
  Ord.compare a.position b.position

def rankKey (p : Pattern) (candidate : Candidate) (position : Nat) : RankKey :=
  { weight := p.weight
    depth := candidate.depth
    category := p.category.rank
    included := candidate.included
    openCount := p.openCount
    closedCount := p.closedCount
    position }

/-- The triggers of a topic in the order they are tried. -/
structure Ranking where
  /-- Those with a `%` line. -/
  constrained : List Candidate
  ordinary : List Candidate
  /-- The first lone `*`, which answers when nothing else does. -/
  catchAll : Option Candidate
  deriving DecidableEq, Repr

def Ranking.all (r : Ranking) : List Candidate := r.constrained ++ r.ordinary

def Ranking.size (r : Ranking) : Nat := r.constrained.length + r.ordinary.length

namespace Catalog

def isConstrained (c : Catalog) (candidate : Candidate) : Bool :=
  c.triggers[candidate.trigger]?.any (·.previous.isSome)

def isBareStar (c : Catalog) (candidate : Candidate) : Bool :=
  c.triggers[candidate.trigger]?.any (·.pattern.isBareStar)

/-- A candidate with its key; none if its trigger is not in the catalog. -/
def keyed? (c : Catalog) (entry : Candidate × Nat) : Option (RankKey × Candidate) :=
  c.triggers[entry.1.trigger]?.map fun t => (rankKey t.pattern entry.1 entry.2, entry.1)

def ranked (entries : List (RankKey × Candidate)) : List Candidate :=
  (entries.mergeSort fun a b => (a.1.compare b.1).isLE).map (·.2)

def rank (c : Catalog) (pool : List Candidate) : Ranking :=
  let entries := pool.zipIdx.filterMap c.keyed?
  let (constrained, ordinary) := entries.partition fun e => c.isConstrained e.2
  let ordinary := ranked ordinary
  { constrained := ranked constrained, ordinary, catchAll := ordinary.find? c.isBareStar }

end Catalog

end Repartee
