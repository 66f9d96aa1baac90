/-
  Repartee.Catalog.Reach — the triggers that a topic can answer with.

  From a topic the walk takes its own triggers, then those of its included topics, each with
  its includes in turn; all of these are one level. The topics that the level inherits make the
  next level, one deeper. A topic is entered once, on the first way that reaches it. What a
  topic inherits is noted when its includes are done.
-/

import Repartee.Catalog.Basic

namespace Repartee

/-- A trigger that a topic can answer with, and how it is reached. -/
structure Candidate where
  trigger : TriggerId
  /-- The topic the trigger is declared in. -/
  source : TopicId
  /-- How many inherit edges lead there. -/
  depth : Nat
  /-- Whether its topic was entered as an included one. -/
  included : Bool
  deriving DecidableEq, Repr

namespace Catalog

inductive Visit where
  | enter (t : TopicId) (included : Bool)
  | leave (t : TopicId)
  deriving DecidableEq, Repr

/-- A bound on the visits that a pending one still causes without entering a topic. -/
def Visit.cost (c : Catalog) : Visit → Nat
  | .enter _ _ => 1
  | .leave t => 1 + 2 * (c.inheritsOf t).length

def pendingCost (c : Catalog) : List Visit → Nat
  | [] => 0
  | v :: vs => v.cost c + pendingCost c vs

theorem pendingCost_enter (c : Catalog) (included : Bool) (ts : List TopicId) :
    c.pendingCost (ts.map (.enter · included)) = ts.length := by
  induction ts with
  | nil => rfl
  | cons t ts ih => simp only [List.map_cons, pendingCost, ih, Visit.cost, List.length_cons]; omega

theorem pendingCost_append (c : Catalog) (vs ws : List Visit) :
    c.pendingCost (vs ++ ws) = c.pendingCost vs + c.pendingCost ws := by
  induction vs with
  | nil => simp [pendingCost]
  | cons v vs ih => rw [List.cons_append, pendingCost, pendingCost, ih, Nat.add_assoc]

/-- A bound on what entering one topic adds to the cost. -/
def enterCost (c : Catalog) : Nat :=
  c.topics.toList.foldr (fun t n => t.includes.length + (1 + 2 * t.inherits.length) + n) 1

theorem le_enterCost (c : Catalog) (t : TopicId) :
    (c.includesOf t).length + (1 + 2 * (c.inheritsOf t).length) ≤ c.enterCost := by
  simp only [includesOf, inheritsOf, enterCost, ← Array.getElem?_toList]
  generalize c.topics.toList = topics
  induction topics generalizing t with
  | nil => simp
  | cons topic topics ih =>
    cases t with
    | zero => simp
    | succ t =>
      have := ih t
      rw [List.getElem?_cons_succ, List.foldr_cons]
      omega

def candidates (c : Catalog) (t : TopicId) (depth : Nat) (included : Bool) : List Candidate :=
  (c.ownTriggers t).map fun trigger => { trigger, source := t, depth, included }

/-- Make the pending visits of one level, then those of the topics it inherits. -/
def walk (c : Catalog) (unvisited : List TopicId) (depth : Nat) (pending : List Visit)
    (parents : List TopicId) : List Candidate :=
  match pending, parents with
  | [], [] => []
  | [], p :: ps => walk c unvisited (depth + 1) ((p :: ps).map (.enter · false)) []
  | .enter t included :: pending, parents =>
    if t ∈ unvisited then
      c.candidates t depth included ++
        walk c (unvisited.erase t) depth ((c.includesOf t).map (.enter · true) ++ .leave t :: pending) parents
    else walk c unvisited depth pending parents
  | .leave t :: pending, parents => walk c unvisited depth pending (parents ++ c.inheritsOf t)
termination_by unvisited.length * c.enterCost + c.pendingCost pending + 2 * parents.length
decreasing_by
  · rw [pendingCost_enter]
    simp only [pendingCost, List.length_nil, List.length_cons]
    omega
  · rename_i h
    have hpos := List.length_pos_of_mem h
    have hcost := c.le_enterCost t
    have hmul := Nat.succ_mul (unvisited.length - 1) c.enterCost
    rw [Nat.succ_eq_add_one, Nat.sub_add_cancel hpos] at hmul
    rw [List.length_erase_of_mem h]
    simp only [pendingCost_append, pendingCost_enter, pendingCost, Visit.cost]
    omega
  · simp only [pendingCost, Visit.cost]
    omega
  · simp only [pendingCost, Visit.cost, List.length_append]
    omega

/-- Every trigger that a topic can answer with, nearest first. -/
def reach (c : Catalog) (t : TopicId) : List Candidate :=
  c.walk (List.range c.topics.size) 0 [.enter t false] []

end Catalog

end Repartee
