/-
  Repartee.Proofs.Walks — walks of the same shape meet the same triggers.

  A walk looks at a topic's own triggers and at the numbers of the topics it includes and
  inherits, and at nothing else. So a walk can be followed in another catalog, by topics that
  stand for those of the first, even if they have other numbers there.

  Proved:
  - Matching walks meet candidates that look the same, in the same order (`walk_flatMap`).
  - So do the walks from two topics that stand for each other (`reach_flatMap`).
-/

import Mathlib.Data.List.Forall2
import Repartee.Catalog.Reach

namespace Repartee

namespace Catalog

/-- How topics of `c` stand for topics of `d`: one for one, with edges to topics that do so in
turn, and with own triggers that look the same by `see` and `see'`. -/
structure Matches {β : Type} (c d : Catalog) (see see' : Candidate → List β) (R : TopicId → TopicId → Prop) :
    Prop where
  oneToOne : ∀ {t u t' u' : TopicId}, R t u → R t' u' → (t = t' ↔ u = u')
  includes : ∀ {t u : TopicId}, R t u → List.Forall₂ R (c.includesOf t) (d.includesOf u)
  inherits : ∀ {t u : TopicId}, R t u → List.Forall₂ R (c.inheritsOf t) (d.inheritsOf u)
  triggers : ∀ {t u : TopicId}, R t u → ∀ (depth : Nat) (included : Bool),
    (c.candidates t depth included).flatMap see = (d.candidates u depth included).flatMap see'

/-- Visits to topics that stand for each other. -/
inductive Visit.Alike (R : TopicId → TopicId → Prop) : Visit → Visit → Prop
  | enter {t u : TopicId} (included : Bool) : R t u → Alike R (.enter t included) (.enter u included)
  | leave {t u : TopicId} : R t u → Alike R (.leave t) (.leave u)

/-- The topics still to be entered are the same. -/
structure SameUnvisited (R : TopicId → TopicId → Prop) (unvisited unvisited' : List TopicId) : Prop where
  mem : ∀ {t u : TopicId}, R t u → (t ∈ unvisited ↔ u ∈ unvisited')
  once : unvisited.Nodup
  once' : unvisited'.Nodup

section Walk

variable {β : Type} {c d : Catalog} {see see' : Candidate → List β} {R : TopicId → TopicId → Prop}

theorem SameUnvisited.erase {t u : TopicId} {unvisited unvisited' : List TopicId}
    (hR : c.Matches d see see' R) (h : SameUnvisited R unvisited unvisited') (htu : R t u) :
    SameUnvisited R (unvisited.erase t) (unvisited'.erase u) := by
  refine ⟨fun {t' u'} htu' => ?_, h.once.erase t, h.once'.erase u⟩
  rw [h.once.mem_erase_iff, h.once'.mem_erase_iff, h.mem htu', ne_eq, ne_eq, hR.oneToOne htu' htu]

theorem alike_enter {ts us : List TopicId} (included : Bool) (h : List.Forall₂ R ts us) :
    List.Forall₂ (Visit.Alike R) (ts.map (.enter · included)) (us.map (.enter · included)) := by
  rw [List.forall₂_map_left_iff, List.forall₂_map_right_iff]
  exact h.imp fun _ _ htu => .enter included htu

/-- Walks at matching points meet the same from there on. -/
theorem walk_flatMap (hR : c.Matches d see see' R) {unvisited unvisited' : List TopicId} {depth : Nat}
    {pending pending' : List Visit} {parents parents' : List TopicId}
    (hunvisited : SameUnvisited R unvisited unvisited') (hpending : List.Forall₂ (Visit.Alike R) pending pending')
    (hparents : List.Forall₂ R parents parents') :
    (c.walk unvisited depth pending parents).flatMap see =
      (d.walk unvisited' depth pending' parents').flatMap see' := by
  induction unvisited, depth, pending, parents using walk.induct c generalizing unvisited' pending' parents' with
  | case1 unvisited depth =>
    cases hpending
    cases hparents
    rw [walk, walk]
    rfl
  | case2 unvisited depth p ps ih =>
    cases hpending
    cases hparents with
    | cons hp hps =>
      rw [walk, walk]
      exact ih hunvisited (alike_enter false (.cons hp hps)) .nil
  | case3 unvisited depth parents t included pending hmem ih =>
    cases hpending with
    | cons hv hpending =>
      cases hv with
      | @enter _ u _ htu =>
        rw [walk, walk, if_pos hmem, if_pos ((hunvisited.mem htu).mp hmem), List.flatMap_append, List.flatMap_append,
          hR.triggers htu]
        congr 1
        exact ih (hunvisited.erase hR htu)
          (List.rel_append (alike_enter true (hR.includes htu)) (.cons (.leave htu) hpending)) hparents
  | case4 unvisited depth parents t included pending hmem ih =>
    cases hpending with
    | cons hv hpending =>
      cases hv with
      | enter _ htu =>
        rw [walk, walk, if_neg hmem, if_neg fun hmem' => hmem ((hunvisited.mem htu).mpr hmem')]
        exact ih hunvisited hpending hparents
  | case5 unvisited depth parents t pending ih =>
    cases hpending with
    | cons hv hpending =>
      cases hv with
      | leave htu =>
        rw [walk, walk]
        exact ih hunvisited hpending (List.rel_append hparents (hR.inherits htu))

/-- From topics that stand for each other, as far as they are topics at all, the same triggers are met. -/
theorem reach_flatMap (hR : c.Matches d see see' R)
    (hsize : ∀ {t u : TopicId}, R t u → (t < c.topics.size ↔ u < d.topics.size)) {t u : TopicId} (htu : R t u) :
    (c.reach t).flatMap see = (d.reach u).flatMap see' := by
  rw [reach, reach]
  refine walk_flatMap hR ⟨fun htu' => ?_, List.nodup_range, List.nodup_range⟩ (.cons (.enter false htu) .nil) .nil
  rw [List.mem_range, List.mem_range, hsize htu']

end Walk

end Catalog

end Repartee
