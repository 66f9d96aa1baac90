/-
  Repartee.Proofs.Expedition — how a walk comes to the topics it enters.

  A walk under way is an expedition: it has made some stops, has visits ahead of it on the level
  it is at, and knows which topics the next level begins with. One step enters a topic, passes
  one by that was entered before, closes one whose includes are done, or goes down a level.

  Entering early hides no shorter way: all that a level includes is entered before the next
  level begins, so a topic is entered on the first level on which any way arrives.

  Proved:
  - A walk meets the triggers of its stops, each topic's in one block (`reach_eq_flatMap_stops`).
  - Every step keeps an expedition in order, on ways that exist, with nothing left behind, and with
    its flags right (`orderly_step`, `founded_step`, `thorough_step`, `flagged_step`), and so does
    every run of steps (`exploring_run`).
  - What holds of the stops of a whole walk (`explored_stops`).
-/

import Mathlib.Data.List.Nodup
import Mathlib.Logic.Relation
import Repartee.Proofs.Arena
import Repartee.Proofs.Walks

namespace Repartee

namespace Catalog

/-! ## Ways -/

/-- An edge between topics. -/
inductive Link where
  | includes
  | inherits
  deriving DecidableEq, Repr

/-- A way from a topic along the edges, with its links in order. -/
inductive Way (c : Catalog) (t : TopicId) : List Link → TopicId → Prop
  | here : Way c t [] t
  | includes {links : List Link} {u v : TopicId} : Way c t links u → v ∈ c.includesOf u →
      Way c t (links ++ [.includes]) v
  | inherits {links : List Link} {u v : TopicId} : Way c t links u → v ∈ c.inheritsOf u →
      Way c t (links ++ [.inherits]) v

/-- A way with as few inherits as any to the same topic. -/
def Nearest (c : Catalog) (t : TopicId) (links : List Link) (u : TopicId) : Prop :=
  c.Way t links u ∧ ∀ others, c.Way t others u → links.count .inherits ≤ others.count .inherits

/-- Some way has this many inherits, and its last link is an include exactly if the flag says so. -/
def Enters (c : Catalog) (t u : TopicId) (depth : Nat) (included : Bool) : Prop :=
  ∃ links, c.Way t links u ∧ links.count .inherits = depth ∧ (links.getLast? = some .includes ↔ included = true)

section Enters

variable {c : Catalog} {t u v : TopicId} {depth : Nat} {included : Bool}

theorem Enters.here : c.Enters t t 0 false := ⟨[], .here, rfl, by simp⟩

theorem Enters.includes (h : c.Enters t u depth included) (hv : v ∈ c.includesOf u) : c.Enters t v depth true := by
  obtain ⟨links, hway, hcount, -⟩ := h
  exact ⟨_, hway.includes hv, by simp [hcount], by simp⟩

theorem Enters.inherits (h : c.Enters t u depth included) (hv : v ∈ c.inheritsOf u) :
    c.Enters t v (depth + 1) false := by
  obtain ⟨links, hway, hcount, -⟩ := h
  exact ⟨_, hway.inherits hv, by simp [hcount], by simp⟩

end Enters

/-! ## Stops -/

/-- The same topics, each with a single trigger that has the number of its topic. -/
def signposted (c : Catalog) : Catalog :=
  { c with topics := c.topics.mapIdx fun t topic => { topic with triggers := [t] } }

/-- The topics that a walk enters, in order, each as what is met at its signpost. -/
def stops (c : Catalog) (t : TopicId) : List Candidate := c.signposted.reach t

section Signposts

variable (c : Catalog) (t : TopicId)

@[simp] theorem size_signposted : c.signposted.topics.size = c.topics.size := by simp [signposted]

@[simp] theorem includesOf_signposted : c.signposted.includesOf t = c.includesOf t := by
  unfold includesOf signposted
  rw [Array.getElem?_mapIdx]
  cases c.topics[t]? <;> rfl

@[simp] theorem inheritsOf_signposted : c.signposted.inheritsOf t = c.inheritsOf t := by
  unfold inheritsOf signposted
  rw [Array.getElem?_mapIdx]
  cases c.topics[t]? <;> rfl

variable {c t}

theorem candidates_signposted (ht : t < c.topics.size) (depth : Nat) (included : Bool) :
    c.signposted.candidates t depth included = [⟨t, t, depth, included⟩] := by
  simp [candidates, ownTriggers, signposted, ht]

theorem candidates_of_size_le (ht : c.topics.size ≤ t) (depth : Nat) (included : Bool) :
    c.candidates t depth included = [] := by
  simp [candidates, ownTriggers, ht]

variable (c t)

/-- What a walk meets are the triggers of its stops. -/
theorem reach_eq_flatMap_stops :
    c.reach t = (c.stops t).flatMap fun s => c.candidates s.source s.depth s.included := by
  have hmatches : c.Matches c.signposted (fun e => [e]) (fun s => c.candidates s.source s.depth s.included)
      (· = ·) := by
    constructor
    · intro u v u' v' h h'
      rw [h, h']
    · intro u v h
      rw [h, includesOf_signposted]
      exact List.forall₂_refl _
    · intro u v h
      rw [h, inheritsOf_signposted]
      exact List.forall₂_refl _
    · intro u v h depth included
      subst h
      by_cases hu : u < c.topics.size
      · simp [candidates_signposted hu, List.flatMap_singleton']
      · have hle := Nat.le_of_not_lt hu
        have hsize : c.signposted.topics.size ≤ u := by rwa [size_signposted]
        rw [candidates_of_size_le hle, candidates_of_size_le hsize]
        rfl
  have hreach := reach_flatMap hmatches (fun {u v} h => by rw [h, size_signposted]) (rfl : t = t)
  rw [List.flatMap_singleton'] at hreach
  exact hreach

end Signposts

/-! ## Expeditions -/

/-- A walk under way. -/
structure Expedition where
  /-- The topics entered so far, in order. -/
  stops : List Candidate
  unvisited : List TopicId
  depth : Nat
  pending : List Visit
  parents : List TopicId

/-- The visit begins at a topic that the level before inherits, or at the first topic. -/
def Visit.IsRoot (v : Visit) : Prop := ∃ u, v = .enter u false

namespace Expedition

variable {c : Catalog} {t : TopicId} {w w' : Expedition}

def IsDone (w : Expedition) : Prop := w.pending = [] ∧ w.parents = []

/-- The topic was entered, at this depth at most. -/
def Has (w : Expedition) (u : TopicId) (depth : Nat) : Prop := ∃ s ∈ w.stops, s.source = u ∧ s.depth ≤ depth

inductive Step (c : Catalog) : Expedition → Expedition → Prop
  | deeper {w : Expedition} : w.pending = [] → w.parents ≠ [] →
      Step c w { w with depth := w.depth + 1, pending := w.parents.map (.enter · false), parents := [] }
  | enter {w : Expedition} {u : TopicId} {included : Bool} {rest : List Visit} :
      w.pending = .enter u included :: rest → u ∈ w.unvisited →
      Step c w { w with
        stops := w.stops ++ [⟨u, u, w.depth, included⟩]
        unvisited := w.unvisited.erase u
        pending := (c.includesOf u).map (.enter · true) ++ .leave u :: rest }
  | skip {w : Expedition} {u : TopicId} {included : Bool} {rest : List Visit} :
      w.pending = .enter u included :: rest → u ∉ w.unvisited → Step c w { w with pending := rest }
  | leave {w : Expedition} {u : TopicId} {rest : List Visit} :
      w.pending = .leave u :: rest → Step c w { w with pending := rest, parents := w.parents ++ c.inheritsOf u }

/-- Every expedition comes to its end, with the stops that the walk from there meets at signposts. -/
theorem exists_done (c : Catalog) (w : Expedition) (hsize : ∀ u ∈ w.unvisited, u < c.topics.size) :
    ∃ w', Relation.ReflTransGen (Step c) w w' ∧ w'.IsDone ∧
      w'.stops = w.stops ++ c.signposted.walk w.unvisited w.depth w.pending w.parents := by
  obtain ⟨stops, unvisited, depth, pending, parents⟩ := w
  -- along the walk's own recursion, which makes one step at a time
  induction unvisited, depth, pending, parents using walk.induct c.signposted generalizing stops with
  | case1 unvisited depth =>
    exact ⟨_, .refl, ⟨rfl, rfl⟩, by rw [walk, List.append_nil]⟩
  | case2 unvisited depth p ps ih =>
    obtain ⟨w', hrun, hdone, hstops⟩ := ih stops hsize
    exact ⟨w', .head (.deeper rfl (List.cons_ne_nil p ps)) hrun, hdone, by rw [hstops, walk]⟩
  | case3 unvisited depth u included pending parents hu ih =>
    have hnew := candidates_signposted (hsize u hu) depth included
    obtain ⟨w', hrun, hdone, hstops⟩ := ih (stops ++ [⟨u, u, depth, included⟩])
      fun v hv => hsize v (List.mem_of_mem_erase hv)
    rw [includesOf_signposted] at hrun
    refine ⟨w', .head (.enter rfl hu) hrun, hdone, ?_⟩
    rw [hstops, walk, if_pos hu, hnew, List.append_assoc]
  | case4 unvisited depth u included pending parents hu ih =>
    obtain ⟨w', hrun, hdone, hstops⟩ := ih stops hsize
    exact ⟨w', .head (.skip rfl hu) hrun, hdone, by rw [hstops, walk, if_neg hu]⟩
  | case5 unvisited depth u pending parents ih =>
    obtain ⟨w', hrun, hdone, hstops⟩ := ih stops hsize
    rw [inheritsOf_signposted] at hrun
    exact ⟨w', .head (.leave rfl) hrun, hdone, by rw [hstops, walk]⟩

/-! ## Order -/

/-- Every topic is entered once or still unvisited, and no stop is deeper than the level. -/
structure Orderly (c : Catalog) (w : Expedition) : Prop where
  once : w.unvisited.Nodup
  unvisited : ∀ u, u ∈ w.unvisited ↔ u < c.topics.size ∧ u ∉ w.stops.map (·.source)
  distinct : (w.stops.map (·.source)).Nodup
  descending : w.stops.Pairwise (·.depth ≤ ·.depth)
  deepest : ∀ s ∈ w.stops, s.depth ≤ w.depth

theorem orderly_step (h : Orderly c w) (hstep : Step c w w') : Orderly c w' := by
  cases hstep with
  | deeper _ _ =>
    exact ⟨h.once, h.unvisited, h.distinct, h.descending, fun s hs => Nat.le_succ_of_le (h.deepest s hs)⟩
  | @enter u included _ _ hu =>
    have hnot := ((h.unvisited u).mp hu).2
    refine ⟨h.once.erase u, ?_, ?_, ?_, ?_⟩
    · intro v
      rw [h.once.mem_erase_iff, h.unvisited, List.map_append, List.mem_append, List.map_singleton, List.mem_singleton]
      tauto
    · rw [List.map_append, List.map_singleton, List.nodup_append]
      refine ⟨h.distinct, List.nodup_singleton u, ?_⟩
      intro v hv v' hv' heq
      rw [heq, List.mem_singleton.mp hv'] at hv
      exact hnot hv
    · rw [List.pairwise_append]
      refine ⟨h.descending, List.pairwise_singleton _ _, ?_⟩
      intro s hs s' hs'
      rw [List.mem_singleton.mp hs']
      exact h.deepest s hs
    · intro s hs
      rcases List.mem_append.mp hs with hs | hs
      · exact h.deepest s hs
      · exact Nat.le_of_eq (congrArg Candidate.depth (List.mem_singleton.mp hs))
  | skip _ _ => exact ⟨h.once, h.unvisited, h.distinct, h.descending, h.deepest⟩
  | leave _ => exact ⟨h.once, h.unvisited, h.distinct, h.descending, h.deepest⟩

/-- A topic that is passed by was entered on this level or before. -/
theorem Orderly.has {u : TopicId} (h : Orderly c w) (hu : u < c.topics.size) (hnot : u ∉ w.unvisited) :
    w.Has u w.depth := by
  have hmem : u ∈ w.stops.map (·.source) := by
    by_contra hmem
    exact hnot ((h.unvisited u).mpr ⟨hu, hmem⟩)
  obtain ⟨s, hs, rfl⟩ := List.mem_map.mp hmem
  exact ⟨s, hs, rfl, h.deepest s hs⟩

/-! ## Ways to the stops -/

/-- Ways lead to all stops and visits, with as many inherits as the depth says. -/
structure Founded (c : Catalog) (t : TopicId) (w : Expedition) : Prop where
  stops : ∀ s ∈ w.stops, c.Enters t s.source s.depth s.included
  entering : ∀ u included, .enter u included ∈ w.pending → c.Enters t u w.depth included
  leaving : ∀ u, .leave u ∈ w.pending → ∃ included, c.Enters t u w.depth included
  parents : ∀ u ∈ w.parents, c.Enters t u (w.depth + 1) false

theorem founded_step (h : Founded c t w) (hstep : Step c w w') : Founded c t w' := by
  cases hstep with
  | deeper _ _ =>
    refine ⟨h.stops, ?_, by simp, by simp⟩
    intro u included hu
    obtain ⟨v, hv, heq⟩ := List.mem_map.mp hu
    cases heq
    exact h.parents u hv
  | @enter u included rest hpending _ =>
    have henters := h.entering u included (hpending ▸ List.mem_cons_self)
    refine ⟨?_, ?_, ?_, h.parents⟩
    · intro s hs
      rcases List.mem_append.mp hs with hs | hs
      · exact h.stops s hs
      · rw [List.mem_singleton.mp hs]
        exact henters
    · intro v flag hv
      rcases List.mem_append.mp hv with hv | hv
      · obtain ⟨v', hv', heq⟩ := List.mem_map.mp hv
        cases heq
        exact henters.includes hv'
      · have hrest : Visit.enter v flag ∈ rest := by simpa using hv
        exact h.entering v flag (hpending ▸ List.mem_cons_of_mem _ hrest)
    · intro v hv
      rcases List.mem_append.mp hv with hv | hv
      · simp at hv
      · rcases List.mem_cons.mp hv with heq | hrest
        · cases heq
          exact ⟨included, henters⟩
        · exact h.leaving v (hpending ▸ List.mem_cons_of_mem _ hrest)
  | skip hpending _ =>
    refine ⟨h.stops, ?_, ?_, h.parents⟩
    · intro v flag hv
      exact h.entering v flag (hpending ▸ List.mem_cons_of_mem _ hv)
    · intro v hv
      exact h.leaving v (hpending ▸ List.mem_cons_of_mem _ hv)
  | @leave u rest hpending =>
    refine ⟨h.stops, ?_, ?_, ?_⟩
    · intro v flag hv
      exact h.entering v flag (hpending ▸ List.mem_cons_of_mem _ hv)
    · intro v hv
      exact h.leaving v (hpending ▸ List.mem_cons_of_mem _ hv)
    · intro v hv
      rcases List.mem_append.mp hv with hv | hv
      · exact h.parents v hv
      · obtain ⟨included, henters⟩ := h.leaving u (hpending ▸ List.mem_cons_self)
        exact henters.inherits hv

/-! ## Nothing is left behind -/

section Step

variable {u : TopicId} {depth : Nat} {included : Bool} {s : Candidate}

theorem Step.has (hstep : Step c w w') (h : w.Has u depth) : w'.Has u depth := by
  cases hstep with
  | enter _ _ =>
    obtain ⟨s, hs, hlevel⟩ := h
    exact ⟨s, List.mem_append_left _ hs, hlevel⟩
  | deeper _ _ => exact h
  | skip _ _ => exact h
  | leave _ => exact h

/-- A visit ahead stays ahead until its topic is entered, or is passed by since it was. -/
theorem Step.entering (hstep : Step c w w') (horderly : Orderly c w) (hu : u < c.topics.size)
    (h : .enter u included ∈ w.pending) : w'.Has u w.depth ∨ w'.depth = w.depth ∧ .enter u included ∈ w'.pending := by
  cases hstep with
  | deeper hpending _ => simp [hpending] at h
  | @enter u' included' rest hpending _ =>
    rcases List.mem_cons.mp (hpending ▸ h) with heq | hrest
    · cases heq
      exact .inl ⟨⟨u, u, w.depth, included⟩, by simp, rfl, Nat.le_refl _⟩
    · exact .inr ⟨rfl, by simp [hrest]⟩
  | skip hpending hnot =>
    rcases List.mem_cons.mp (hpending ▸ h) with heq | hrest
    · cases heq
      exact .inl (horderly.has hu hnot)
    · exact .inr ⟨rfl, hrest⟩
  | leave hpending =>
    rcases List.mem_cons.mp (hpending ▸ h) with heq | hrest
    · cases heq
    · exact .inr ⟨rfl, hrest⟩

/-- When a topic is closed, what it inherits is noted. -/
theorem Step.leaving (hstep : Step c w w') (h : .leave u ∈ w.pending) :
    w'.depth = w.depth ∧ (.leave u ∈ w'.pending ∨ ∀ v ∈ c.inheritsOf u, v ∈ w'.parents) := by
  cases hstep with
  | deeper hpending _ => simp [hpending] at h
  | @enter u' included' rest hpending _ =>
    have hrest : Visit.leave u ∈ rest := by simpa [hpending] using h
    exact ⟨rfl, .inl (by simp [hrest])⟩
  | @skip u' included' rest hpending _ =>
    have hrest : Visit.leave u ∈ rest := by simpa [hpending] using h
    exact ⟨rfl, .inl hrest⟩
  | leave hpending =>
    rcases List.mem_cons.mp (hpending ▸ h) with heq | hrest
    · cases heq
      exact ⟨rfl, .inr fun v hv => List.mem_append_right _ hv⟩
    · exact ⟨rfl, .inl hrest⟩

theorem Step.parents (hstep : Step c w w') (h : u ∈ w.parents) :
    w'.depth = w.depth ∧ u ∈ w'.parents ∨ w'.depth = w.depth + 1 ∧ .enter u false ∈ w'.pending := by
  cases hstep with
  | deeper _ _ => exact .inr ⟨rfl, List.mem_map_of_mem h⟩
  | enter _ _ => exact .inl ⟨rfl, h⟩
  | skip _ _ => exact .inl ⟨rfl, h⟩
  | leave _ => exact .inl ⟨rfl, List.mem_append_left _ h⟩

/-- A topic just entered has all of its edges ahead. -/
theorem Step.stops (hstep : Step c w w') (h : s ∈ w'.stops) :
    s ∈ w.stops ∨ s.depth = w'.depth ∧ (∀ v ∈ c.includesOf s.source, .enter v true ∈ w'.pending) ∧
      .leave s.source ∈ w'.pending := by
  cases hstep with
  | deeper _ _ => exact .inl h
  | skip _ _ => exact .inl h
  | leave _ => exact .inl h
  | enter _ _ =>
    rcases List.mem_append.mp h with hs | hs
    · exact .inl hs
    · rw [List.mem_singleton.mp hs]
      exact .inr ⟨rfl, fun v hv => List.mem_append_left _ (List.mem_map_of_mem hv), by simp⟩

end Step

/-- What a stop includes is entered on its level or still ahead, and what it inherits on the next one. -/
structure Thorough (c : Catalog) (w : Expedition) : Prop where
  includes : ∀ s ∈ w.stops, ∀ v ∈ c.includesOf s.source,
    w.Has v s.depth ∨ s.depth = w.depth ∧ .enter v true ∈ w.pending
  inherits : ∀ s ∈ w.stops, ∀ v ∈ c.inheritsOf s.source,
    w.Has v (s.depth + 1) ∨ s.depth + 1 = w.depth ∧ .enter v false ∈ w.pending ∨
      s.depth = w.depth ∧ (.leave s.source ∈ w.pending ∨ v ∈ w.parents)

theorem thorough_step (hc : c.WellFormed) (horderly : Orderly c w) (h : Thorough c w) (hstep : Step c w w') :
    Thorough c w' := by
  constructor
  · intro s hs v hv
    rcases hstep.stops hs with hs | ⟨hdepth, hincludes, -⟩
    · rcases h.includes s hs v hv with hhas | ⟨hdepth, hmem⟩
      · exact .inl (hstep.has hhas)
      · rw [hdepth]
        rcases hstep.entering horderly (hc.lt_of_edge (.inl hv)) hmem with hhas | ⟨hlevel, hmem⟩
        · exact .inl hhas
        · exact .inr ⟨hlevel.symm, hmem⟩
    · exact .inr ⟨hdepth, hincludes v hv⟩
  · intro s hs v hv
    rcases hstep.stops hs with hs | ⟨hdepth, -, hleave⟩
    · rcases h.inherits s hs v hv with hhas | ⟨hdepth, hmem⟩ | ⟨hdepth, hmem | hmem⟩
      · exact .inl (hstep.has hhas)
      · rw [hdepth]
        rcases hstep.entering horderly (hc.lt_of_edge (.inr hv)) hmem with hhas | ⟨hlevel, hmem⟩
        · exact .inl hhas
        · exact .inr (.inl ⟨hlevel.symm, hmem⟩)
      · obtain ⟨hlevel, hmem⟩ := hstep.leaving hmem
        exact .inr (.inr ⟨hdepth.trans hlevel.symm, hmem.imp_right fun hall => hall v hv⟩)
      · rcases hstep.parents hmem with ⟨hlevel, hmem⟩ | ⟨hlevel, hmem⟩
        · exact .inr (.inr ⟨hdepth.trans hlevel.symm, .inr hmem⟩)
        · exact .inr (.inl ⟨by rw [hdepth, hlevel], hmem⟩)
    · exact .inr (.inr ⟨hdepth, .inl hleave⟩)

/-! ## Flags -/

/-- A stop is flagged if one before it on its level includes it. Roots are visited last, when all that the
level includes so far was entered. -/
structure Flagged (c : Catalog) (w : Expedition) : Prop where
  flags : ∀ before s, before ++ [s] <+: w.stops →
    (s.included = true ↔ ∃ v ∈ before, v.depth = s.depth ∧ s.source ∈ c.includesOf v.source)
  entering : ∀ u, .enter u true ∈ w.pending → ∃ v ∈ w.stops, v.depth = w.depth ∧ u ∈ c.includesOf v.source
  roots : w.pending.Pairwise fun v v' => v.IsRoot → v'.IsRoot

theorem flagged_step (horderly : Orderly c w) (hthorough : Thorough c w) (h : Flagged c w) (hstep : Step c w w') :
    Flagged c w' := by
  cases hstep with
  | deeper _ _ =>
    refine ⟨h.flags, by simp, ?_⟩
    rw [List.pairwise_map]
    exact List.pairwise_of_forall fun u v _ => ⟨v, rfl⟩
  | @enter u included rest hpending hu =>
    have hroots := h.roots
    rw [hpending, List.pairwise_cons] at hroots
    obtain ⟨hhead, htail⟩ := hroots
    refine ⟨?_, ?_, ?_⟩
    · intro before s hprefix
      rcases List.prefix_concat_iff.mp hprefix with heq | hprefix
      · have hlast : s = ⟨u, u, w.depth, included⟩ := List.singleton_inj.mp (List.append_inj_right' heq rfl)
        have hbefore : before = w.stops := List.append_inj_left' heq rfl
        subst hlast hbefore
        constructor
        · intro hincluded
          exact h.entering u (hpending ▸ hincluded ▸ List.mem_cons_self)
        · -- a topic that is not entered yet is still ahead as an include, so no root can be next
          intro hex
          obtain ⟨v, hv, hdepth, hmem⟩ := hex
          rcases hthorough.includes v hv u hmem with ⟨s, hs, hsource, -⟩ | ⟨-, hahead⟩
          · exact absurd (hsource ▸ List.mem_map_of_mem hs) ((horderly.unvisited u).mp hu).2
          · cases included with
            | true => rfl
            | false =>
              have hrest : Visit.enter u true ∈ rest := by simpa [hpending] using hahead
              obtain ⟨u', heq⟩ := hhead _ hrest ⟨u, rfl⟩
              cases heq
      · exact h.flags before s hprefix
    · intro v hv
      rcases List.mem_append.mp hv with hv | hv
      · obtain ⟨v', hv', heq⟩ := List.mem_map.mp hv
        cases heq
        exact ⟨⟨u, u, w.depth, included⟩, by simp, rfl, hv'⟩
      · have hrest : Visit.enter v true ∈ rest := by simpa using hv
        obtain ⟨s, hs, hlevel⟩ := h.entering v (hpending ▸ List.mem_cons_of_mem _ hrest)
        exact ⟨s, List.mem_append_left _ hs, hlevel⟩
    · rw [List.pairwise_append, List.pairwise_map, List.pairwise_cons]
      refine ⟨List.pairwise_of_forall ?_, ⟨?_, htail⟩, ?_⟩
      · intro v v' hroot
        obtain ⟨_, heq⟩ := hroot
        cases heq
      · intro v _ hroot
        obtain ⟨_, heq⟩ := hroot
        cases heq
      · intro v hv v' _ hroot
        obtain ⟨_, _, rfl⟩ := List.mem_map.mp hv
        obtain ⟨_, heq⟩ := hroot
        cases heq
  | skip hpending _ =>
    have hroots := h.roots
    rw [hpending, List.pairwise_cons] at hroots
    exact ⟨h.flags, fun v hv => h.entering v (hpending ▸ List.mem_cons_of_mem _ hv), hroots.2⟩
  | leave hpending =>
    have hroots := h.roots
    rw [hpending, List.pairwise_cons] at hroots
    exact ⟨h.flags, fun v hv => h.entering v (hpending ▸ List.mem_cons_of_mem _ hv), hroots.2⟩

/-! ## Whole walks -/

/-- What every step keeps. -/
structure Exploring (c : Catalog) (t : TopicId) (w : Expedition) : Prop where
  orderly : Orderly c w
  founded : Founded c t w
  thorough : Thorough c w
  flagged : Flagged c w

theorem exploring_step (hc : c.WellFormed) (h : Exploring c t w) (hstep : Step c w w') : Exploring c t w' :=
  ⟨orderly_step h.orderly hstep, founded_step h.founded hstep, thorough_step hc h.orderly h.thorough hstep,
    flagged_step h.orderly h.thorough h.flagged hstep⟩

theorem exploring_run (hc : c.WellFormed) (h : Exploring c t w) (hrun : Relation.ReflTransGen (Step c) w w') :
    Exploring c t w' := by
  induction hrun with
  | refl => exact h
  | tail _ hstep ih => exact exploring_step hc ih hstep

/-- Before its first step. -/
def start (c : Catalog) (t : TopicId) : Expedition :=
  { stops := [], unvisited := List.range c.topics.size, depth := 0, pending := [.enter t false], parents := [] }

theorem exploring_start (c : Catalog) (t : TopicId) : Exploring c t (start c t) := by
  refine ⟨⟨List.nodup_range, ?_, List.nodup_nil, .nil, ?_⟩, ⟨?_, ?_, ?_, ?_⟩, ⟨?_, ?_⟩, ⟨?_, ?_, ?_⟩⟩
  · simp [start]
  · simp [start]
  · simp [start]
  · intro u included hu
    obtain ⟨rfl, rfl⟩ : u = t ∧ included = false := by simpa [start] using hu
    exact .here
  · simp [start]
  · simp [start]
  · simp [start]
  · simp [start]
  · simp [start]
  · simp [start]
  · exact List.pairwise_singleton _ _

end Expedition

/-- What holds of the stops of a walk from a topic. -/
structure Explored (c : Catalog) (t : TopicId) (stops : List Candidate) : Prop where
  first : stops.head? = some ⟨t, t, 0, false⟩
  distinct : (stops.map (·.source)).Nodup
  descending : stops.Pairwise (·.depth ≤ ·.depth)
  ways : ∀ s ∈ stops, c.Enters t s.source s.depth s.included
  includes : ∀ s ∈ stops, ∀ v ∈ c.includesOf s.source, ∃ s' ∈ stops, s'.source = v ∧ s'.depth ≤ s.depth
  inherits : ∀ s ∈ stops, ∀ v ∈ c.inheritsOf s.source, ∃ s' ∈ stops, s'.source = v ∧ s'.depth ≤ s.depth + 1
  flags : ∀ before s, before ++ [s] <+: stops →
    (s.included = true ↔ ∃ v ∈ before, v.depth = s.depth ∧ s.source ∈ c.includesOf v.source)

section Explored

variable {c : Catalog} {t u : TopicId} {stops : List Candidate} {s : Candidate} {links : List Link}

theorem head?_stops (ht : t < c.topics.size) : (c.stops t).head? = some ⟨t, t, 0, false⟩ := by
  have hmem : t ∈ List.range c.signposted.topics.size := by simpa using ht
  unfold stops reach
  rw [walk, if_pos hmem, candidates_signposted ht]
  rfl

theorem explored_stops (hc : c.WellFormed) (ht : t < c.topics.size) : c.Explored t (c.stops t) := by
  have hrange : ∀ u ∈ (Expedition.start c t).unvisited, u < c.topics.size := fun u hu => List.mem_range.mp hu
  obtain ⟨w, hrun, ⟨hpending, hparents⟩, hstops⟩ := Expedition.exists_done c (Expedition.start c t) hrange
  have hexploring := Expedition.exploring_run hc (Expedition.exploring_start c t) hrun
  have hall : w.stops = c.stops t := by
    rw [hstops, stops, reach, size_signposted]
    rfl
  rw [← hall]
  refine ⟨?_, hexploring.orderly.distinct, hexploring.orderly.descending, hexploring.founded.stops, ?_, ?_,
    hexploring.flagged.flags⟩
  · rw [hall]
    exact head?_stops ht
  · intro s hs v hv
    rcases hexploring.thorough.includes s hs v hv with hhas | ⟨-, hmem⟩
    · exact hhas
    · simp [hpending] at hmem
  · intro s hs v hv
    rcases hexploring.thorough.inherits s hs v hv with hhas | ⟨-, hmem⟩ | ⟨-, hmem⟩
    · exact hhas
    · simp [hpending] at hmem
    · simp [hpending, hparents] at hmem

/-- No way gets to a topic on an earlier level than the walk. -/
theorem Explored.exists_stop (h : c.Explored t stops) (hway : c.Way t links u) :
    ∃ s ∈ stops, s.source = u ∧ s.depth ≤ links.count .inherits := by
  induction hway with
  | here => exact ⟨_, List.mem_of_mem_head? h.first, rfl, Nat.le_refl 0⟩
  | includes _ hv ih =>
    obtain ⟨s, hs, rfl, hdepth⟩ := ih
    obtain ⟨s', hs', hsource, hle⟩ := h.includes s hs _ hv
    exact ⟨s', hs', hsource, by simp; omega⟩
  | inherits _ hv ih =>
    obtain ⟨s, hs, rfl, hdepth⟩ := ih
    obtain ⟨s', hs', hsource, hle⟩ := h.inherits s hs _ hv
    exact ⟨s', hs', hsource, by simp; omega⟩

theorem Explored.eq_of_source_eq (h : c.Explored t stops) {s' : Candidate} (hs : s ∈ stops) (hs' : s' ∈ stops)
    (hsource : s.source = s'.source) : s = s' :=
  List.inj_on_of_nodup_map h.distinct hs hs' hsource

/-- The depth of a stop is that of the nearest ways to it. -/
theorem Explored.depth_le (h : c.Explored t stops) (hs : s ∈ stops) (hway : c.Way t links s.source) :
    s.depth ≤ links.count .inherits := by
  obtain ⟨s', hs', hsource, hle⟩ := h.exists_stop hway
  rwa [h.eq_of_source_eq hs' hs hsource] at hle

/-- One of the nearest ways enters the topic as the walk did. -/
theorem Explored.exists_nearest (h : c.Explored t stops) (hs : s ∈ stops) :
    ∃ links, c.Nearest t links s.source ∧ links.count .inherits = s.depth ∧
      (links.getLast? = some .includes ↔ s.included = true) := by
  obtain ⟨links, hway, hcount, hlast⟩ := h.ways s hs
  refine ⟨links, ⟨hway, ?_⟩, hcount, hlast⟩
  intro others hothers
  rw [hcount]
  exact h.depth_le hs hothers

theorem Explored.mem_sources_iff (h : c.Explored t stops) :
    u ∈ stops.map (·.source) ↔ ∃ links, c.Way t links u := by
  constructor
  · intro hu
    obtain ⟨s, hs, rfl⟩ := List.mem_map.mp hu
    obtain ⟨links, hway, -⟩ := h.ways s hs
    exact ⟨links, hway⟩
  · intro hex
    obtain ⟨links, hway⟩ := hex
    obtain ⟨s, hs, rfl, -⟩ := h.exists_stop hway
    exact List.mem_map_of_mem hs

end Explored

end Catalog

end Repartee
