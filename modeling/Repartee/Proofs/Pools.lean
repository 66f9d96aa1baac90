/-
  Repartee.Proofs.Pools — the pool of a topic: which triggers, how deep, and which of them included.

  A pool has one block for each topic that a way leads to, whatever cycles and diamonds the ways
  make, and the depth of a topic is the fewest inherits of any way to it. Whether a topic counts
  as included is decided by how it is entered, so it can depend on what was entered before.

  Proved:
  - The pool of every topic is the one that its ways call for (`reach_exact`).
  - Where the nearest ways to a topic settle whether it is included, and where the order of
    entering does (`included_by_ways`).
  - A topic that inherits alone lead to is not included, unless one before it on its level includes
    it; so the order of the inherits can matter (`a_topic_inherited_after_its_includer_is_included`).
-/

import Repartee.Proofs.Expedition
import Repartee.Rulebook

namespace Repartee

namespace Catalog

variable {c : Catalog} {t : TopicId} {e : Candidate}

/-- The pool is what the ways from the topic call for. -/
structure Resolves (c : Catalog) (t : TopicId) (pool : List Candidate) : Prop where
  /-- Each topic that a way leads to has one block of its own triggers, as they came in. -/
  blocks : ∃ order : List TopicId, order.head? = some t ∧ order.Nodup ∧ (∀ u, u ∈ order ↔ ∃ links, c.Way t links u) ∧
    pool.map (fun e => (e.source, e.trigger)) = order.flatMap fun u => (c.ownTriggers u).map (u, ·)
  once : (pool.map (·.trigger)).Nodup
  depth : ∀ e ∈ pool, ∃ links, c.Nearest t links e.source ∧ e.depth = links.count .inherits
  descending : pool.Pairwise (·.depth ≤ ·.depth)

/-- A topic of the same depth that is entered earlier includes this one. -/
def IncludedEarlier (c : Catalog) (t : TopicId) (e : Candidate) : Prop :=
  ∃ v ∈ (c.stops t).takeWhile (·.source ≠ e.source), v.depth = e.depth ∧ e.source ∈ c.includesOf v.source

/-- What the nearest ways to a topic say of its being included. -/
structure IncludedByWays (c : Catalog) (t : TopicId) (e : Candidate) : Prop where
  own : e.source = t → e.included = false
  /-- If every nearest way arrives by an include. -/
  always : (∀ links, c.Nearest t links e.source → links.getLast? = some .includes) → e.included = true
  /-- If no nearest way takes one. -/
  never : (∀ links, c.Nearest t links e.source → .includes ∉ links) → e.included = false
  earlier : c.IncludedEarlier t e → e.included = true
  /-- If some nearest way takes none, then it depends on what is entered earlier. -/
  either : (∃ links, c.Nearest t links e.source ∧ .includes ∉ links) → e.included = true → c.IncludedEarlier t e

/-! ## Entries and stops -/

theorem exists_stop_of_mem_reach (he : e ∈ c.reach t) :
    ∃ s ∈ c.stops t, e.source = s.source ∧ e.depth = s.depth ∧ e.included = s.included := by
  rw [reach_eq_flatMap_stops, List.mem_flatMap] at he
  obtain ⟨s, hs, he⟩ := he
  obtain ⟨id, -, rfl⟩ := List.mem_map.mp he
  exact ⟨s, hs, rfl, rfl, rfl⟩

theorem map_reach {α : Type} (f : TopicId → TriggerId → α) (c : Catalog) (t : TopicId) :
    (c.reach t).map (fun e => f e.source e.trigger) =
      ((c.stops t).map (·.source)).flatMap fun u => (c.ownTriggers u).map (f u) := by
  rw [reach_eq_flatMap_stops, List.map_flatMap, List.flatMap_map]
  refine List.flatMap_congr fun s _ => ?_
  unfold candidates
  rw [List.map_map]
  rfl

theorem WellFormed.once_reach (hc : c.WellFormed) (ht : t < c.topics.size) : ((c.reach t).map (·.trigger)).Nodup := by
  rw [map_reach fun _ id => id]
  simp only [List.map_id']
  rw [List.nodup_flatMap]
  refine ⟨fun u _ => hc.once_own u, (explored_stops hc ht).distinct.imp ?_⟩
  intro u v hne id hu hv
  obtain ⟨trigger, htrigger, hof⟩ := hc.listed_own hu
  obtain ⟨trigger', htrigger', hof'⟩ := hc.listed_own hv
  rw [htrigger] at htrigger'
  cases htrigger'
  exact hne (hof.symm.trans hof')

theorem WellFormed.descending_reach (hc : c.WellFormed) (ht : t < c.topics.size) :
    (c.reach t).Pairwise (·.depth ≤ ·.depth) := by
  have hdepth : ∀ {s e : Candidate}, e ∈ c.candidates s.source s.depth s.included → e.depth = s.depth := by
    intro s e he
    obtain ⟨id, -, rfl⟩ := List.mem_map.mp he
    rfl
  rw [reach_eq_flatMap_stops, List.pairwise_flatMap]
  refine ⟨fun s _ => List.pairwise_of_forall_mem_list ?_, (explored_stops hc ht).descending.imp ?_⟩
  · intro e he e' he'
    exact Nat.le_of_eq ((hdepth he).trans (hdepth he').symm)
  · intro s s' hle e he e' he'
    rwa [hdepth he, hdepth he']

/-- The pool of every topic is the one that its ways call for, and the one that its ranking is made of. -/
theorem reach_exact (hc : c.Built) (ht : t < c.topics.size) :
    c.Resolves t (c.reach t) ∧ (Rulebook.rankAll c)[t]? = some (c.rank (c.reach t)) := by
  have hwf := wellFormed_of_built hc
  have hexplored := explored_stops hwf ht
  refine ⟨⟨?_, hwf.once_reach ht, ?_, hwf.descending_reach ht⟩, by simp [Rulebook.rankAll, ht]⟩
  · refine ⟨(c.stops t).map (·.source), ?_, hexplored.distinct, ?_, map_reach Prod.mk c t⟩
    · rw [List.head?_map, hexplored.first]
      rfl
    · intro u
      exact hexplored.mem_sources_iff
  · intro e he
    obtain ⟨s, hs, hsource, hdepth, -⟩ := exists_stop_of_mem_reach he
    obtain ⟨links, hnearest, hcount, -⟩ := hexplored.exists_nearest hs
    exact ⟨links, hsource ▸ hnearest, by rw [hdepth, hcount]⟩

/-- Topics that include and inherit each other and themselves. -/
theorem reach_exact_in_circles :
    let trigger : Trigger := { pattern := ⟨"*", [.wildcard .any], 0⟩ }
    let topics := ((({} : Catalog).addTopic "a").1.addTopic "b").1.addTopic "d" |>.1
    let edges := ((((topics.addInclude 0 0).addInclude 0 1).addInherit 0 2).addInherit 1 2).addInherit 2 0
    let c := (((edges.addTrigger 2 trigger).1.addTrigger 1 trigger).1.addTrigger 0 trigger).1
    (c.Built ∧ 0 < c.topics.size) ∧ c.reach 0 = [⟨2, 0, 0, false⟩, ⟨1, 1, 0, true⟩, ⟨0, 2, 1, false⟩] ∧
      c.Resolves 0 (c.reach 0) ∧ (Rulebook.rankAll c)[0]? = some (c.rank (c.reach 0)) := by
  intro trigger topics edges c
  have htopics : topics.Built := ((Built.empty.addTopic "a").addTopic "b").addTopic "d"
  have hsize : topics.topics.size = 3 := by decide +kernel
  have hedges : edges.Built := by
    refine ((((htopics.addInclude ?_ ?_).addInclude ?_ ?_).addInherit ?_ ?_).addInherit ?_ ?_).addInherit ?_ ?_
    all_goals simp [addInclude, addInherit, hsize]
  have hc : c.Built := by
    refine ((hedges.addTrigger trigger ?_).addTrigger trigger ?_).addTrigger trigger ?_
    all_goals decide +kernel
  have hpos : 0 < c.topics.size := by decide +kernel
  exact ⟨⟨hc, hpos⟩, by decide +kernel, reach_exact hc hpos⟩

/-! ## Included topics -/

/-- The stop before which the others were entered earlier. -/
theorem Explored.takeWhile_of_append {order before after : List Candidate} {s : Candidate} (h : c.Explored t order)
    (hstops : order = before ++ s :: after) : order.takeWhile (·.source ≠ s.source) = before := by
  have hdistinct := h.distinct
  rw [hstops, List.map_append, List.map_cons, List.nodup_middle, List.nodup_cons] at hdistinct
  rw [hstops, List.takeWhile_append_of_pos, List.takeWhile_cons_of_neg (by simp), List.append_nil]
  intro v hv
  rw [decide_eq_true_iff]
  intro heq
  exact hdistinct.1 (heq ▸ List.mem_append_left _ (List.mem_map_of_mem hv))

theorem WellFormed.included_iff (hc : c.WellFormed) (ht : t < c.topics.size) (he : e ∈ c.reach t) :
    e.included = true ↔ c.IncludedEarlier t e := by
  have hexplored := explored_stops hc ht
  obtain ⟨s, hs, hsource, hdepth, hincluded⟩ := exists_stop_of_mem_reach he
  obtain ⟨before, after, hstops⟩ := List.append_of_mem hs
  have hprefix : before ++ [s] <+: c.stops t := ⟨after, by rw [hstops, List.append_assoc]; rfl⟩
  unfold IncludedEarlier
  rw [hsource, hdepth, hincluded, hexplored.takeWhile_of_append hstops]
  exact hexplored.flags before s hprefix

/-- Whether a topic is included is settled by the nearest ways to it, or else by what is entered earlier. -/
theorem included_by_ways (hc : c.Built) (ht : t < c.topics.size) (he : e ∈ c.reach t) : c.IncludedByWays t e := by
  have hwf := wellFormed_of_built hc
  have hiff := hwf.included_iff ht he
  have hexplored := explored_stops hwf ht
  obtain ⟨s, hs, hsource, -, hincluded⟩ := exists_stop_of_mem_reach he
  -- the way that the walk itself took is a nearest one, and ends as the flag says
  obtain ⟨links, hnearest, -, hlast⟩ := hexplored.exists_nearest hs
  rw [← hsource] at hnearest
  rw [← hincluded] at hlast
  refine ⟨?_, ?_, ?_, hiff.mpr, fun _ => hiff.mp⟩
  · intro hown
    have hfirst : s = ⟨t, t, 0, false⟩ :=
      hexplored.eq_of_source_eq hs (List.mem_of_mem_head? hexplored.first) (hsource.symm.trans hown)
    rw [hincluded, hfirst]
  · intro hall
    exact hlast.mp (hall links hnearest)
  · intro hnone
    rw [Bool.eq_false_iff]
    intro htrue
    exact hnone links hnearest (List.mem_of_getLast? (hlast.mpr htrue))

/-- A topic that is included at one place and inherited further away. -/
theorem included_by_ways_nearer_include :
    let trigger : Trigger := { pattern := ⟨"*", [.wildcard .any], 0⟩ }
    let topics := (({} : Catalog).addTopic "a").1.addTopic "b" |>.1
    let c := (((topics.addInherit 0 1).addInclude 0 1).addTrigger 1 trigger).1
    (c.Built ∧ 0 < c.topics.size ∧ ⟨0, 1, 0, true⟩ ∈ c.reach 0) ∧ c.IncludedByWays 0 ⟨0, 1, 0, true⟩ := by
  intro trigger topics c
  have htopics : topics.Built := (Built.empty.addTopic "a").addTopic "b"
  have hc : c.Built := by
    refine ((htopics.addInherit ?_ ?_).addInclude ?_ ?_).addTrigger trigger ?_
    all_goals decide +kernel
  have hpos : 0 < c.topics.size := by decide +kernel
  have hmem : ⟨0, 1, 0, true⟩ ∈ c.reach 0 := by decide +kernel
  exact ⟨⟨hc, hpos, hmem⟩, included_by_ways hc hpos hmem⟩

/-- A topic is inherited, and included by another that is inherited: it is the order of the inherits that
decides whether it counts as included, though a nearest way takes no include. -/
theorem a_topic_inherited_after_its_includer_is_included :
    let trigger : Trigger := { pattern := ⟨"*", [.wildcard .any], 0⟩ }
    let topics := ((({} : Catalog).addTopic "t").1.addTopic "x").1.addTopic "y" |>.1
    let c := ((((topics.addInherit 0 1).addInherit 0 2).addInclude 1 2).addTrigger 2 trigger).1
    let d := ((((topics.addInherit 0 2).addInherit 0 1).addInclude 1 2).addTrigger 2 trigger).1
    (c.Built ∧ c.reach 0 = [⟨0, 2, 1, true⟩] ∧ c.Nearest 0 [.inherits] 2) ∧
      d.Built ∧ d.reach 0 = [⟨0, 2, 1, false⟩] ∧ d.Nearest 0 [.inherits] 2 := by
  intro trigger topics c d
  have htopics : topics.Built := ((Built.empty.addTopic "t").addTopic "x").addTopic "y"
  have hsize : topics.topics.size = 3 := by decide +kernel
  have hc : c.Built := by
    refine (((htopics.addInherit ?_ ?_).addInherit ?_ ?_).addInclude ?_ ?_).addTrigger trigger ?_
    all_goals simp [addInclude, addInherit, hsize]
  have hd : d.Built := by
    refine (((htopics.addInherit ?_ ?_).addInherit ?_ ?_).addInclude ?_ ?_).addTrigger trigger ?_
    all_goals simp [addInclude, addInherit, hsize]
  have hnearest : ∀ {c : Catalog}, c.Built → 0 < c.topics.size → 2 ∈ c.inheritsOf 0 →
      (∃ s ∈ c.stops 0, s.source = 2 ∧ s.depth = 1) → c.Nearest 0 [.inherits] 2 := by
    intro c hc hpos hmem hex
    obtain ⟨s, hs, hsource, hdepth⟩ := hex
    refine ⟨.inherits .here hmem, fun others hothers => ?_⟩
    have hle := (explored_stops (wellFormed_of_built hc) hpos).depth_le hs (hsource ▸ hothers)
    rwa [hdepth] at hle
  refine ⟨⟨hc, by decide +kernel, hnearest hc ?_ ?_ ?_⟩, hd, by decide +kernel, hnearest hd ?_ ?_ ?_⟩
  all_goals decide +kernel

end Catalog

end Repartee
