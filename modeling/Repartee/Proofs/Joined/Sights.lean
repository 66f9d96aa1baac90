/-
  Repartee.Proofs.Joined.Sights — searching without numbers.

  What a candidate is to a search is its trigger, the name of its topic, and how it was reached.
  Ranking and searching look at nothing else, so catalogs that hold the same under the same names
  rank and answer alike, whatever their numbers.

  Proved:
  - Ranking candidates ranks what they are (`seenRanking_rank`), and searching them finds by what
    they are (`seenFinding_search`).
  - Catalogs that hold the same offer the same from topics of one name (`map_sight_reach`).
-/

import Repartee.Catalog.Search
import Repartee.Proofs.Joined.Compiled
import Repartee.Proofs.Ranking
import Repartee.Proofs.Walks

namespace Repartee

/-- What a candidate is, numbers aside. -/
structure Sight where
  trigger : Option Trigger
  source : String
  depth : Nat
  included : Bool

/-- What a ranking is, numbers aside. -/
structure SeenRanking where
  constrained : List Sight
  ordinary : List Sight
  catchAll : Option Sight

/-- What a finding is, numbers aside. -/
structure SeenFinding where
  sight : Sight
  stars : List String
  botStars : List String
  usedPrevious : Bool
  tried : Nat

namespace Sight

def isConstrained (s : Sight) : Bool := s.trigger.any (·.previous.isSome)

def isBareStar (s : Sight) : Bool := s.trigger.any (·.pattern.isBareStar)

/-- The candidate of no number that is reached in the same way. -/
def reached (s : Sight) : Candidate := { trigger := 0, source := 0, depth := s.depth, included := s.included }

def keyed? (entry : Sight × Nat) : Option (RankKey × Sight) :=
  entry.1.trigger.map fun t => (rankKey t.pattern entry.1.reached entry.2, entry.1)

def ranked (entries : List (RankKey × Sight)) : List Sight :=
  (entries.mergeSort fun a b => (a.1.compare b.1).isLE).map (·.2)

def band (sights : List Sight) (constrained : Bool) : List (RankKey × Sight) :=
  (sights.zipIdx.filterMap keyed?).filter fun e => e.2.isConstrained == constrained

def rank (sights : List Sight) : SeenRanking :=
  { constrained := ranked (band sights true)
    ordinary := ranked (band sights false)
    catchAll := (ranked (band sights false)).find? isBareStar }

def fit (words : List String) (s : Sight) : Option (List String) := s.trigger.bind (·.pattern.align words)

def constrainedFit (words lastReply : List String) (s : Sight) : Option (List String × List String) := do
  let trigger ← s.trigger
  let previous ← trigger.previous
  let botStars ← previous.align lastReply
  let stars ← trigger.pattern.align words
  some (stars, botStars)

end Sight

def SeenRanking.size (r : SeenRanking) : Nat := r.constrained.length + r.ordinary.length

def SeenRanking.search (r : SeenRanking) (words lastReply : List String) : Option SeenFinding :=
  match firstFit (Sight.constrainedFit words lastReply) r.constrained with
  | some (n, sight, stars, botStars) =>
    some { sight, stars, botStars, usedPrevious := true, tried := n + 1 }
  | none =>
    match firstFit (Sight.fit words) r.ordinary with
    | some (n, sight, stars) =>
      some { sight, stars, botStars := [], usedPrevious := false, tried := r.constrained.length + n + 1 }
    | none =>
      r.catchAll.map fun sight =>
        { sight, stars := [Text.spaced words], botStars := [], usedPrevious := false, tried := r.size }

theorem map_firstFit {α β γ : Type} {fit : α → Option γ} {fit' : β → Option γ} {f : α → β}
    (h : ∀ a, fit a = fit' (f a)) (l : List α) :
    firstFit fit' (l.map f) = (firstFit fit l).map fun found => (found.1, f found.2.1, found.2.2) := by
  induction l with
  | nil => rfl
  | cons a l ih =>
    rw [List.map_cons, firstFit, firstFit, h a]
    cases fit' (f a) with
    | some b => rfl
    | none =>
      simp only [ih, Option.map_map]
      rfl

namespace Catalog

variable {c d : Catalog}

def sight (c : Catalog) (e : Candidate) : Sight :=
  { trigger := c.triggers[e.trigger]?.map Trigger.content
    source := c.topicName e.source
    depth := e.depth
    included := e.included }

def seenRanking (c : Catalog) (r : Ranking) : SeenRanking :=
  { constrained := r.constrained.map c.sight
    ordinary := r.ordinary.map c.sight
    catchAll := r.catchAll.map c.sight }

def seenFinding (c : Catalog) (f : Finding) : SeenFinding :=
  { sight := c.sight f.candidate
    stars := f.stars
    botStars := f.botStars
    usedPrevious := f.usedPrevious
    tried := f.tried }

/-! ## Ranking and searching -/

theorem isConstrained_sight (e : Candidate) : (c.sight e).isConstrained = c.isConstrained e := by
  rw [Sight.isConstrained, sight, isConstrained]
  cases c.triggers[e.trigger]? <;> rfl

theorem isBareStar_sight (e : Candidate) : (c.sight e).isBareStar = c.isBareStar e := by
  rw [Sight.isBareStar, sight, isBareStar]
  cases c.triggers[e.trigger]? <;> rfl

theorem fit_sight (words : List String) (e : Candidate) : c.fit words e = (c.sight e).fit words := by
  rw [Sight.fit, sight, fit]
  cases c.triggers[e.trigger]? <;> rfl

theorem constrainedFit_sight (words lastReply : List String) (e : Candidate) :
    c.constrainedFit words lastReply e = (c.sight e).constrainedFit words lastReply := by
  rw [Sight.constrainedFit, sight, constrainedFit]
  cases c.triggers[e.trigger]? <;> rfl

/-- Entries with keys, and what they are. -/
def seenEntry (c : Catalog) (entry : RankKey × Candidate) : RankKey × Sight := (entry.1, c.sight entry.2)

theorem map_sight_ranked (entries : List (RankKey × Candidate)) :
    (ranked entries).map c.sight = Sight.ranked (entries.map c.seenEntry) := by
  have hsort := List.map_mergeSort (f := c.seenEntry) (l := entries) (r := fun a b => (a.1.compare b.1).isLE)
    (s := fun a b => (a.1.compare b.1).isLE) fun _ _ _ _ => rfl
  rw [ranked, Sight.ranked, ← hsort, List.map_map, List.map_map]
  rfl

theorem map_seenEntry_keyed? (entry : Candidate × Nat) :
    (c.keyed? entry).map c.seenEntry = Sight.keyed? (c.sight entry.1, entry.2) := by
  cases ht : c.triggers[entry.1.trigger]? with
  | none => simp [keyed?, Sight.keyed?, sight, ht]
  | some t =>
    simp only [keyed?, Sight.keyed?, seenEntry, sight, ht, Option.map_some]
    rfl

theorem map_seenEntry_band (pool : List Candidate) (constrained : Bool) :
    (c.band pool constrained).map c.seenEntry = Sight.band (pool.map c.sight) constrained := by
  have hside : ∀ e : RankKey × Candidate, (c.isConstrained e.2 == constrained) =
      ((c.seenEntry e).2.isConstrained == constrained) := fun e => by rw [seenEntry, isConstrained_sight]
  have hzip : (pool.map c.sight).zipIdx = pool.zipIdx.map fun entry => (c.sight entry.1, entry.2) := by
    rw [List.zipIdx_map]
    rfl
  rw [band, Sight.band, hzip, List.filterMap_map, List.filter_congr fun e _ => hside e]
  change ((pool.zipIdx.filterMap c.keyed?).filter ((fun e => e.2.isConstrained == constrained) ∘ c.seenEntry)).map _ = _
  rw [← List.filter_map, List.map_filterMap]
  congr 2
  funext entry
  exact map_seenEntry_keyed? entry

/-- Ranking candidates ranks what they are. -/
theorem seenRanking_rank (c : Catalog) (pool : List Candidate) :
    c.seenRanking (c.rank pool) = Sight.rank (pool.map c.sight) := by
  have hstar : Sight.isBareStar ∘ c.sight = c.isBareStar := funext isBareStar_sight
  rw [rank_eq, seenRanking, Sight.rank, ← map_seenEntry_band, ← map_seenEntry_band, ← map_sight_ranked,
    ← map_sight_ranked, List.find?_map, hstar]

/-- Searching candidates finds by what they are. -/
theorem seenFinding_search (c : Catalog) (r : Ranking) (words lastReply : List String) :
    (c.search r words lastReply).map c.seenFinding = (c.seenRanking r).search words lastReply := by
  rw [search, SeenRanking.search, seenRanking, map_firstFit (constrainedFit_sight words lastReply) r.constrained]
  cases firstFit (c.constrainedFit words lastReply) r.constrained with
  | some found => rfl
  | none =>
    simp only [map_firstFit (fit_sight words) r.ordinary]
    cases firstFit (c.fit words) r.ordinary with
    | some found => simp [seenFinding]
    | none =>
      simp only [Option.map_none, Option.map_map, SeenRanking.size, List.length_map]
      rfl

/-! ## Catalogs that hold the same -/

/-- Topics of one name. -/
def Namesakes (c d : Catalog) (t u : TopicId) : Prop := ∃ name, c.At t name ∧ d.At u name

theorem map_sight_candidates (hc : c.WellFormed) {t : TopicId} {name : String} (ht : c.At t name) (depth : Nat)
    (included : Bool) :
    (c.candidates t depth included).map c.sight =
      (c.held name).triggers.map fun v => { trigger := some v, source := name, depth, included } := by
  rw [hc.held_eq ht, heldAt, contents, candidates, List.map_map, List.map_filterMap, ← List.filterMap_eq_map]
  refine List.filterMap_congr fun id hid => ?_
  obtain ⟨v, hv, -⟩ := hc.listed_own hid
  simp only [Function.comp_apply, sight, hv, ht.topicName, Option.map_some]

theorem forall₂_namesakes {ts us : List TopicId} (hts : ∀ t ∈ ts, t < c.topics.size) (hus : ∀ u ∈ us, u < d.topics.size)
    (heq : ts.map c.topicName = us.map d.topicName) : List.Forall₂ (Namesakes c d) ts us := by
  induction ts generalizing us with
  | nil =>
    rw [List.map_nil, eq_comm, List.map_eq_nil_iff] at heq
    rw [heq]
    exact .nil
  | cons t ts ih =>
    rw [List.map_cons, eq_comm] at heq
    obtain ⟨u, us, rfl, hname, hrest⟩ := List.map_eq_cons_iff.mp heq
    rw [List.forall_mem_cons] at hts hus
    exact .cons ⟨c.topicName t, at_topicName hts.1, hname ▸ at_topicName hus.1⟩ (ih hts.2 hus.2 hrest.symm)

section Same

variable (h : Rulebook.SameHeld c d)

include h

theorem matches_of_sameHeld : c.Matches d (fun e => [c.sight e]) (fun e => [d.sight e]) (Namesakes c d) := by
  have hheld : ∀ {t u : TopicId} {name : String}, c.At t name → d.At u name → c.heldAt t = d.heldAt u := by
    intro t u name ht hu
    rw [← h.left.held_eq ht, ← h.right.held_eq hu, h.held]
  refine ⟨fun {t u t' u'} hn hn' => ?_, fun {t u} hn => ?_, fun {t u} hn => ?_, fun {t u} hn depth included => ?_⟩
  · obtain ⟨name, ht, hu⟩ := hn
    obtain ⟨name', ht', hu'⟩ := hn'
    constructor
    · rintro rfl
      obtain rfl : name = name' := ht.topicName.symm.trans ht'.topicName
      exact h.right.at_unique hu hu'
    · rintro rfl
      obtain rfl : name = name' := hu.topicName.symm.trans hu'.topicName
      exact h.left.at_unique ht ht'
  · obtain ⟨name, ht, hu⟩ := hn
    exact forall₂_namesakes (fun v hv => h.left.lt_of_edge (.inl hv)) (fun v hv => h.right.lt_of_edge (.inl hv))
      (congrArg Held.includes (hheld ht hu))
  · obtain ⟨name, ht, hu⟩ := hn
    exact forall₂_namesakes (fun v hv => h.left.lt_of_edge (.inr hv)) (fun v hv => h.right.lt_of_edge (.inr hv))
      (congrArg Held.inherits (hheld ht hu))
  · obtain ⟨name, ht, hu⟩ := hn
    rw [← List.map_eq_flatMap, ← List.map_eq_flatMap, map_sight_candidates h.left ht, map_sight_candidates h.right hu,
      h.held]

/-- From topics of one name, the same is offered in the same order. -/
theorem map_sight_reach {t u : TopicId} (hn : Namesakes c d t u) :
    (c.reach t).map c.sight = (d.reach u).map d.sight := by
  rw [List.map_eq_flatMap, List.map_eq_flatMap]
  refine reach_flatMap (matches_of_sameHeld h) (fun {t u} hn => ?_) hn
  obtain ⟨name, ht, hu⟩ := hn
  exact iff_of_true ht.lt hu.lt

theorem seenRanking_reach {t u : TopicId} (hn : Namesakes c d t u) :
    c.seenRanking (c.rank (c.reach t)) = d.seenRanking (d.rank (d.reach u)) := by
  rw [seenRanking_rank, seenRanking_rank, map_sight_reach h hn]

end Same

end Catalog

end Repartee
