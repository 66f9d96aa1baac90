/-
  Repartee.Proofs.Lookups — names and numbers lead to what they stand for.

  Topics and triggers are kept in arrays and known by their places in them, and a topic is also known
  by its name. Whatever calls made a catalog, each number in one of its lists and each name of one of
  its topics leads somewhere, and each trigger is listed by the topic it names and by no other. So the
  rules that were compiled from scripts have a trigger for every candidate and a ranking for every
  topic, and a turn never looks up what is not there.

  Proved:
  - A table of names kept beside the topics says what a search through them says (`agrees_edit`,
    `agrees_made`).
  - Every call keeps lists free of repeats and triggers listed (`edgesOnce_edit`, `placed_edit`), so
    every catalog that was built is linked (`linked_of_built`).
  - What scripts compile to was built (`built_of_build`), and its candidates, rankings and searches
    lead to triggers that are there (`lookups_succeed`).
-/

import Repartee.Proofs.Edits
import Repartee.Proofs.Pools
import Repartee.Proofs.Searches

namespace Repartee

namespace Catalog

variable {c d : Catalog} {e : Edit} {edits : List Edit} {t u other : TopicId}

/-- Names and numbers of the catalog lead to what they stand for. -/
structure Linked (c : Catalog) : Prop where
  /-- A name leads to a number exactly if the topic of that number has the name. -/
  names : ∀ name t, c.topicId? name = some t ↔ c.At t name
  edges : ∀ t, ∀ u ∈ c.includesOf t ++ c.inheritsOf t, u < c.topics.size
  edgesOnce : ∀ t, (c.includesOf t).Nodup ∧ (c.inheritsOf t).Nodup
  listed : ∀ t, ∀ id ∈ c.ownTriggers t, id < c.triggers.size
  listedOnce : ∀ t, (c.ownTriggers t).Nodup
  /-- A trigger is listed by the topic that it names, which is there, and by no other. -/
  placed : ∀ id v, c.triggers[id]? = some v → v.topic < c.topics.size ∧ ∀ t, id ∈ c.ownTriggers t ↔ t = v.topic

/-! ## Names -/

/-- A catalog, and beside it a table of the names of its topics. -/
structure Indexed where
  catalog : Catalog := {}
  byName : Dict TopicId := ∅

namespace Indexed

/-- The topic that the table has under the name, added at the end if it has none. -/
def addTopic (x : Indexed) (name : String) : Indexed × TopicId :=
  match x.byName.find? name with
  | some t => (x, t)
  | none =>
    let t := x.catalog.topics.size
    ({ catalog := { x.catalog with topics := x.catalog.topics.push { name } }, byName := x.byName.put name t }, t)

def edit (x : Indexed) : Edit → Indexed
  | .addTopic name => (x.addTopic name).1
  | e => { x with catalog := x.catalog.edit e }

def made (edits : List Edit) : Indexed := edits.foldl edit {}

/-- It is this catalog, and the table has the topics that are found by going through them. -/
structure Agrees (x : Indexed) (c : Catalog) : Prop where
  catalog : x.catalog = c
  byName : ∀ name, x.byName.find? name = c.topicId? name

end Indexed

theorem topicId?_congr (hnames : ∀ u : TopicId, d.topics[u]?.map (·.name) = c.topics[u]?.map (·.name)) (name : String) :
    d.topicId? name = c.topicId? name := by
  have hno : ∀ u : TopicId, (∀ topic : Topic, d.topics[u]? = some topic → topic.name ≠ name) ↔
      ∀ topic : Topic, c.topics[u]? = some topic → topic.name ≠ name := by
    intro u
    have hat := not_congr (at_congr hnames u name)
    simpa only [At, not_exists, not_and] using hat
  refine Option.ext fun t => ?_
  rw [topicId?_eq_some_iff, topicId?_eq_some_iff]
  exact and_congr (at_congr hnames t name) (forall₂_congr fun u _ => hno u)

/-- A call leaves the names of the topics, but for one that adds a topic. -/
theorem names_edit (hadd : ∀ name, e ≠ .addTopic name) (c : Catalog) (u : TopicId) :
    (c.edit e).topics[u]?.map (·.name) = c.topics[u]?.map (·.name) := by
  cases e with
  | addTopic name => exact absurd rfl (hadd name)
  | addTrigger t trigger =>
    cases hkey : c.triggerWithKey? t trigger.key with
    | some id =>
      rw [edit, addTrigger, hkey]
    | none => exact read_of_modify (fun _ => getElem?_addTrigger hkey) (fun _ => rfl) u
  | addInclude t other => exact read_of_modify (fun _ => getElem?_addInclude other) (fun _ => rfl) u
  | addInherit t other => exact read_of_modify (fun _ => getElem?_addInherit other) (fun _ => rfl) u

theorem topicId?_addTopic (hc : c.WellFormed) {name : String} (hid : c.topicId? name = none) (other : String) :
    (c.addTopic name).1.topicId? other = if other = name then some c.topics.size else c.topicId? other := by
  have hd := hc.addTopic name
  have hat := at_addTopic hid
  by_cases hname : other = name
  · rw [if_pos hname]
    exact hd.topicId? ((hat _ _).mpr (.inr ⟨rfl, hname⟩))
  · rw [if_neg hname]
    refine Option.ext fun t => ?_
    constructor
    · intro ht
      rcases (hat t other).mp (at_of_topicId? ht) with hold | ⟨-, hnew⟩
      · exact hc.topicId? hold
      · exact absurd hnew hname
    · intro ht
      exact hd.topicId? ((hat t other).mpr (.inl (at_of_topicId? ht)))

open Indexed (Agrees)

/-- Looking a name up in the table is looking for the topic. -/
theorem agrees_edit {x : Indexed} (h : x.Agrees c) (hc : c.WellFormed) (e : Edit) : (x.edit e).Agrees (c.edit e) := by
  obtain ⟨rfl, hnames⟩ := h
  by_cases hadd : ∃ name, e = .addTopic name
  · obtain ⟨name, rfl⟩ := hadd
    rw [Indexed.edit, Indexed.addTopic, hnames, edit]
    cases hid : x.catalog.topicId? name with
    | some t =>
      rw [addTopic_of_mem hid]
      exact ⟨rfl, hnames⟩
    | none =>
      refine ⟨by rw [Catalog.addTopic, hid], fun other => ?_⟩
      rw [topicId?_addTopic hc hid, ← hnames]
      exact Dict.find?_put ..
  · have hother : ∀ name, e ≠ .addTopic name := fun name heq => hadd ⟨name, heq⟩
    have hedit : x.edit e = { x with catalog := x.catalog.edit e } := by
      cases e with
      | addTopic name => exact absurd rfl (hother name)
      | _ => rfl
    rw [hedit]
    exact ⟨rfl, fun name => (hnames name).trans (topicId?_congr (names_edit hother _) name).symm⟩

theorem agrees_made (h : Proper edits) : (Indexed.made edits).Agrees (made edits) := by
  induction h with
  | nil => exact ⟨rfl, fun name => by simp [Indexed.made, made, topicId?]⟩
  | @snoc edits e hproper _ ih =>
    rw [made_snoc, Indexed.made, List.foldl_append]
    exact agrees_edit ih (wellFormed_of_built hproper.built) e

/-! ## Lists -/

theorem nodup_pushUnique {ids : List TopicId} (h : ids.Nodup) (id : TopicId) : (pushUnique ids id).Nodup := by
  rw [pushUnique]
  split
  · exact h
  · rename_i hnew
    refine List.nodup_append.mpr ⟨h, List.pairwise_singleton _ _, fun i hi j hj heq => hnew ?_⟩
    rw [List.contains_iff_mem, ← List.mem_singleton.mp hj, ← heq]
    exact hi

/-- No topic includes or inherits another twice. -/
def EdgesOnce (c : Catalog) : Prop := ∀ t, (c.includesOf t).Nodup ∧ (c.inheritsOf t).Nodup

theorem nodup_of_modify {f : Topic → Topic} {g : Topic → List TopicId}
    (hmodify : ∀ v : TopicId, d.topics[v]? = if t = v then c.topics[v]?.map f else c.topics[v]?)
    (hf : ∀ topic, g (f topic) = pushUnique (g topic) other) (h : ((c.topics[u]?.map g).getD []).Nodup) :
    ((d.topics[u]?.map g).getD []).Nodup := by
  rw [hmodify]
  by_cases htu : t = u
  · rw [if_pos htu]
    cases htopic : c.topics[u]? with
    | none => exact List.nodup_nil
    | some topic =>
      rw [htopic] at h
      rw [Option.map_some, Option.map_some, Option.getD_some, hf]
      exact nodup_pushUnique h other
  · rwa [if_neg htu]

theorem edgesOnce_edit (h : c.EdgesOnce) (e : Edit) : (c.edit e).EdgesOnce := by
  intro u
  cases e with
  | addTopic name =>
    rw [edit, includesOf, inheritsOf, lists_addTopic rfl, lists_addTopic rfl]
    exact h u
  | addTrigger t trigger =>
    cases hkey : c.triggerWithKey? t trigger.key with
    | some id =>
      rw [edit, addTrigger, hkey]
      exact h u
    | none =>
      obtain ⟨hincludes, hinherits⟩ := edges_addTrigger hkey u
      rw [edit, hincludes, hinherits]
      exact h u
  | addInclude t other =>
    have hinherits := read_of_modify (g := Topic.inherits) (fun _ => getElem?_addInclude (c := c) (t := t) other)
      (fun _ => rfl) u
    refine ⟨nodup_of_modify (fun _ => getElem?_addInclude other) (fun _ => rfl) (h u).1, ?_⟩
    rw [edit, inheritsOf, hinherits]
    exact (h u).2
  | addInherit t other =>
    have hincludes := read_of_modify (g := Topic.includes) (fun _ => getElem?_addInherit (c := c) (t := t) other)
      (fun _ => rfl) u
    refine ⟨?_, nodup_of_modify (fun _ => getElem?_addInherit other) (fun _ => rfl) (h u).2⟩
    rw [edit, includesOf, hincludes]
    exact (h u).1

/-- Every trigger is listed by the topic that it names. -/
def Placed (c : Catalog) : Prop := ∀ {id : TriggerId} {v : Trigger}, c.triggers[id]? = some v → id ∈ c.ownTriggers v.topic

theorem placed_addTrigger (h : c.Placed) (ht : t < c.topics.size) (trigger : Trigger) :
    (c.addTrigger t trigger).1.Placed := by
  intro id v hv
  cases hkey : c.triggerWithKey? t trigger.key with
  | some holder =>
    rw [addTrigger, hkey] at hv ⊢
    rw [Array.getElem?_modify] at hv
    by_cases hid : holder = id
    · rw [if_pos hid] at hv
      obtain ⟨old, hold, rfl⟩ := Option.map_eq_some_iff.mp hv
      show id ∈ c.ownTriggers old.topic
      exact h hold
    · rw [if_neg hid] at hv
      exact h hv
  | none =>
    rw [triggers_addTrigger hkey, Array.getElem?_push] at hv
    by_cases hid : id = c.triggers.size
    · rw [if_pos hid] at hv
      cases hv
      rw [ownTriggers_addTrigger hkey ht, if_pos rfl, hid]
      exact List.mem_append_right _ List.mem_cons_self
    · rw [if_neg hid] at hv
      exact ((extends_addTrigger c t trigger).lists v.topic).subset (h hv)

theorem placed_edit (h : c.Placed) (htakes : ∀ t ∈ e.takes, t < c.topics.size) : (c.edit e).Placed := by
  rcases e.adds_or_none with ⟨t, trigger, rfl⟩ | hnone
  · exact placed_addTrigger h (htakes t (by simp [Edit.takes])) trigger
  · intro id v hv
    obtain ⟨hown, htriggers⟩ := ownTriggers_edit hnone c v.topic
    rw [htriggers] at hv
    rw [hown]
    exact h hv

theorem lt_of_mem_ownTriggers {id : TriggerId} (h : id ∈ c.ownTriggers t) : t < c.topics.size := by
  by_contra hout
  rw [ownTriggers, Array.getElem?_eq_none (Nat.not_lt.mp hout)] at h
  exact List.not_mem_nil h

theorem linked_of_built (h : c.Built) : c.Linked := by
  have hwell := wellFormed_of_built h
  obtain ⟨edits, hproper, rfl⟩ := exists_proper_of_built h
  have hkept : (made edits).EdgesOnce ∧ (made edits).Placed := by
    clear h hwell
    induction hproper with
    | nil => exact ⟨fun _ => ⟨List.nodup_nil, List.nodup_nil⟩, fun hv => by simp [made] at hv⟩
    | snoc _ htakes ih =>
      rw [made_snoc]
      exact ⟨edgesOnce_edit ih.1 _, placed_edit ih.2 fun t ht => (htakes t ht).lt⟩
  refine ⟨fun name t => ⟨at_of_topicId?, hwell.topicId?⟩, fun t u hu => hwell.lt_of_edge (List.mem_append.mp hu),
    hkept.1, fun t id hid => ?_, hwell.once_own, fun id v hv => ?_⟩
  · obtain ⟨v, hv, -⟩ := hwell.listed_own hid
    exact (Array.getElem?_eq_some_iff.mp hv).1
  · have hplaced := hkept.2 hv
    refine ⟨lt_of_mem_ownTriggers hplaced, fun t => ⟨fun hid => ?_, fun heq => heq ▸ hplaced⟩⟩
    obtain ⟨w, hw, htopic⟩ := hwell.listed_own hid
    cases hv.symm.trans hw
    exact htopic.symm

/-! ## Candidates -/

/-- The candidate is a trigger of a topic, both there. -/
def Leads (c : Catalog) (e : Candidate) : Prop :=
  e.source < c.topics.size ∧ ∃ v, c.triggers[e.trigger]? = some v ∧ v.topic = e.source

theorem WellFormed.leads_of_mem_reach (hc : c.WellFormed) {e : Candidate} (h : e ∈ c.reach t) : c.Leads e := by
  rw [reach_eq_flatMap_stops, List.mem_flatMap] at h
  obtain ⟨s, -, hmem⟩ := h
  obtain ⟨id, hid, rfl⟩ := List.mem_map.mp hmem
  exact ⟨lt_of_mem_ownTriggers hid, hc.listed_own hid⟩

/-- All that a ranking holds comes from the pool. -/
theorem mem_of_rank {pool : List Candidate} {e : Candidate}
    (h : e ∈ (c.rank pool).constrained ++ (c.rank pool).ordinary ++ (c.rank pool).catchAll.toList) : e ∈ pool := by
  have hband : ∀ constrained, e ∈ ranked (c.band pool constrained) → e ∈ pool := by
    intro constrained hmem
    obtain ⟨n, t, hoffers, -⟩ := mem_ranked_band.mp hmem
    exact List.mem_of_getElem? hoffers.1
  rw [rank_eq, List.mem_append, List.mem_append, Option.mem_toList] at h
  rcases h with (h | h) | h
  · exact hband true h
  · exact hband false h
  · exact hband false (List.mem_of_find?_eq_some h)

theorem mem_of_search {pool : List Candidate} {words lastReply : List String} {f : Finding}
    (h : c.search (c.rank pool) words lastReply = some f) : f.candidate ∈ pool := by
  rcases search_cases c pool words lastReply with
    ⟨n, t, g, hfound, hbest, -⟩ | ⟨-, ⟨n, t, g, hfound, hbest, -⟩ | ⟨hnone, -⟩⟩
  · cases h.symm.trans hfound
    exact List.mem_of_getElem? hbest.offers.1
  · cases h.symm.trans hfound
    exact List.mem_of_getElem? hbest.offers.1
  · cases h.symm.trans hnone

end Catalog

namespace Rulebook

open Catalog

variable {punctuation : Regex} {settings : Settings} {scripts : List Script} {r : Rulebook}

/-! ## What scripts compile to -/

/-- An edge to each of the named topics, where adding one edge keeps the catalog built and the topic in it. -/
theorem built_addEdges {f : Catalog → TopicId → TopicId → Catalog} {t : TopicId}
    (hf : ∀ {c u}, Built c → t < c.topics.size → u < c.topics.size → (f c t u).Built ∧ t < (f c t u).topics.size)
    {c : Catalog} (h : c.Built ∧ t < c.topics.size) (names : List String) :
    (addEdges f t c names).Built ∧ t < (addEdges f t c names).topics.size := by
  refine List.foldlRecOn (motive := fun c : Catalog => c.Built ∧ t < c.topics.size) names _ h fun c hc name _ => ?_
  have hkept := Nat.lt_of_lt_of_le hc.2 (size_le_addTopic name)
  exact hf (hc.1.addTopic name) hkept (at_snd_addTopic c name).lt

theorem built_declare {c : Catalog} (h : c.Built) (scope : Pattern.Scope) (topic : Script.Topic) :
    (declare scope c topic).Built := by
  have htopic : (c.addTopic topic.name).1.Built ∧ (c.addTopic topic.name).2 < (c.addTopic topic.name).1.topics.size :=
    ⟨h.addTopic topic.name, (at_snd_addTopic c topic.name).lt⟩
  have hincludes := built_addEdges (f := addInclude)
    (fun hc ht hu => ⟨hc.addInclude ht hu, by simpa [addInclude] using ht⟩) htopic topic.includes
  have hinherits := built_addEdges (f := addInherit)
    (fun hc ht hu => ⟨hc.addInherit ht hu, by simpa [addInherit] using ht⟩) hincludes topic.inherits
  have htriggers := List.foldlRecOn
    (motive := fun d : Catalog => d.Built ∧ (c.addTopic topic.name).2 < d.topics.size)
    (topic.triggers.filterMap (compiled? scope)) (fun d v => (d.addTrigger (c.addTopic topic.name).2 v).1) hinherits
    fun d hd v _ => ⟨hd.1.addTrigger v hd.2, Nat.lt_of_lt_of_le hd.2 (size_le_edit d (.addTrigger _ v))⟩
  exact htriggers.1

theorem built_of_build (h : build punctuation settings scripts = .ok r) : r.catalog.Built := by
  obtain ⟨catalog, hcatalog, rfl⟩ := build_eq_ok.mp h
  obtain ⟨-, rfl⟩ := catalogOf_eq_ok.mp hcatalog
  rw [← List.foldl_flatMap]
  exact List.foldlRecOn (motive := Catalog.Built) _ _ (Built.empty.addTopic homeTopic)
    fun _ hc topic _ => built_declare hc _ topic

/-! ## What a turn looks up -/

/-- All that is looked up in the rules is there. -/
structure Linked (r : Rulebook) : Prop where
  catalog : r.catalog.Linked
  home : ∃ t, r.catalog.At t homeTopic
  /-- A topic has a ranking, found by its number and by its name. -/
  ranked : ∀ t name, r.catalog.At t name → ∃ ranking, r.rankings[t]? = some ranking ∧ r.ranking? name = some ranking
  pools : ∀ t, ∀ e ∈ r.catalog.reach t, r.catalog.Leads e
  bands : ∀ (t : TopicId) ranking, r.rankings[t]? = some ranking →
    ∀ e ∈ ranking.constrained ++ ranking.ordinary ++ ranking.catchAll.toList, r.catalog.Leads e
  found : ∀ name ranking words lastReply f, r.ranking? name = some ranking →
    r.catalog.search ranking words lastReply = some f → r.catalog.Leads f.candidate
  /-- A search goes through a ranking. -/
  searched : ∀ s : Scene, s.rules = r → ∀ depth text (t : Turn), ∃ ranking,
    r.ranking? (t.settled r).user.topic = some ranking ∧
      (Turn.find s depth text).run t = (Turn.searchIn s ranking depth text).run (t.settled r)

theorem Ready.linked (h : r.Ready) (hbuilt : r.catalog.Built) : r.Linked := by
  have hwell := wellFormed_of_built hbuilt
  refine ⟨linked_of_built hbuilt, ?_, fun t name hat => ?_, fun t e => hwell.leads_of_mem_reach,
    fun t ranking hranking e he => ?_, fun name ranking words lastReply f hranking hfound => ?_, ?_⟩
  · obtain ⟨t, ht⟩ := h.home
    exact ⟨t, at_of_topicId? ht⟩
  · refine ⟨_, ?_, by rw [ranking?_of_rankAll h.ranked, hwell.topicId? hat, Option.map_some]⟩
    rw [h.ranked]
    exact (reach_exact hbuilt hat.lt).2
  · rw [h.ranked, rankAll, Array.getElem?_map, Option.map_eq_some_iff] at hranking
    obtain ⟨t, -, rfl⟩ := hranking
    exact hwell.leads_of_mem_reach (mem_of_rank he)
  · rw [ranking?_of_rankAll h.ranked, Option.map_eq_some_iff] at hranking
    obtain ⟨t, -, rfl⟩ := hranking
    exact hwell.leads_of_mem_reach (mem_of_search hfound)
  · rintro s rfl depth text t
    exact Turn.exists_search h depth text t

/-- The rules of a bot are linked whatever was loaded. -/
theorem linked_of_consistent {b : Bot} (h : Bot.Consistent settings b) : b.rules.Linked := by
  refine h.ready.linked ?_
  rcases h.rules with hbuild | ⟨-, hempty⟩
  · exact built_of_build hbuild
  · rw [hempty]
    exact Built.empty.addTopic homeTopic

/-- Whatever calls make a catalog and whatever scripts are compiled, a name or number taken from there leads
to what it stands for. -/
theorem lookups_succeed :
    (∀ edits, Proper edits → (made edits).Linked ∧ (Indexed.made edits).Agrees (made edits)) ∧
    (∀ punctuation settings scripts r, build punctuation settings scripts = .ok r →
      (∃ edits, Proper edits ∧ made edits = r.catalog) ∧ r.Linked) := by
  constructor
  · intro edits h
    exact ⟨linked_of_built h.built, agrees_made h⟩
  · intro punctuation settings scripts r h
    exact ⟨exists_proper_of_built (built_of_build h), (ready_of_build h).linked (built_of_build h)⟩

/-- Topics that include and inherit each other, and scripts that declare such. -/
theorem lookups_succeed_in_a_circle :
    let trigger : Trigger := { pattern := ⟨"*", [.wildcard .any], 0⟩ }
    let edits : List Edit := [.addTopic "a", .addTopic "b", .addTopic "a", .addInclude 0 1, .addInclude 0 1,
      .addInherit 1 0, .addTrigger 1 trigger]
    let scripts : List Script := [{ origin := "a", topics := [
      { name := "b", line := 0, includes := ["c"], triggers := [{ pattern := ⟨"hello", 1⟩ }] },
      { name := "c", line := 2, inherits := ["b", homeTopic], triggers := [{ pattern := ⟨"*", 3⟩ }] }] }]
    (Proper edits ∧ (made edits).Linked ∧ (Indexed.made edits).Agrees (made edits)) ∧
      ∃ r, build Lexicon.standardPunctuation {} scripts = .ok r ∧ r.catalog.topics.size = 3 ∧
        (∃ edits, Proper edits ∧ made edits = r.catalog) ∧ r.Linked := by
  intro trigger edits scripts
  have htopics : Proper [.addTopic "a", .addTopic "b", .addTopic "a"] :=
    (((Proper.nil.snoc_of_lt (by decide)).1.snoc_of_lt (by decide)).1.snoc_of_lt (by decide)).1
  have hproper : Proper edits :=
    ((((htopics.snoc_of_lt (e := .addInclude 0 1) (by decide +kernel)).1.snoc_of_lt
      (e := .addInclude 0 1) (by decide +kernel)).1.snoc_of_lt (e := .addInherit 1 0) (by decide +kernel)).1.snoc_of_lt
      (e := .addTrigger 1 trigger) (by decide +kernel)).1
  obtain ⟨r, hr, hsize⟩ : ∃ r, build Lexicon.standardPunctuation {} scripts = .ok r ∧ r.catalog.topics.size = 3 :=
    exists_ok_of_any (by decide +kernel)
  exact ⟨⟨hproper, lookups_succeed.1 edits hproper⟩, r, hr, hsize, lookups_succeed.2 _ _ _ r hr⟩

end Rulebook

end Repartee
