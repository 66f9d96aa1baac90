/-
  Repartee.Proofs.Arena — catalogs refer to topics and triggers that exist.

  Topics and triggers refer to each other by number. In a catalog that was built by adding
  topics, triggers, includes and inherits, every number leads somewhere, no two topics have one
  name, and a trigger is listed once, by the topic it belongs to.

  Proved:
  - What each operation does to the topics (`getElem?_addTopic`, `getElem?_addTrigger`,
    `getElem?_addInclude`, `getElem?_addInherit`).
  - Every catalog that was built is well formed (`wellFormed_of_built`).
  - What a topic has after a new trigger (`ownTriggers_addTrigger`, `edges_addTrigger`).
-/

import Repartee.Catalog.Basic

namespace Repartee

namespace Catalog

/-- The catalog was made by the operations, on topics that were there. -/
inductive Built : Catalog → Prop
  | empty : Built {}
  | addTopic {c : Catalog} (name : String) : Built c → Built (c.addTopic name).1
  | addTrigger {c : Catalog} {t : TopicId} (trigger : Trigger) : Built c → t < c.topics.size →
      Built (c.addTrigger t trigger).1
  | addInclude {c : Catalog} {t other : TopicId} : Built c → t < c.topics.size → other < c.topics.size →
      Built (c.addInclude t other)
  | addInherit {c : Catalog} {t other : TopicId} : Built c → t < c.topics.size → other < c.topics.size →
      Built (c.addInherit t other)

/-- Numbers lead somewhere, and names and triggers are had by one topic only. -/
structure WellFormed (c : Catalog) : Prop where
  names : ∀ {t u : TopicId} {topic other : Topic}, c.topics[t]? = some topic → c.topics[u]? = some other →
    topic.name = other.name → t = u
  listed : ∀ {t : TopicId} {topic : Topic}, c.topics[t]? = some topic → ∀ id ∈ topic.triggers,
    ∃ trigger, c.triggers[id]? = some trigger ∧ trigger.topic = t
  once : ∀ {t : TopicId} {topic : Topic}, c.topics[t]? = some topic → topic.triggers.Nodup
  edges : ∀ {t : TopicId} {topic : Topic}, c.topics[t]? = some topic →
    ∀ other ∈ topic.includes ++ topic.inherits, other < c.topics.size

/-! ## What the operations do to the topics -/

section Operations

variable {c : Catalog} {t u : TopicId}

theorem topicId?_eq_some_iff {name : String} :
    c.topicId? name = some t ↔ (∃ topic, c.topics[t]? = some topic ∧ topic.name = name) ∧
      ∀ u < t, ∀ topic : Topic, c.topics[u]? = some topic → topic.name ≠ name := by
  rw [topicId?, Array.findIdx?_eq_some_iff_getElem]
  constructor
  · intro hex
    obtain ⟨ht, hname, hbefore⟩ := hex
    refine ⟨⟨c.topics[t], Array.getElem?_eq_getElem ht, by simpa using hname⟩, fun u hu topic htopic => ?_⟩
    obtain ⟨_, rfl⟩ := Array.getElem?_eq_some_iff.mp htopic
    simpa using hbefore u hu
  · intro ⟨⟨topic, htopic, hname⟩, hbefore⟩
    obtain ⟨ht, rfl⟩ := Array.getElem?_eq_some_iff.mp htopic
    refine ⟨ht, by simpa using hname, fun u hu => ?_⟩
    simpa using hbefore u hu _ (Array.getElem?_eq_getElem (Nat.lt_trans hu ht))

theorem topicId?_eq_none_iff {name : String} :
    c.topicId? name = none ↔ ∀ (u : TopicId) (topic : Topic), c.topics[u]? = some topic → topic.name ≠ name := by
  simp only [topicId?, Array.findIdx?_eq_none_iff, decide_eq_false_iff_not]
  constructor
  · intro h u topic htopic
    exact h topic (Array.mem_of_getElem? htopic)
  · intro h topic hmem
    obtain ⟨u, htopic⟩ := Array.mem_iff_getElem?.mp hmem
    exact h u topic htopic

theorem addTopic_of_mem {name : String} (h : c.topicId? name = some t) : c.addTopic name = (c, t) := by
  rw [addTopic, h]

theorem getElem?_addTopic {name : String} (h : c.topicId? name = none) :
    (c.addTopic name).1.topics[u]? = if u = c.topics.size then some { name } else c.topics[u]? := by
  rw [addTopic, h]
  exact Array.getElem?_push

theorem size_le_addTopic (name : String) : c.topics.size ≤ (c.addTopic name).1.topics.size := by
  rw [addTopic]
  cases c.topicId? name with
  | some t => exact Nat.le_refl _
  | none => simp

theorem getElem?_addInclude (other : TopicId) :
    (c.addInclude t other).topics[u]? =
      if t = u then c.topics[u]?.map fun topic => { topic with includes := pushUnique topic.includes other }
      else c.topics[u]? := by
  rw [addInclude, Array.getElem?_modify]

theorem getElem?_addInherit (other : TopicId) :
    (c.addInherit t other).topics[u]? =
      if t = u then c.topics[u]?.map fun topic => { topic with inherits := pushUnique topic.inherits other }
      else c.topics[u]? := by
  rw [addInherit, Array.getElem?_modify]

theorem getElem?_addTrigger {trigger : Trigger} (h : c.triggerWithKey? t trigger.key = none) :
    (c.addTrigger t trigger).1.topics[u]? =
      if t = u then c.topics[u]?.map fun topic => { topic with triggers := topic.triggers ++ [c.triggers.size] }
      else c.topics[u]? := by
  rw [addTrigger, h]
  exact Array.getElem?_modify

theorem triggers_addTrigger {trigger : Trigger} (h : c.triggerWithKey? t trigger.key = none) :
    (c.addTrigger t trigger).1.triggers = c.triggers.push { trigger with topic := t } := by
  rw [addTrigger, h]

end Operations

theorem mem_pushUnique {ids : List TopicId} {id other : TopicId} :
    other ∈ pushUnique ids id ↔ other ∈ ids ∨ other = id := by
  rw [pushUnique]
  by_cases h : ids.contains id = true
  · rw [if_pos h]
    constructor
    · exact .inl
    · intro hor
      rcases hor with hmem | rfl
      · exact hmem
      · exact List.contains_iff_mem.mp h
  · rw [if_neg h, List.mem_append, List.mem_singleton]

/-! ## Every operation keeps a catalog well formed -/

variable {c d : Catalog} {t other : TopicId}

theorem WellFormed.addTopic (h : c.WellFormed) (name : String) : (c.addTopic name).1.WellFormed := by
  cases hname : c.topicId? name with
  | some t =>
    rw [addTopic_of_mem hname]
    exact h
  | none =>
    have hnew := topicId?_eq_none_iff.mp hname
    have htriggers : (c.addTopic name).1.triggers = c.triggers := by simp [Catalog.addTopic, hname]
    refine ⟨fun {u v topic topic'} hu hv heq => ?_, fun {u topic} hu => ?_, fun {u topic} hu => ?_, fun {u topic} hu => ?_⟩
    · rw [getElem?_addTopic hname] at hu hv
      split at hu <;> split at hv
      · simp_all only
      · cases hu
        exact absurd heq.symm (hnew v topic' hv)
      · cases hv
        exact absurd heq (hnew u topic hu)
      · exact h.names hu hv heq
    · rw [htriggers]
      rw [getElem?_addTopic hname] at hu
      split at hu
      · cases hu
        simp
      · exact h.listed hu
    · rw [getElem?_addTopic hname] at hu
      split at hu
      · cases hu
        exact List.nodup_nil
      · exact h.once hu
    · rw [getElem?_addTopic hname] at hu
      split at hu
      · cases hu
        simp
      · exact fun other hmem => Nat.lt_of_lt_of_le (h.edges hu other hmem) (size_le_addTopic name)

/-- Topics may gain edges to topics that are there. -/
theorem WellFormed.of_edges (h : c.WellFormed) (htriggers : d.triggers = c.triggers)
    (hsize : d.topics.size = c.topics.size)
    (hold : ∀ (u : TopicId) (topic' : Topic), d.topics[u]? = some topic' →
      ∃ topic, c.topics[u]? = some topic ∧ topic'.name = topic.name ∧ topic'.triggers = topic.triggers ∧
        ∀ o ∈ topic'.includes ++ topic'.inherits, o ∈ topic.includes ++ topic.inherits ∨ o < c.topics.size) :
    d.WellFormed := by
  refine ⟨fun {u v topic topic'} hu hv heq => ?_, fun {u topic} hu => ?_, fun {u topic} hu => ?_, fun {u topic} hu => ?_⟩
  · obtain ⟨old, hu, hname, -⟩ := hold u topic hu
    obtain ⟨old', hv, hname', -⟩ := hold v topic' hv
    exact h.names hu hv (by rw [← hname, ← hname', heq])
  · obtain ⟨old, hu, -, hlist, -⟩ := hold u topic hu
    rw [htriggers, hlist]
    exact h.listed hu
  · obtain ⟨old, hu, -, hlist, -⟩ := hold u topic hu
    rw [hlist]
    exact h.once hu
  · obtain ⟨old, hu, -, -, hedges⟩ := hold u topic hu
    intro o ho
    rw [hsize]
    exact (hedges o ho).elim (h.edges hu o) id

theorem WellFormed.addInclude (h : c.WellFormed) (hother : other < c.topics.size) :
    (c.addInclude t other).WellFormed := by
  refine h.of_edges rfl (by simp [Catalog.addInclude]) fun u topic' hu => ?_
  rw [getElem?_addInclude] at hu
  split at hu
  · obtain ⟨topic, hold, rfl⟩ := Option.map_eq_some_iff.mp hu
    refine ⟨topic, hold, rfl, rfl, fun o ho => ?_⟩
    simp only [List.mem_append, mem_pushUnique] at ho ⊢
    rcases ho with (ho | rfl) | ho
    · exact .inl (.inl ho)
    · exact .inr hother
    · exact .inl (.inr ho)
  · exact ⟨topic', hu, rfl, rfl, fun o ho => .inl ho⟩

theorem WellFormed.addInherit (h : c.WellFormed) (hother : other < c.topics.size) :
    (c.addInherit t other).WellFormed := by
  refine h.of_edges rfl (by simp [Catalog.addInherit]) fun u topic' hu => ?_
  rw [getElem?_addInherit] at hu
  split at hu
  · obtain ⟨topic, hold, rfl⟩ := Option.map_eq_some_iff.mp hu
    refine ⟨topic, hold, rfl, rfl, fun o ho => ?_⟩
    simp only [List.mem_append, mem_pushUnique] at ho ⊢
    rcases ho with ho | ho | rfl
    · exact .inl (.inl ho)
    · exact .inl (.inr ho)
    · exact .inr hother
  · exact ⟨topic', hu, rfl, rfl, fun o ho => .inl ho⟩

/-- Merging a trigger into one of its key changes no topic, and not where the merged one belongs. -/
theorem WellFormed.mergeTrigger (h : c.WellFormed) (id : TriggerId) (trigger : Trigger) :
    WellFormed { c with triggers := c.triggers.modify id (·.merge trigger) } := by
  refine ⟨h.names, fun {u topic} hu i hi => ?_, h.once, h.edges⟩
  obtain ⟨old, hold, hof⟩ := h.listed hu i hi
  rw [Array.getElem?_modify, hold]
  by_cases hid : id = i
  · rw [if_pos hid]
    exact ⟨old.merge trigger, rfl, hof⟩
  · rw [if_neg hid]
    exact ⟨old, rfl, hof⟩

theorem WellFormed.fresh (h : c.WellFormed) {topic : Topic} (ht : c.topics[t]? = some topic) :
    c.triggers.size ∉ topic.triggers := by
  intro hmem
  obtain ⟨_, hsome, -⟩ := h.listed ht _ hmem
  simp at hsome

/-- After a new trigger, a topic is as before, but for the one that lists the new trigger at its end. -/
theorem exists_of_addTrigger {trigger : Trigger} {u : TopicId} {topic' : Topic}
    (hkey : c.triggerWithKey? t trigger.key = none) (hu : (c.addTrigger t trigger).1.topics[u]? = some topic') :
    ∃ topic, c.topics[u]? = some topic ∧
      (topic' = topic ∨ t = u ∧ topic' = { topic with triggers := topic.triggers ++ [c.triggers.size] }) := by
  rw [getElem?_addTrigger hkey] at hu
  split at hu
  · rename_i htu
    obtain ⟨topic, hold, rfl⟩ := Option.map_eq_some_iff.mp hu
    exact ⟨topic, hold, .inr ⟨htu, rfl⟩⟩
  · exact ⟨topic', hu, .inl rfl⟩

theorem WellFormed.pushTrigger (h : c.WellFormed) {trigger : Trigger} (hkey : c.triggerWithKey? t trigger.key = none) :
    (c.addTrigger t trigger).1.WellFormed := by
  have hsize : (c.addTrigger t trigger).1.topics.size = c.topics.size := by simp [Catalog.addTrigger, hkey]
  have hkept : ∀ {u : TopicId} {topic : Topic} {i : TriggerId}, c.topics[u]? = some topic → i ∈ topic.triggers →
      ∃ trigger', (c.addTrigger t trigger).1.triggers[i]? = some trigger' ∧ trigger'.topic = u := by
    intro u topic i hu hi
    obtain ⟨old, hold, hof⟩ := h.listed hu i hi
    have hne : i ≠ c.triggers.size := fun heq => h.fresh hu (heq ▸ hi)
    rw [triggers_addTrigger hkey, Array.getElem?_push, if_neg hne]
    exact ⟨old, hold, hof⟩
  refine ⟨fun {u v topic topic'} hu hv heq => ?_, fun {u topic'} hu i hi => ?_, fun {u topic'} hu => ?_,
    fun {u topic'} hu o ho => ?_⟩
  · obtain ⟨old, hold, hor⟩ := exists_of_addTrigger hkey hu
    obtain ⟨old', hold', hor'⟩ := exists_of_addTrigger hkey hv
    have hname : topic.name = old.name := by rcases hor with rfl | ⟨-, rfl⟩ <;> rfl
    have hname' : topic'.name = old'.name := by rcases hor' with rfl | ⟨-, rfl⟩ <;> rfl
    exact h.names hold hold' (by rw [← hname, ← hname', heq])
  · obtain ⟨topic, hold, rfl | ⟨rfl, rfl⟩⟩ := exists_of_addTrigger hkey hu
    · exact hkept hold hi
    · rcases List.mem_append.mp hi with hi | hi
      · exact hkept hold hi
      · rw [List.mem_singleton.mp hi, triggers_addTrigger hkey, Array.getElem?_push, if_pos rfl]
        exact ⟨_, rfl, rfl⟩
  · obtain ⟨topic, hold, rfl | ⟨rfl, rfl⟩⟩ := exists_of_addTrigger hkey hu
    · exact h.once hold
    · exact List.nodup_append.mpr ⟨h.once hold, List.pairwise_singleton _ _, fun i hi j hj heq =>
        h.fresh hold (by rwa [heq, List.mem_singleton.mp hj] at hi)⟩
  · rw [hsize]
    obtain ⟨topic, hold, rfl | ⟨rfl, rfl⟩⟩ := exists_of_addTrigger hkey hu
    · exact h.edges hold o ho
    · exact h.edges hold o ho

theorem WellFormed.addTrigger (h : c.WellFormed) (trigger : Trigger) : (c.addTrigger t trigger).1.WellFormed := by
  cases hkey : c.triggerWithKey? t trigger.key with
  | some id =>
    rw [Catalog.addTrigger, hkey]
    exact h.mergeTrigger id trigger
  | none => exact h.pushTrigger hkey

theorem wellFormed_of_built (h : c.Built) : c.WellFormed := by
  induction h with
  | empty => exact ⟨by simp, by simp, by simp, by simp⟩
  | addTopic name _ ih => exact ih.addTopic name
  | addTrigger trigger _ _ ih => exact ih.addTrigger trigger
  | addInclude _ _ hother ih => exact ih.addInclude hother
  | addInherit _ _ hother ih => exact ih.addInherit hother

/-! ## What a topic has -/

theorem ownTriggers_addTrigger {trigger : Trigger} (hkey : c.triggerWithKey? t trigger.key = none)
    (ht : t < c.topics.size) (u : TopicId) :
    (c.addTrigger t trigger).1.ownTriggers u =
      if t = u then c.ownTriggers u ++ [c.triggers.size] else c.ownTriggers u := by
  rw [ownTriggers, getElem?_addTrigger hkey]
  by_cases htu : t = u
  · subst htu
    simp [ownTriggers, ht]
  · simp [ownTriggers, htu]

/-- The edges stay, wherever the trigger goes. -/
theorem edges_addTrigger {trigger : Trigger} (hkey : c.triggerWithKey? t trigger.key = none) (u : TopicId) :
    (c.addTrigger t trigger).1.includesOf u = c.includesOf u ∧
      (c.addTrigger t trigger).1.inheritsOf u = c.inheritsOf u := by
  rw [includesOf, inheritsOf, getElem?_addTrigger hkey, includesOf, inheritsOf]
  by_cases htu : t = u
  · rw [if_pos htu]
    cases c.topics[u]? <;> exact ⟨rfl, rfl⟩
  · rw [if_neg htu]
    exact ⟨rfl, rfl⟩

theorem WellFormed.listed_own (hc : c.WellFormed) {id : TriggerId} (h : id ∈ c.ownTriggers t) :
    ∃ trigger, c.triggers[id]? = some trigger ∧ trigger.topic = t := by
  rw [ownTriggers] at h
  cases ht : c.topics[t]? with
  | none => simp [ht] at h
  | some topic => exact hc.listed ht id (by simpa [ht] using h)

theorem WellFormed.once_own (hc : c.WellFormed) (t : TopicId) : (c.ownTriggers t).Nodup := by
  rw [ownTriggers]
  cases ht : c.topics[t]? with
  | none => exact List.nodup_nil
  | some topic => exact hc.once ht

theorem WellFormed.lt_of_edge (hc : c.WellFormed) {u : TopicId} (hu : u ∈ c.includesOf t ∨ u ∈ c.inheritsOf t) :
    u < c.topics.size := by
  rw [includesOf, inheritsOf] at hu
  cases ht : c.topics[t]? with
  | none => simp [ht] at hu
  | some topic => exact hc.edges ht u (List.mem_append.mpr (by simpa [ht] using hu))

theorem ne_size_of_mem_ownTriggers (hc : c.WellFormed) {u : TopicId} {id : TriggerId} (h : id ∈ c.ownTriggers u) :
    id ≠ c.triggers.size := by
  obtain ⟨_, hsome, -⟩ := hc.listed_own h
  exact Nat.ne_of_lt (Array.getElem?_eq_some_iff.mp hsome).1

end Catalog

end Repartee
