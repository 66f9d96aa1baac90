/-
  Repartee.Proofs.Joined.Holdings — what a catalog holds under the name of a topic.

  The numbers of topics and triggers depend on the order in which they came in. Read off by name
  and by content, what a catalog holds does not: each operation changes what is held under one
  name, and by nothing but its own arguments.

  Proved:
  - What each operation changes (`changes_addTopic`, `changes_addInclude`, `changes_addInherit`,
    `changes_addTrigger`).
  - Changes of one name add up (`Changes.trans`, `changes_foldl`).
-/

import Mathlib.Data.List.Basic
import Repartee.Proofs.Arena
import Repartee.Proofs.Joined.Declared

namespace Repartee

/-- The trigger without the number of its topic. -/
def Trigger.content (t : Trigger) : Trigger := { t with topic := 0 }

/-- Take a trigger into the first of its key, or add it at the end. -/
def absorb (ts : List Trigger) (t : Trigger) : List Trigger :=
  match ts with
  | [] => [t]
  | first :: ts => if first.key = t.key then first.merge t :: ts else first :: absorb ts t

/-- What is held under a name. -/
structure Held where
  triggers : List Trigger := []
  includes : List String := []
  inherits : List String := []

namespace Catalog

variable {c d : Catalog} {t u : TopicId} {name : String}

/-- The topic of this number has this name. -/
def At (c : Catalog) (t : TopicId) (name : String) : Prop := ∃ topic, c.topics[t]? = some topic ∧ topic.name = name

def contents (c : Catalog) (ids : List TriggerId) : List Trigger :=
  ids.filterMap fun id => c.triggers[id]?.map Trigger.content

def heldAt (c : Catalog) (t : TopicId) : Held :=
  { triggers := c.contents (c.ownTriggers t)
    includes := (c.includesOf t).map c.topicName
    inherits := (c.inheritsOf t).map c.topicName }

/-- What is held under a name: nothing, if no topic has it. -/
def held (c : Catalog) (name : String) : Held := ((c.topicId? name).map c.heldAt).getD {}

/-! ## Names and numbers -/

theorem WellFormed.at_unique (h : c.WellFormed) (ht : c.At t name) (hu : c.At u name) : t = u := by
  obtain ⟨topic, ht, hname⟩ := ht
  obtain ⟨other, hu, hname'⟩ := hu
  exact h.names ht hu (hname.trans hname'.symm)

theorem At.lt (h : c.At t name) : t < c.topics.size := by
  obtain ⟨topic, ht, -⟩ := h
  exact (Array.getElem?_eq_some_iff.mp ht).1

theorem At.topicName (h : c.At t name) : c.topicName t = name := by
  obtain ⟨topic, ht, rfl⟩ := h
  rw [Catalog.topicName, ht]
  rfl

theorem at_topicName (h : t < c.topics.size) : c.At t (c.topicName t) := by
  refine ⟨c.topics[t], Array.getElem?_eq_getElem h, ?_⟩
  rw [Catalog.topicName, Array.getElem?_eq_getElem h]
  rfl

theorem WellFormed.topicId? (h : c.WellFormed) (ht : c.At t name) : c.topicId? name = some t := by
  cases hid : c.topicId? name with
  | none =>
    obtain ⟨topic, ht, hname⟩ := ht
    exact absurd hname (topicId?_eq_none_iff.mp hid t topic ht)
  | some u => rw [h.at_unique (topicId?_eq_some_iff.mp hid).1 ht]

theorem at_of_topicId? (h : c.topicId? name = some t) : c.At t name := (topicId?_eq_some_iff.mp h).1

theorem WellFormed.held_eq (h : c.WellFormed) (ht : c.At t name) : c.held name = c.heldAt t := by
  rw [held, h.topicId? ht]
  rfl

theorem held_of_unknown (h : ∀ t, ¬ c.At t name) : c.held name = {} := by
  cases hid : c.topicId? name with
  | none =>
    rw [held, hid]
    rfl
  | some t => exact absurd (at_of_topicId? hid) (h t)

/-! ## Changes under one name -/

/-- In `d`, what is held under the name is changed by `f`, all else is held as in `c`, and topics of the
given names were added. -/
structure Changes (c d : Catalog) (name : String) (f : Held → Held) (added : List String) : Prop where
  wellFormed : d.WellFormed
  kept : ∀ {t : TopicId} {other : String}, c.At t other → d.At t other
  names : ∀ {other : String}, (∃ t, d.At t other) ↔ (∃ t, c.At t other) ∨ other ∈ added
  held : ∀ other, d.held other = if other = name then f (c.held other) else c.held other

section Changes

variable {f g : Held → Held} {added : List String}

theorem Changes.refl (h : c.WellFormed) (name : String) : Changes c c name id [] :=
  ⟨h, id, by simp, fun _ => by simp⟩

theorem Changes.trans {e : Catalog} {more : List String} (h : Changes c d name f added) (h' : Changes d e name g more) :
    Changes c e name (g ∘ f) (added ++ more) := by
  refine ⟨h'.wellFormed, fun ht => h'.kept (h.kept ht), ?_, fun other => ?_⟩
  · intro other
    rw [h'.names, h.names, List.mem_append, or_assoc]
  · rw [h'.held, h.held]
    by_cases hname : other = name
    · rw [if_pos hname, if_pos hname, if_pos hname]
      rfl
    · rw [if_neg hname, if_neg hname, if_neg hname]

/-- The same change done for each entry of a list. -/
theorem changes_foldl {α : Type} {step : Catalog → α → Catalog} {change : Held → α → Held} {adds : α → List String}
    (hstep : ∀ {c : Catalog} (a : α), c.WellFormed → c.At t name → Changes c (step c a) name (change · a) (adds a))
    (l : List α) (hc : c.WellFormed) (ht : c.At t name) :
    Changes c (l.foldl step c) name (fun h => l.foldl change h) (l.flatMap adds) := by
  induction l generalizing c with
  | nil => exact Changes.refl hc name
  | cons a l ih =>
    have hfirst := hstep a hc ht
    exact hfirst.trans (ih hfirst.wellFormed (hfirst.kept ht))

/-- A change at the number of the topic, where topics keep their names. -/
theorem changes_of_at (hc : c.WellFormed) (hd : d.WellFormed) (ht : c.At t name)
    (hat : ∀ u other, d.At u other ↔ c.At u other) (hself : d.heldAt t = f (c.heldAt t))
    (hothers : ∀ u, u ≠ t → d.heldAt u = c.heldAt u) : Changes c d name f [] := by
  refine ⟨hd, fun hu => (hat _ _).mpr hu, by simp [hat], fun other => ?_⟩
  by_cases hname : other = name
  · rw [if_pos hname, hname, hd.held_eq ((hat _ _).mpr ht), hc.held_eq ht, hself]
  · rw [if_neg hname]
    by_cases hknown : ∃ u, c.At u other
    · obtain ⟨u, hu⟩ := hknown
      have hne : u ≠ t := by
        rintro rfl
        exact hname (hu.topicName.symm.trans ht.topicName)
      rw [hd.held_eq ((hat _ _).mpr hu), hc.held_eq hu, hothers u hne]
    · rw [held_of_unknown fun u hu => hknown ⟨u, hu⟩, held_of_unknown fun u hu => hknown ⟨u, (hat _ _).mp hu⟩]

end Changes

/-! ## Topics -/

theorem heldAt_congr (hown : d.contents (d.ownTriggers t) = c.contents (c.ownTriggers t))
    (hincludes : d.includesOf t = c.includesOf t) (hinherits : d.inheritsOf t = c.inheritsOf t)
    (hnames : ∀ u, u ∈ c.includesOf t ∨ u ∈ c.inheritsOf t → d.topicName u = c.topicName u) :
    d.heldAt t = c.heldAt t := by
  rw [heldAt, heldAt, hown, hincludes, hinherits, List.map_congr_left fun u hu => hnames u (.inl hu),
    List.map_congr_left fun u hu => hnames u (.inr hu)]

/-- The same topic at a number. -/
theorem lists_of_getElem?_eq (h : d.topics[t]? = c.topics[t]?) :
    d.ownTriggers t = c.ownTriggers t ∧ d.includesOf t = c.includesOf t ∧ d.inheritsOf t = c.inheritsOf t := by
  simp only [ownTriggers, includesOf, inheritsOf, h, and_self]

theorem at_addTopic (hname : c.topicId? name = none) (t : TopicId) (other : String) :
    (c.addTopic name).1.At t other ↔ c.At t other ∨ t = c.topics.size ∧ other = name := by
  rw [At, getElem?_addTopic hname]
  by_cases ht : t = c.topics.size
  · subst ht
    simp [At, eq_comm]
  · simp [At, ht]

theorem triggers_addTopic (c : Catalog) (name : String) : (c.addTopic name).1.triggers = c.triggers := by
  rw [addTopic]
  split <;> rfl

/-- A new topic holds nothing, and leaves what others hold. -/
theorem held_addTopic (hc : c.WellFormed) (hname : c.topicId? name = none) (other : String) :
    (c.addTopic name).1.held other = c.held other := by
  have hd := hc.addTopic name
  have hat := at_addTopic hname
  by_cases hknown : ∃ u, c.At u other
  · obtain ⟨u, hu⟩ := hknown
    rw [hd.held_eq ((hat u other).mpr (.inl hu)), hc.held_eq hu]
    have hsame : (c.addTopic name).1.topics[u]? = c.topics[u]? := by
      rw [getElem?_addTopic hname, if_neg (Nat.ne_of_lt hu.lt)]
    obtain ⟨hown, hincludes, hinherits⟩ := lists_of_getElem?_eq hsame
    refine heldAt_congr ?_ hincludes hinherits fun v hv => ?_
    · rw [hown, contents, contents, triggers_addTopic]
    · exact ((hat v _).mpr (.inl (at_topicName (hc.lt_of_edge hv)))).topicName
  · rw [held_of_unknown fun u hu => hknown ⟨u, hu⟩]
    by_cases hnew : other = name
    · have hat' := (hat c.topics.size other).mpr (.inr ⟨rfl, hnew⟩)
      have hempty : (c.addTopic name).1.topics[c.topics.size]? = some { name } := by
        rw [getElem?_addTopic hname, if_pos rfl]
      rw [hd.held_eq hat', heldAt, ownTriggers, includesOf, inheritsOf, hempty]
      rfl
    · refine held_of_unknown fun u hu => ?_
      rcases (hat u other).mp hu with hu | ⟨-, hu⟩
      · exact hknown ⟨u, hu⟩
      · exact hnew hu

theorem changes_addTopic (hc : c.WellFormed) (name about : String) : Changes c (c.addTopic name).1 about id [name] := by
  cases hid : c.topicId? name with
  | some t =>
    rw [addTopic_of_mem hid]
    refine ⟨hc, id, fun {other} => ?_, by simp⟩
    constructor
    · exact .inl
    · intro hor
      rcases hor with hknown | hmem
      · exact hknown
      · exact ⟨t, List.mem_singleton.mp hmem ▸ at_of_topicId? hid⟩
  | none =>
    have hat := at_addTopic hid
    refine ⟨hc.addTopic name, fun ht => (hat _ _).mpr (.inl ht), fun {other} => ?_, fun other => ?_⟩
    · constructor
      · intro ⟨u, hu⟩
        rcases (hat u other).mp hu with hu | ⟨-, rfl⟩
        · exact .inl ⟨u, hu⟩
        · exact .inr List.mem_cons_self
      · intro hor
        rcases hor with ⟨u, hu⟩ | hmem
        · exact ⟨u, (hat u other).mpr (.inl hu)⟩
        · exact ⟨_, (hat c.topics.size other).mpr (.inr ⟨rfl, List.mem_singleton.mp hmem⟩)⟩
    · rw [held_addTopic hc hid, id_eq, ite_self]

/-- Where the new or old topic is. -/
theorem at_snd_addTopic (c : Catalog) (name : String) : (c.addTopic name).1.At (c.addTopic name).2 name := by
  cases hid : c.topicId? name with
  | some t =>
    rw [addTopic_of_mem hid]
    exact at_of_topicId? hid
  | none =>
    rw [show (c.addTopic name).2 = c.topics.size by rw [addTopic, hid]]
    exact (at_addTopic hid _ _).mpr (.inr ⟨rfl, rfl⟩)

/-! ## Edges -/

theorem at_iff : c.At t name ↔ c.topics[t]?.map (·.name) = some name := Option.map_eq_some_iff.symm

section Names

variable (hnames : ∀ u : TopicId, d.topics[u]?.map (·.name) = c.topics[u]?.map (·.name))

include hnames

theorem at_congr (u : TopicId) (other : String) : d.At u other ↔ c.At u other := by
  rw [at_iff, at_iff, hnames]

theorem topicName_congr (u : TopicId) : d.topicName u = c.topicName u := by
  rw [topicName, topicName, hnames]

end Names

theorem map_pushUnique (hc : c.WellFormed) {ids : List TopicId} {id : TopicId} (hids : ∀ i ∈ ids, i < c.topics.size)
    (hid : id < c.topics.size) :
    (pushUnique ids id).map c.topicName = Script.Reader.pushUnique (ids.map c.topicName) (c.topicName id) := by
  rw [pushUnique, Script.Reader.pushUnique]
  by_cases h : ids.contains id = true
  · have hmem : (ids.map c.topicName).contains (c.topicName id) = true :=
      List.contains_iff_mem.mpr (List.mem_map_of_mem (List.contains_iff_mem.mp h))
    rw [if_pos h, if_pos hmem]
  · have hmem : ¬ (ids.map c.topicName).contains (c.topicName id) = true := by
      intro hmem
      obtain ⟨i, hi, heq⟩ := List.mem_map.mp (List.contains_iff_mem.mp hmem)
      cases hc.at_unique (heq ▸ at_topicName (hids i hi)) (at_topicName hid)
      exact h (List.contains_iff_mem.mpr hi)
    rw [if_neg h, if_neg hmem, List.map_append, List.map_singleton]

theorem heldAt_of_ne (hnames : ∀ u : TopicId, d.topics[u]?.map (·.name) = c.topics[u]?.map (·.name))
    (htriggers : d.contents (c.ownTriggers t) = c.contents (c.ownTriggers t)) (h : d.topics[t]? = c.topics[t]?) :
    d.heldAt t = c.heldAt t := by
  obtain ⟨hown, hincludes, hinherits⟩ := lists_of_getElem?_eq h
  refine heldAt_congr ?_ hincludes hinherits fun u _ => topicName_congr hnames u
  rw [hown, htriggers]

/-- What is held at a topic, read off the topic. -/
def heldOf (c : Catalog) (topic : Topic) : Held :=
  { triggers := c.contents topic.triggers
    includes := topic.includes.map c.topicName
    inherits := topic.inherits.map c.topicName }

theorem heldAt_eq {topic : Topic} (h : c.topics[t]? = some topic) : c.heldAt t = c.heldOf topic := by
  simp only [heldAt, heldOf, ownTriggers, includesOf, inheritsOf, h, Option.map_some, Option.getD_some]

/-- Editing the edges of a topic changes what is held at that topic. -/
theorem changes_edges (hc : c.WellFormed) (hd : d.WellFormed) (ht : c.At t name) {f : Held → Held} {g : Topic → Topic}
    (htopics : ∀ v : TopicId, d.topics[v]? = if t = v then c.topics[v]?.map g else c.topics[v]?)
    (hname : ∀ topic, (g topic).name = topic.name) (htriggers : d.triggers = c.triggers)
    (hheld : ∀ topic, c.topics[t]? = some topic → c.heldOf (g topic) = f (c.heldOf topic)) : Changes c d name f [] := by
  have hnames : ∀ v : TopicId, d.topics[v]?.map (·.name) = c.topics[v]?.map (·.name) := by
    intro v
    rw [htopics]
    by_cases hv : t = v
    · rw [if_pos hv, Option.map_map, Function.comp_def, funext hname]
    · rw [if_neg hv]
  have hcontents : d.contents = c.contents := by
    funext ids
    rw [contents, contents, htriggers]
  refine changes_of_at hc hd ht (at_congr hnames) ?_ fun v hv => ?_
  · obtain ⟨topic, htopic, -⟩ := ht
    have hedited : d.topics[t]? = some (g topic) := by rw [htopics, if_pos rfl, htopic, Option.map_some]
    rw [heldAt_eq hedited, heldAt_eq htopic, ← hheld topic htopic, heldOf, heldOf, hcontents,
      funext (topicName_congr hnames)]
  · refine heldAt_of_ne hnames (congrFun hcontents _) ?_
    rw [htopics, if_neg hv.symm]

theorem changes_addInclude (hc : c.WellFormed) (ht : c.At t name) {other : String} (hu : c.At u other) :
    Changes c (c.addInclude t u) name (fun h => { h with includes := Script.Reader.pushUnique h.includes other }) [] := by
  refine changes_edges hc (hc.addInclude hu.lt) ht (fun _ => getElem?_addInclude u) (fun _ => rfl) rfl fun topic htopic => ?_
  have hpush := map_pushUnique hc (fun v hv => hc.lt_of_edge (t := t) (.inl hv)) hu.lt
  rw [hu.topicName, includesOf, htopic] at hpush
  rw [heldOf, heldOf]
  exact congrArg (fun includes => { c.heldOf topic with includes }) hpush

theorem changes_addInherit (hc : c.WellFormed) (ht : c.At t name) {other : String} (hu : c.At u other) :
    Changes c (c.addInherit t u) name (fun h => { h with inherits := Script.Reader.pushUnique h.inherits other }) [] := by
  refine changes_edges hc (hc.addInherit hu.lt) ht (fun _ => getElem?_addInherit u) (fun _ => rfl) rfl fun topic htopic => ?_
  have hpush := map_pushUnique hc (fun v hv => hc.lt_of_edge (t := t) (.inr hv)) hu.lt
  rw [hu.topicName, inheritsOf, htopic] at hpush
  rw [heldOf, heldOf]
  exact congrArg (fun inherits => { c.heldOf topic with inherits }) hpush

/-! ## Triggers -/

theorem key_content (v : Trigger) : v.content.key = v.key := rfl

theorem content_merge (v w : Trigger) : (v.merge w).content = v.content.merge w.content := rfl

/-- The contents of triggers that stay. -/
theorem contents_congr {ids : List TriggerId} (h : ∀ id ∈ ids, d.triggers[id]? = c.triggers[id]?) :
    d.contents ids = c.contents ids := by
  rw [contents, contents]
  exact List.filterMap_congr fun id hid => by rw [h id hid]

theorem contents_cons {id : TriggerId} {v : Trigger} (h : c.triggers[id]? = some v) (ids : List TriggerId) :
    c.contents (id :: ids) = v.content :: c.contents ids := by
  rw [contents, List.filterMap_cons, h]
  rfl

/-- Merging a trigger into the first of its key, by number and by content. -/
theorem contents_merge {ids : List TriggerId} {id : TriggerId} {v : Trigger} (honce : ids.Nodup)
    (hthere : ∀ i ∈ ids, ∃ w, c.triggers[i]? = some w)
    (hfind : ids.find? (fun i => c.triggers[i]?.any (·.key = v.key)) = some id) :
    ({ c with triggers := c.triggers.modify id (·.merge v) } : Catalog).contents ids =
      absorb (c.contents ids) v.content := by
  induction ids with
  | nil => cases hfind
  | cons i ids ih =>
    obtain ⟨w, hw⟩ := hthere i List.mem_cons_self
    obtain ⟨hi, honce⟩ := List.nodup_cons.mp honce
    rw [contents_cons hw, absorb, key_content, key_content]
    by_cases hkey : w.key = v.key
    · rw [List.find?_cons_of_pos (by simpa [hw] using hkey)] at hfind
      obtain rfl : i = id := Option.some.inj hfind
      have hmerged : (c.triggers.modify i (·.merge v))[i]? = some (w.merge v) := by simp [Array.getElem?_modify, hw]
      rw [if_pos hkey, contents_cons hmerged, content_merge]
      congr 1
      refine contents_congr fun k hk => ?_
      have hne : i ≠ k := fun heq => hi (heq ▸ hk)
      rw [Array.getElem?_modify, if_neg hne]
    · rw [List.find?_cons_of_neg (by simpa [hw] using hkey)] at hfind
      have hne : id ≠ i := fun heq => hi (heq ▸ List.mem_of_find?_eq_some hfind)
      have hkept : (c.triggers.modify id (·.merge v))[i]? = some w := by rw [Array.getElem?_modify, if_neg hne, hw]
      rw [if_neg hkey, contents_cons hkept, ih honce (fun k hk => hthere k (List.mem_cons_of_mem i hk)) hfind]

/-- A trigger of a new key comes last. -/
theorem absorb_of_new {ids : List TriggerId} {v : Trigger} (hthere : ∀ i ∈ ids, ∃ w, c.triggers[i]? = some w)
    (hfind : ids.find? (fun i => c.triggers[i]?.any (·.key = v.key)) = none) :
    absorb (c.contents ids) v.content = c.contents ids ++ [v.content] := by
  induction ids with
  | nil => rfl
  | cons i ids ih =>
    obtain ⟨w, hw⟩ := hthere i List.mem_cons_self
    have hnone := List.find?_eq_none.mp hfind
    have hkey : w.key ≠ v.key := by simpa [hw] using hnone i List.mem_cons_self
    have hrest : ids.find? (fun i => c.triggers[i]?.any (·.key = v.key)) = none :=
      List.find?_eq_none.mpr fun k hk => hnone k (List.mem_cons_of_mem i hk)
    rw [contents_cons hw, absorb, key_content, key_content, if_neg hkey,
      ih (fun k hk => hthere k (List.mem_cons_of_mem i hk)) hrest, List.cons_append]

theorem changes_addTrigger (hc : c.WellFormed) (ht : c.At t name) (v : Trigger) :
    Changes c (c.addTrigger t v).1 name (fun h => { h with triggers := absorb h.triggers v.content }) [] := by
  have hd := hc.addTrigger (t := t) v
  have hthere : ∀ i ∈ c.ownTriggers t, ∃ w, c.triggers[i]? = some w := fun i hi => (hc.listed_own hi).imp fun _ h => h.1
  cases hkey : c.triggerWithKey? t v.key with
  | some id =>
    have hmerge : (c.addTrigger t v).1 = { c with triggers := c.triggers.modify id (·.merge v) } := by
      rw [addTrigger, hkey]
    rw [hmerge] at hd ⊢
    refine changes_of_at hc hd ht (at_congr fun _ => rfl) ?_ fun u hu => ?_
    · rw [heldAt, heldAt, ← contents_merge (hc.once_own t) hthere hkey]
      rfl
    · refine heldAt_of_ne (fun _ => rfl) (contents_congr fun i hi => ?_) rfl
      have hne : id ≠ i := by
        rintro rfl
        obtain ⟨w, hw, htopic⟩ := hc.listed_own (List.mem_of_find?_eq_some hkey)
        obtain ⟨w', hw', htopic'⟩ := hc.listed_own hi
        cases hw.symm.trans hw'
        exact hu (htopic'.symm.trans htopic)
      exact (Array.getElem?_modify).trans (if_neg hne)
  | none =>
    have hnames : ∀ u : TopicId, (c.addTrigger t v).1.topics[u]?.map (·.name) = c.topics[u]?.map (·.name) := by
      intro u
      rw [getElem?_addTrigger hkey]
      by_cases hu : t = u
      · rw [if_pos hu, Option.map_map]
        rfl
      · rw [if_neg hu]
    have hkept : ∀ u, ∀ i ∈ c.ownTriggers u, (c.addTrigger t v).1.triggers[i]? = c.triggers[i]? := by
      intro u i hi
      rw [triggers_addTrigger hkey, Array.getElem?_push, if_neg (ne_size_of_mem_ownTriggers hc hi)]
    refine changes_of_at hc hd ht (at_congr hnames) ?_ fun u hu => ?_
    · obtain ⟨hincludes, hinherits⟩ := edges_addTrigger hkey t
      have hnew : (c.addTrigger t v).1.triggers[c.triggers.size]? = some { v with topic := t } := by
        rw [triggers_addTrigger hkey, Array.getElem?_push, if_pos rfl]
      rw [heldAt, heldAt, ownTriggers_addTrigger hkey ht.lt, if_pos rfl, hincludes, hinherits,
        funext (topicName_congr hnames), absorb_of_new hthere hkey, contents, List.filterMap_append, ← contents,
        contents_congr (hkept t)]
      simp only [List.filterMap_cons, hnew]
      rfl
    · refine heldAt_of_ne hnames (contents_congr (hkept u)) ?_
      rw [getElem?_addTrigger hkey, if_neg hu.symm]

end Catalog

end Repartee
