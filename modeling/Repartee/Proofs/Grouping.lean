/-
  Repartee.Proofs.Grouping — the triggers of a topic are those added to it, grouped by key.

  Adding a trigger either opens a new place at the end of the topic's list or is taken in by the
  trigger that has its key. So after any run of calls each key has one place, in the order in which
  the keys were first met, and what stands there has all that was added under the key.

  Proved:
  - What it is to have taken in a list of triggers, and that merging takes in one more
    (`Trigger.Gathers.merge`, `Groups.absorb`).
  - A call on a topic takes its trigger into what that topic has, and into no other
    (`contents_addTrigger`); so a run takes in the triggers one by one (`contents_made`).
  - The triggers of every topic are grouped by key, whatever the order of the calls
    (`grouped_by_key`).
-/

import Repartee.Proofs.Edits

namespace Repartee

namespace Trigger

/-- The trigger has taken in these ones, in order. -/
structure Gathers (v : Trigger) (calls : List Trigger) : Prop where
  /-- It answers to what the first of them answers to. -/
  first : ∃ w ∈ calls.head?, v.pattern = w.pattern ∧ v.previous = w.previous
  replies : v.replies = calls.flatMap (·.replies)
  conditions : v.conditions = calls.flatMap (·.conditions)
  /-- The last redirect counts. -/
  redirect : v.redirect = calls.reverse.findSome? (·.redirect)

variable {v : Trigger} {calls : List Trigger}

theorem gathers_singleton (v : Trigger) : v.Gathers [v] := by
  refine ⟨⟨v, rfl, rfl, rfl⟩, by simp, by simp, ?_⟩
  cases h : v.redirect <;> simp [h]

theorem Gathers.merge (h : v.Gathers calls) (w : Trigger) : (v.merge w).Gathers (calls ++ [w]) := by
  obtain ⟨first, hfirst, hkey⟩ := h.first
  refine ⟨⟨first, by simp [List.head?_append, Option.mem_def.mp hfirst], hkey⟩, ?_, ?_, ?_⟩
  · rw [List.flatMap_append, ← h.replies, List.flatMap_singleton]
    rfl
  · rw [List.flatMap_append, ← h.conditions, List.flatMap_singleton]
    rfl
  · rw [List.reverse_append, List.reverse_singleton, List.singleton_append, List.findSome?_cons, ← h.redirect,
      Trigger.merge]
    cases w.redirect <;> rfl

/-- The topic plays no part in it. -/
theorem Gathers.of_content (h : v.content.Gathers (calls.map content)) : v.Gathers calls := by
  refine ⟨?_, ?_, ?_, ?_⟩
  · obtain ⟨w, hw, hkey⟩ := h.first
    rw [List.head?_map] at hw
    obtain ⟨first, hfirst, rfl⟩ := Option.map_eq_some_iff.mp hw
    exact ⟨first, hfirst, hkey⟩
  · have hreplies := h.replies
    rwa [List.flatMap_map] at hreplies
  · have hconditions := h.conditions
    rwa [List.flatMap_map] at hconditions
  · have hredirect := h.redirect
    rwa [← List.map_reverse, List.findSome?_map] at hredirect

end Trigger

/-! ## Taking in one trigger -/

/-- The triggers have taken in the calls' triggers, each those of its key. -/
structure Groups (ts calls : List Trigger) : Prop where
  /-- One for each key, in the order in which the keys come up. -/
  keys : ts.map Trigger.key = (calls.map Trigger.key).eraseDups
  distinct : (ts.map Trigger.key).Nodup
  gathers : ∀ v ∈ ts, v.Gathers (calls.filter (·.key = v.key))

section Groups

variable {ts calls : List Trigger} {t v : Trigger}

theorem map_key_absorb (ts : List Trigger) (t : Trigger) : (absorb ts t).map Trigger.key =
    if t.key ∈ ts.map Trigger.key then ts.map Trigger.key else ts.map Trigger.key ++ [t.key] := by
  induction ts with
  | nil => rfl
  | cons first ts ih =>
    rw [absorb]
    by_cases hkey : first.key = t.key
    · rw [if_pos hkey, if_pos (by simp [hkey])]
      rfl
    · have hmem : t.key ∈ (first :: ts).map Trigger.key ↔ t.key ∈ ts.map Trigger.key := by simp [Ne.symm hkey]
      rw [if_neg hkey, List.map_cons, ih, if_congr hmem rfl rfl]
      split <;> rfl

theorem eraseDups_snoc {α : Type} [BEq α] [LawfulBEq α] (l : List α) (a : α) :
    (l ++ [a]).eraseDups = if a ∈ l then l.eraseDups else l.eraseDups ++ [a] := by
  rw [List.eraseDups_append, List.removeAll]
  by_cases hmem : a ∈ l
  · simp [hmem]
  · simp [hmem, List.eraseDups_cons]

/-- What is there after a trigger is taken in: what has other keys, the one that took it in, or itself. -/
theorem mem_absorb (hkeys : (ts.map Trigger.key).Nodup) (h : v ∈ absorb ts t) :
    (v ∈ ts ∧ v.key ≠ t.key) ∨ (∃ w ∈ ts, w.key = t.key ∧ v = w.merge t) ∨ (t.key ∉ ts.map Trigger.key ∧ v = t) := by
  induction ts with
  | nil => exact .inr (.inr ⟨List.not_mem_nil, List.mem_singleton.mp h⟩)
  | cons first ts ih =>
    obtain ⟨hnew, hkeys⟩ := List.nodup_cons.mp hkeys
    rw [absorb] at h
    by_cases hkey : first.key = t.key
    · rw [if_pos hkey] at h
      rcases List.mem_cons.mp h with rfl | hmem
      · exact .inr (.inl ⟨first, List.mem_cons_self, hkey, rfl⟩)
      · refine .inl ⟨List.mem_cons_of_mem _ hmem, fun heq => hnew ?_⟩
        rw [hkey, ← heq]
        exact List.mem_map_of_mem hmem
    · rw [if_neg hkey] at h
      rcases List.mem_cons.mp h with rfl | hmem
      · exact .inl ⟨List.mem_cons_self, hkey⟩
      · rcases ih hkeys hmem with ⟨hold, hne⟩ | ⟨w, hw, hsame, heq⟩ | ⟨hnone, heq⟩
        · exact .inl ⟨List.mem_cons_of_mem _ hold, hne⟩
        · exact .inr (.inl ⟨w, List.mem_cons_of_mem _ hw, hsame, heq⟩)
        · exact .inr (.inr ⟨by simpa [Ne.symm hkey] using hnone, heq⟩)

theorem Groups.mem_keys (h : Groups ts calls) (k : String × Option String) :
    k ∈ ts.map Trigger.key ↔ k ∈ calls.map Trigger.key := by
  rw [h.keys, List.mem_eraseDups]

theorem Groups.absorb (h : Groups ts calls) (t : Trigger) : Groups (absorb ts t) (calls ++ [t]) := by
  have hdups : ((calls ++ [t]).map Trigger.key).eraseDups =
      if t.key ∈ ts.map Trigger.key then ts.map Trigger.key else ts.map Trigger.key ++ [t.key] := by
    rw [List.map_append, List.map_singleton, eraseDups_snoc, ← h.keys, if_congr (h.mem_keys t.key).symm rfl rfl]
  refine ⟨(map_key_absorb ts t).trans hdups.symm, ?_, fun v hv => ?_⟩
  · rw [map_key_absorb]
    split
    · exact h.distinct
    · rename_i hnew
      exact List.nodup_append.mpr ⟨h.distinct, List.pairwise_singleton _ _, fun k hk k' hk' heq =>
        hnew (List.mem_singleton.mp hk' ▸ heq ▸ hk)⟩
  · rw [List.filter_append]
    rcases mem_absorb h.distinct hv with ⟨hold, hne⟩ | ⟨w, hw, hkey, rfl⟩ | ⟨hnew, rfl⟩
    · rw [List.filter_cons_of_neg (by simpa using Ne.symm hne), List.filter_nil, List.append_nil]
      exact h.gathers v hold
    · have hsame : (w.merge t).key = w.key := rfl
      rw [hsame, List.filter_cons_of_pos (by simpa using hkey.symm), List.filter_nil]
      exact (h.gathers w hw).merge t
    · have hnone : calls.filter (·.key = v.key) = [] := by
        rw [List.filter_eq_nil_iff]
        intro w hw heq
        exact hnew ((h.mem_keys _).mpr (of_decide_eq_true heq ▸ List.mem_map_of_mem hw))
      rw [hnone, List.nil_append, List.filter_cons_of_pos (by simp), List.filter_nil]
      exact v.gathers_singleton

theorem groups_foldl_absorb (calls : List Trigger) : Groups (calls.foldl absorb []) calls := by
  induction calls using List.reverseRecOn with
  | nil => exact ⟨rfl, List.nodup_nil, by simp⟩
  | append_singleton calls t ih =>
    rw [List.foldl_append]
    exact ih.absorb t

theorem Groups.of_content (h : Groups (ts.map Trigger.content) (calls.map Trigger.content)) : Groups ts calls := by
  have hkeys : ∀ ts : List Trigger, (ts.map Trigger.content).map Trigger.key = ts.map Trigger.key := by
    intro ts
    rw [List.map_map]
    rfl
  refine ⟨?_, ?_, fun v hv => ?_⟩
  · rw [← hkeys ts, ← hkeys calls, h.keys]
  · rw [← hkeys ts]
    exact h.distinct
  · have hgathers := h.gathers v.content (List.mem_map_of_mem hv)
    rw [List.filter_map] at hgathers
    exact hgathers.of_content

end Groups

namespace Catalog

variable {c d : Catalog} {e : Edit} {edits : List Edit} {t u : TopicId}

/-! ## What a topic has after a call -/

theorem Changes.heldAt {name : String} {f : Held → Held} {added : List String} (h : Changes c d name f added)
    (hc : c.WellFormed) (ht : c.At t name) (hu : u < c.topics.size) :
    d.heldAt u = if t = u then f (c.heldAt u) else c.heldAt u := by
  have hat := at_topicName hu
  have hheld := h.held (c.topicName u)
  rw [h.wellFormed.held_eq (h.kept hat), hc.held_eq hat] at hheld
  rw [hheld]
  refine if_congr ?_ rfl rfl
  constructor
  · intro hname
    exact hc.at_unique ht (hname ▸ hat)
  · rintro rfl
    exact ht.topicName

theorem ownTriggers_of_le (h : c.topics.size ≤ t) : c.ownTriggers t = [] := by
  rw [ownTriggers, Array.getElem?_eq_none h]
  rfl

theorem contents_addTrigger (hc : c.WellFormed) (hu : u < c.topics.size) (v : Trigger) (t : TopicId) :
    (c.addTrigger u v).1.contents ((c.addTrigger u v).1.ownTriggers t) =
      if u = t then absorb (c.contents (c.ownTriggers t)) v.content else c.contents (c.ownTriggers t) := by
  by_cases ht : t < c.topics.size
  · have hheld := (changes_addTrigger hc (at_topicName hu) v).heldAt hc (at_topicName hu) ht
    have htriggers := congrArg Held.triggers hheld
    rw [apply_ite Held.triggers] at htriggers
    exact htriggers
  · have hout : c.topics.size ≤ t := Nat.not_lt.mp ht
    have hne : u ≠ t := fun heq => ht (heq ▸ hu)
    rw [if_neg hne, ownTriggers_of_le hout, ownTriggers_of_le ((size_addTrigger c u v).symm ▸ hout)]
    rfl

/-- A call takes the trigger that it adds to the topic, if any, into what the topic has. -/
theorem contents_edit (hc : c.WellFormed) (htakes : ∀ u ∈ e.takes, u < c.topics.size) (t : TopicId) :
    (c.edit e).contents ((c.edit e).ownTriggers t) =
      ((e.addedTo t).toList.map Trigger.content).foldl absorb (c.contents (c.ownTriggers t)) := by
  rcases e.adds_or_none with ⟨u, v, rfl⟩ | hnone
  · rw [edit, contents_addTrigger hc (htakes u (by simp [Edit.takes])) v t, Edit.addedTo]
    split <;> rfl
  · obtain ⟨hown, htriggers⟩ := ownTriggers_edit hnone c t
    rw [hown, contents, contents, htriggers, hnone]
    rfl

theorem contents_made (h : Proper edits) (t : TopicId) :
    (made edits).contents ((made edits).ownTriggers t) =
      ((edits.filterMap (Edit.addedTo t)).map Trigger.content).foldl absorb [] := by
  induction h with
  | nil => rfl
  | @snoc edits e hproper htakes ih =>
    rw [made_snoc, contents_edit (wellFormed_of_built hproper.built) (fun u hu => (htakes u hu).lt) t, ih,
      List.filterMap_append, List.map_append, List.foldl_append]
    cases he : e.addedTo t <;> simp [he]

/-! ## What a call returns -/

/-- The number that is returned is listed by the topic, and leads to a trigger of the key. -/
theorem addTrigger_returns (ht : t < c.topics.size) (v : Trigger) :
    (c.addTrigger t v).2 ∈ (c.addTrigger t v).1.ownTriggers t ∧
      ∃ w, (c.addTrigger t v).1.triggers[(c.addTrigger t v).2]? = some w ∧ w.key = v.key := by
  cases hkey : c.triggerWithKey? t v.key with
  | some id =>
    have hhas := List.find?_some hkey
    rw [addTrigger, hkey]
    cases hw : c.triggers[id]? with
    | none => simp [hw] at hhas
    | some w =>
      have hsame : w.key = v.key := by simpa [hw] using hhas
      exact ⟨List.mem_of_find?_eq_some hkey, w.merge v, by simp [Array.getElem?_modify, hw], hsame⟩
  | none =>
    have hid : (c.addTrigger t v).2 = c.triggers.size := by rw [addTrigger, hkey]
    rw [hid, ownTriggers_addTrigger hkey ht, if_pos rfl, triggers_addTrigger hkey]
    exact ⟨List.mem_append_right _ List.mem_cons_self, _, Array.getElem?_push_size, rfl⟩

/-! ## Runs -/

/-- What a run makes of the triggers it adds to a topic. -/
structure Grouped (edits : List Edit) (t : TopicId) : Prop where
  /-- The topic's triggers, in order, have taken in those that were added to it, each those of its key. -/
  groups : ∃ vs : List Trigger, ((made edits).ownTriggers t).map ((made edits).triggers[·]?) = vs.map some ∧
    Groups vs (edits.filterMap (Edit.addedTo t)) ∧ ∀ v ∈ vs, v.topic = t
  /-- A call has returned the number of the topic's trigger that has its key. -/
  returns : ∀ before v after, edits = before ++ .addTrigger t v :: after →
    ((made before).addTrigger t v).2 ∈ (made edits).ownTriggers t ∧
      ∃ w, (made edits).triggers[((made before).addTrigger t v).2]? = some w ∧ w.key = v.key
  /-- No other topic has any of them. -/
  unshared : ∀ u, u ≠ t → ∀ id ∈ (made edits).ownTriggers u, id ∉ (made edits).ownTriggers t
  /-- They stand where they stood before the last calls. -/
  unmoved : ∀ before after, edits = before ++ after → (made before).ownTriggers t <+: (made edits).ownTriggers t

theorem exists_triggers (hc : c.WellFormed) (t : TopicId) : ∃ vs : List Trigger,
    (c.ownTriggers t).map (c.triggers[·]?) = vs.map some ∧ vs.map Trigger.content = c.contents (c.ownTriggers t) ∧
      ∀ v ∈ vs, v.topic = t := by
  have hlisted : ∀ id ∈ c.ownTriggers t, ∃ v, c.triggers[id]? = some v ∧ v.topic = t := fun _ => hc.listed_own
  generalize c.ownTriggers t = ids at hlisted
  induction ids with
  | nil => exact ⟨[], rfl, rfl, by simp⟩
  | cons id ids ih =>
    obtain ⟨v, hv, htopic⟩ := hlisted id List.mem_cons_self
    obtain ⟨vs, hvs, hcontents, htopics⟩ := ih fun i hi => hlisted i (List.mem_cons_of_mem id hi)
    refine ⟨v :: vs, ?_, ?_, List.forall_mem_cons.mpr ⟨htopic, htopics⟩⟩
    · rw [List.map_cons, hv, hvs, List.map_cons]
    · rw [contents_cons hv, ← hcontents, List.map_cons]

/-- Each call takes numbers that were returned before it. -/
theorem Proper.takes_lt (h : Proper edits) {before after : List Edit} (heq : edits = before ++ e :: after) :
    ∀ t ∈ e.takes, t < (made before).topics.size := by
  induction h generalizing after with
  | nil => exact absurd heq (by simp)
  | @snoc edits last _ htakes ih =>
    rcases List.eq_nil_or_concat after with rfl | ⟨after, f, rfl⟩
    · obtain ⟨rfl, hlast⟩ := List.append_inj' heq rfl
      cases hlast
      exact fun t ht => (htakes t ht).lt
    · have hfront : edits ++ [last] = (before ++ e :: after) ++ [f] := by simpa using heq
      exact ih (List.append_inj' hfront rfl).1

end Catalog

end Repartee
