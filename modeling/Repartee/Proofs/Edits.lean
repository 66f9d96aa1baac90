/-
  Repartee.Proofs.Edits — runs of the calls that make a catalog.

  A catalog is empty at first and changed by four kinds of calls. All but the first kind name topics
  by number, and a caller has the number of a topic from a call before that returned it.

  Proved:
  - A catalog was built exactly if such a run made it (`Proper.built`, `exists_proper_of_built`).
  - A call touches no list of triggers but the one it adds to (`ownTriggers_edit`), and after any
    more calls a list is as it was but longer and a trigger has the key and topic it had
    (`extends_append`).
-/

import Mathlib.Data.List.Induction
import Repartee.Proofs.Joined.Compiled

namespace Repartee

namespace Catalog

/-- A call that changes a catalog. -/
inductive Edit where
  | addTopic (name : String)
  | addTrigger (t : TopicId) (trigger : Trigger)
  | addInclude (t other : TopicId)
  | addInherit (t other : TopicId)

/-- The topics that a call takes by number. -/
def Edit.takes : Edit → List TopicId
  | .addTopic _ => []
  | .addTrigger t _ => [t]
  | .addInclude t other => [t, other]
  | .addInherit t other => [t, other]

def edit (c : Catalog) : Edit → Catalog
  | .addTopic name => (c.addTopic name).1
  | .addTrigger t trigger => (c.addTrigger t trigger).1
  | .addInclude t other => c.addInclude t other
  | .addInherit t other => c.addInherit t other

/-- The catalog that a run of calls makes. -/
def made (edits : List Edit) : Catalog := edits.foldl edit {}

/-- A call of the run returned this number of a topic. -/
def Returned (edits : List Edit) (t : TopicId) : Prop :=
  ∃ before name after, edits = before ++ .addTopic name :: after ∧ ((made before).addTopic name).2 = t

/-- A run in which each call takes numbers that calls before it returned. -/
inductive Proper : List Edit → Prop
  | nil : Proper []
  | snoc {edits : List Edit} {e : Edit} : Proper edits → (∀ t ∈ e.takes, Returned edits t) → Proper (edits ++ [e])

variable {c d : Catalog} {e : Edit} {edits more : List Edit} {t u : TopicId}

/-! ## Numbers of topics -/

theorem made_append (edits more : List Edit) : made (edits ++ more) = more.foldl edit (made edits) :=
  List.foldl_append

theorem made_snoc (edits : List Edit) (e : Edit) : made (edits ++ [e]) = (made edits).edit e := made_append edits [e]

theorem size_addTrigger (c : Catalog) (t : TopicId) (trigger : Trigger) :
    (c.addTrigger t trigger).1.topics.size = c.topics.size := by
  unfold addTrigger
  split
  · rfl
  · exact Array.size_modify

/-- Only a call that adds a topic makes more of them. -/
theorem size_edit (hadd : ∀ name, e ≠ .addTopic name) (c : Catalog) : (c.edit e).topics.size = c.topics.size := by
  cases e with
  | addTopic name => exact absurd rfl (hadd name)
  | addTrigger t trigger => exact size_addTrigger c t trigger
  | addInclude t other => exact Array.size_modify
  | addInherit t other => exact Array.size_modify

theorem size_le_edit (c : Catalog) (e : Edit) : c.topics.size ≤ (c.edit e).topics.size := by
  by_cases hadd : ∃ name, e = .addTopic name
  · obtain ⟨name, rfl⟩ := hadd
    exact size_le_addTopic name
  · exact Nat.le_of_eq (size_edit (not_exists.mp hadd) c).symm

theorem size_le_foldl_edit (c : Catalog) (more : List Edit) : c.topics.size ≤ (more.foldl edit c).topics.size := by
  induction more generalizing c with
  | nil => exact Nat.le_refl _
  | cons e more ih => exact Nat.le_trans (size_le_edit c e) (ih _)

theorem Returned.lt (h : Returned edits t) : t < (made edits).topics.size := by
  obtain ⟨before, name, after, rfl, rfl⟩ := h
  rw [made_append]
  exact Nat.lt_of_lt_of_le (at_snd_addTopic (made before) name).lt (size_le_foldl_edit _ after)

theorem Returned.append (h : Returned edits t) (more : List Edit) : Returned (edits ++ more) t := by
  obtain ⟨before, name, after, rfl, ht⟩ := h
  exact ⟨before, name, after ++ more, by simp, ht⟩

/-- A call for a new name returns the number of the topic that it makes. -/
theorem returned_of_size_le (hsize : (made edits).topics.size ≤ t) (ht : t < (made (edits ++ [e])).topics.size) :
    Returned (edits ++ [e]) t := by
  have hout : ¬ t < (made edits).topics.size := Nat.not_lt.mpr hsize
  rw [made_snoc] at ht
  by_cases hadd : ∃ name, e = .addTopic name
  · obtain ⟨name, rfl⟩ := hadd
    cases hid : (made edits).topicId? name with
    | some u =>
      rw [edit, addTopic_of_mem hid] at ht
      exact absurd ht hout
    | none =>
      rw [edit, addTopic, hid, Array.size_push] at ht
      refine ⟨edits, name, [], rfl, ?_⟩
      rw [addTopic, hid]
      exact Nat.le_antisymm hsize (Nat.lt_succ_iff.mp ht)
  · rw [size_edit (not_exists.mp hadd)] at ht
    exact absurd ht hout

/-- The number of every topic was returned. -/
theorem returned_of_lt (ht : t < (made edits).topics.size) : Returned edits t := by
  induction edits using List.reverseRecOn with
  | nil => exact absurd ht (Nat.not_lt_zero t)
  | append_singleton edits e ih =>
    by_cases hold : t < (made edits).topics.size
    · exact (ih hold).append [e]
    · exact returned_of_size_le (Nat.not_lt.mp hold) ht

/-! ## Runs and what is built -/

theorem Proper.built (h : Proper edits) : (made edits).Built := by
  induction h with
  | nil => exact .empty
  | @snoc edits e _ htakes ih =>
    rw [made_snoc]
    have hthere : ∀ t ∈ e.takes, t < (made edits).topics.size := fun t ht => (htakes t ht).lt
    cases e with
    | addTopic name => exact ih.addTopic name
    | addTrigger t trigger => exact ih.addTrigger trigger (hthere t (by simp [Edit.takes]))
    | addInclude t other => exact ih.addInclude (hthere t (by simp [Edit.takes])) (hthere other (by simp [Edit.takes]))
    | addInherit t other => exact ih.addInherit (hthere t (by simp [Edit.takes])) (hthere other (by simp [Edit.takes]))

theorem Proper.snoc_of_lt (h : Proper edits) (htakes : ∀ t ∈ e.takes, t < (made edits).topics.size) :
    Proper (edits ++ [e]) ∧ made (edits ++ [e]) = (made edits).edit e :=
  ⟨h.snoc fun t ht => returned_of_lt (htakes t ht), made_snoc edits e⟩

theorem exists_proper_of_built (h : c.Built) : ∃ edits, Proper edits ∧ made edits = c := by
  induction h with
  | empty => exact ⟨[], .nil, rfl⟩
  | addTopic name _ ih =>
    obtain ⟨edits, hproper, rfl⟩ := ih
    exact ⟨_, hproper.snoc_of_lt (e := .addTopic name) (by simp [Edit.takes])⟩
  | @addTrigger _ t trigger _ ht ih =>
    obtain ⟨edits, hproper, rfl⟩ := ih
    exact ⟨_, hproper.snoc_of_lt (e := .addTrigger t trigger) (by simpa [Edit.takes] using ht)⟩
  | @addInclude _ t other _ ht hother ih =>
    obtain ⟨edits, hproper, rfl⟩ := ih
    exact ⟨_, hproper.snoc_of_lt (e := .addInclude t other) (by simpa [Edit.takes] using ⟨ht, hother⟩)⟩
  | @addInherit _ t other _ ht hother ih =>
    obtain ⟨edits, hproper, rfl⟩ := ih
    exact ⟨_, hproper.snoc_of_lt (e := .addInherit t other) (by simpa [Edit.takes] using ⟨ht, hother⟩)⟩

/-! ## Lists of triggers -/

/-- The trigger that a call adds to this topic. -/
def Edit.addedTo (t : TopicId) : Edit → Option Trigger
  | .addTrigger u trigger => if u = t then some trigger else none
  | _ => none

theorem Edit.adds_or_none (e : Edit) : (∃ t trigger, e = .addTrigger t trigger) ∨ ∀ t, e.addedTo t = none := by
  cases e with
  | addTrigger t trigger => exact .inl ⟨t, trigger, rfl⟩
  | _ => exact .inr fun _ => rfl

/-- A new topic has nothing in its lists. -/
theorem lists_addTopic {α : Type} {g : Topic → List α} {name : String} (hg : g { name } = []) (c : Catalog) (t : TopicId) :
    ((c.addTopic name).1.topics[t]?.map g).getD [] = (c.topics[t]?.map g).getD [] := by
  cases hid : c.topicId? name with
  | some u => rw [addTopic_of_mem hid]
  | none =>
    rw [getElem?_addTopic hid]
    by_cases ht : t = c.topics.size
    · subst ht
      simp [hg]
    · rw [if_neg ht]

/-- What an edit of one topic leaves in it, it leaves in all. -/
theorem read_of_modify {α : Type} {f : Topic → Topic} {g : Topic → α}
    (hmodify : ∀ v : TopicId, d.topics[v]? = if t = v then c.topics[v]?.map f else c.topics[v]?)
    (hf : ∀ topic, g (f topic) = g topic) (u : TopicId) : d.topics[u]?.map g = c.topics[u]?.map g := by
  rw [hmodify]
  by_cases htu : t = u
  · rw [if_pos htu, Option.map_map, Function.comp_def, funext hf]
  · rw [if_neg htu]

/-- A call that adds no trigger leaves the lists of triggers, and the triggers. -/
theorem ownTriggers_edit (hnone : ∀ u, e.addedTo u = none) (c : Catalog) (t : TopicId) :
    (c.edit e).ownTriggers t = c.ownTriggers t ∧ (c.edit e).triggers = c.triggers := by
  cases e with
  | addTopic name => exact ⟨lists_addTopic rfl c t, triggers_addTopic c name⟩
  | addTrigger u trigger => exact absurd (hnone u) (by simp [Edit.addedTo])
  | addInclude u other =>
    have hkept := read_of_modify (g := Topic.triggers) (fun _ => getElem?_addInclude (c := c) (t := u) other) (fun _ => rfl) t
    exact ⟨congrArg (Option.getD · []) hkept, rfl⟩
  | addInherit u other =>
    have hkept := read_of_modify (g := Topic.triggers) (fun _ => getElem?_addInherit (c := c) (t := u) other) (fun _ => rfl) t
    exact ⟨congrArg (Option.getD · []) hkept, rfl⟩

/-- Lists of triggers are as they were or longer, and triggers have the keys and topics they had. -/
structure Extends (c d : Catalog) : Prop where
  lists : ∀ t, c.ownTriggers t <+: d.ownTriggers t
  kept : ∀ {id : TriggerId} {v : Trigger}, c.triggers[id]? = some v →
    ∃ w, d.triggers[id]? = some w ∧ w.key = v.key ∧ w.topic = v.topic

theorem Extends.refl (c : Catalog) : Extends c c := ⟨fun _ => List.prefix_rfl, fun h => ⟨_, h, rfl, rfl⟩⟩

theorem Extends.trans {b : Catalog} (h : Extends b c) (h' : Extends c d) : Extends b d := by
  refine ⟨fun t => (h.lists t).trans (h'.lists t), fun hv => ?_⟩
  obtain ⟨w, hw, hkey, htopic⟩ := h.kept hv
  obtain ⟨x, hx, hkey', htopic'⟩ := h'.kept hw
  exact ⟨x, hx, hkey'.trans hkey, htopic'.trans htopic⟩

theorem extends_addTrigger (c : Catalog) (t : TopicId) (trigger : Trigger) : Extends c (c.addTrigger t trigger).1 := by
  cases hkey : c.triggerWithKey? t trigger.key with
  | some id =>
    rw [addTrigger, hkey]
    refine ⟨fun _ => List.prefix_rfl, fun {i v} hv => ?_⟩
    rw [Array.getElem?_modify, hv]
    by_cases hi : id = i
    · exact ⟨v.merge trigger, by rw [if_pos hi, Option.map_some], rfl, rfl⟩
    · exact ⟨v, by rw [if_neg hi], rfl, rfl⟩
  | none =>
    refine ⟨fun u => ?_, fun {i v} hv => ?_⟩
    · have hread := getElem?_addTrigger (u := u) hkey
      unfold ownTriggers
      by_cases hu : t = u
      · rw [hread, if_pos hu]
        cases c.topics[u]? with
        | none => exact List.prefix_rfl
        | some topic => exact List.prefix_append _ _
      · rw [if_neg hu] at hread
        exact ⟨[], by rw [List.append_nil, hread]⟩
    · have hlt := (Array.getElem?_eq_some_iff.mp hv).1
      rw [triggers_addTrigger hkey, Array.getElem?_push, if_neg (Nat.ne_of_lt hlt)]
      exact ⟨v, hv, rfl, rfl⟩

theorem extends_edit (c : Catalog) (e : Edit) : Extends c (c.edit e) := by
  rcases e.adds_or_none with ⟨t, trigger, rfl⟩ | hnone
  · exact extends_addTrigger c t trigger
  · refine ⟨fun t => ?_, fun {id v} hv => ⟨v, ?_, rfl, rfl⟩⟩
    · exact ⟨[], by rw [List.append_nil, (ownTriggers_edit hnone c t).1]⟩
    · rw [(ownTriggers_edit hnone c 0).2, hv]

theorem extends_append (edits more : List Edit) : Extends (made edits) (made (edits ++ more)) := by
  rw [made_append]
  exact List.foldlRecOn (motive := Extends _) more edit (Extends.refl _) fun d h e _ => h.trans (extends_edit d e)

end Catalog

end Repartee
