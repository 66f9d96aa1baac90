/-
  Repartee.Proofs.Joined.Declared — what the topics of a script declare, name by name.

  The topics of a script have different names, and the first is the home topic. What is declared
  under a name is read off without line numbers. Topics that are declared in two parts have the
  edges and triggers of the first part, and then those that the second part adds.

  Proved:
  - An edit of one topic changes what is declared under its name only (`declaredIn_modify`).
  - Two parts and their whole stay so under an edit that does the same to the second part and to
    the whole (`Joins.modify`), and under a search for a name, which may add a topic (`Joins.withName`).
-/

import Repartee.Script.Reader

namespace Repartee.Script

/-! ## Line numbers aside -/

def bare (l : Line) : Line := { l with number := 0 }

/-- The trigger as if all its lines were on line 0. -/
def Trigger.bare (t : Trigger) : Trigger :=
  { pattern := Script.bare t.pattern
    previous := t.previous.map Script.bare
    replies := t.replies.map Script.bare
    conditions := t.conditions.map Script.bare
    redirect := t.redirect.map Script.bare }

/-- What is declared under the name of a topic. -/
structure Declared where
  includes : List String := []
  inherits : List String := []
  triggers : List Trigger := []

def Topic.declared (t : Topic) : Declared :=
  { includes := t.includes, inherits := t.inherits, triggers := t.triggers.map Trigger.bare }

/-- A declaration in two parts: an edge that both have is one edge. -/
def Declared.append (d e : Declared) : Declared :=
  { includes := e.includes.foldl Reader.pushUnique d.includes
    inherits := e.inherits.foldl Reader.pushUnique d.inherits
    triggers := d.triggers ++ e.triggers }

theorem mem_pushUnique {names : List String} {name other : String} :
    other ∈ Reader.pushUnique names name ↔ other ∈ names ∨ other = name := by
  rw [Reader.pushUnique]
  by_cases h : names.contains name = true
  · rw [if_pos h]
    constructor
    · exact .inl
    · intro hor
      rcases hor with hmem | rfl
      · exact hmem
      · exact List.contains_iff_mem.mp h
  · rw [if_neg h, List.mem_append, List.mem_singleton]

theorem mem_foldl_pushUnique {names more : List String} {name : String} :
    name ∈ more.foldl Reader.pushUnique names ↔ name ∈ names ∨ name ∈ more := by
  induction more generalizing names with
  | nil => simp
  | cons other more ih => rw [List.foldl_cons, ih, mem_pushUnique, List.mem_cons, or_assoc]

/-- Adding a name to what is added, or to the outcome, is the same. -/
theorem foldl_pushUnique (names more : List String) (name : String) :
    (Reader.pushUnique more name).foldl Reader.pushUnique names =
      Reader.pushUnique (more.foldl Reader.pushUnique names) name := by
  by_cases h : more.contains name = true
  · have hmem : (more.foldl Reader.pushUnique names).contains name = true :=
      List.contains_iff_mem.mpr (mem_foldl_pushUnique.mpr (.inr (List.contains_iff_mem.mp h)))
    rw [Reader.pushUnique, if_pos h, Reader.pushUnique, if_pos hmem]
  · rw [Reader.pushUnique, if_neg h, List.foldl_append]
    rfl

/-! ## Topics by name -/

/-- What topics declare under a name: nothing, if there is none of that name. -/
def declaredIn (ts : List Topic) (name : String) : Declared :=
  ((ts.find? (·.name = name)).map Topic.declared).getD {}

/-- Names are had once, and the first topic is the home topic. -/
structure Tidy (ts : List Topic) : Prop where
  once : ∀ {i k : Nat} {t u : Topic}, ts[i]? = some t → ts[k]? = some u → t.name = u.name → i = k
  home : ∃ t, ts[0]? = some t ∧ t.name = homeTopic

section Topics

variable {ts : List Topic} {t : Topic} {i : Nat} {f : Topic → Topic} {name : String}

theorem declaredIn_of_none (h : ∀ t ∈ ts, t.name ≠ name) : declaredIn ts name = {} := by
  rw [declaredIn, List.find?_eq_none.mpr fun t ht => by simpa using h t ht]
  rfl

theorem Tidy.declaredIn_eq (h : Tidy ts) (ht : ts[i]? = some t) : declaredIn ts t.name = t.declared := by
  cases hfind : ts.find? (·.name = t.name) with
  | none => exact absurd (List.find?_eq_none.mp hfind t (List.mem_of_getElem? ht)) (by simp)
  | some u =>
    obtain ⟨k, hu⟩ := List.mem_iff_getElem?.mp (List.mem_of_find?_eq_some hfind)
    have hname : u.name = t.name := by simpa using List.find?_some hfind
    cases h.once hu ht hname
    cases hu.symm.trans ht
    rw [declaredIn, hfind]
    rfl

/-- The topic at a place of an edited list. -/
theorem exists_of_getElem?_modify {k : Nat} {u : Topic} (h : (ts.modify i f)[k]? = some u) :
    ∃ t, ts[k]? = some t ∧ (i = k ∧ u = f t ∨ i ≠ k ∧ u = t) := by
  rw [List.getElem?_modify] at h
  obtain ⟨t, ht, rfl⟩ := Option.map_eq_some_iff.mp h
  by_cases hik : i = k
  · exact ⟨t, ht, .inl ⟨hik, if_pos hik⟩⟩
  · exact ⟨t, ht, .inr ⟨hik, if_neg hik⟩⟩

theorem name_of_getElem?_modify {k : Nat} {u : Topic} (ht : ts[i]? = some t) (hname : (f t).name = t.name)
    (h : (ts.modify i f)[k]? = some u) : ∃ v, ts[k]? = some v ∧ u.name = v.name := by
  obtain ⟨v, hv, ⟨rfl, rfl⟩ | ⟨-, rfl⟩⟩ := exists_of_getElem?_modify h
  · cases ht.symm.trans hv
    exact ⟨t, ht, hname⟩
  · exact ⟨u, hv, rfl⟩

theorem Tidy.modify (h : Tidy ts) (ht : ts[i]? = some t) (hname : (f t).name = t.name) : Tidy (ts.modify i f) := by
  refine ⟨fun {k l u v} hu hv heq => ?_, ?_⟩
  · obtain ⟨u', hu', hname'⟩ := name_of_getElem?_modify ht hname hu
    obtain ⟨v', hv', hname''⟩ := name_of_getElem?_modify ht hname hv
    exact h.once hu' hv' (by rw [← hname', ← hname'', heq])
  · obtain ⟨first, hfirst, hhome⟩ := h.home
    by_cases hi : i = 0
    · subst hi
      cases ht.symm.trans hfirst
      exact ⟨f t, by simp [ht], hname.trans hhome⟩
    · exact ⟨first, by simp [hi, hfirst], hhome⟩

/-- To edit one of the elements and then look at all of them is to edit what is seen of it. -/
theorem map_modify {α β : Type} {g : α → β} {edit : α → α} {edit' : β → β} {as : List α} {i : Nat}
    (h : ∀ a, as[i]? = some a → g (edit a) = edit' (g a)) : (as.modify i edit).map g = (as.map g).modify i edit' := by
  refine List.ext_getElem? fun k => ?_
  simp only [List.getElem?_map, List.getElem?_modify]
  by_cases hik : i = k
  · subst hik
    cases ha : as[i]? with
    | none => rfl
    | some a => simp [h a ha]
  · simp [hik]

theorem map_modify_of_eq {α β : Type} {g : α → β} {edit : α → α} {as : List α} {i : Nat}
    (h : ∀ a, as[i]? = some a → g (edit a) = g a) : (as.modify i edit).map g = as.map g :=
  (map_modify h).trans (List.modify_id i (as.map g))

theorem map_name_modify (ht : ts[i]? = some t) (hname : (f t).name = t.name) :
    (ts.modify i f).map (·.name) = ts.map (·.name) := by
  apply map_modify_of_eq
  intro u hu
  cases ht.symm.trans hu
  exact hname

theorem declaredIn_modify (h : Tidy ts) (ht : ts[i]? = some t) (hname : (f t).name = t.name) (name : String) :
    declaredIn (ts.modify i f) name = if name = t.name then (f t).declared else declaredIn ts name := by
  by_cases heq : name = t.name
  · have hedited : (ts.modify i f)[i]? = some (f t) := by simp [ht]
    rw [if_pos heq, heq, ← hname]
    exact (h.modify ht hname).declaredIn_eq hedited
  · rw [if_neg heq]
    by_cases hmem : ∃ u ∈ ts, u.name = name
    · obtain ⟨u, hu, rfl⟩ := hmem
      obtain ⟨k, hk⟩ := List.mem_iff_getElem?.mp hu
      have hik : i ≠ k := by
        rintro rfl
        cases ht.symm.trans hk
        exact heq rfl
      have hkept : (ts.modify i f)[k]? = some u := by simp [hik, hk]
      rw [(h.modify ht hname).declaredIn_eq hkept, h.declaredIn_eq hk]
    · rw [declaredIn_of_none fun u hu hname' => hmem ⟨u, hu, hname'⟩, declaredIn_of_none fun u hu hname' => ?_]
      obtain ⟨k, hk⟩ := List.mem_iff_getElem?.mp hu
      obtain ⟨v, hv, hsame⟩ := name_of_getElem?_modify ht hname hk
      exact hmem ⟨v, List.mem_of_getElem? hv, hsame.symm.trans hname'⟩

/-- The topics with one of the given name, declared on `line` if it is new. -/
def withName (ts : List Topic) (name : String) (line : Nat) : List Topic :=
  if ts.any (·.name = name) then ts else ts ++ [({ name, line } : Topic)]

theorem any_name_iff : ts.any (·.name = name) = true ↔ name ∈ ts.map (·.name) := by
  simp [List.any_eq_true]

theorem mem_names_withName {other : String} (line : Nat) :
    other ∈ (withName ts name line).map (·.name) ↔ other ∈ ts.map (·.name) ∨ other = name := by
  rw [withName]
  by_cases h : ts.any (·.name = name) = true
  · rw [if_pos h]
    constructor
    · exact .inl
    · intro hor
      rcases hor with hmem | rfl
      · exact hmem
      · exact any_name_iff.mp h
  · rw [if_neg h, List.map_append, List.mem_append, List.map_singleton, List.mem_singleton]

theorem declaredIn_withName (name : String) (line : Nat) (other : String) :
    declaredIn (withName ts name line) other = declaredIn ts other := by
  rw [withName]
  by_cases h : ts.any (·.name = name) = true
  · rw [if_pos h]
  · rw [if_neg h, declaredIn, declaredIn, List.find?_append]
    cases ts.find? (·.name = other) with
    | some t => rfl
    | none =>
      by_cases hother : name = other
      · rw [List.find?_cons_of_pos (by simpa using hother)]
        rfl
      · rw [List.find?_cons_of_neg (by simpa using hother)]
        rfl

theorem Tidy.withName (h : Tidy ts) (name : String) (line : Nat) : Tidy (Script.withName ts name line) := by
  rw [Script.withName]
  by_cases hname : ts.any (·.name = name) = true
  · rwa [if_pos hname]
  · rw [if_neg hname]
    have hnew : ∀ {k : Nat} {u : Topic}, ts[k]? = some u → u.name ≠ name := fun hu heq =>
      hname (any_name_iff.mpr (heq ▸ List.mem_map_of_mem (List.mem_of_getElem? hu)))
    have hcases : ∀ {k : Nat} {u : Topic}, (ts ++ [({ name, line } : Topic)])[k]? = some u →
        ts[k]? = some u ∨ k = ts.length ∧ u.name = name := by
      intro k u hu
      rcases Nat.lt_or_ge k ts.length with hlt | hge
      · rw [List.getElem?_append_left hlt] at hu
        exact .inl hu
      · rw [List.getElem?_append_right hge] at hu
        obtain ⟨hlt, rfl⟩ := List.getElem?_eq_some_iff.mp hu
        rw [List.length_singleton] at hlt
        exact .inr ⟨by omega, by rw [List.getElem_singleton]⟩
    refine ⟨fun {k l u v} hu hv heq => ?_, ?_⟩
    · rcases hcases hu with hu | ⟨hk, hu⟩ <;> rcases hcases hv with hv | ⟨hl, hv⟩
      · exact h.once hu hv heq
      · exact absurd (heq.trans hv) (hnew hu)
      · exact absurd (heq.symm.trans hu) (hnew hv)
      · rw [hk, hl]
    · obtain ⟨first, hfirst, hhome⟩ := h.home
      exact ⟨first, by rw [List.getElem?_append_left (List.getElem?_eq_some_iff.mp hfirst).1, hfirst], hhome⟩

end Topics

/-! ## The topics that every script begins with -/

/-- Only the home topic, with nothing declared. -/
def bareHome : List Topic := [{ name := homeTopic, line := 0 }]

theorem tidy_bareHome : Tidy bareHome := by
  refine ⟨fun {i k t u} ht hu _ => ?_, ⟨_, rfl, rfl⟩⟩
  have hi := (List.getElem?_eq_some_iff.mp ht).1
  have hk := (List.getElem?_eq_some_iff.mp hu).1
  simp only [bareHome, List.length_singleton] at hi hk
  omega

theorem declaredIn_bareHome (name : String) : declaredIn bareHome name = {} := by
  by_cases hhome : name = homeTopic
  · rw [hhome]
    exact tidy_bareHome.declaredIn_eq (i := 0) rfl
  · refine declaredIn_of_none fun t ht heq => hhome ?_
    rw [← heq, List.mem_singleton.mp ht]

/-! ## Two parts and their whole -/

/-- The topics `ts` declare what `as` and after them `bs` declare. -/
structure Joins (as bs ts : List Topic) : Prop where
  part : Tidy bs
  whole : Tidy ts
  names : ∀ name, name ∈ ts.map (·.name) ↔ name ∈ as.map (·.name) ∨ name ∈ bs.map (·.name)
  declared : ∀ name, declaredIn ts name = (declaredIn as name).append (declaredIn bs name)

section Joins

variable {as bs ts : List Topic}

theorem Joins.withName (h : Joins as bs ts) (name : String) (line line' : Nat) :
    Joins as (Script.withName bs name line) (Script.withName ts name line') := by
  refine ⟨h.part.withName name line, h.whole.withName name line', fun other => ?_, fun other => ?_⟩
  · rw [mem_names_withName, mem_names_withName, h.names, or_assoc]
  · rw [declaredIn_withName, declaredIn_withName, h.declared]

/-- The second part and the whole may be edited alike, at a topic of one name. -/
theorem Joins.modify (h : Joins as bs ts) {i k : Nat} {t u : Topic} {f g : Topic → Topic} (ht : bs[i]? = some t)
    (hu : ts[k]? = some u) (hname : t.name = u.name) (hf : (f t).name = t.name) (hg : (g u).name = u.name)
    (halike : ∀ d : Declared, u.declared = d.append t.declared → (g u).declared = d.append (f t).declared) :
    Joins as (bs.modify i f) (ts.modify k g) := by
  refine ⟨h.part.modify ht hf, h.whole.modify hu hg, fun name => ?_, fun name => ?_⟩
  · rw [map_name_modify ht hf, map_name_modify hu hg, h.names]
  · rw [declaredIn_modify h.part ht hf, declaredIn_modify h.whole hu hg, hname]
    by_cases heq : name = u.name
    · rw [if_pos heq, if_pos heq]
      refine halike _ ?_
      rw [← h.whole.declaredIn_eq hu, ← h.part.declaredIn_eq ht, hname, heq]
      exact h.declared u.name
    · rw [if_neg heq, if_neg heq]
      exact h.declared name

end Joins

/-! ## Names that are mentioned -/

/-- A topic has the name, or an edge leads to it. -/
def Mentions (ts : List Topic) (name : String) : Prop :=
  ∃ t ∈ ts, name = t.name ∨ name ∈ t.includes ∨ name ∈ t.inherits

theorem Tidy.nodup {ts : List Topic} (h : Tidy ts) : (ts.map (·.name)).Nodup := by
  rw [List.Nodup, List.pairwise_iff_getElem]
  intro i k hi hk hik heq
  simp only [List.getElem_map, List.length_map] at heq hi hk
  have := h.once (List.getElem?_eq_getElem hi) (List.getElem?_eq_getElem hk) heq
  omega

theorem declaredIn_cons (t : Topic) (ts : List Topic) (name : String) :
    declaredIn (t :: ts) name = if name = t.name then t.declared else declaredIn ts name := by
  by_cases h : name = t.name
  · rw [if_pos h, declaredIn, List.find?_cons_of_pos (by simpa using h.symm)]
    rfl
  · rw [if_neg h, declaredIn, List.find?_cons_of_neg (by simpa using fun heq : t.name = name => h heq.symm)]
    rfl

/-- What is declared under some name is declared by a topic, and the other way round. -/
theorem Tidy.exists_declared_iff {ts : List Topic} (h : Tidy ts) {p : Declared → Prop} (hempty : ¬ p {}) :
    (∃ name, p (declaredIn ts name)) ↔ ∃ t ∈ ts, p t.declared := by
  constructor
  · intro ⟨name, hp⟩
    by_cases hknown : ∃ t ∈ ts, t.name = name
    · obtain ⟨t, ht, rfl⟩ := hknown
      obtain ⟨i, hi⟩ := List.mem_iff_getElem?.mp ht
      rw [h.declaredIn_eq hi] at hp
      exact ⟨t, ht, hp⟩
    · rw [declaredIn_of_none fun t ht hname => hknown ⟨t, ht, hname⟩] at hp
      exact absurd hp hempty
  · intro ⟨t, ht, hp⟩
    obtain ⟨i, hi⟩ := List.mem_iff_getElem?.mp ht
    exact ⟨t.name, by rwa [h.declaredIn_eq hi]⟩

theorem Tidy.mentions_iff {ts : List Topic} (h : Tidy ts) {name : String} :
    Mentions ts name ↔ name ∈ ts.map (·.name) ∨
      ∃ other, name ∈ (declaredIn ts other).includes ∨ name ∈ (declaredIn ts other).inherits := by
  rw [h.exists_declared_iff (p := fun d => name ∈ d.includes ∨ name ∈ d.inherits) (by simp), List.mem_map]
  constructor
  · intro ⟨t, ht, hor⟩
    rcases hor with hname | hedge
    · exact .inl ⟨t, ht, hname.symm⟩
    · exact .inr ⟨t, ht, hedge⟩
  · intro hor
    rcases hor with ⟨t, ht, hname⟩ | ⟨t, ht, hedge⟩
    · exact ⟨t, ht, .inl hname.symm⟩
    · exact ⟨t, ht, .inr hedge⟩

theorem mentions_bareHome {name : String} : Mentions bareHome name ↔ name = homeTopic := by
  simp [Mentions, bareHome]

theorem Joins.mentions {as bs ts : List Topic} (h : Joins as bs ts) (has : Tidy as) (name : String) :
    Mentions ts name ↔ Mentions as name ∨ Mentions bs name := by
  rw [h.whole.mentions_iff, has.mentions_iff, h.part.mentions_iff, h.names]
  simp only [h.declared, Declared.append, mem_foldl_pushUnique]
  constructor
  · intro hor
    rcases hor with (hname | hname) | ⟨other, (hedge | hedge) | hedge | hedge⟩
    · exact .inl (.inl hname)
    · exact .inr (.inl hname)
    · exact .inl (.inr ⟨other, .inl hedge⟩)
    · exact .inr (.inr ⟨other, .inl hedge⟩)
    · exact .inl (.inr ⟨other, .inr hedge⟩)
    · exact .inr (.inr ⟨other, .inr hedge⟩)
  · intro hor
    rcases hor with (hname | ⟨other, hedge | hedge⟩) | hname | ⟨other, hedge | hedge⟩
    · exact .inl (.inl hname)
    · exact .inr ⟨other, .inl (.inl hedge)⟩
    · exact .inr ⟨other, .inr (.inl hedge)⟩
    · exact .inl (.inr hname)
    · exact .inr ⟨other, .inl (.inr hedge)⟩
    · exact .inr ⟨other, .inr (.inr hedge)⟩

end Repartee.Script
