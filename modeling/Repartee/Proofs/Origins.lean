/-
  Repartee.Proofs.Origins — what all triggers of a rulebook have in common.

  A trigger of a rulebook was compiled from a script and may have been merged with others of its
  patterns, also compiled. So a property that compiling gives and merging keeps is a property of
  every trigger of every rulebook.

  Proved:
  - What the parts of a trigger were compiled from (`parts_of_compiled?`).
  - Every trigger of a rulebook has what compiling gives and merging keeps (`inherent_of_build`).
-/

import Repartee.Proofs.Joined.Rulebooks

namespace Repartee

/-- A property that triggers have when they are compiled and keep when they are put in a catalog. -/
structure Trigger.Inherent (P : Trigger → Prop) : Prop where
  compiled : ∀ {scope : Pattern.Scope} {t : Script.Trigger} {v : Trigger}, Rulebook.compiled? scope t = some v → P v
  moved : ∀ {v : Trigger} (t : TopicId), P v → P { v with topic := t }
  merge : ∀ {t v : Trigger}, P t → P v → P (t.merge v)

/-- All triggers of the catalog have the property. -/
def Catalog.All (P : Trigger → Prop) (c : Catalog) : Prop := ∀ trigger ∈ c.triggers, P trigger

namespace Rulebook

variable {P : Trigger → Prop} {scope : Pattern.Scope} {c : Catalog}

theorem parts_of_compiled? {t : Script.Trigger} {v : Trigger} (h : compiled? scope t = some v) :
    Pattern.compile scope t.pattern.text = .ok v.pattern ∧ t.redirect.mapM (compileReply "") = .ok v.redirect := by
  have hcompile : compileTrigger scope "" t = .ok v := compileTrigger_eq_ok.mpr h
  obtain ⟨pattern, hpattern, hrest⟩ := bind_eq_ok.mp hcompile
  obtain ⟨previous, -, hrest⟩ := bind_eq_ok.mp hrest
  obtain ⟨replies, -, hrest⟩ := bind_eq_ok.mp hrest
  obtain ⟨conditions, -, hrest⟩ := bind_eq_ok.mp hrest
  obtain ⟨redirect, hredirect, hrest⟩ := bind_eq_ok.mp hrest
  cases hrest
  exact ⟨atLine_eq_ok.mp hpattern, hredirect⟩

theorem triggers_addEdges {add : Catalog → TopicId → TopicId → Catalog} {t : TopicId}
    (hadd : ∀ c other, (add c t other).triggers = c.triggers) (names : List String) :
    (addEdges add t c names).triggers = c.triggers := by
  rw [addEdges]
  induction names generalizing c with
  | nil => rfl
  | cons name names ih => rw [List.foldl_cons, ih, hadd, Catalog.triggers_addTopic]

section Inherent

variable (hP : Trigger.Inherent P)

include hP

theorem inherent_addTrigger (h : c.All P) {v : Trigger} (hv : P v) (t : TopicId) : (c.addTrigger t v).1.All P := by
  intro trigger htrigger
  rw [Catalog.addTrigger] at htrigger
  cases hid : c.triggerWithKey? t v.key with
  | some id =>
    rw [hid] at htrigger
    obtain ⟨i, hi⟩ := Array.mem_iff_getElem?.mp htrigger
    rw [Array.getElem?_modify] at hi
    by_cases heq : id = i
    · rw [if_pos heq] at hi
      obtain ⟨old, hold, rfl⟩ := Option.map_eq_some_iff.mp hi
      exact hP.merge (h old (Array.mem_of_getElem? hold)) hv
    · rw [if_neg heq] at hi
      exact h trigger (Array.mem_of_getElem? hi)
  | none =>
    rw [hid] at htrigger
    rcases Array.mem_push.mp htrigger with hold | rfl
    · exact h trigger hold
    · exact hP.moved t hv

theorem inherent_declare (h : c.All P) (topic : Script.Topic) : (declare scope c topic).All P := by
  refine List.foldlRecOn (motive := Catalog.All P) _ _ ?_ fun c hc v hv => ?_
  · intro trigger htrigger
    rw [triggers_addEdges fun _ _ => rfl, triggers_addEdges fun _ _ => rfl] at htrigger
    exact h trigger (Catalog.triggers_addTopic c topic.name ▸ htrigger)
  · obtain ⟨trigger, -, hcompiled⟩ := List.mem_filterMap.mp hv
    exact inherent_addTrigger hP hc (hP.compiled hcompiled) _

end Inherent

theorem all_homeCatalog : homeCatalog.All P := by
  intro trigger htrigger
  exact absurd htrigger (by simp [homeCatalog, Catalog.triggers_addTopic])

/-- Every trigger of a rulebook has what compiling gives and merging keeps. -/
theorem inherent_of_build (hP : Trigger.Inherent P) {punctuation : Regex} {settings : Settings} {scripts : List Script}
    {r : Rulebook} (h : build punctuation settings scripts = .ok r) : r.catalog.All P := by
  obtain ⟨catalog, hcatalog, rfl⟩ := build_eq_ok.mp h
  obtain ⟨-, rfl⟩ := catalogOf_eq_ok.mp hcatalog
  rw [← List.foldl_flatMap]
  exact List.foldlRecOn (motive := Catalog.All P) _ _ all_homeCatalog fun _ h topic _ => inherent_declare hP h topic

end Rulebook

end Repartee
