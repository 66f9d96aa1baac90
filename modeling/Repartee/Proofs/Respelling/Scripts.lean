/-
  Repartee.Proofs.Respelling.Scripts — rules whose replies are in two spellings.

  Of a script, the replies, conditions and redirects of its triggers may be in another spelling.
  Everything else is the same, so the compiled rules have the same topics, the same triggers at
  the same numbers and the same rankings, and related triggers say the same pieces.

  Proved:
  - A trigger compiles in both spellings or in neither (`compiled?_alike`).
  - What is done to two catalogs alike leaves them parallel (`Catalog.Parallel.addTrigger`,
    `parallel_declare`).
  - Rules compile in the other spelling if they do in the one, and are parallel
    (`build_respelled`).
-/

import Repartee.Proofs.Joined.Rulebooks
import Repartee.Proofs.Rendering
import Repartee.Proofs.Respelling.Templates

namespace Repartee

open Template (Respelled SameOutcome)

/-! ## Scripts in two spellings -/

namespace Script

/-- The text of a reply, condition or redirect in another spelling. -/
def RespelledLine (l l' : Line) : Prop := Respelled [] false l.text.toList l'.text.toList

structure Trigger.Respelled (t t' : Trigger) : Prop where
  pattern : t'.pattern = t.pattern
  previous : t'.previous = t.previous
  replies : List.Forall₂ RespelledLine t.replies t'.replies
  conditions : List.Forall₂ RespelledLine t.conditions t'.conditions
  redirect : Option.Rel RespelledLine t.redirect t'.redirect

structure Topic.Respelled (t t' : Topic) : Prop where
  name : t'.name = t.name
  includes : t'.includes = t.includes
  inherits : t'.inherits = t.inherits
  triggers : List.Forall₂ Trigger.Respelled t.triggers t'.triggers

end Script

structure Script.Respelled (s s' : Script) : Prop where
  version : s'.version = s.version
  globals : s'.globals = s.globals
  vars : s'.vars = s.vars
  subs : s'.subs = s.subs
  arrays : s'.arrays = s.arrays
  topics : List.Forall₂ Script.Topic.Respelled s.topics s'.topics

/-! ## Triggers -/

/-- The same trigger, but for the sources of what it says. -/
structure Trigger.Alike (t t' : Trigger) : Prop where
  pattern : t.pattern = t'.pattern
  previous : t.previous = t'.previous
  replies : List.Forall₂ Template.Alike t.replies t'.replies
  conditions : List.Forall₂ Condition.Alike t.conditions t'.conditions
  redirect : Option.Rel Template.Alike t.redirect t'.redirect

/-- What is added to triggers that are alike leaves them alike. -/
theorem Trigger.Alike.merge {t t' v v' : Trigger} (h : t.Alike t') (hv : v.Alike v') : (t.merge v).Alike (t'.merge v') :=
  ⟨h.pattern, h.previous, List.rel_append h.replies hv.replies, List.rel_append h.conditions hv.conditions,
    Template.rel_orElse hv.redirect h.redirect⟩

namespace Rulebook

variable {scope : Pattern.Scope} {R : Trigger → Trigger → Prop}

theorem atLine_outcome {α β : Type} {R : α → β → Prop} {x : Except RuleFault α} {y : Except RuleFault β} {l l' : Line}
    (h : SameOutcome R x y) : SameOutcome R (atLine "" l x) (atLine "" l' y) := by
  cases h with
  | ok hab => exact .ok hab
  | error e e' => exact .error _ _

theorem compileTrigger_alike (scope : Pattern.Scope) {t t' : Script.Trigger} (h : t.Respelled t') :
    SameOutcome Trigger.Alike (compileTrigger scope "" t) (compileTrigger scope "" t') := by
  have hsame : ∀ {α : Type} (x : Except LoadError α), SameOutcome Eq x x := by
    intro α x
    cases x with
    | ok a => exact .ok rfl
    | error e => exact .error e e
  rw [compileTrigger, compileTrigger, h.pattern, h.previous]
  refine (hsame (compilePattern scope "" t.pattern)).bind fun pattern _ hpattern => ?_
  refine (hsame (t.previous.mapM (compilePattern scope ""))).bind fun previous _ hprevious => ?_
  refine (SameOutcome.mapM h.replies fun _ _ _ hl => atLine_outcome (Template.read_alike hl)).bind
    fun replies replies' hreplies => ?_
  refine (SameOutcome.mapM h.conditions fun _ _ _ hl => atLine_outcome (Condition.read_alike hl)).bind
    fun conditions conditions' hconditions => ?_
  refine (SameOutcome.optionMapM h.redirect fun _ _ hl => atLine_outcome (Template.read_alike hl)).bind
    fun redirect redirect' hredirect => ?_
  exact .ok ⟨hpattern, hprevious, hreplies, hconditions, hredirect⟩

/-- A trigger compiles in both spellings or in neither. -/
theorem compiled?_alike (scope : Pattern.Scope) {t t' : Script.Trigger} (h : t.Respelled t') :
    Option.Rel Trigger.Alike (compiled? scope t) (compiled? scope t') := by
  have htoOption : ∀ t, compiled? scope t = (compileTrigger scope "" t).toOption := by
    intro t
    cases hcompiled : compiled? scope t with
    | none =>
      cases htrigger : compileTrigger scope "" t with
      | error e => rfl
      | ok v =>
        rw [compileTrigger_eq_ok.mp htrigger] at hcompiled
        cases hcompiled
    | some v =>
      rw [compileTrigger_eq_ok.mpr hcompiled]
      rfl
  have houtcome := compileTrigger_alike scope h
  rw [htoOption, htoOption]
  revert houtcome
  generalize compileTrigger scope "" t = x
  generalize compileTrigger scope "" t' = x'
  intro houtcome
  cases houtcome with
  | ok hv => exact .some hv
  | error e e' => exact .none

end Rulebook

/-! ## Catalogs -/

namespace Catalog.Parallel

variable {c c' : Catalog} {t : TopicId}

theorem addTopic {R : Trigger → Trigger → Prop} (h : c.Parallel R c') (name : String) :
    (c.addTopic name).1.Parallel R (c'.addTopic name).1 ∧ (c.addTopic name).2 = (c'.addTopic name).2 := by
  rw [Catalog.addTopic, Catalog.addTopic, h.topicId?]
  cases c'.topicId? name with
  | some t => exact ⟨h, rfl⟩
  | none => exact ⟨⟨by rw [h.topics], h.triggers⟩, by rw [h.topics]⟩

theorem addInclude {R : Trigger → Trigger → Prop} (h : c.Parallel R c') (t other : TopicId) :
    (c.addInclude t other).Parallel R (c'.addInclude t other) :=
  ⟨by rw [Catalog.addInclude, Catalog.addInclude, h.topics], h.triggers⟩

theorem addInherit {R : Trigger → Trigger → Prop} (h : c.Parallel R c') (t other : TopicId) :
    (c.addInherit t other).Parallel R (c'.addInherit t other) :=
  ⟨by rw [Catalog.addInherit, Catalog.addInherit, h.topics], h.triggers⟩

theorem size_eq {R : Trigger → Trigger → Prop} (h : c.Parallel R c') : c.triggers.size = c'.triggers.size := by
  have hnone : ∀ id : Nat, c.triggers.size ≤ id ↔ c'.triggers.size ≤ id := by
    intro id
    rw [← Array.getElem?_eq_none_iff, ← Array.getElem?_eq_none_iff]
    rcases h.cases_at id with ⟨ht, ht'⟩ | ⟨t, t', ht, ht', -⟩
    · rw [ht, ht']
    · rw [ht, ht']
      exact ⟨nofun, nofun⟩
  exact Nat.le_antisymm ((hnone _).mpr (Nat.le_refl _)) ((hnone _).mp (Nat.le_refl _))

theorem triggerWithKey? {R : Trigger → Trigger → Prop} (h : c.Parallel R c') (t : TopicId) (key : String × Option String) :
    c.triggerWithKey? t key = c'.triggerWithKey? t key := by
  rw [Catalog.triggerWithKey?, Catalog.triggerWithKey?, h.topics]
  congr 1
  funext id
  rcases h.cases_at id with ⟨ht, ht'⟩ | ⟨t, t', ht, ht', hpattern, hprevious, -⟩
  · rw [ht, ht']
  · rw [ht, ht', Option.any_some, Option.any_some, Trigger.key, Trigger.key, hpattern, hprevious]

theorem addTrigger (h : c.Parallel Trigger.Alike c') (t : TopicId) {v v' : Trigger} (hv : v.Alike v') :
    (c.addTrigger t v).1.Parallel Trigger.Alike (c'.addTrigger t v').1 := by
  have hkey : v'.key = v.key := by rw [Trigger.key, Trigger.key, hv.pattern, hv.previous]
  rw [Catalog.addTrigger, Catalog.addTrigger, hkey, ← h.triggerWithKey?]
  cases c.triggerWithKey? t v.key with
  | some id =>
    refine ⟨h.topics, fun i => ?_⟩
    dsimp only
    rw [Array.getElem?_modify, Array.getElem?_modify]
    split
    · refine Template.rel_map (fun u u' halike => ?_) (h.triggers i)
      obtain ⟨hpattern, hprevious, hu⟩ := halike
      exact ⟨hpattern, hprevious, hu.merge hv⟩
    · exact h.triggers i
  | none =>
    refine ⟨by rw [h.topics, h.size_eq], fun i => ?_⟩
    dsimp only
    rw [Array.getElem?_push, Array.getElem?_push, h.size_eq]
    split
    · exact .some ⟨hv.pattern, hv.previous, hv.pattern, hv.previous, hv.replies, hv.conditions, hv.redirect⟩
    · exact h.triggers i

/-! ## What is derived from them -/

section Derived

variable {R : Trigger → Trigger → Prop} (h : c.Parallel R c')

include h

theorem ownTriggers (t : TopicId) : c.ownTriggers t = c'.ownTriggers t := by
  rw [Catalog.ownTriggers, Catalog.ownTriggers, h.topics]

theorem includesOf (t : TopicId) : c.includesOf t = c'.includesOf t := by
  rw [Catalog.includesOf, Catalog.includesOf, h.topics]

theorem inheritsOf (t : TopicId) : c.inheritsOf t = c'.inheritsOf t := by
  rw [Catalog.inheritsOf, Catalog.inheritsOf, h.topics]

theorem walk (unvisited : List TopicId) (depth : Nat) (pending : List Visit) (parents : List TopicId) :
    c.walk unvisited depth pending parents = c'.walk unvisited depth pending parents := by
  induction unvisited, depth, pending, parents using Catalog.walk.induct c with
  | case1 unvisited depth => rw [Catalog.walk, Catalog.walk]
  | case2 unvisited depth p ps ih =>
    rw [Catalog.walk, Catalog.walk]
    exact ih
  | case3 unvisited depth t included pending parents hmem ih =>
    rw [Catalog.walk, Catalog.walk, if_pos hmem, if_pos hmem, candidates, candidates, h.ownTriggers, ih, h.includesOf]
  | case4 unvisited depth t included pending parents hmem ih =>
    rw [Catalog.walk, Catalog.walk, if_neg hmem, if_neg hmem]
    exact ih
  | case5 unvisited depth t pending parents ih =>
    rw [Catalog.walk, Catalog.walk, ih, h.inheritsOf]

theorem rank (pool : List Candidate) : c.rank pool = c'.rank pool := by
  have hkeyed : c.keyed? = c'.keyed? := by
    funext entry
    rw [Catalog.keyed?, Catalog.keyed?]
    rcases h.cases_at entry.1.trigger with ⟨ht, ht'⟩ | ⟨t, t', ht, ht', hpattern, -⟩
    · rw [ht, ht']
    · rw [ht, ht', Option.map_some, Option.map_some, hpattern]
  have hconstrained : c.isConstrained = c'.isConstrained := by
    funext e
    rw [Catalog.isConstrained, Catalog.isConstrained]
    rcases h.cases_at e.trigger with ⟨ht, ht'⟩ | ⟨t, t', ht, ht', -, hprevious, -⟩
    · rw [ht, ht']
    · rw [ht, ht', Option.any_some, Option.any_some, hprevious]
  have hstar : c.isBareStar = c'.isBareStar := by
    funext e
    rw [Catalog.isBareStar, Catalog.isBareStar]
    rcases h.cases_at e.trigger with ⟨ht, ht'⟩ | ⟨t, t', ht, ht', hpattern, -⟩
    · rw [ht, ht']
    · rw [ht, ht', Option.any_some, Option.any_some, hpattern]
  rw [Catalog.rank, Catalog.rank, hkeyed, hconstrained, hstar]

theorem rankAll : Rulebook.rankAll c = Rulebook.rankAll c' := by
  simp only [Rulebook.rankAll, Catalog.reach, h.walk, h.rank, h.topics]

end Derived

end Catalog.Parallel

/-! ## Rulebooks -/

namespace Rulebook

variable {scope : Pattern.Scope}

theorem parallel_addEdges {add : Catalog → TopicId → TopicId → Catalog} {c c' : Catalog}
    (hadd : ∀ {c c' : Catalog}, c.Parallel Trigger.Alike c' → ∀ t other, (add c t other).Parallel Trigger.Alike (add c' t other))
    (h : c.Parallel Trigger.Alike c') (t : TopicId) (names : List String) :
    (addEdges add t c names).Parallel Trigger.Alike (addEdges add t c' names) := by
  rw [addEdges, addEdges]
  induction names generalizing c c' with
  | nil => exact h
  | cons name names ih =>
    obtain ⟨htopic, hid⟩ := h.addTopic name
    have hedge : (add (c.addTopic name).1 t (c.addTopic name).2).Parallel Trigger.Alike
        (add (c'.addTopic name).1 t (c'.addTopic name).2) := by
      rw [hid]
      exact hadd htopic t _
    exact ih hedge

/-- Steps that keep catalogs parallel at related entries keep them so over related lists. -/
theorem parallel_foldl {α β : Type} {T : α → β → Prop} {f : Catalog → α → Catalog} {g : Catalog → β → Catalog}
    {as : List α} {bs : List β} (h : List.Forall₂ T as bs) {c c' : Catalog} (hc : c.Parallel Trigger.Alike c')
    (hstep : ∀ c c' a b, c.Parallel Trigger.Alike c' → T a b → (f c a).Parallel Trigger.Alike (g c' b)) :
    (as.foldl f c).Parallel Trigger.Alike (bs.foldl g c') := by
  induction h generalizing c c' with
  | nil => exact hc
  | cons hab _ ih => exact ih (hstep _ _ _ _ hc hab)

theorem parallel_declare {c c' : Catalog} (h : c.Parallel Trigger.Alike c') {topic topic' : Script.Topic}
    (htopic : topic.Respelled topic') : (declare scope c topic).Parallel Trigger.Alike (declare scope c' topic') := by
  have hcompiled : List.Forall₂ Trigger.Alike (topic.triggers.filterMap (compiled? scope))
      (topic'.triggers.filterMap (compiled? scope)) :=
    List.rel_filterMap (fun _ _ ht => compiled?_alike scope ht) htopic.triggers
  obtain ⟨hnew, hid⟩ := h.addTopic topic.name
  unfold declare
  rw [htopic.name, htopic.includes, htopic.inherits]
  generalize c.addTopic topic.name = new at hnew hid
  generalize c'.addTopic topic.name = new' at hnew hid
  obtain ⟨d, t⟩ := new
  obtain ⟨d', t'⟩ := new'
  cases hid
  have hedges := parallel_addEdges Catalog.Parallel.addInherit
    (parallel_addEdges Catalog.Parallel.addInclude hnew t topic.includes) t topic.inherits
  exact parallel_foldl hcompiled hedges fun _ _ _ _ hc hv => hc.addTrigger t hv

theorem parallel_homeCatalog : homeCatalog.Parallel Trigger.Alike homeCatalog :=
  ⟨rfl, fun id => by
    rw [homeCatalog, Catalog.triggers_addTopic, Array.getElem?_empty]
    exact .none⟩

/-- What implies the same of related entries holds of all on the one side if on the other. -/
theorem forall_of_forall₂ {α β : Type} {T : α → β → Prop} {p : α → Prop} {q : β → Prop} {as : List α} {bs : List β}
    (h : List.Forall₂ T as bs) (hpq : ∀ a b, T a b → p a → q b) (has : ∀ a ∈ as, p a) : ∀ b ∈ bs, q b := by
  induction h with
  | nil => exact List.forall_mem_nil q
  | cons hab _ ih =>
    rw [List.forall_mem_cons] at has ⊢
    exact ⟨hpq _ _ hab has.1, ih has.2⟩

theorem compiles_respelled {ts ts' : List Script.Topic} (h : List.Forall₂ Script.Topic.Respelled ts ts')
    (hts : Compiles scope ts) : Compiles scope ts' := by
  refine forall_of_forall₂ h (fun topic topic' htopic => ?_) hts
  refine forall_of_forall₂ htopic.triggers fun trigger trigger' htrigger => ?_
  have hrel := compiled?_alike scope htrigger
  revert hrel
  generalize compiled? scope trigger = v
  generalize compiled? scope trigger' = v'
  intro hrel
  cases hrel with
  | some hv => exact fun _ => rfl
  | none => exact id

variable {punctuation : Regex} {settings : Settings} {scripts scripts' : List Script} {r : Rulebook}

section Definitions

variable (h : List.Forall₂ Script.Respelled scripts scripts')

include h

theorem merged_respelled {part : Script → List (String × String)}
    (hpart : ∀ s s' : Script, s.Respelled s' → part s' = part s) : merged scripts part = merged scripts' part :=
  List.rel_foldl (fun _ _ hd s s' hs => by rw [hd, hpart s s' hs]) rfl h

theorem arraysOf_respelled : arraysOf scripts = arraysOf scripts' :=
  List.rel_foldl (fun _ _ hd _ _ hs => by rw [hd, hs.arrays]) rfl h

theorem scopeOf_respelled : scopeOf punctuation settings scripts = scopeOf punctuation settings scripts' := by
  rw [scopeOf, scopeOf, arraysOf_respelled h, substitutions, substitutions, merged_respelled h fun _ _ hs => hs.subs]

end Definitions

theorem parallel_catalogs (scope : Pattern.Scope) (h : List.Forall₂ Script.Respelled scripts scripts') :
    (scripts.foldl (fun c s => s.topics.foldl (declare scope) c) homeCatalog).Parallel Trigger.Alike
      (scripts'.foldl (fun c s => s.topics.foldl (declare scope) c) homeCatalog) :=
  parallel_foldl h parallel_homeCatalog fun _ _ _ _ hc hs =>
    parallel_foldl hs.topics hc fun _ _ _ _ hc ht => parallel_declare hc ht

/-- Rules compile in the other spelling if they do in the one. -/
theorem build_respelled (h : List.Forall₂ Script.Respelled scripts scripts')
    (hr : build punctuation settings scripts = .ok r) :
    ∃ r', build punctuation settings scripts' = .ok r' ∧ r.Parallel Trigger.Alike r' ∧ r.vars = r'.vars ∧
      r.globals = r'.globals := by
  obtain ⟨c, hc, rfl⟩ := build_eq_ok.mp hr
  obtain ⟨hcompiles, rfl⟩ := catalogOf_eq_ok.mp hc
  rw [scopeOf_respelled h] at hcompiles ⊢
  have hcompiles' := forall_of_forall₂ h (fun _ _ hs => compiles_respelled hs.topics) hcompiles
  have hcatalog := parallel_catalogs (scopeOf punctuation settings scripts') h
  refine ⟨_, build_eq_ok.mpr ⟨_, catalogOf_eq_ok.mpr ⟨hcompiles', rfl⟩, rfl⟩, ⟨hcatalog, hcatalog.rankAll, rfl⟩,
    merged_respelled h fun _ _ hs => hs.vars, merged_respelled h fun _ _ hs => hs.globals⟩

end Rulebook

end Repartee
