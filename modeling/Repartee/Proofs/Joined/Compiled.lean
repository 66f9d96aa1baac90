/-
  Repartee.Proofs.Joined.Compiled — what the catalog of some scripts holds.

  Whether a trigger compiles, and to what, does not depend on where it stands. So a catalog
  exists if all triggers of all scripts compile, and under each name it holds what the scripts
  declare under that name, in their order.

  Proved:
  - When scripts have a catalog, and which one it is (`catalogOf_eq_ok`).
  - What it holds under each name, and which names it has (`adds_declare`).
  - Two scripts have a catalog if one has that declares what both do, and hold the same under the same
    names (`catalogOf_joined`).
-/

import Repartee.Proofs.Joined.Holdings
import Repartee.Proofs.Results
import Repartee.Rulebook

namespace Repartee

/-! ## Steps that may fail -/

/-- Steps that succeed under a condition on their entry alone, each with one outcome. -/
theorem foldlM_eq_ok {ε α β : Type} {f : β → α → Except ε β} {p : α → Prop} {g : β → α → β} {l : List α} {b b' : β}
    (hf : ∀ b a b', f b a = .ok b' ↔ p a ∧ b' = g b a) :
    l.foldlM f b = .ok b' ↔ (∀ a ∈ l, p a) ∧ b' = l.foldl g b := by
  induction l generalizing b with
  | nil =>
    rw [List.foldlM_nil, List.foldl_nil]
    exact ⟨fun h => ⟨by simp, (Except.ok.inj h).symm⟩, fun h => congrArg Except.ok h.2.symm⟩
  | cons a l ih =>
    rw [List.foldlM_cons, bind_eq_ok, List.foldl_cons, List.forall_mem_cons]
    constructor
    · intro ⟨middle, hmiddle, hlast⟩
      obtain ⟨ha, rfl⟩ := (hf b a middle).mp hmiddle
      obtain ⟨hl, rfl⟩ := ih.mp hlast
      exact ⟨⟨ha, hl⟩, rfl⟩
    · intro ⟨⟨ha, hl⟩, hlast⟩
      exact ⟨g b a, (hf b a _).mpr ⟨ha, rfl⟩, ih.mpr ⟨hl, hlast⟩⟩

namespace Rulebook

variable {scope : Pattern.Scope}

/-! ## Triggers -/

/-- The compiled form of a trigger, wherever it stands. -/
def compiled? (scope : Pattern.Scope) (t : Script.Trigger) : Option Trigger :=
  (compileTrigger scope "" t.bare).toOption

theorem atLine_eq_ok {α : Type} {origin : String} {l : Line} {x : Except RuleFault α} {a : α} :
    atLine origin l x = .ok a ↔ x = .ok a :=
  mapError_eq_ok

section Congr

variable {ε α β γ : Type} {f : α → Except ε γ} {g : β → Except ε γ} {h : α → β}
  (hfg : ∀ a c, f a = .ok c ↔ g (h a) = .ok c)

include hfg

theorem mapM_eq_ok_congr {l : List α} {cs : List γ} : l.mapM f = .ok cs ↔ (l.map h).mapM g = .ok cs := by
  induction l generalizing cs with
  | nil => rfl
  | cons a l ih => simp only [List.map_cons, List.mapM_cons, bind_eq_ok, hfg, ih]

theorem optionMapM_eq_ok_congr {o : Option α} {c : Option γ} : o.mapM f = .ok c ↔ (o.map h).mapM g = .ok c := by
  cases o with
  | none => rfl
  | some a =>
    change (f a).map some = .ok c ↔ (g (h a)).map some = .ok c
    simp only [map_eq_ok, hfg]

end Congr

/-- Success is up to the texts of the lines. -/
theorem compileTrigger_bare {origin : String} {t : Script.Trigger} {v : Trigger} :
    compileTrigger scope origin t = .ok v ↔ compileTrigger scope "" t.bare = .ok v := by
  have hpattern : ∀ l p, compilePattern scope origin l = .ok p ↔ compilePattern scope "" (Script.bare l) = .ok p :=
    fun l p => by rw [compilePattern, atLine_eq_ok, compilePattern, atLine_eq_ok]; rfl
  have hreply : ∀ l r, compileReply origin l = .ok r ↔ compileReply "" (Script.bare l) = .ok r :=
    fun l r => by rw [compileReply, atLine_eq_ok, compileReply, atLine_eq_ok]; rfl
  have hcondition : ∀ l c, compileCondition origin l = .ok c ↔ compileCondition "" (Script.bare l) = .ok c :=
    fun l c => by rw [compileCondition, atLine_eq_ok, compileCondition, atLine_eq_ok]; rfl
  simp only [compileTrigger, bind_eq_ok, Script.Trigger.bare, hpattern, mapM_eq_ok_congr hreply,
    mapM_eq_ok_congr hcondition, optionMapM_eq_ok_congr hpattern, optionMapM_eq_ok_congr hreply]

theorem compileTrigger_eq_ok {origin : String} {t : Script.Trigger} {v : Trigger} :
    compileTrigger scope origin t = .ok v ↔ compiled? scope t = some v := by
  rw [compileTrigger_bare, compiled?]
  cases compileTrigger scope "" t.bare with
  | error e => exact ⟨nofun, nofun⟩
  | ok w => exact ⟨fun h => congrArg some (Except.ok.inj h), fun h => congrArg Except.ok (Option.some.inj h)⟩

theorem compiled?_bare (t : Script.Trigger) : compiled? scope t.bare = compiled? scope t := by
  have hline : ∀ l : Line, Script.bare (Script.bare l) = Script.bare l := fun _ => rfl
  have htwice : t.bare.bare = t.bare := by simp [Script.Trigger.bare, Function.comp_def, hline]
  rw [compiled?, compiled?, htwice]

/-! ## Topics -/

/-- The catalog after a topic of a script whose triggers compile. -/
def declare (scope : Pattern.Scope) (c : Catalog) (topic : Script.Topic) : Catalog :=
  let (c, t) := c.addTopic topic.name
  let c := addEdges Catalog.addInclude t c topic.includes
  let c := addEdges Catalog.addInherit t c topic.inherits
  (topic.triggers.filterMap (compiled? scope)).foldl (fun c v => (c.addTrigger t v).1) c

/-- All triggers of the topics compile. -/
def Compiles (scope : Pattern.Scope) (ts : List Script.Topic) : Prop :=
  ∀ t ∈ ts, ∀ trigger ∈ t.triggers, (compiled? scope trigger).isSome

theorem addTriggers_eq_ok {origin : String} {t : TopicId} {c d : Catalog} {triggers : List Script.Trigger} :
    addTriggers scope origin t c triggers = .ok d ↔
      (∀ trigger ∈ triggers, (compiled? scope trigger).isSome) ∧
        d = (triggers.filterMap (compiled? scope)).foldl (fun c v => (c.addTrigger t v).1) c := by
  rw [addTriggers, List.foldl_filterMap]
  refine foldlM_eq_ok fun c trigger d => ?_
  rw [bind_eq_ok]
  constructor
  · intro ⟨v, hv, hd⟩
    have hv := compileTrigger_eq_ok.mp hv
    cases hd
    exact ⟨by rw [hv]; rfl, by rw [hv]⟩
  · intro ⟨hsome, hd⟩
    obtain ⟨v, hv⟩ := Option.isSome_iff_exists.mp hsome
    refine ⟨v, compileTrigger_eq_ok.mpr hv, ?_⟩
    rw [hd, hv]

theorem addTopic_eq_ok {origin : String} {c d : Catalog} {topic : Script.Topic} :
    addTopic scope origin c topic = .ok d ↔
      (∀ trigger ∈ topic.triggers, (compiled? scope trigger).isSome) ∧ d = declare scope c topic :=
  addTriggers_eq_ok

theorem catalogOf_eq_ok {scripts : List Script} {c : Catalog} :
    catalogOf scope scripts = .ok c ↔
      (∀ s ∈ scripts, Compiles scope s.topics) ∧
        c = scripts.foldl (fun c s => s.topics.foldl (declare scope) c) homeCatalog :=
  foldlM_eq_ok fun _ _ _ => foldlM_eq_ok fun _ _ _ => addTopic_eq_ok

/-! ## What is held -/

/-- Updating one part of a whole for each entry updates that part by all of them. -/
theorem foldl_update {α β γ : Type} {g : γ → β} {s : γ → β → γ} (hget : ∀ c b, g (s c b) = b)
    (hset : ∀ c b b', s (s c b) b' = s c b') (hself : ∀ c, s c (g c) = c) (f : β → α → β) (l : List α) (c : γ) :
    l.foldl (fun c a => s c (f (g c) a)) c = s c (l.foldl f (g c)) := by
  induction l generalizing c with
  | nil => exact (hself c).symm
  | cons a l ih => rw [List.foldl_cons, List.foldl_cons, ih, hget, hset]

/-- What is held under a name once a declaration of that name has been compiled. -/
def take (scope : Pattern.Scope) (h : Held) (d : Script.Declared) : Held :=
  { triggers := (d.triggers.filterMap fun t => (compiled? scope t).map Trigger.content).foldl absorb h.triggers
    includes := d.includes.foldl Script.Reader.pushUnique h.includes
    inherits := d.inherits.foldl Script.Reader.pushUnique h.inherits }

theorem take_empty (h : Held) : take scope h {} = h := rfl

/-- Two parts are taken one after the other. -/
theorem take_append (h : Held) (d e : Script.Declared) : take scope h (d.append e) = take scope (take scope h d) e := by
  have hnames : ∀ names more later : List String,
      (later.foldl Script.Reader.pushUnique more).foldl Script.Reader.pushUnique names =
        later.foldl Script.Reader.pushUnique (more.foldl Script.Reader.pushUnique names) := by
    intro names more later
    induction later generalizing more with
    | nil => rfl
    | cons name later ih => rw [List.foldl_cons, ih, Script.foldl_pushUnique, List.foldl_cons]
  simp only [take, Script.Declared.append, List.filterMap_append, List.foldl_append, hnames]

section Changes

variable {c : Catalog} {t : TopicId} {name : String}

theorem changes_addEdges {add : Catalog → TopicId → TopicId → Catalog} {f : Held → String → Held}
    (hadd : ∀ {c : Catalog} {u : TopicId} {other : String}, c.WellFormed → c.At t name → c.At u other →
      c.Changes (add c t u) name (f · other) [])
    (names : List String) (hc : c.WellFormed) (ht : c.At t name) :
    c.Changes (addEdges add t c names) name (fun h => names.foldl f h) names := by
  have hstep : ∀ {c : Catalog} (other : String), c.WellFormed → c.At t name →
      c.Changes (add (c.addTopic other).1 t (c.addTopic other).2) name (f · other) [other] := by
    intro c other hc ht
    have hnew := Catalog.changes_addTopic hc other name
    exact hnew.trans (hadd hnew.wellFormed (hnew.kept ht) (Catalog.at_snd_addTopic c other))
  have hall := Catalog.changes_foldl hstep names hc ht
  rwa [List.flatMap_singleton'] at hall

theorem changes_addIncludes (names : List String) (hc : c.WellFormed) (ht : c.At t name) :
    c.Changes (addEdges Catalog.addInclude t c names) name
      (fun h => { h with includes := names.foldl Script.Reader.pushUnique h.includes }) names := by
  have hall := changes_addEdges (f := fun h other => { h with includes := Script.Reader.pushUnique h.includes other })
    (fun hc ht hu => Catalog.changes_addInclude hc ht hu) names hc ht
  have hfold := foldl_update (g := Held.includes) (s := fun h names => { h with includes := names }) (fun _ _ => rfl)
    (fun _ _ _ => rfl) (fun _ => rfl) Script.Reader.pushUnique names
  rwa [funext hfold] at hall

theorem changes_addInherits (names : List String) (hc : c.WellFormed) (ht : c.At t name) :
    c.Changes (addEdges Catalog.addInherit t c names) name
      (fun h => { h with inherits := names.foldl Script.Reader.pushUnique h.inherits }) names := by
  have hall := changes_addEdges (f := fun h other => { h with inherits := Script.Reader.pushUnique h.inherits other })
    (fun hc ht hu => Catalog.changes_addInherit hc ht hu) names hc ht
  have hfold := foldl_update (g := Held.inherits) (s := fun h names => { h with inherits := names }) (fun _ _ => rfl)
    (fun _ _ _ => rfl) (fun _ => rfl) Script.Reader.pushUnique names
  rwa [funext hfold] at hall

theorem changes_addTriggers (triggers : List Trigger) (hc : c.WellFormed) (ht : c.At t name) :
    c.Changes (triggers.foldl (fun c v => (c.addTrigger t v).1) c) name
      (fun h => { h with triggers := triggers.foldl (fun ts v => absorb ts v.content) h.triggers }) [] := by
  have hstep : ∀ {c : Catalog} (v : Trigger), c.WellFormed → c.At t name →
      c.Changes (c.addTrigger t v).1 name (fun h => { h with triggers := absorb h.triggers v.content }) [] :=
    fun v hc ht => Catalog.changes_addTrigger hc ht v
  have hall := Catalog.changes_foldl hstep triggers hc ht
  have hnone : triggers.flatMap (fun _ => ([] : List String)) = [] := List.flatMap_eq_nil_iff.mpr fun _ _ => rfl
  have hfold := foldl_update (g := Held.triggers) (s := fun h triggers => { h with triggers }) (fun _ _ => rfl)
    (fun _ _ _ => rfl) (fun _ => rfl) (fun ts v => absorb ts v.content) triggers
  rwa [funext hfold, hnone] at hall

theorem changes_declare (scope : Pattern.Scope) (topic : Script.Topic) (hc : c.WellFormed) :
    c.Changes (declare scope c topic) topic.name (take scope · topic.declared)
      (topic.name :: (topic.includes ++ topic.inherits)) := by
  have hnew := Catalog.changes_addTopic hc topic.name topic.name
  have ht := Catalog.at_snd_addTopic c topic.name
  have hincludes := changes_addIncludes topic.includes hnew.wellFormed ht
  have ht := hincludes.kept ht
  have hinherits := changes_addInherits topic.inherits hincludes.wellFormed ht
  have ht := hinherits.kept ht
  have htriggers := changes_addTriggers (topic.triggers.filterMap (compiled? scope)) hinherits.wellFormed ht
  have hall := ((hnew.trans hincludes).trans hinherits).trans htriggers
  rw [List.append_nil] at hall
  have hcontents : ∀ ts, (topic.triggers.filterMap (compiled? scope)).foldl (fun ts v => absorb ts v.content) ts =
      (topic.declared.triggers.filterMap fun t => (compiled? scope t).map Trigger.content).foldl absorb ts := by
    intro ts
    simp only [Script.Topic.declared, List.filterMap_map, Function.comp_def, compiled?_bare, ← List.map_filterMap,
      List.foldl_map]
  simp only [Function.comp_def, hcontents] at hall
  exact hall

end Changes

/-! ## All topics of a script, and all scripts -/

/-- `d` has what `c` has and what the topics declare. -/
structure Adds (scope : Pattern.Scope) (c d : Catalog) (ts : List Script.Topic) : Prop where
  wellFormed : d.WellFormed
  names : ∀ name, (∃ t, d.At t name) ↔ (∃ t, c.At t name) ∨ Script.Mentions ts name
  held : ∀ name, d.held name = take scope (c.held name) (Script.declaredIn ts name)

section Scripts

variable {c : Catalog} {as bs ts : List Script.Topic}

theorem adds_declare (scope : Pattern.Scope) (hnames : (ts.map (·.name)).Nodup) (hc : c.WellFormed) :
    Adds scope c (ts.foldl (declare scope) c) ts := by
  induction ts generalizing c with
  | nil => exact ⟨hc, by simp [Script.Mentions], fun _ => rfl⟩
  | cons t ts ih =>
    rw [List.map_cons, List.nodup_cons] at hnames
    obtain ⟨hnew, hnames⟩ := hnames
    have hfirst := changes_declare scope t hc
    have hrest := ih hnames hfirst.wellFormed
    refine ⟨hrest.wellFormed, fun name => ?_, fun name => ?_⟩
    · rw [List.foldl_cons, hrest.names, hfirst.names, or_assoc]
      simp [Script.Mentions]
    · rw [List.foldl_cons, hrest.held, hfirst.held, Script.declaredIn_cons]
      by_cases hname : name = t.name
      · have hnone : Script.declaredIn ts name = {} :=
          Script.declaredIn_of_none fun u hu heq => hnew (hname ▸ heq ▸ List.mem_map_of_mem hu)
        rw [if_pos hname, if_pos hname, hnone, take_empty]
      · rw [if_neg hname, if_neg hname]

theorem wellFormed_homeCatalog : homeCatalog.WellFormed :=
  (Catalog.wellFormed_of_built .empty).addTopic homeTopic

theorem at_homeCatalog {name : String} : (∃ t, homeCatalog.At t name) ↔ name = homeTopic := by
  have hadded := Catalog.changes_addTopic (Catalog.wellFormed_of_built .empty) homeTopic homeTopic
  rw [homeCatalog, hadded.names]
  simp [Catalog.At]

/-- Topics declared in two parts compile if both parts do. -/
theorem compiles_joins (h : Script.Joins as bs ts) (has : Script.Tidy as) :
    Compiles scope ts ↔ Compiles scope as ∧ Compiles scope bs := by
  have hiff : ∀ {ts : List Script.Topic}, Script.Tidy ts → (¬ Compiles scope ts ↔
      ∃ name, ∃ t ∈ (Script.declaredIn ts name).triggers, compiled? scope t = none) := by
    intro ts hts
    rw [hts.exists_declared_iff (p := fun d => ∃ t ∈ d.triggers, compiled? scope t = none) (by simp)]
    simp [Compiles, Script.Topic.declared, compiled?_bare]
  rw [← not_iff_not, not_and_or, hiff h.whole, hiff has, hiff h.part]
  simp only [h.declared, Script.Declared.append, List.mem_append, or_and_right, exists_or]

end Scripts

/-- Both catalogs hold the same under the same names. -/
structure SameHeld (c d : Catalog) : Prop where
  left : c.WellFormed
  right : d.WellFormed
  names : ∀ name, (∃ t, c.At t name) ↔ ∃ t, d.At t name
  held : ∀ name, c.held name = d.held name

/-- Two scripts have a catalog if one script has that declares what both do, and hold the same. -/
theorem catalogOf_joined {sa sb s : Script} {first : List Script.Topic}
    (hfirst : Script.Joins Script.bareHome sa.topics first) (hjoins : Script.Joins first sb.topics s.topics) :
    ((∃ c, catalogOf scope [sa, sb] = .ok c) ↔ ∃ d, catalogOf scope [s] = .ok d) ∧
      ∀ c d, catalogOf scope [sa, sb] = .ok c → catalogOf scope [s] = .ok d → SameHeld c d := by
  have hcompiles : Compiles scope s.topics ↔ Compiles scope sa.topics ∧ Compiles scope sb.topics := by
    have hhome : Compiles scope Script.bareHome := by simp [Compiles, Script.bareHome]
    rw [compiles_joins hjoins hfirst.whole, compiles_joins hfirst Script.tidy_bareHome]
    exact ⟨fun h => ⟨h.1.2, h.2⟩, fun h => ⟨⟨hhome, h.1⟩, h.2⟩⟩
  refine ⟨?_, fun c d hc hd => ?_⟩
  · simp only [catalogOf_eq_ok, exists_and_left, exists_eq, and_true, List.forall_mem_cons, List.not_mem_nil,
      false_imp_iff, implies_true, hcompiles]
  · obtain ⟨-, rfl⟩ := catalogOf_eq_ok.mp hc
    obtain ⟨-, rfl⟩ := catalogOf_eq_ok.mp hd
    have ha := adds_declare scope hfirst.part.nodup wellFormed_homeCatalog
    have hb := adds_declare scope hjoins.part.nodup ha.wellFormed
    have hs := adds_declare scope hjoins.whole.nodup wellFormed_homeCatalog
    refine ⟨hb.wellFormed, hs.wellFormed, fun name => ?_, fun name => ?_⟩
    · simp only [List.foldl_cons, List.foldl_nil, hb.names, ha.names, hs.names, at_homeCatalog,
        hjoins.mentions hfirst.whole, hfirst.mentions Script.tidy_bareHome, Script.mentions_bareHome]
      tauto
    · simp only [List.foldl_cons, List.foldl_nil, hb.held, ha.held, hs.held, hjoins.declared, hfirst.declared,
        Script.declaredIn_bareHome, take_append, take_empty]

end Rulebook

end Repartee
