/-
  Repartee.Proofs.Joined.Rulebooks — compiling two scripts, or one that declares what both do.

  Definitions are applied in order whether they stand in one script or in two, so the arrays and
  substitutions that triggers are compiled with are the same. What is compiled then differs in the
  numbers of topics and triggers alone.

  Proved:
  - A topic of a compiled rulebook has the ranking of what it reaches (`ranking?_of_build`).
  - Both ways compile or both do not, and the rulebooks are alike (`exists_build_joined`,
    `alike_of_joined`).
-/

import Repartee.Proofs.Joined.Scripts
import Repartee.Proofs.Joined.Sights

namespace Repartee

namespace Rulebook

/-- The same rules, but for the numbers of topics and triggers. -/
structure Alike (r r' : Rulebook) : Prop where
  names : ∀ name, (∃ t, r.catalog.At t name) ↔ ∃ t, r'.catalog.At t name
  version : r.version = r'.version
  vars : r.vars = r'.vars
  globals : r.globals = r'.globals
  arrays : r.arrays = r'.arrays
  lexicon : r.lexicon = r'.lexicon
  rankings : ∀ name, (r.ranking? name).map r.catalog.seenRanking = (r'.ranking? name).map r'.catalog.seenRanking

variable {punctuation : Regex} {settings : Settings} {scripts : List Script} {r r' : Rulebook}

/-! ## What is built -/

/-- What the triggers of the scripts are compiled with. -/
def scopeOf (punctuation : Regex) (settings : Settings) (scripts : List Script) : Pattern.Scope :=
  { arrays := arraysOf scripts
    lexicon := Lexicon.ofPairs punctuation (substitutions settings scripts).entries }

theorem build_eq_ok : build punctuation settings scripts = .ok r ↔
    ∃ catalog, catalogOf (scopeOf punctuation settings scripts) scripts = .ok catalog ∧
      r = { catalog
            rankings := rankAll catalog
            lexicon := (scopeOf punctuation settings scripts).lexicon
            vars := merged scripts Script.vars
            globals := merged scripts Script.globals
            arrays := arraysOf scripts
            version := versionOf scripts } := by
  rw [build, bind_eq_ok]
  refine exists_congr fun catalog => and_congr_right fun _ => ?_
  exact ⟨fun h => (Except.ok.inj h).symm, fun h => congrArg _ h.symm⟩

theorem ranking?_of_rankAll (h : r.rankings = rankAll r.catalog) (name : String) :
    r.ranking? name = (r.catalog.topicId? name).map fun t => r.catalog.rank (r.catalog.reach t) := by
  cases hid : r.catalog.topicId? name with
  | none => simp [ranking?, hid]
  | some t => simp [ranking?, hid, h, rankAll, (Catalog.at_of_topicId? hid).lt]

theorem ranking?_of_build (h : build punctuation settings scripts = .ok r) (name : String) :
    r.ranking? name = (r.catalog.topicId? name).map fun t => r.catalog.rank (r.catalog.reach t) := by
  obtain ⟨catalog, -, rfl⟩ := build_eq_ok.mp h
  exact ranking?_of_rankAll rfl name

/-! ## Definitions -/

theorem define_append (d : Dict String) (before after : List (String × String)) :
    define d (before ++ after) = define (define d before) after := List.foldl_append

/-- Definitions of one kind, gathered in one script, are applied as in two. -/
theorem merged_joined {part : Script → List (String × String)} {sa sb s first : Script} (ha : part first = part sa)
    (hb : part s = part first ++ part sb) : merged [sa, sb] part = merged [s] part := by
  simp only [merged, List.foldl_cons, List.foldl_nil, hb, ha, define_append]

section Joined

variable {origin : String} {sa sb s first : Script} (ha : Script.Gathers { origin } sa first)
  (hb : Script.Gathers first sb s)

include ha hb

theorem arraysOf_joined : arraysOf [sa, sb] = arraysOf [s] := by
  simp only [arraysOf, Dict.putAll, List.foldl_cons, List.foldl_nil, hb.arrays, ha.arrays, List.nil_append,
    List.foldl_append]

theorem versionOf_joined : versionOf [sa, sb] = versionOf [s] := by
  simp only [versionOf, List.foldl_cons, List.foldl_nil, hb.version, ha.version]
  cases sb.version <;> cases sa.version <;> rfl

theorem scopeOf_joined : scopeOf punctuation settings [sa, sb] = scopeOf punctuation settings [s] := by
  rw [scopeOf, scopeOf, arraysOf_joined ha hb, substitutions, substitutions, merged_joined ha.subs hb.subs]

/-! ## Both ways -/

/-- Two scripts compile if one compiles that declares what both do. -/
theorem exists_build_joined : (∃ r, build punctuation settings [sa, sb] = .ok r) ↔
    ∃ r', build punctuation settings [s] = .ok r' := by
  have hexists : ∀ scripts, (∃ r, build punctuation settings scripts = .ok r) ↔
      ∃ c, catalogOf (scopeOf punctuation settings scripts) scripts = .ok c := by
    intro scripts
    constructor
    · intro ⟨r, hr⟩
      obtain ⟨c, hc, -⟩ := build_eq_ok.mp hr
      exact ⟨c, hc⟩
    · intro ⟨c, hc⟩
      exact ⟨_, build_eq_ok.mpr ⟨c, hc, rfl⟩⟩
  rw [hexists, hexists, scopeOf_joined ha hb]
  exact (catalogOf_joined ha.topics hb.topics).1

theorem alike_of_joined (hr : build punctuation settings [sa, sb] = .ok r)
    (hr' : build punctuation settings [s] = .ok r') : r.Alike r' := by
  have hrankings := ranking?_of_build hr
  have hrankings' := ranking?_of_build hr'
  obtain ⟨c, hc, rfl⟩ := build_eq_ok.mp hr
  obtain ⟨d, hd, rfl⟩ := build_eq_ok.mp hr'
  rw [scopeOf_joined ha hb] at hc
  have hsame := (catalogOf_joined ha.topics hb.topics).2 c d hc hd
  refine ⟨hsame.names, versionOf_joined ha hb, merged_joined ha.vars hb.vars, merged_joined ha.globals hb.globals,
    arraysOf_joined ha hb, congrArg Pattern.Scope.lexicon (scopeOf_joined ha hb), fun name => ?_⟩
  rw [hrankings, hrankings', Option.map_map, Option.map_map]
  by_cases hknown : ∃ t, c.At t name
  · obtain ⟨t, ht⟩ := hknown
    obtain ⟨u, hu⟩ := (hsame.names name).mp ⟨t, ht⟩
    rw [hsame.left.topicId? ht, hsame.right.topicId? hu]
    exact congrArg some (Catalog.seenRanking_reach hsame ⟨name, ht, hu⟩)
  · have hc : c.topicId? name = none :=
      Option.eq_none_iff_forall_ne_some.mpr fun t ht => hknown ⟨t, Catalog.at_of_topicId? ht⟩
    have hd : d.topicId? name = none :=
      Option.eq_none_iff_forall_ne_some.mpr fun t ht => hknown ((hsame.names name).mpr ⟨t, Catalog.at_of_topicId? ht⟩)
    rw [hc, hd]
    rfl

end Joined

end Rulebook

end Repartee
