/-
  Repartee.Proofs.Unloaded — the rules before anything is loaded.

  A bot begins with a rulebook that no script has gone into. Compiling no script, or one that declares
  nothing, gives the same, but for the table of substitutions. Before anything is loaded the table has the
  keys of the settings as they are spelled, so of two spellings of a key the lesser counts. Afterwards keys
  are put into lower case first, and of two that are then the same the greater counts, which comes last.

  Proved:
  - Which spelling counts before (`value?_empty`), and which afterwards (`value?_scopeOf_nil`).
  - Both tables are the same if spellings of one key are in lower case or are replaced alike
    (`table_eq_of_unambiguous`). Then a bot reads messages before its first load as after loading a text
    that declares nothing (`rules_once_loaded`).
  - Two spellings in different case are read differently (`a_capital_key_counts_until_something_is_loaded`).
-/

import Repartee.Bot.Load
import Repartee.Proofs.Lowercase
import Repartee.Proofs.Statements
import Repartee.Proofs.Substitutions.Definitions

namespace Repartee

/-- The last entry of a kind is the one with the greatest name. -/
theorem Dict.entries_getLast?_eq_some_iff {α : Type} {d : Dict α} {q : String → Bool} {name : String} {v : α} :
    (d.entries.filter (fun e => q e.1)).getLast? = some (name, v) ↔
      d.find? name = some v ∧ q name = true ∧ ∀ other, (d.find? other).isSome → q other = true → other ≤ name := by
  have hlast : ∀ {name v}, (d.entries.filter (fun e => q e.1)).getLast? = some (name, v) →
      d.find? name = some v ∧ q name = true ∧ ∀ other, (d.find? other).isSome → q other = true → other ≤ name := by
    intro name v h
    obtain ⟨before, hentries⟩ := List.getLast?_eq_some_iff.mp h
    have hmem : (name, v) ∈ d.entries.filter (fun e => q e.1) := List.mem_of_getLast? h
    obtain ⟨hmem, hq⟩ := List.mem_filter.mp hmem
    refine ⟨Dict.find?_eq_some_iff.mpr hmem, hq, ?_⟩
    intro other hother hqother
    obtain ⟨w, hw⟩ := Option.isSome_iff_exists.mp hother
    have hmem' : (other, w) ∈ d.entries.filter (fun e => q e.1) :=
      List.mem_filter.mpr ⟨Dict.find?_eq_some_iff.mp hw, hqother⟩
    have hsorted := d.sorted.filter (fun e => q e.1)
    rw [hentries] at hmem' hsorted
    rcases List.mem_append.mp hmem' with hbefore | heq
    · exact ((List.pairwise_append.mp hsorted).2.2 _ hbefore _ List.mem_cons_self).le
    · cases List.mem_singleton.mp heq
      exact le_refl _
  constructor
  · exact hlast
  · rintro ⟨hv, hq, hgreatest⟩
    have hmem : (name, v) ∈ d.entries.filter (fun e => q e.1) := List.mem_filter.mpr ⟨Dict.find?_eq_some_iff.mp hv, hq⟩
    obtain ⟨⟨last, w⟩, hfound⟩ : ∃ e, (d.entries.filter (fun e => q e.1)).getLast? = some e :=
      ⟨_, List.getLast?_eq_some_getLast (List.ne_nil_of_mem hmem)⟩
    obtain ⟨hw, hqlast, hlastGreatest⟩ := hlast hfound
    obtain rfl : last = name := le_antisymm (hgreatest last (by rw [hw]; rfl) hqlast) (hlastGreatest name (by rw [hv]; rfl) hq)
    rw [hfound, Option.some.inj (hw.symm.trans hv)]

namespace Lexicon

theorem lowerWords_lowercase (s : String) : lowerWords (Text.lowercase s) = lowerWords s := by
  rw [lowerWords, lowerWords, Text.lowercase, Text.lowercase, String.toList_ofList, Text.lower_lower]

theorem isSome_value? (punctuation : Regex) {pairs : List (String × String)} {p : String × String} (hp : p ∈ pairs)
    {k : List String} (hk : k ≠ []) (hkey : lowerWords p.1 = k) : ((ofPairs punctuation pairs).value? k).isSome := by
  rw [value?_ofPairs punctuation hk, Option.isSome_map, List.find?_isSome]
  exact ⟨p, hp, decide_eq_true hkey⟩

/-- A table is told by what it replaces each key with. -/
theorem table_eq_iff {pairs pairs' : List (String × String)} (punctuation : Regex) :
    table pairs = table pairs' ↔
      ∀ k ≠ [], (ofPairs punctuation pairs).value? k = (ofPairs punctuation pairs').value? k := by
  constructor
  · intro h k _
    rw [ofPairs, ofPairs, h]
  · intro h
    have hmem : ∀ {pairs pairs' : List (String × String)},
        (∀ k ≠ [], (ofPairs punctuation pairs).value? k = (ofPairs punctuation pairs').value? k) →
          ∀ s ∈ table pairs, s ∈ table pairs' := by
      intro pairs pairs' h s hs
      have htable := isTable_table pairs
      have hvalue := h s.key (htable.keyed s hs)
      have hfound : (table pairs).find? (·.key = s.key) = some s := htable.find?_eq_some_iff.mpr ⟨hs, rfl⟩
      simp only [value?, ofPairs, hfound, Option.map_some] at hvalue
      obtain ⟨t, ht, hsame⟩ := Option.map_eq_some_iff.mp hvalue.symm
      obtain ⟨hmem, hkey⟩ := (isTable_table pairs').find?_eq_some_iff.mp ht
      obtain rfl : t = s := by
        cases t
        cases s
        cases hkey
        cases hsame
        rfl
      exact hmem
    apply (isTable_table pairs).eq_of_mem_iff (isTable_table pairs')
    intro s
    exact ⟨hmem h s, hmem (fun k hk => (h k hk).symm) s⟩

end Lexicon

namespace Rulebook

open Lexicon (lowerWords)

open Text (lowercase)

/-! ## Which spelling counts -/

/-- The spelling of a key that counts before anything is loaded: the least. -/
structure CountsUnloaded (d : Dict String) (k : List String) (name text : String) : Prop where
  defined : d.find? name = some text
  key : lowerWords name = k
  least : ∀ other, (d.find? other).isSome → lowerWords other = k → name ≤ other

/-- The spelling of a key that counts once something is loaded: the least in lower case, and of those the same in lower
case the greatest. -/
structure CountsLoaded (d : Dict String) (k : List String) (name text : String) : Prop where
  defined : d.find? name = some text
  key : lowerWords name = k
  least : ∀ other, (d.find? other).isSome → lowerWords other = k → lowercase name ≤ lowercase other
  greatest : ∀ other, (d.find? other).isSome → lowercase other = lowercase name → other ≤ name

variable {punctuation : Regex} {settings : Settings} {k : List String}

theorem value?_empty (punctuation : Regex) (hk : k ≠ []) {v : List String} :
    (empty punctuation settings).lexicon.value? k = some v ↔
      ∃ name text, CountsUnloaded settings.substitutions k name text ∧ lowerWords text = v := by
  refine (Lexicon.value?_eq_some_iff punctuation settings.substitutions hk).trans ?_
  refine exists_congr fun name => exists_congr fun text => ?_
  constructor
  · rintro ⟨hdefined, hkey, hv, hleast⟩
    exact ⟨⟨hdefined, hkey, hleast⟩, hv⟩
  · rintro ⟨⟨hdefined, hkey, hleast⟩, hv⟩
    exact ⟨hdefined, hkey, hv, hleast⟩

/-- Of the settings alone the last spelling in lower case is left. -/
theorem standing_settings_eq (settings : Settings) (spelling : String) :
    standing (definitionsOf settings []) spelling =
      (settings.substitutions.entries.filter (fun e => decide (lowercase e.1 = spelling))).getLast?.map (·.2) := by
  have hfilter : (settings.substitutions.entries.map Definition.ofSettings).filter (·.spelling = spelling) =
      (settings.substitutions.entries.filter (fun e => decide (lowercase e.1 = spelling))).map Definition.ofSettings :=
    List.filter_map
  rw [standing, definitionsOf, List.flatMap_nil, List.map_nil, List.nil_append, hfilter, List.getLast?_map]
  generalize (settings.substitutions.entries.filter _).getLast? = last
  cases last with
  | none => rfl
  | some e => rfl

theorem standing_settings_iff {spelling text : String} :
    standing (definitionsOf settings []) spelling = some text ↔
      ∃ name, settings.substitutions.find? name = some text ∧ lowercase name = spelling ∧
        ∀ other, (settings.substitutions.find? other).isSome → lowercase other = spelling → other ≤ name := by
  rw [standing_settings_eq, Option.map_eq_some_iff, Prod.exists]
  simp only [Dict.entries_getLast?_eq_some_iff (q := fun name => decide (lowercase name = spelling)), decide_eq_true_eq]
  simp

theorem isSome_standing_settings {other : String} (h : (settings.substitutions.find? other).isSome) :
    (standing (definitionsOf settings []) (lowercase other)).isSome := by
  obtain ⟨text, htext⟩ := Option.isSome_iff_exists.mp h
  have hmem : (other, text) ∈ settings.substitutions.entries.filter (fun e => decide (lowercase e.1 = lowercase other)) :=
    List.mem_filter.mpr ⟨Dict.find?_eq_some_iff.mp htext, by simp⟩
  rw [standing_settings_eq, Option.isSome_map, List.getLast?_eq_some_getLast (List.ne_nil_of_mem hmem)]
  rfl

theorem value?_scopeOf_nil (punctuation : Regex) (hk : k ≠ []) {v : List String} :
    (scopeOf punctuation settings []).lexicon.value? k = some v ↔
      ∃ name text, CountsLoaded settings.substitutions k name text ∧ lowerWords text = v := by
  rw [value?_scopeOf punctuation hk]
  constructor
  · rintro ⟨spelling, text, ⟨hleft, hkey, hleast⟩, hv⟩
    obtain ⟨name, hdefined, rfl, hgreatest⟩ := standing_settings_iff.mp hleft
    rw [Lexicon.lowerWords_lowercase] at hkey
    refine ⟨name, text, ⟨hdefined, hkey, ?_, hgreatest⟩, hv⟩
    intro other hother hotherKey
    exact hleast (lowercase other) (isSome_standing_settings hother) (by rw [Lexicon.lowerWords_lowercase, hotherKey])
  · rintro ⟨name, text, ⟨hdefined, hkey, hleast, hgreatest⟩, hv⟩
    refine ⟨lowercase name, text, ⟨standing_settings_iff.mpr ⟨name, hdefined, rfl, hgreatest⟩, ?_, ?_⟩, hv⟩
    · rw [Lexicon.lowerWords_lowercase, hkey]
    · intro spelling hleft hspelling
      obtain ⟨other, hother⟩ := Option.isSome_iff_exists.mp hleft
      obtain ⟨name', hdefined', rfl, -⟩ := standing_settings_iff.mp hother
      rw [Lexicon.lowerWords_lowercase] at hspelling
      exact hleast name' (by rw [hdefined']; rfl) hspelling

end Rulebook

/-! ## Settings whose spellings agree -/

/-- Two spellings of one key are in lower case, or are replaced by the same words. -/
def Settings.Unambiguous (s : Settings) : Prop :=
  ∀ a ∈ s.substitutions.entries, ∀ b ∈ s.substitutions.entries, Lexicon.lowerWords a.1 = Lexicon.lowerWords b.1 →
    (Text.lowercase a.1 = a.1 ∧ Text.lowercase b.1 = b.1) ∨ Lexicon.lowerWords a.2 = Lexicon.lowerWords b.2

instance (s : Settings) : Decidable s.Unambiguous :=
  inferInstanceAs (Decidable (∀ a ∈ s.substitutions.entries, ∀ b ∈ s.substitutions.entries, _ → _))

namespace Rulebook

open Lexicon (lowerWords)

variable {punctuation : Regex} {settings : Settings} {k : List String}

theorem words_eq_of_counts (h : settings.Unambiguous) {name text name' text' : String}
    (hu : CountsUnloaded settings.substitutions k name text) (hl : CountsLoaded settings.substitutions k name' text') :
    lowerWords text = lowerWords text' := by
  have hmem := Dict.find?_eq_some_iff.mp hu.defined
  have hmem' := Dict.find?_eq_some_iff.mp hl.defined
  rcases h _ hmem _ hmem' (hu.key.trans hl.key.symm) with ⟨hname, hname'⟩ | hvalue
  · have hle : name ≤ name' := hu.least name' (by rw [hl.defined]; rfl) hl.key
    have hge := hl.least name (by rw [hu.defined]; rfl) hu.key
    rw [hname, hname'] at hge
    obtain rfl := le_antisymm hle hge
    rw [Option.some.inj (hu.defined.symm.trans hl.defined)]
  · exact hvalue

/-- Settings in which spellings agree make one table, before anything is loaded and afterwards. -/
theorem table_eq_of_unambiguous (h : settings.Unambiguous) (punctuation : Regex) :
    (scopeOf punctuation settings []).lexicon = (empty punctuation settings).lexicon := by
  refine congrArg (Lexicon.mk punctuation) ((Lexicon.table_eq_iff punctuation).mpr ?_)
  intro k hk
  change (scopeOf punctuation settings []).lexicon.value? k = (empty punctuation settings).lexicon.value? k
  cases hempty : (empty punctuation settings).lexicon.value? k with
  | some v =>
    obtain ⟨name, text, hu, rfl⟩ := (value?_empty punctuation hk).mp hempty
    -- The key is spelled in lower case once something is loaded.
    have hleft : (standing (definitionsOf settings []) (Text.lowercase name)).isSome :=
      isSome_standing_settings (by rw [hu.defined]; rfl)
    obtain ⟨text', htext'⟩ := Option.isSome_iff_exists.mp hleft
    rw [← find?_substitutions] at htext'
    have hloaded : ((scopeOf punctuation settings []).lexicon.value? k).isSome :=
      Lexicon.isSome_value? punctuation (Dict.find?_eq_some_iff.mp htext') hk (by rw [Lexicon.lowerWords_lowercase, hu.key])
    obtain ⟨v, hv⟩ := Option.isSome_iff_exists.mp hloaded
    obtain ⟨name', text', hl, rfl⟩ := (value?_scopeOf_nil punctuation hk).mp hv
    rw [hv, words_eq_of_counts h hu hl]
  | none =>
    rw [Option.eq_none_iff_forall_ne_some]
    intro v hv
    obtain ⟨name, text, hl, -⟩ := (value?_scopeOf_nil punctuation hk).mp hv
    have hsome := Lexicon.isSome_value? punctuation (Dict.find?_eq_some_iff.mp hl.defined) hk hl.key
    change ((empty punctuation settings).lexicon.value? k).isSome = true at hsome
    rw [hempty] at hsome
    cases hsome

/-! ## A text that declares nothing -/

/-- Nothing but the home topic. -/
structure Bare (r : Rulebook) : Prop where
  topics : r.catalog.topics = #[{ name := homeTopic }]
  triggers : r.catalog.triggers = #[]
  vars : r.vars = ∅
  globals : r.globals = ∅
  arrays : r.arrays = ∅
  version : r.version = none

theorem homeCatalog_eq : homeCatalog = { topics := #[{ name := homeTopic }] } := by
  simp [homeCatalog, Catalog.addTopic, Catalog.topicId?]

theorem bare_empty (punctuation : Regex) (settings : Settings) : (empty punctuation settings).Bare := by
  constructor
  · exact congrArg Catalog.topics homeCatalog_eq
  · exact congrArg Catalog.triggers homeCatalog_eq
  all_goals rfl

/-- Compiling no script, or one that declares nothing, changes the table of substitutions alone. -/
theorem build_bare (punctuation : Regex) (settings : Settings) (origin : String) :
    let loaded := { empty punctuation settings with lexicon := (scopeOf punctuation settings []).lexicon }
    build punctuation settings [] = .ok loaded ∧ build punctuation settings [{ origin }] = .ok loaded := by
  intro loaded
  have hhome : addTopic (scopeOf punctuation settings [{ origin }]) origin homeCatalog { name := homeTopic, line := 0 } =
      .ok homeCatalog := by
    rw [homeCatalog_eq]
    simp [addTopic, Catalog.addTopic, Catalog.topicId?, addEdges, addTriggers, pure, Except.pure]
  refine ⟨rfl, build_eq_ok.mpr ⟨homeCatalog, ?_, rfl⟩⟩
  change (addTopic _ origin homeCatalog { name := homeTopic, line := 0 } >>= fun c => pure c) >>= (fun c => pure c) = _
  rw [hhome]
  rfl

end Rulebook

theorem Script.read_of_no_statements {text : String} (h : Script.statementsOf text = []) (strict : Bool) (origin : String) :
    Script.read strict origin text = .ok { origin } := by
  rw [Script.read_eq, h]
  rfl

namespace Bot

open Rulebook

open Lexicon (lowerWords)

/-- A text without statements is loaded as if there were none. -/
theorem loadText_of_no_statements {b : Bot} {text : String} (h : Script.statementsOf text = []) (hsources : b.sources = [])
    (name : String) :
    (b.loadText name text).2 = .ok () ∧ (b.loadText name text).1.rules =
      { empty b.punctuation b.settings with lexicon := (scopeOf b.punctuation b.settings []).lexicon } := by
  have hread : b.readScript name text = .ok { origin := name } := by
    rw [readScript, Script.read_of_no_statements h]
    rfl
  obtain ⟨-, hbuild⟩ := build_bare b.punctuation b.settings name
  have hload : b.loadText name text = b.addSources [{ place := .inline name, script := { origin := name } }] := by
    rw [loadText, hread]
  rw [hload, addSources, hsources, adopt]
  simp only [List.nil_append, List.map_cons, List.map_nil, hbuild]
  exact ⟨rfl, rfl⟩

/-- Whatever the settings are, once their punctuation can be read: the rules before anything is loaded are those that are
compiled from no script, and those after a text without statements, but for the table of substitutions. Both tables
replace a key as one of its spellings says, and are the same if spellings agree. -/
theorem rules_once_loaded {settings : Settings} {punctuation : Regex} (h : settings.punctuationRegex = .ok punctuation) :
    ∃ b₀ loaded, Bot.new settings = .ok b₀ ∧ build punctuation settings [] = .ok loaded ∧
      b₀.rules = empty punctuation settings ∧ b₀.rules.Bare ∧ loaded = { b₀.rules with lexicon := loaded.lexicon } ∧
      (∀ name text, Script.statementsOf text = [] →
        (b₀.loadText name text).2 = .ok () ∧ (b₀.loadText name text).1.rules = loaded) ∧
      (∀ k ≠ [], ∀ v,
        (b₀.rules.lexicon.value? k = some v ↔
          ∃ name text, CountsUnloaded settings.substitutions k name text ∧ lowerWords text = v) ∧
        (loaded.lexicon.value? k = some v ↔
          ∃ name text, CountsLoaded settings.substitutions k name text ∧ lowerWords text = v)) ∧
      (loaded = b₀.rules ↔ ∀ k ≠ [], loaded.lexicon.value? k = b₀.rules.lexicon.value? k) ∧
      (settings.Unambiguous → loaded = b₀.rules ∧
        ∀ message, loaded.lexicon.words message = b₀.rules.lexicon.words message) := by
  obtain ⟨b₀, hnew, hsettings, hpunctuation, hrules, hsources⟩ : ∃ b₀, Bot.new settings = .ok b₀ ∧ b₀.settings = settings ∧
      b₀.punctuation = punctuation ∧ b₀.rules = empty punctuation settings ∧ b₀.sources = [] := by
    rw [new, h]
    exact ⟨_, rfl, rfl, rfl, rfl, rfl⟩
  obtain ⟨hbuild, -⟩ := build_bare punctuation settings ""
  refine ⟨b₀, _, hnew, hbuild, hrules, ?_, ?_, ?_, ?_, ?_, ?_⟩
  · rw [hrules]
    exact bare_empty punctuation settings
  · rw [hrules]
  · intro name text htext
    obtain ⟨hok, hloaded⟩ := loadText_of_no_statements htext hsources name
    rw [hsettings, hpunctuation] at hloaded
    exact ⟨hok, hloaded⟩
  · intro k hk v
    rw [hrules]
    exact ⟨value?_empty punctuation hk, value?_scopeOf_nil punctuation hk⟩
  · rw [hrules]
    constructor
    · intro heq k _
      rw [heq]
    · intro hvalues
      have htable := (Lexicon.table_eq_iff punctuation).mpr hvalues
      have hlexicon : (scopeOf punctuation settings []).lexicon = (empty punctuation settings).lexicon :=
        congrArg (Lexicon.mk punctuation) htable
      rw [hlexicon]
  · intro hunambiguous
    rw [hrules, table_eq_of_unambiguous hunambiguous punctuation]
    exact ⟨rfl, fun _ => rfl⟩

/-- Two spellings of one key that differ in case and in blanks, and are replaced by the same words. -/
theorem rules_once_loaded_alike :
    let settings : Settings := { substitutions := ((∅ : Dict String).put "Who  is" "who").put "who is" "WHO" }
    ∃ punctuation, settings.punctuationRegex = .ok punctuation ∧ settings.Unambiguous ∧
      Script.statementsOf "// Nothing yet.\n\n/* nor here" = [] ∧
      ∃ b₀, Bot.new settings = .ok b₀ ∧ (b₀.loadText "a" "// Nothing yet.\n\n/* nor here").2 = .ok () ∧
        (b₀.loadText "a" "// Nothing yet.\n\n/* nor here").1.rules = b₀.rules := by
  intro settings
  obtain ⟨punctuation, hpunctuation, -⟩ : ∃ punctuation, settings.punctuationRegex = .ok punctuation ∧ True :=
    exists_ok_of_any (by decide +kernel)
  have hunambiguous : settings.Unambiguous := by decide +kernel
  have htext : Script.statementsOf "// Nothing yet.\n\n/* nor here" = [] := by decide +kernel
  obtain ⟨b₀, loaded, hnew, -, -, -, -, hload, -, -, hsame⟩ := rules_once_loaded hpunctuation
  obtain ⟨hok, hrules⟩ := hload "a" _ htext
  exact ⟨punctuation, hpunctuation, hunambiguous, htext, b₀, hnew, hok, hrules.trans (hsame hunambiguous).1⟩

/-- Of a key in both cases the capital one counts until something is loaded, be it an empty text. -/
theorem a_capital_key_counts_until_something_is_loaded :
    let settings : Settings := { substitutions := ((∅ : Dict String).put "A" "x").put "a" "y" }
    ∃ b₀ loaded, Bot.new settings = .ok b₀ ∧ build b₀.punctuation settings [] = .ok loaded ∧
      b₀.rules.lexicon.words "a" = ["x"] ∧ loaded.lexicon.words "a" = ["y"] ∧
      (b₀.loadText "a" "").2 = .ok () ∧ (b₀.loadText "a" "").1.rules.lexicon.words "a" = ["y"] := by
  intro settings
  have htable : Lexicon.table settings.substitutions.entries = [⟨["a"], ["x"]⟩] := by
    have hsorted : (Lexicon.entriesOf settings.substitutions.entries).mergeSort Lexicon.keyLe =
        Lexicon.entriesOf settings.substitutions.entries := List.mergeSort_of_pairwise (by decide +kernel)
    change Lexicon.dropRepeats ((Lexicon.entriesOf settings.substitutions.entries).mergeSort Lexicon.keyLe) = _
    rw [hsorted]
    decide +kernel
  have hlexicon : ∀ p, (empty p settings).lexicon = { punctuation := p, substitutions := [⟨["a"], ["x"]⟩] } := by
    intro p
    exact congrArg (Lexicon.mk p) htable
  obtain ⟨b₀, hnew, hbefore, hloaded, hok, hafter⟩ : ∃ b₀, Bot.new settings = .ok b₀ ∧
      (Lexicon.mk b₀.punctuation [⟨["a"], ["x"]⟩]).words "a" = ["x"] ∧
      (scopeOf b₀.punctuation settings []).lexicon.words "a" = ["y"] ∧
      (b₀.loadText "a" "").2 = .ok () ∧ (b₀.loadText "a" "").1.rules.lexicon.words "a" = ["y"] :=
    exists_ok_of_any (by decide +kernel)
  have hrules : b₀.rules = empty b₀.punctuation settings := by
    obtain ⟨punctuation, -, hb₀⟩ := bind_eq_ok.mp hnew
    cases hb₀
    rfl
  refine ⟨b₀, _, hnew, (build_bare b₀.punctuation settings "").1, ?_, hloaded, hok, hafter⟩
  rw [hrules, hlexicon]
  exact hbefore

end Bot

end Repartee
