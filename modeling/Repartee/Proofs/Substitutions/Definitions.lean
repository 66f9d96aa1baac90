/-
  Repartee.Proofs.Substitutions.Definitions — which definition of a substitution is the one that counts.

  The definitions of all scripts and of the settings are gathered under the keys as they are spelled, and a later one
  replaces an earlier one of its spelling, or takes it back. Keys become words only after that: where two spellings are
  left that have the same words, the table keeps the one that comes first among strings, whichever was defined last.

  Proved:
  - What is left of a spelling is its last definition (`find?_substitutions`).
  - The table has the least of the spellings of a key that are left (`value?_scopeOf`). It is that of the last definition
    of the key if no other is left (`exists_prevails_iff`).
  - Both of every rulebook that compiles (`value?_of_build`).
-/

import Mathlib.Data.List.Find
import Mathlib.Data.List.Induction
import Repartee.Proofs.Directory
import Repartee.Proofs.Joined.Rulebooks
import Repartee.Proofs.Substitutions

namespace Repartee

/-! ## The first entry of a dictionary -/

/-- The first entry of a kind is the one with the least name. -/
theorem Dict.entries_find?_eq_some_iff {α : Type} {d : Dict α} {q : String → Bool} {name : String} {v : α} :
    d.entries.find? (fun e => q e.1) = some (name, v) ↔
      d.find? name = some v ∧ q name = true ∧ ∀ other, (d.find? other).isSome → q other = true → name ≤ other := by
  have hfirst : ∀ {name v}, d.entries.find? (fun e => q e.1) = some (name, v) →
      d.find? name = some v ∧ q name = true ∧ ∀ other, (d.find? other).isSome → q other = true → name ≤ other := by
    intro name v hfound
    obtain ⟨hq, before, after, hentries, hbefore⟩ := List.find?_eq_some_iff_append.mp hfound
    refine ⟨Dict.find?_eq_some_iff.mpr (by simp [hentries]), hq, ?_⟩
    intro other hother hqother
    obtain ⟨w, hw⟩ := Option.isSome_iff_exists.mp hother
    rw [Dict.find?_eq_some_iff, hentries, List.mem_append] at hw
    rcases hw with hw | hw
    · have hmisses := hbefore _ hw
      rw [hqother] at hmisses
      cases hmisses
    · rcases List.mem_cons.mp hw with heq | hw
      · cases heq
        exact le_refl _
      · have hsorted := d.sorted
        rw [hentries] at hsorted
        exact ((List.pairwise_cons.mp (List.pairwise_append.mp hsorted).2.1).1 _ hw).le
  constructor
  · exact hfirst
  · rintro ⟨hv, hq, hleast⟩
    have hsome : (d.entries.find? (fun e => q e.1)).isSome :=
      List.find?_isSome.mpr ⟨(name, v), Dict.find?_eq_some_iff.mp hv, hq⟩
    obtain ⟨⟨first, w⟩, hfound⟩ := Option.isSome_iff_exists.mp hsome
    obtain ⟨hw, hqfirst, hfirstLeast⟩ := hfirst hfound
    obtain rfl : first = name := le_antisymm (hfirstLeast name (by rw [hv]; rfl) hq) (hleast first (by rw [hw]; rfl) hqfirst)
    rw [hfound, Option.some.inj (hw.symm.trans hv)]

namespace Lexicon

variable {pairs : List (String × String)} {k : List String}

/-- What replaces a key. -/
def value? (l : Lexicon) (k : List String) : Option (List String) := (l.substitutions.find? (·.key = k)).map (·.value)

/-- A key is replaced as the first pair says that is spelled in its words. -/
theorem value?_ofPairs (punctuation : Regex) (hk : k ≠ []) :
    (ofPairs punctuation pairs).value? k = (pairs.find? (lowerWords ·.1 = k)).map (lowerWords ·.2) := by
  have hentry : (table pairs).find? (·.key = k) =
      (pairs.find? (lowerWords ·.1 = k)).map fun p => { key := lowerWords p.1, value := lowerWords p.2 } := by
    have hfits : ∀ p ∈ pairs, decide ((!(lowerWords p.1).isEmpty) = true ∧ decide (lowerWords p.1 = k) = true) =
        decide (lowerWords p.1 = k) := by
      intro p _
      by_cases hp : lowerWords p.1 = k
      · simp [hp, hk]
      · simp [hp]
    rw [find?_table, entriesOf, List.find?_filter, List.find?_map]
    simp only [Function.comp_def]
    rw [List.find?_congr hfits]
  rw [value?, ofPairs, hentry]
  simp only [Option.map_map, Function.comp_def]

/-- Of a dictionary, a table takes the least of the names that are spelled in the words of a key. -/
theorem value?_eq_some_iff (punctuation : Regex) (d : Dict String) (hk : k ≠ []) {v : List String} :
    (ofPairs punctuation d.entries).value? k = some v ↔ ∃ name text, d.find? name = some text ∧ lowerWords name = k ∧
      lowerWords text = v ∧ ∀ other, (d.find? other).isSome → lowerWords other = k → name ≤ other := by
  rw [value?_ofPairs punctuation hk, Option.map_eq_some_iff, Prod.exists]
  refine exists_congr fun name => exists_congr fun text => ?_
  rw [Dict.entries_find?_eq_some_iff (q := fun name => lowerWords name = k)]
  simp only [decide_eq_true_eq]
  constructor
  · rintro ⟨⟨htext, hname, hleast⟩, hv⟩
    exact ⟨htext, hname, hv, hleast⟩
  · rintro ⟨htext, hname, hv, hleast⟩
    exact ⟨⟨htext, hname, hleast⟩, hv⟩

end Lexicon

namespace Rulebook

open Lexicon (lowerWords standardPunctuation)

/-! ## Definitions in order -/

/-- A definition of a substitution: its key as it is spelled, and what replaces it, unless it is taken back. -/
structure Definition where
  spelling : String
  value : Option String
  deriving DecidableEq, Repr

/-- The words of the key. -/
def Definition.key (d : Definition) : List String := lowerWords d.spelling

/-- A definition as scripts have it. -/
def Definition.ofScript (s : String × String) : Definition := ⟨s.1, if s.2 = erasingValue then none else some s.2⟩

/-- A definition as settings have it. -/
def Definition.ofSettings (s : String × String) : Definition := ⟨Text.lowercase s.1, some s.2⟩

/-- The definitions of the scripts, in order, and on top of them those of the settings. -/
def definitionsOf (settings : Settings) (scripts : List Script) : List Definition :=
  (scripts.flatMap Script.subs).map .ofScript ++ settings.substitutions.entries.map .ofSettings

/-- What the last definition of a spelling leaves of it. -/
def standing (ds : List Definition) (spelling : String) : Option String :=
  (ds.filter (·.spelling = spelling)).getLast?.bind (·.value)

/-- The text is left of the spelling, and that is the least spelling of the key that anything is left of. -/
structure Prevails (ds : List Definition) (k : List String) (spelling text : String) : Prop where
  left : standing ds spelling = some text
  key : lowerWords spelling = k
  least : ∀ other, (standing ds other).isSome → lowerWords other = k → spelling ≤ other

variable {punctuation : Regex} {settings : Settings} {scripts : List Script} {r : Rulebook} {ds : List Definition}
  {d : Definition} {spelling : String} {k : List String}

theorem standing_concat (ds : List Definition) (d : Definition) (spelling : String) :
    standing (ds ++ [d]) spelling = if spelling = d.spelling then d.value else standing ds spelling := by
  rw [standing, List.filter_append]
  by_cases h : spelling = d.spelling
  · simp [h]
  · simp [standing, h, Ne.symm h]

/-- Put a definition into a dictionary, or take its name out. -/
def Definition.apply (s : Dict String) (d : Definition) : Dict String :=
  match d.value with
  | some value => s.put d.spelling value
  | none => s.erase d.spelling

theorem find?_foldl_apply (ds : List Definition) (spelling : String) :
    (ds.foldl Definition.apply ∅).find? spelling = standing ds spelling := by
  induction ds using List.reverseRecOn with
  | nil => rfl
  | append_singleton ds d ih =>
    rw [List.foldl_append, List.foldl_cons, List.foldl_nil, standing_concat, ← ih, Definition.apply]
    cases d.value with
    | some value => exact Dict.find?_put _ _ _ _
    | none => exact Dict.find?_erase _ _ _

theorem define_eq (s : Dict String) (subs : List (String × String)) :
    define s subs = (subs.map .ofScript).foldl Definition.apply s := by
  rw [define, List.foldl_map]
  refine congrArg (fun f => subs.foldl f s) (funext fun s => funext fun sub => ?_)
  by_cases herasing : sub.2 = erasingValue
  · simp [Definition.ofScript, Definition.apply, herasing]
  · simp [Definition.ofScript, Definition.apply, herasing]

theorem substitutions_eq (settings : Settings) (scripts : List Script) :
    substitutions settings scripts = (definitionsOf settings scripts).foldl Definition.apply ∅ := by
  have hscripts : merged scripts Script.subs = ((scripts.flatMap Script.subs).map .ofScript).foldl Definition.apply ∅ := by
    rw [← define_eq, define, List.foldl_flatMap]
    rfl
  have hsettings : ∀ (s : Dict String) (entries : List (String × String)),
      entries.foldl (fun s e => s.put (Text.lowercase e.1) e.2) s = (entries.map .ofSettings).foldl Definition.apply s := by
    intro s entries
    rw [List.foldl_map]
    rfl
  rw [substitutions, hscripts, definitionsOf, List.foldl_append]
  exact hsettings _ _

/-- What is left of a spelling is what its last definition leaves. -/
theorem find?_substitutions (settings : Settings) (scripts : List Script) (spelling : String) :
    (substitutions settings scripts).find? spelling = standing (definitionsOf settings scripts) spelling := by
  rw [substitutions_eq, find?_foldl_apply]

/-! ## The definition that counts -/

/-- The table has the least of the spellings of a key that are left. -/
theorem value?_scopeOf (punctuation : Regex) (hk : k ≠ []) {v : List String} :
    (scopeOf punctuation settings scripts).lexicon.value? k = some v ↔
      ∃ spelling text, Prevails (definitionsOf settings scripts) k spelling text ∧ lowerWords text = v := by
  refine (Lexicon.value?_eq_some_iff punctuation (substitutions settings scripts) hk).trans ?_
  simp only [find?_substitutions]
  refine exists_congr fun spelling => exists_congr fun text => ?_
  constructor
  · rintro ⟨hleft, hkey, hv, hleast⟩
    exact ⟨⟨hleft, hkey, hleast⟩, hv⟩
  · rintro ⟨⟨hleft, hkey, hleast⟩, hv⟩
    exact ⟨hleft, hkey, hv, hleast⟩

/-- If nothing is left of a key under other spellings, what is left of it is left of this one. -/
theorem eq_of_standing {other : String}
    (hothers : ∀ e ∈ ds, e.key = k → e.spelling ≠ spelling → standing ds e.spelling = none)
    (hleft : (standing ds other).isSome) (hother : lowerWords other = k) : other = spelling := by
  by_contra hne
  obtain ⟨text, htext⟩ := Option.isSome_iff_exists.mp hleft
  obtain ⟨e, he, -⟩ := Option.bind_eq_some_iff.mp htext
  obtain ⟨hmem, hspelling⟩ := List.mem_filter.mp (List.mem_of_getLast? he)
  obtain rfl : e.spelling = other := by simpa using hspelling
  rw [hothers e hmem hother hne] at hleft
  cases hleft

section Last

variable (h : (ds.filter (·.key = k)).getLast? = some d)

include h

theorem key_of_last : d.key = k := by
  have hmem : d ∈ ds.filter (·.key = k) := List.mem_of_getLast? h
  simpa using (List.mem_filter.mp hmem).2

/-- The last definition of a key is the last of its spelling. -/
theorem standing_of_last : standing ds d.spelling = d.value := by
  obtain ⟨before, hbefore⟩ := List.getLast?_eq_some_iff.mp h
  have hspelling : ds.filter (·.spelling = d.spelling) = (ds.filter (·.key = k)).filter (·.spelling = d.spelling) := by
    rw [List.filter_filter]
    apply List.filter_congr
    intro e _
    by_cases he : e.spelling = d.spelling
    · simp [he, ← key_of_last h, Definition.key]
    · simp [he]
  rw [standing, hspelling, hbefore, List.filter_append, List.filter_singleton]
  simp

/-- It prevails, unless it is taken back, if nothing else is left of the key. -/
theorem exists_prevails_iff (hothers : ∀ e ∈ ds, e.key = k → e.spelling ≠ d.spelling → standing ds e.spelling = none)
    {v : List String} :
    (∃ spelling text, Prevails ds k spelling text ∧ lowerWords text = v) ↔ d.value.map lowerWords = some v := by
  constructor
  · rintro ⟨spelling, text, hprevails, rfl⟩
    have hleft := hprevails.left
    obtain rfl : spelling = d.spelling := eq_of_standing hothers (by rw [hleft]; rfl) hprevails.key
    rw [standing_of_last h] at hleft
    rw [hleft]
    rfl
  · intro hvalue
    obtain ⟨text, htext, rfl⟩ := Option.map_eq_some_iff.mp hvalue
    refine ⟨d.spelling, text, ⟨(standing_of_last h).trans htext, key_of_last h, ?_⟩, rfl⟩
    intro other hleft hother
    exact (eq_of_standing hothers hleft hother).ge

end Last

/-- A compiled rulebook has each key at most once, and none without words. It replaces a key as its last definition says
if no other spelling of the key is left, and in any case as the least of the spellings says that are left. -/
theorem value?_of_build (h : build punctuation settings scripts = .ok r) :
    let ds := definitionsOf settings scripts
    (r.lexicon.substitutions.map (·.key)).Nodup ∧ [] ∉ r.lexicon.substitutions.map (·.key) ∧
    ∀ k ≠ [],
      (∀ d, (ds.filter (·.key = k)).getLast? = some d →
        (∀ e ∈ ds, e.key = k → e.spelling ≠ d.spelling → standing ds e.spelling = none) →
          r.lexicon.value? k = d.value.map lowerWords) ∧
      ∀ v, r.lexicon.value? k = some v ↔ ∃ spelling text, Prevails ds k spelling text ∧ lowerWords text = v := by
  intro ds
  obtain ⟨catalog, -, rfl⟩ := build_eq_ok.mp h
  have htable := Lexicon.isTable_table (substitutions settings scripts).entries
  refine ⟨htable.nodup_keys, ?_, ?_⟩
  · intro hmem
    obtain ⟨s, hs, hnil⟩ := List.mem_map.mp hmem
    exact htable.keyed s hs hnil
  · intro k hk
    refine ⟨?_, fun v => value?_scopeOf punctuation hk⟩
    intro d hlast hothers
    apply Option.ext
    intro v
    exact (value?_scopeOf punctuation hk).trans (exists_prevails_iff hlast hothers)

/-- The second script takes one spelling of `a b` back and defines another; settings replace what is defined as `c`. -/
theorem value?_of_build_taken_back :
    let first : Script := { origin := "first", subs := [("a b", "x"), ("c", "z")] }
    let second : Script := { origin := "second", subs := [("a b", "<undef>"), ("a  b", "y Y")] }
    let settings : Settings := { substitutions := (∅ : Dict String).put "C" "<undef>" }
    ∃ r, build standardPunctuation settings [first, second] = .ok r ∧ r.lexicon.value? ["a", "b"] = some ["y", "y"] ∧
      r.lexicon.value? ["c"] = some ["<undef>"] := by
  intro first second settings
  obtain ⟨r, hr, -⟩ : ∃ r, build standardPunctuation settings [first, second] = .ok r ∧ True :=
    exists_ok_of_any (by decide +kernel)
  obtain ⟨-, -, hvalue⟩ := value?_of_build hr
  obtain ⟨hlast, -⟩ := hvalue ["a", "b"] (List.cons_ne_nil _ _)
  obtain ⟨hlast', -⟩ := hvalue ["c"] (List.cons_ne_nil _ _)
  refine ⟨r, hr, ?_, ?_⟩
  · exact (hlast ⟨"a  b", some "y Y"⟩ (by decide +kernel) (by decide +kernel)).trans (by decide +kernel)
  · exact (hlast' ⟨"c", some "<undef>"⟩ (by decide +kernel) (by decide +kernel)).trans (by decide +kernel)

/-- A key spelled with two blanks stays as it was defined first, though the last definition of its words replaces it, or
takes it back. -/
theorem an_earlier_spelling_is_kept :
    let replaced : Script := { origin := "a", subs := [("a  b", "x"), ("a b", "y")] }
    let erased : Script := { origin := "a", subs := [("a  b", "x"), ("a b", "<undef>")] }
    (Script.read false "a" "! sub a  b = x\n! sub a b = y" = .ok replaced ∧
      ((definitionsOf {} [replaced]).filter (·.key = ["a", "b"])).getLast? = some ⟨"a b", some "y"⟩ ∧
      ∃ r, build standardPunctuation {} [replaced] = .ok r ∧ r.lexicon.value? ["a", "b"] = some ["x"]) ∧
    Script.read false "a" "! sub a  b = x\n! sub a b = <undef>" = .ok erased ∧
      ((definitionsOf {} [erased]).filter (·.key = ["a", "b"])).getLast? = some ⟨"a b", none⟩ ∧
      ∃ r, build standardPunctuation {} [erased] = .ok r ∧ r.lexicon.value? ["a", "b"] = some ["x"] := by
  intro replaced erased
  have hvalue : ∀ {script r}, build standardPunctuation {} [script] = .ok r → r.lexicon.value? ["a", "b"] =
      ((substitutions {} [script]).entries.find? (lowerWords ·.1 = ["a", "b"])).map (lowerWords ·.2) := by
    intro script r hr
    obtain ⟨catalog, -, rfl⟩ := build_eq_ok.mp hr
    exact Lexicon.value?_ofPairs standardPunctuation (List.cons_ne_nil _ _)
  obtain ⟨r, hr, -⟩ : ∃ r, build standardPunctuation {} [replaced] = .ok r ∧ True := exists_ok_of_any (by decide +kernel)
  obtain ⟨r', hr', -⟩ : ∃ r, build standardPunctuation {} [erased] = .ok r ∧ True := exists_ok_of_any (by decide +kernel)
  refine ⟨⟨by decide +kernel, by decide +kernel, r, hr, ?_⟩, by decide +kernel, by decide +kernel, r', hr', ?_⟩
  · exact (hvalue hr).trans (by decide +kernel)
  · exact (hvalue hr').trans (by decide +kernel)

end Rulebook

end Repartee
