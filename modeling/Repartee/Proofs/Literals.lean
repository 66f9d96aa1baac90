/-
  Repartee.Proofs.Literals — the words that triggers name, and the words of messages.

  Both sides are put into lower case and lose their punctuation, but a word of a message loses what is not
  alphanumeric at its ends before that. The two meet where there is no such end.

  Proved:
  - The literals of a compiled trigger are what the punctuation leaves of runs that stand in it, or in an array
    (`exists_writtenRun`).
  - With the standard punctuation a text without groups, tags and wildcards is a trigger of its own words, and
    aligns with these alone (`compile_own_words`).
  - Under every punctuation a literal is a word of messages: of the run that it was written as, and of itself if
    the punctuation has nothing more to remove (`literals_spoken`).
-/

import Repartee.Proofs.Alignment
import Repartee.Proofs.Grammar
import Repartee.Proofs.Wording

namespace Repartee

open Text
open Unicode (isBlank isTextual isAlphanumeric lowerChar)

/-- The words that an item names. -/
def Item.literals : Item → List String
  | .word w => [w]
  | .wildcard _ => []
  | .choice alternatives => alternatives.flatten
  | .optional alternatives => (Pattern.wordAlternatives alternatives).flatten

namespace Pattern

def literals (p : Pattern) : List String := p.items.flatMap Item.literals

/-! ## Where literals are written -/

/-- A run of characters that are not blank, in the trigger or in an entry of an array. -/
structure WrittenRun (scope : Scope) (source : String) (run : List Char) : Prop where
  nonempty : run ≠ []
  visible : ∀ c ∈ run, isBlank c = false
  place : run <:+: source.toList ∨
    ∃ name entries, scope.arrays.find? name = some entries ∧ ∃ entry ∈ entries, run <:+: entry.toList

/-- A weight tag leaves a blank, so no run goes across the place of one. -/
theorem Lifts.run {cs text run : List Char} {values : List (List Char)} (h : Lifts cs text values)
    (hvisible : ∀ c ∈ run, isBlank c = false) : (run <+: text → run <+: cs) ∧ (run <:+: text → run <:+: cs) := by
  induction h generalizing run with
  | nil => exact ⟨id, id⟩
  | @tag value cs text values hvalue _ ih =>
    have hnone : run <+: ' ' :: text → run = [] := by
      intro hstarts
      cases run with
      | nil => rfl
      | cons c run =>
        obtain rfl : c = ' ' := (List.cons_prefix_cons.mp hstarts).1
        exact absurd (hvisible ' ' List.mem_cons_self) (by decide)
    refine ⟨fun hstarts => hnone hstarts ▸ List.nil_prefix, fun hwithin => ?_⟩
    rcases List.infix_cons_iff.mp hwithin with hstarts | hwithin
    · exact hnone hstarts ▸ List.nil_infix
    · have hcs : cs <:+ weightOpening ++ (value ++ '}' :: cs) :=
        (List.suffix_cons _ _).trans ((List.suffix_append _ _).trans (List.suffix_append _ _))
      exact ((ih hvisible).2 hwithin).trans hcs.isInfix
  | @keep c cs text values _ _ ih =>
    have hstarts : ∀ {run : List Char}, (∀ c ∈ run, isBlank c = false) → run <+: c :: text → run <+: c :: cs := by
      intro run hvisible hstarts
      cases run with
      | nil => exact List.nil_prefix
      | cons d run =>
        obtain ⟨rfl, hbegins⟩ := List.cons_prefix_cons.mp hstarts
        exact List.cons_prefix_cons.mpr ⟨rfl, (ih (List.forall_mem_cons.mp hvisible).2).1 hbegins⟩
    refine ⟨hstarts hvisible, fun hwithin => ?_⟩
    rcases List.infix_cons_iff.mp hwithin with hbegins | hwithin
    · exact (hstarts hvisible hbegins).isInfix
    · exact ((ih hvisible).2 hwithin).trans (List.suffix_cons c cs).isInfix

/-- A word among the parts stands outside the groups. -/
theorem word_of_mem_parts {o : Outline} {run : List Char} (h : .word run ∈ o.parts) : ∃ cs, cs <:+: o.written ∧ run ∈ words cs := by
  have hword : ∀ {cs : List Char}, Part.word run ∈ (words cs).map .word → run ∈ words cs := by
    intro cs hmem
    obtain ⟨run, hrun, heq⟩ := List.mem_map.mp hmem
    cases heq
    exact hrun
  induction o with
  | plain cs => exact ⟨cs, List.infix_rfl, hword h⟩
  | group before square body after ih =>
    rcases List.mem_append.mp h with h | h
    · exact ⟨before, (List.prefix_append _ _).isInfix, hword h⟩
    · rcases List.mem_cons.mp h with heq | h
      · cases heq
      · obtain ⟨cs, hcs, hrun⟩ := ih h
        refine ⟨cs, hcs.trans ?_, hrun⟩
        exact ((List.suffix_cons _ _).trans ((List.suffix_append _ _).trans ((List.suffix_cons _ _).trans
          (List.suffix_append _ _)))).isInfix

theorem body_of_mem_parts {o : Outline} {square : Bool} {body : List Char} (h : .group square body ∈ o.parts) :
    body <:+: o.written := by
  have hword : ∀ cs : List Char, Part.group square body ∉ (words cs).map .word := by
    intro cs hmem
    obtain ⟨run, -, heq⟩ := List.mem_map.mp hmem
    cases heq
  induction o with
  | plain cs => exact absurd h (hword cs)
  | group before square body after ih =>
    rw [Outline.written]
    rcases List.mem_append.mp h with h | h
    · exact absurd h (hword before)
    · rcases List.mem_cons.mp h with heq | h
      · cases heq
        exact ⟨before ++ [groupOpening square], groupClosing square :: after.written, by simp⟩
      · exact (ih h).trans ((List.suffix_cons _ _).trans ((List.suffix_append _ _).trans ((List.suffix_cons _ _).trans
          (List.suffix_append _ _)))).isInfix

/-- Alternatives stand in the group that lists them, or in an array. -/
theorem isInfix_of_offers {scope : Scope} {body a : List Char} {alternatives : List (List Char)}
    (h : Offers scope body alternatives) (ha : a ∈ alternatives) : a <:+: body ∨
      ∃ name entries, scope.arrays.find? name = some entries ∧ ∃ entry ∈ entries, a <:+: entry.toList := by
  cases h with
  | array hbody hentries =>
    obtain ⟨entry, hentry, rfl⟩ := List.mem_map.mp ha
    exact .inr ⟨_, _, hentries, entry, hentry, List.infix_rfl⟩
  | listed hbody =>
    obtain ⟨piece, hpiece, rfl⟩ := List.mem_map.mp ha
    exact .inl ((trim_isInfix piece).trans ((isInfix_of_mem_fields hpiece).trans (trim_isInfix body)))

theorem exists_run_of_mem_wordsLeft {scope : Scope} {cs : List Char} {w : String} (h : w ∈ wordsLeft scope cs) :
    w ≠ "" ∧ ∃ run ∈ words cs, w = scope.lexicon.strip (.ofList run) := by
  obtain ⟨hmem, hne⟩ := List.mem_filter.mp h
  obtain ⟨run, hrun, rfl⟩ := List.mem_map.mp hmem
  exact ⟨by simpa using hne, run, hrun, rfl⟩

/-- The literals of a group are left of words in its alternatives. -/
theorem mem_wordsLeft_of_group {scope : Scope} {square : Bool} {body : List Char} {item : Item} {w : String}
    (h : Stands scope (.group square body) (some item)) (hw : w ∈ item.literals) :
    ∃ alternatives, Offers scope body alternatives ∧ ∃ a ∈ alternatives, w ∈ wordsLeft scope a := by
  cases h with
  | @choice _ alternatives kept hoffers hfirsts =>
    obtain ⟨ws, hws, hmem⟩ := List.mem_flatten.mp hw
    obtain ⟨a, ha, rfl⟩ := List.mem_map.mp (List.mem_filter.mp ((hfirsts.mem_iff ws).mp hws)).1
    exact ⟨alternatives, hoffers, a, ha, hmem⟩
  | @optional _ alternatives kept hoffers hfirsts =>
    obtain ⟨ws, hws, hmem⟩ := List.mem_flatten.mp hw
    have hkept : ws ∈ kept := by
      rw [mem_wordAlternatives, List.mem_append] at hws
      rcases hws with hws | hws
      · simpa using hws
      · split at hws <;> simp at hws
    obtain ⟨a, ha, rfl⟩ := List.mem_map.mp (List.mem_filter.mp ((hfirsts.mem_iff ws).mp hkept)).1
    exact ⟨alternatives, hoffers, a, (List.mem_filter.mp ha).1, hmem⟩

theorem exists_of_mem_forall₂ {α β : Type} {R : α → β → Prop} {as : List α} {bs : List β} {b : β} (h : List.Forall₂ R as bs)
    (hb : b ∈ bs) : ∃ a ∈ as, R a b := by
  induction h with
  | nil => cases hb
  | cons hab _ ih =>
    rcases List.mem_cons.mp hb with rfl | hb
    · exact ⟨_, List.mem_cons_self, hab⟩
    · obtain ⟨a, ha, hR⟩ := ih hb
      exact ⟨a, List.mem_cons_of_mem _ ha, hR⟩

/-- Each item of a compiled trigger is what a part of a grammatical outline stands for. -/
theorem exists_part_of_mem {scope : Scope} {source : String} {p : Pattern} {item : Item} (h : compile scope source = .ok p)
    (hitem : item ∈ p.items) : ∃ values o, Lifts (trim source.toList) o.written values ∧ Grammatical scope values o ∧
      ∃ part ∈ o.parts, Stands scope part (some item) := by
  obtain ⟨values, o, hlifts, hgrammar, -, ⟨found, hfound, hitems⟩, -⟩ := compile_eq_ok_iff.mp h
  rw [hitems] at hitem
  obtain ⟨_, hmem, heq⟩ := List.mem_filterMap.mp hitem
  cases heq
  exact ⟨values, o, hlifts, hgrammar, exists_of_mem_forall₂ hfound hmem⟩

/-- A literal is what the punctuation leaves of a run that is written somewhere. -/
theorem exists_writtenRun {scope : Scope} {source w : String} {p : Pattern} (h : compile scope source = .ok p)
    (hw : w ∈ p.literals) : w ≠ "" ∧ ∃ run, WrittenRun scope source run ∧ w = scope.lexicon.strip (.ofList run) := by
  obtain ⟨item, hitem, hw⟩ := List.mem_flatMap.mp hw
  obtain ⟨values, o, hlifts, -, part, hpart, hstands⟩ := exists_part_of_mem h hitem
  have hwritten : ∀ {run cs : List Char}, run ∈ words cs → cs <:+: o.written ∨ (∃ name entries,
      scope.arrays.find? name = some entries ∧ ∃ entry ∈ entries, cs <:+: entry.toList) → WrittenRun scope source run := by
    intro run cs hrun hcs
    obtain ⟨hne, hchars⟩ := mem_words hrun
    have hvisible : ∀ c ∈ run, isBlank c = false := fun c hc => (hchars c hc).2
    refine ⟨hne, hvisible, ?_⟩
    rcases hcs with hcs | ⟨name, entries, hentries, entry, hentry, hcs⟩
    · have hrun := (isInfix_of_mem_words hrun).trans hcs
      exact .inl (((hlifts.run hvisible).2 hrun).trans (trim_isInfix _))
    · exact .inr ⟨name, entries, hentries, entry, hentry, (isInfix_of_mem_words hrun).trans hcs⟩
  cases part with
  | word run =>
    obtain ⟨cs, hcs, hrun⟩ := word_of_mem_parts hpart
    cases hstands with
    | wildcard hk => cases hw
    | word hfree hne =>
      obtain rfl := List.mem_singleton.mp hw
      exact ⟨hne, run, hwritten hrun (.inl hcs), rfl⟩
  | group square body =>
    obtain ⟨alternatives, hoffers, a, ha, hmem⟩ := mem_wordsLeft_of_group hstands hw
    obtain ⟨hne, run, hrun, rfl⟩ := exists_run_of_mem_wordsLeft hmem
    refine ⟨hne, run, hwritten hrun ?_, rfl⟩
    exact (isInfix_of_offers hoffers ha).imp_left fun hwithin => hwithin.trans (body_of_mem_parts hpart)
  | unbalanced bracket => cases hstands

/-! ## Triggers of words only -/

/-- The characters of groups, tags and wildcards. -/
def specialChars : List Char := ['(', ')', '[', ']', '{', '}', '<', '>', '*', '#', '_']

theorem specialChars_of : (∀ c ∈ sigils, c ∈ specialChars) ∧ (∀ c ∈ tagMarks, c ∈ specialChars) ∧
    ∀ c, isBracket c = true → c ∈ specialChars := by
  refine ⟨by simp [sigils, specialChars], by simp [tagMarks, specialChars], fun c hc => ?_⟩
  simp only [isBracket, Bool.or_eq_true, beq_iff_eq] at hc
  rcases hc with ((rfl | rfl) | rfl) | rfl <;> decide

theorem lifts_of_forall {cs : List Char} (h : ∀ c ∈ cs, c ∉ specialChars) : Lifts cs cs [] := by
  induction cs with
  | nil => exact .nil
  | cons c cs ih =>
    obtain ⟨hc, hcs⟩ := List.forall_mem_cons.mp h
    refine .keep (fun value rest _ heq => ?_) (ih hcs)
    obtain rfl : c = '\x7b' := (List.cons.inj heq).1
    exact hc (by decide)

theorem compile_ordinary {scope : Scope} {source : String} (h : ∀ c ∈ source.toList, c ∉ specialChars)
    (hsome : wordsLeft scope source.toList ≠ []) : compile scope source = .ok
      { text := trimmed source, items := (wordsLeft scope source.toList).map .word, weight := 0 } := by
  have hmarks : ∀ c ∈ trim source.toList, c ∉ specialChars := fun c hc => h c (mem_of_mem_trim hc)
  have hwords : words (trim source.toList) = words source.toList := words_trim _
  have hruns : ∀ run ∈ words source.toList, ∀ c ∈ run, c ∉ sigils := by
    intro run hrun c hc hsigil
    exact h c ((mem_words hrun).2 c hc).1 (specialChars_of.1 c hsigil)
  have hfound : List.Forall₂ (Stands scope) ((words (trim source.toList)).map .word)
      ((words source.toList).map fun run => (literal? scope run).map .word) := by
    rw [hwords, List.forall₂_map_left_iff, List.forall₂_map_right_iff, List.forall₂_same]
    exact fun run hrun => (stands_word_iff (hruns run hrun)).mpr rfl
  have hitems : ((words source.toList).map fun run => (literal? scope run).map Item.word).filterMap id =
      (wordsLeft scope source.toList).map .word := by
    rw [← filterMap_literal?, List.filterMap_map, List.map_filterMap]
    rfl
  have hparts : ∀ part ∈ (Outline.plain (trim source.toList)).parts, PartSound scope part := by
    intro part hpart
    obtain ⟨run, hrun, rfl⟩ := List.mem_map.mp hpart
    rw [hwords] at hrun
    exact fun c hc hsigil => absurd hsigil (hruns run hrun c hc)
  refine compile_eq_ok_iff.mpr ⟨[], .plain (trim source.toList), lifts_of_forall hmarks, ?_, rfl, ⟨_, hfound, hitems.symm⟩, rfl⟩
  refine ⟨List.forall_mem_nil _, ?_, ?_, hparts, ?_⟩
  · exact fun c hc hmark => hmarks c hc (specialChars_of.2.1 c hmark)
  · exact fun c hc => Bool.eq_false_iff.mpr fun hbracket => hmarks c hc (specialChars_of.2.2 c hbracket)
  · refine (filterMap_ne_nil_iff hparts hfound).mp ?_
    rw [hitems]
    simpa using hsome

theorem plain_words (ws message : List String) : plain (ws.map .word) message = if message = ws then some [] else none := by
  induction ws generalizing message with
  | nil => rfl
  | cons w ws ih =>
    rw [List.map_cons, plain, choices]
    cases message with
    | nil => simp
    | cons v message =>
      by_cases hv : v = w
      · have hbegins : [w] <+: v :: message := ⟨message, by rw [hv]; rfl⟩
        rw [if_pos hbegins]
        simp [ih, hv]
      · have hbegins : ¬ [w] <+: v :: message := fun h => hv (List.cons_prefix_cons.mp h).1.symm
        rw [if_neg hbegins]
        simp [hv]

/-- A pattern of words aligns with these words, and captures nothing. -/
theorem align_words {p : Pattern} {ws : List String} (h : p.items = ws.map .word) (message : List String) :
    p.align message = if message = ws then some [] else none := by
  have hlast : ∀ item ∈ p.items, AnyWordsLast item := by
    rw [h]
    intro item hitem
    obtain ⟨w, -, rfl⟩ := List.mem_map.mp hitem
    trivial
  rw [align_of_anyWordsLast hlast, h, plain_words]

/-- The words of a trigger are stripped as those of a message are. -/
theorem wordsLeft_standard (arrays : Dict (List String)) (source : String) :
    wordsLeft { arrays, lexicon := .standard } source.toList = Lexicon.standard.words source := by
  have hpunctuation : Lexicon.standard.punctuation = Lexicon.standardPunctuation := rfl
  have hstrip : ∀ w ∈ words source.toList, Lexicon.standard.strip (.ofList w) = .ofList ((lower w).filter isTextual) := by
    intro w hw
    have hvisible : ∀ c ∈ w, isBlank c = false := fun c hc => ((mem_words hw).2 c hc).2
    rw [← String.ofList_toList (s := Lexicon.standard.strip _), Lexicon.toList_strip _ hvisible, hpunctuation,
      Lexicon.erase_standardPunctuation]
    congr 1
    exact List.filter_congr fun c hc => by rw [isBlank_of_mem_lower hvisible hc, Bool.or_false]
  have hsome : ∀ cs : List Char, decide (String.ofList cs ≠ "") = !cs.isEmpty := fun cs => by
    rw [← Lexicon.isEmpty_ofList, Bool.eq_iff_iff]
    simp
  rw [wordsLeft, Lexicon.words_standard, List.map_congr_left hstrip, List.filter_map, List.filter_map, List.map_map]
  congr 2
  exact funext fun w => hsome _

/-- A text without groups, tags and wildcards is, with the standard punctuation, a trigger that aligns with the words
of this text and no others. -/
theorem compile_own_words (arrays : Dict (List String)) {source : String} (h : ∀ c ∈ source.toList, c ∉ specialChars)
    (hsome : Lexicon.standard.words source ≠ []) : ∃ p, compile { arrays, lexicon := .standard } source = .ok p ∧
      p.items = (Lexicon.standard.words source).map .word ∧ ∀ message, p.align (Lexicon.standard.words message) =
        if Lexicon.standard.words message = Lexicon.standard.words source then some [] else none := by
  have hleft := wordsLeft_standard arrays source
  refine ⟨_, compile_ordinary h (by rwa [hleft]), by rw [hleft], fun message => align_words ?_ _⟩
  rw [hleft]

theorem compile_own_words_marks : (∀ c ∈ "Who's -- THERE?!".toList, c ∉ specialChars) ∧
    Lexicon.standard.words "Who's -- THERE?!" = ["whos", "there"] ∧
    ∃ p, compile { arrays := ∅, lexicon := .standard } "Who's -- THERE?!" = .ok p ∧ p.items = [.word "whos", .word "there"] ∧
      p.align (Lexicon.standard.words "Who's -- THERE?!") = some [] := by
  have hfree : ∀ c ∈ "Who's -- THERE?!".toList, c ∉ specialChars := by simp [specialChars]
  have hwords : Lexicon.standard.words "Who's -- THERE?!" = ["whos", "there"] := by decide +kernel
  obtain ⟨p, hp, hitems, halign⟩ := compile_own_words ∅ hfree (by rw [hwords]; exact List.cons_ne_nil _ _)
  rw [hwords] at hitems
  exact ⟨hfree, hwords, p, hp, hitems, (halign _).trans (if_pos rfl)⟩

end Pattern

/-! ## Literals under any punctuation -/

/-- A text that begins and ends with letters, numbers and the like. -/
structure Edged (cs : List Char) : Prop where
  first : ∀ c ∈ cs.head?, isAlphanumeric c = true
  last : ∀ c ∈ cs.getLast?, isAlphanumeric c = true

namespace Lexicon

section Words

variable {l : Lexicon} {run : List Char}

theorem trimEdges_of_edged {cs : List Char} (h : Edged cs) : trimEdges cs = cs :=
  dropEnds_of_ends (fun c hc => by rw [h.first c hc]; rfl) (fun c hc => by rw [h.last c hc]; rfl)

/-- A text of one word is read as what is left of it. -/
theorem words_of_run (hsubs : l.substitutions = []) (hne : run ≠ []) (hvisible : ∀ c ∈ run, isBlank c = false) :
    l.words (.ofList run) = if l.core run = [] then [] else [.ofList (l.core run)] := by
  rw [words_eq hsubs, String.toList_ofList, words_eq_singleton hne hvisible]
  by_cases hempty : l.core run = []
  · simp [hempty]
  · simp [hempty]

/-- Nothing but punctuation is removed from a word that begins and ends alphanumeric. -/
theorem core_of_edged (hvisible : ∀ c ∈ run, isBlank c = false) (hedged : Edged (lower run)) :
    l.core run = l.punctuation.erase (lower run) := by
  rw [core, trimEdges_of_edged hedged]
  exact trim_of_forall fun c hc => isBlank_of_mem_lower hvisible ((Regex.erase_sublist _ _).subset hc)

end Words

end Lexicon

namespace Pattern

/-- How a literal of a trigger stands to the words of messages. -/
structure Spoken (scope : Scope) (source : String) (w : String) : Prop where
  /-- A message can have it as a word: the run that it was written as, if no end of it is trimmed. -/
  written : ∃ run, WrittenRun scope source run ∧ w = scope.lexicon.strip (.ofList run) ∧
    (Edged (lower run) → scope.lexicon.words (.ofList run) = [w])
  nonempty : w ≠ ""
  visible : ∀ c ∈ w.toList, isBlank c = false
  lowered : lower w.toList = w.toList
  /-- It is read as itself if no end of it is trimmed, and if the punctuation has nothing more to remove. -/
  again : Edged w.toList → (scope.lexicon.words w = [w] ↔ scope.lexicon.punctuation.erase w.toList = w.toList)
  /-- What one class of characters leaves has none of it. -/
  settled : ∀ k, scope.lexicon.punctuation = .one k → scope.lexicon.punctuation.erase w.toList = w.toList
  standard : scope.lexicon.punctuation = Lexicon.standardPunctuation → scope.lexicon.words w = [w]

theorem spoken_of_writtenRun {scope : Scope} {source w : String} {run : List Char} (hsubs : scope.lexicon.substitutions = [])
    (h : WrittenRun scope source run) (hw : w = scope.lexicon.strip (.ofList run)) (hne : w ≠ "") : Spoken scope source w := by
  have hlist : w.toList = scope.lexicon.punctuation.erase (lower run) := by rw [hw, Lexicon.toList_strip _ h.visible]
  have hmem : ∀ c ∈ w.toList, c ∈ lower run := fun c hc => (Regex.erase_sublist _ _).subset (hlist ▸ hc)
  have hnil : w.toList ≠ [] := fun hnil => hne (String.toList_eq_nil_iff.mp hnil)
  have hvisible : ∀ c ∈ w.toList, isBlank c = false := fun c hc => isBlank_of_mem_lower h.visible (hmem c hc)
  have hlowered : lower w.toList = w.toList := lower_of_forall fun c hc => lowerChar_of_mem_lower (hmem c hc)
  have hwords := Lexicon.words_of_run hsubs hnil hvisible
  rw [String.ofList_toList] at hwords
  refine ⟨⟨run, h, hw, fun hedged => ?_⟩, hne, hvisible, hlowered, fun hedged => ?_, fun k hk => ?_, fun hstandard => ?_⟩
  · rw [Lexicon.words_of_run hsubs h.nonempty h.visible, Lexicon.core_of_edged h.visible hedged, ← hlist, if_neg hnil,
      String.ofList_toList]
  · have hcore := Lexicon.core_of_edged (l := scope.lexicon) hvisible (by rwa [hlowered])
    rw [hwords, hcore, hlowered]
    constructor
    · intro hsame
      split at hsame
      · cases hsame
      · have heq := congrArg String.toList (List.cons.inj hsame).1
        rwa [String.toList_ofList] at heq
    · intro hkept
      rw [hkept, if_neg hnil, String.ofList_toList]
  · have hkept : ∀ c ∈ w.toList, (!k.holds c) = true := by
      rw [hlist, hk, Regex.erase_one]
      exact fun c hc => (List.mem_filter.mp hc).2
    rw [hk, Regex.erase_one, List.filter_eq_self.mpr hkept]
  · have hlexicon : scope.lexicon = .standard := by
      obtain ⟨arrays, punctuation, substitutions⟩ := scope
      simp only at hsubs hstandard
      rw [hsubs, hstandard]
      rfl
    have htextual : ∀ c ∈ w.toList, isTextual c = true := by
      intro c hc
      rw [hlist, hstandard, Lexicon.erase_standardPunctuation] at hc
      have hkept := (List.mem_filter.mp hc).2
      rwa [isBlank_of_mem_lower h.visible (List.mem_filter.mp hc).1, Bool.or_false] at hkept
    rw [hwords, hlexicon, Lexicon.core_standard hvisible, hlowered, List.filter_eq_self.mpr htextual, if_neg hnil,
      String.ofList_toList]

/-- Each literal of a trigger is a word of messages, but for what is trimmed at the ends of words and for what the
punctuation matches only once it was removed. -/
theorem literals_spoken {arrays : Dict (List String)} {l : Lexicon} {source : String} {p : Pattern}
    (hsubs : l.substitutions = []) (h : compile { arrays, lexicon := l } source = .ok p) :
    ∀ w ∈ p.literals, Spoken { arrays, lexicon := l } source w := by
  intro w hw
  obtain ⟨hne, run, hrun, heq⟩ := exists_writtenRun h hw
  exact spoken_of_writtenRun hsubs hrun heq hne

/-- Stops and marks, but no hyphen. -/
def stops : Regex := .one { items := [.range '.' '.', .range ',' ',', .range '!' '!', .range '?' '?'] }

theorem literals_spoken_stops :
    let scope : Scope := { arrays := (∅ : Dict (List String)).put "who" ["Dr. E-Mail", "me!"], lexicon := { punctuation := stops } }
    Regex.read? "[.,!?]" = some stops ∧ ∃ p, compile scope "Hi, (e-mail|call me.) [@who]" = .ok p ∧
      p.literals = ["hi", "e-mail", "call", "me", "dr", "e-mail", "me"] ∧ scope.lexicon.words "e-mail" = ["e-mail"] := by
  intro scope
  have hp : compile scope "Hi, (e-mail|call me.) [@who]" = .ok ⟨"Hi, (e-mail|call me.) [@who]",
      [.word "hi", .choice [["e-mail"], ["call", "me"]], .optional [.words ["dr", "e-mail"], .words ["me"]]], 0⟩ := by
    decide +kernel
  have hspoken := literals_spoken rfl hp "e-mail" (by decide +kernel)
  have hedged : Edged "e-mail".toList := ⟨fun c hc => by cases hc; decide +kernel, fun c hc => by cases hc; decide +kernel⟩
  exact ⟨by decide +kernel, _, hp, by decide +kernel, (hspoken.again hedged).mpr (hspoken.settled _ rfl)⟩

/-- Removal may leave what it removes: the trigger `oohh` is the literal `oh`, and of that nothing is left in a message. -/
theorem literal_removed_again :
    let r : Regex := .alt (.seq (.one (.single 'o')) (.one (.single 'h'))) stops
    let l : Lexicon := { punctuation := r }
    Regex.read? "oh|[.,!?]" = some r ∧ ∃ p, compile { arrays := ∅, lexicon := l } "oohh" = .ok p ∧ "oh" ∈ p.literals ∧
      l.words "oh" ≠ ["oh"] := by
  intro r l
  exact ⟨by decide +kernel, ⟨"oohh", [.word "oh"], 0⟩, by decide +kernel, by decide +kernel, by decide +kernel⟩

end Pattern

end Repartee
