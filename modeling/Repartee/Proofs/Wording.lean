/-
  Repartee.Proofs.Wording — which words a text has.

  Three classes of characters meet here: a word loses at its ends what is not alphanumeric, then all punctuation, and
  the blanks that are left around. The standard punctuation leaves letters and numbers only, and these are
  alphanumeric: so nothing that the first step keeps and the second removes makes a difference, and words that have
  been read are fixed points of reading.

  Proved:
  - A match only goes on in its text (`goesOn_ends`), so what erasing leaves stays in order (`erase_sublist`).
  - Without substitutions a text is read word by word (`words_eq`). With the standard punctuation the letters and
    numbers of each word are left, in lower case (`core_standard`).
  - Words that have been read are read again as they are, all of them or a run (`words_spaced`), as captures are.
  - Reading is idempotent, captures are read as the words they were captured from, and tokens without letters and
    numbers make no difference (`words_wording`).
-/

import Repartee.Proofs.Captures
import Repartee.Proofs.Lowercase

namespace Repartee

/-! ## Matches -/

namespace Regex

/-- A pattern of one character removes the characters of its class. -/
theorem erase_one (k : CharClass) (cs : List Char) : (Regex.one k).erase cs = cs.filter (!k.holds ·) := by
  have hafter : ∀ before, (Regex.one k).eraseAfter before cs = cs.filter (!k.holds ·) := by
    induction cs with
    | nil =>
      intro before
      rw [eraseAfter]
      rfl
    | cons c cs ih =>
      intro before
      rw [eraseAfter]
      cases hc : k.holds c with
      | true =>
        have hends : (Regex.one k).ends ⟨before, c :: cs⟩ = [⟨some c, cs⟩] := by simp [ends, hc]
        rw [hends, List.filter_cons_of_neg (by simp [hc])]
        simp [ih]
      | false =>
        have hends : (Regex.one k).ends ⟨before, c :: cs⟩ = [] := by simp [ends, hc]
        rw [hends, List.filter_cons_of_pos (by simp [hc])]
        simp [ih]
  exact hafter none

/-- The step leads on in the text, or stays where it is. -/
def GoesOn (step : Place → List Place) : Prop := ∀ p, ∀ q ∈ step p, q.rest <:+ p.rest

section GoesOn

variable {step : Place → List Place} {greedy : Bool}

theorem mem_orStay {p q : Place} {ahead : List Place} : q ∈ orStay greedy p ahead ↔ q = p ∨ q ∈ ahead := by
  cases greedy <;> simp [orStay, or_comm]

theorem goesOn_stay : GoesOn fun p => [p] := by
  intro p q hq
  rw [List.mem_singleton.mp hq]

theorem GoesOn.followed {next : Place → Place → List Place} (h : GoesOn step) (hnext : ∀ p, GoesOn (next p)) :
    GoesOn fun p => (step p).flatMap (next p) := by
  intro p q hq
  obtain ⟨r, hr, hq⟩ := List.mem_flatMap.mp hq
  exact (hnext p r q hq).trans (h p r hr)

theorem GoesOn.orStay (h : GoesOn step) : GoesOn fun p => orStay greedy p (step p) := by
  intro p q hq
  rcases mem_orStay.mp hq with rfl | hq
  · exact List.suffix_rfl
  · exact h p q hq

theorem GoesOn.filter (h : GoesOn step) (keep : Place → Place → Bool) : GoesOn fun p => (step p).filter (keep p) :=
  fun p q hq => h p q (List.mem_filter.mp hq).1

theorem GoesOn.exactly (h : GoesOn step) (n : ℕ) : GoesOn (exactly step n) := by
  induction n with
  | zero => exact goesOn_stay
  | succ n ih => exact h.followed fun _ => ih

theorem GoesOn.atMost (h : GoesOn step) (n : ℕ) : GoesOn (atMost step greedy n) := by
  induction n with
  | zero => exact goesOn_stay
  | succ n ih => exact (h.followed fun _ => ih).orStay

theorem GoesOn.oneOrMore (h : GoesOn step) : GoesOn (oneOrMore step greedy) := by
  refine h.followed fun p q => ?_
  split
  · exact (h.filter passes).atMost _ q
  · exact goesOn_stay q

theorem goesOn_ends (r : Regex) : GoesOn r.ends := by
  induction r with
  | empty => exact goesOn_stay
  | one k =>
    intro p q hq
    rw [ends] at hq
    split at hq
    · rename_i c cs hrest
      split at hq
      · rw [List.mem_singleton.mp hq, hrest]
        exact List.suffix_cons c cs
      · cases hq
    · cases hq
  | assert a =>
    intro p q hq
    rw [ends] at hq
    split at hq
    · exact goesOn_stay p q hq
    · cases hq
  | seq first second ihfirst ihsecond => exact ihfirst.followed fun _ => ihsecond
  | alt first second ihfirst ihsecond =>
    intro p q hq
    rcases List.mem_append.mp hq with hq | hq
    · exact ihfirst p q hq
    · exact ihsecond p q hq
  | «repeat» body low more greedy ih =>
    cases more with
    | some more => exact (ih.exactly low).followed fun _ => ih.atMost more
    | none =>
      cases low with
      | zero => exact ih.oneOrMore.orStay
      | succ low => exact (ih.exactly low).followed fun _ => ih.oneOrMore

end GoesOn

/-- Nothing is added, and what is left stays in order. -/
theorem erase_sublist (r : Regex) (cs : List Char) : (r.erase cs).Sublist cs := by
  have hafter : ∀ before, (r.eraseAfter before cs).Sublist cs := by
    intro before
    fun_induction eraseAfter r before cs with
    | case1 => exact .slnil
    | case2 before c cs hends ih => exact ih.cons_cons c
    | case3 before c cs p ps hends hshorter ih =>
      have hp : p ∈ r.ends ⟨before, c :: cs⟩ := by
        rw [hends]
        exact List.mem_cons_self
      exact ih.trans (r.goesOn_ends _ p hp).sublist
    | case4 before c cs p ps hends hshorter ih => exact ih.cons_cons c
  exact hafter none

end Regex

namespace Lexicon

open Text
open Unicode (isBlank isTextual lowerChar)

/-! ## Word by word -/

/-- What the punctuation leaves of a word without blanks has none. -/
theorem toList_strip (l : Lexicon) {w : List Char} (hw : ∀ c ∈ w, isBlank c = false) :
    (l.strip (.ofList w)).toList = l.punctuation.erase (lower w) := by
  rw [strip, String.toList_ofList, String.toList_ofList]
  exact trim_of_forall fun c hc => isBlank_of_mem_lower hw ((Regex.erase_sublist _ _).subset hc)

/-- What is left of a word of a message. -/
def core (l : Lexicon) (w : List Char) : List Char := trim (l.punctuation.erase (trimEdges (lower w)))

theorem substituteFrom_nil (ws : List String) : substituteFrom [] 0 ws = ws := by
  induction ws with
  | nil => rfl
  | cons w ws ih => exact congrArg (w :: ·) ih

theorem mem_of_mem_trimEdges {c : Char} {cs : List Char} (h : c ∈ trimEdges cs) : c ∈ cs := by
  obtain ⟨before, after, -, -, hcs⟩ := exists_dropEnds (!Unicode.isAlphanumeric ·) cs
  rw [hcs]
  exact List.mem_append_right _ (List.mem_append_left _ h)

theorem isEmpty_ofList (cs : List Char) : (String.ofList cs).isEmpty = cs.isEmpty := by
  rw [Bool.eq_iff_iff, String.isEmpty_iff, String.ofList_eq_empty_iff, List.isEmpty_iff]

/-- A word is in lower case when it is stripped, so it is not lowered again. -/
theorem strip_trimEdges (l : Lexicon) (w : List Char) : l.strip (.ofList (trimEdges (lower w))) = .ofList (l.core w) := by
  have hlower : lower (trimEdges (lower w)) = trimEdges (lower w) :=
    lower_of_forall fun c hc => lowerChar_of_mem_lower (mem_of_mem_trimEdges hc)
  rw [strip, String.toList_ofList, hlower, core]

/-- Nothing is left of a word without alphanumeric characters. -/
theorem core_of_trimEdges (l : Lexicon) {w : List Char} (h : trimEdges (lower w) = []) : l.core w = [] := by
  rw [core, h, Regex.erase, Regex.eraseAfter]
  rfl

theorem words_eq {l : Lexicon} (h : l.substitutions = []) (message : String) :
    l.words message = (((Text.words message.toList).map l.core).filter (!·.isEmpty)).map .ofList := by
  rw [words, substitute, h, substituteFrom_nil, edged, words_lower]
  generalize Text.words message.toList = ws
  induction ws with
  | nil => rfl
  | cons w ws ih =>
    simp only [List.map_cons]
    by_cases hempty : trimEdges (lower w) = []
    · rw [List.filter_cons_of_neg (by simp [hempty]), List.filter_cons_of_neg (by simp [core_of_trimEdges l hempty])]
      exact ih
    · rw [List.filter_cons_of_pos (by simp [hempty]), List.map_cons, List.map_cons, strip_trimEdges, List.filter_cons,
        List.filter_cons, isEmpty_ofList, ih]
      split <;> rfl

/-! ## Letters and numbers -/

theorem erase_standardPunctuation (cs : List Char) :
    standardPunctuation.erase cs = cs.filter fun c => isTextual c || isBlank c := by
  rw [standardPunctuation, Regex.erase_one]
  congr 1
  funext c
  simp [Regex.CharClass.holds, Regex.ClassItem.holds, Regex.Property.holds, isTextual, Bool.or_assoc]

/-- Trimming at the ends removes nothing that the punctuation leaves. -/
theorem filter_trimEdges (cs : List Char) : (trimEdges cs).filter isTextual = cs.filter isTextual := by
  obtain ⟨before, after, hbefore, hafter, hcs⟩ := exists_dropEnds (!Unicode.isAlphanumeric ·) cs
  have hdropped : ∀ ds : List Char, (∀ c ∈ ds, (!Unicode.isAlphanumeric c) = true) → ds.filter isTextual = [] := by
    intro ds hds
    refine List.filter_eq_nil_iff.mpr fun c hc htextual => ?_
    have halphanumeric := hds c hc
    rw [Unicode.isAlphanumeric_of_isTextual htextual] at halphanumeric
    cases halphanumeric
  conv_rhs => rw [hcs, List.filter_append, List.filter_append, hdropped before hbefore, hdropped after hafter,
    List.nil_append, List.append_nil]
  rfl

theorem core_standard {w : List Char} (hw : ∀ c ∈ w, isBlank c = false) : standard.core w = (lower w).filter isTextual := by
  have hvisible : ∀ c ∈ trimEdges (lower w), isBlank c = false := fun c hc => isBlank_of_mem_lower hw (mem_of_mem_trimEdges hc)
  have hkept : (trimEdges (lower w)).filter (fun c => isTextual c || isBlank c) = (lower w).filter isTextual := by
    rw [← filter_trimEdges]
    exact List.filter_congr fun c hc => by rw [hvisible c hc, Bool.or_false]
  have hpunctuation : standard.punctuation = standardPunctuation := rfl
  rw [core, hpunctuation, erase_standardPunctuation, hkept]
  exact trim_of_forall fun c hc => isBlank_of_mem_lower hw (List.mem_filter.mp hc).1

theorem words_standard (message : String) : standard.words message =
    (((Text.words message.toList).map fun w => (lower w).filter isTextual).filter (!·.isEmpty)).map .ofList := by
  have hsubstitutions : standard.substitutions = [] := rfl
  rw [words_eq hsubstitutions, List.map_congr_left fun w hw => core_standard fun c hc => ((mem_words hw).2 c hc).2]

/-- A word as the standard punctuation leaves it. -/
structure Normal (w : String) : Prop where
  nonempty : w ≠ ""
  lower : ∀ c ∈ w.toList, lowerChar c = [c]
  textual : ∀ c ∈ w.toList, isTextual c = true

theorem normal_of_mem {w message : String} (h : w ∈ standard.words message) : Normal w := by
  rw [words_standard, List.mem_map] at h
  obtain ⟨cs, hcs, rfl⟩ := h
  obtain ⟨hmem, hne⟩ := List.mem_filter.mp hcs
  obtain ⟨v, hv, rfl⟩ := List.mem_map.mp hmem
  refine ⟨fun hnil => ?_, fun c hc => ?_, fun c hc => ?_⟩
  · rw [String.ofList_eq_empty_iff] at hnil
    rw [hnil] at hne
    cases hne
  all_goals
    rw [String.toList_ofList] at hc
    obtain ⟨hc, htextual⟩ := List.mem_filter.mp hc
  · exact lowerChar_of_mem_lower hc
  · exact htextual

theorem Normal.visible {w : String} (h : Normal w) : ∀ c ∈ w.toList, isBlank c = false := by
  intro c hc
  rw [Bool.eq_false_iff]
  intro hblank
  cases (Unicode.isAlphanumeric_of_isBlank hblank).symm.trans (Unicode.isAlphanumeric_of_isTextual (h.textual c hc))

/-- Nothing is removed from a word that has been read. -/
theorem Normal.kept {w : String} (h : Normal w) : (Text.lower w.toList).filter isTextual = w.toList := by
  rw [lower_of_forall h.lower, List.filter_eq_self]
  exact h.textual

theorem Normal.isWord {w : String} (h : Normal w) : IsWord w := ⟨h.nonempty, h.visible⟩

/-- Words that have been read are read again. -/
theorem words_spaced {ws : List String} (h : ∀ w ∈ ws, Normal w) : standard.words (spaced ws) = ws := by
  have hwords : ∀ w ∈ ws, IsWord w := fun w hw => (h w hw).isWord
  have hkept : ws.map ((fun w => (Text.lower w).filter isTextual) ∘ String.toList) = ws.map String.toList :=
    List.map_congr_left fun w hw => (h w hw).kept
  rw [words_standard, words_toList_spaced hwords, List.map_map, hkept, filter_map_toList hwords, map_ofList_toList]

end Lexicon

/-! ## Captures -/

theorem Occur.isInfix {runs : List (List String)} {words : List String} (h : Occur runs words) : ∀ run ∈ runs, run <:+: words := by
  induction h with
  | nil words => exact List.forall_mem_nil _
  | cons before run h ih =>
    refine List.forall_mem_cons.mpr ⟨List.infix_append _ _ _, fun r hr => ?_⟩
    exact (ih r hr).trans (List.suffix_append _ _).isInfix

/-- A text that is read as a run of these words. -/
structure Lexicon.ReadsAgain (l : Lexicon) (words : List String) (text : String) : Prop where
  trimmed : Text.trimmed text = text
  run : l.words text <:+: words
  wording : text = l.wording text

theorem Pattern.run_of_align {p : Pattern} {words captures : List String} (h : p.align words = some captures) :
    ∀ s ∈ captures, ∃ run, run <:+: words ∧ s = Text.spaced run := by
  obtain ⟨runs, -, rfl, hoccur⟩ := captures_of_align h
  intro s hs
  obtain ⟨run, hrun, rfl⟩ := List.mem_map.mp hs
  exact ⟨run, hoccur.isInfix run hrun, rfl⟩

/-- What a search captures are runs of the words it searched for, and of the last reply. -/
theorem Catalog.run_of_search {c : Catalog} {r : Ranking} {words lastReply : List String} {f : Finding}
    (h : c.search r words lastReply = some f) : (∀ s ∈ f.stars, ∃ run, run <:+: words ∧ s = Text.spaced run) ∧
      ∀ s ∈ f.botStars, ∃ run, run <:+: lastReply ∧ s = Text.spaced run := by
  rw [search] at h
  split at h
  · rename_i n candidate stars botStars hfit
    cases h
    obtain ⟨_, _, -, hfit, -⟩ := firstFit_eq_some hfit
    simp only [constrainedFit, Option.bind_eq_bind, Option.bind_eq_some_iff] at hfit
    obtain ⟨t, -, previous, -, _, hbotStars, _, hstars, heq⟩ := hfit
    cases heq
    exact ⟨Pattern.run_of_align hstars, Pattern.run_of_align hbotStars⟩
  split at h
  · rename_i n candidate stars hfit
    cases h
    obtain ⟨_, _, -, hfit, -⟩ := firstFit_eq_some hfit
    obtain ⟨t, -, hstars⟩ := Option.bind_eq_some_iff.mp hfit
    exact ⟨Pattern.run_of_align hstars, List.forall_mem_nil _⟩
  · obtain ⟨candidate, -, rfl⟩ := Option.map_eq_some_iff.mp h
    exact ⟨List.forall_mem_singleton.mpr ⟨words, List.infix_rfl, rfl⟩, List.forall_mem_nil _⟩

namespace Lexicon

open Text
open Unicode (isBlank isLetter isNumber isTextual)

theorem readsAgain_spaced {run : List String} {message : String} (h : run <:+: standard.words message) :
    standard.ReadsAgain (standard.words message) (spaced run) := by
  have hnormal : ∀ w ∈ run, Normal w := fun w hw => normal_of_mem (h.subset hw)
  have hrun : standard.words (spaced run) = run := words_spaced hnormal
  refine ⟨?_, by rwa [hrun], by rw [wording, hrun]⟩
  rw [trimmed_eq_iff, spaced, String.toList_intercalate]
  refine trim_intercalate _ fun cs hcs => ?_
  obtain ⟨w, hw, rfl⟩ := List.mem_map.mp hcs
  exact ⟨fun hnil => (hnormal w hw).nonempty (String.toList_eq_nil_iff.mp hnil), trim_of_forall (hnormal w hw).visible⟩

/-! ## Padding -/

/-- The same tokens, and some without letters and numbers between them. -/
inductive Padded : List (List Char) → List (List Char) → Prop
  | nil : Padded [] []
  | keep (w : List Char) {ws vs : List (List Char)} : Padded ws vs → Padded (w :: ws) (w :: vs)
  | insert (w : List Char) {ws vs : List (List Char)} : (∀ c ∈ w, isLetter c = false ∧ isNumber c = false) →
      Padded ws vs → Padded ws (w :: vs)

theorem words_of_padded {x y : String} (h : Padded (Text.words x.toList) (Text.words y.toList)) :
    standard.words y = standard.words x := by
  rw [words_standard, words_standard]
  congr 1
  generalize Text.words x.toList = ws, Text.words y.toList = vs at h
  induction h with
  | nil => rfl
  | keep w h ih => rw [List.map_cons, List.filter_cons, List.map_cons, List.filter_cons, ih]
  | insert w hw h ih =>
    have hnone : (Text.lower w).filter isTextual = [] := by
      refine List.filter_eq_nil_iff.mpr fun c hc => Bool.eq_false_iff.mp (isTextual_of_mem_lower ?_ hc)
      exact fun c hc => Bool.or_eq_false_iff.mpr (hw c hc)
    rw [List.map_cons, hnone, List.filter_cons_of_neg (by simp), ih]

/-- With the standard punctuation a text is read like its wording, a capture as the words that it was captured from,
and a text with more tokens without letters and numbers like one without them. -/
theorem words_wording (x : String) : standard.words (standard.wording x) = standard.words x ∧
    (∀ (c : Catalog) r lastReply f, c.search r (standard.words x) (standard.words lastReply) = some f →
      (∀ s ∈ f.stars, standard.ReadsAgain (standard.words x) s) ∧
        ∀ s ∈ f.botStars, standard.ReadsAgain (standard.words lastReply) s) ∧
    ∀ y, Padded (Text.words x.toList) (Text.words y.toList) → standard.words y = standard.words x := by
  refine ⟨words_spaced fun w hw => normal_of_mem hw, fun c r lastReply f hfound => ?_, fun y => words_of_padded⟩
  obtain ⟨hstars, hbotStars⟩ := Catalog.run_of_search hfound
  constructor
  · intro s hs
    obtain ⟨run, hrun, rfl⟩ := hstars s hs
    exact readsAgain_spaced hrun
  · intro s hs
    obtain ⟨run, hrun, rfl⟩ := hbotStars s hs
    exact readsAgain_spaced hrun

theorem words_wording_dashes : Padded (Text.words "It's late".toList) (Text.words " It's --  late ?! ".toList) ∧
    standard.words " It's --  late ?! " = standard.words "It's late" := by
  have hmarks : ∀ w ∈ ["--", "?!"], w.toList.all (fun c => !isLetter c && !isNumber c) = true := by decide +kernel
  have hnone : ∀ w ∈ ["--", "?!"], ∀ c ∈ w.toList, isLetter c = false ∧ isNumber c = false := fun w hw => by
    simpa using hmarks w hw
  have hpadded : Padded ["It's".toList, "late".toList] ["It's".toList, "--".toList, "late".toList, "?!".toList] :=
    .keep _ (.insert _ (hnone "--" (by simp)) (.keep _ (.insert _ (hnone "?!" (by simp)) .nil)))
  exact ⟨hpadded, (words_wording "It's late").2.2 _ hpadded⟩

/-- The default punctuation is the standard one, and without substitutions the lexicon is. -/
example : ({} : Settings).punctuationRegex = .ok standardPunctuation ∧ ofPairs standardPunctuation [] = standard := by
  decide +kernel

end Lexicon

end Repartee
