/-
  Repartee.Proofs.Rereading — words that are written down and read again.

  A search is noted, and words are captured, as one text with single spaces. Whoever takes such a text apart at its
  blanks gets the words back if each of them is one: not empty, and without a blank. A message is cut at blanks; after
  that its words are trimmed, replaced by words of a value, and lose punctuation, and none of this brings a blank into
  a word. Words with nothing left are dropped, and alternatives with nothing left before the trigger is used.

  Proved:
  - Words stay words in each step of reading (`isWord_of_mem_edged`, `mem_substituteFrom`, `isWord_strip`).
  - A compiled trigger captures runs of one word at least (`exists_run_of_compile`).
  - What is read, captured or noted of a message is told apart into the same words (`words_reread`).
-/

import Repartee.Proofs.Journal
import Repartee.Proofs.Literals
import Repartee.Proofs.Substitutions

namespace Repartee

open Text

/-! ## Words of messages -/

namespace Lexicon

variable {l : Lexicon} {s : Substitution} {subs : List Substitution} {pairs : List (String × String)} {w message : String}
  {ws : List String}

theorem isWord_of_mem_edged (h : w ∈ edged message) : IsWord w := by
  obtain ⟨cs, hcs, rfl⟩ := List.mem_map.mp h
  obtain ⟨hmem, hne⟩ := List.mem_filter.mp hcs
  obtain ⟨run, hrun, rfl⟩ := List.mem_map.mp hmem
  refine ⟨by simpa using hne, ?_⟩
  intro c hc
  rw [String.toList_ofList] at hc
  exact ((mem_words hrun).2 c (mem_of_mem_trimEdges hc)).2

/-- Words are kept, or are those of values. -/
theorem mem_substituteFrom {skip : Nat} (h : w ∈ substituteFrom subs skip ws) : w ∈ ws ∨ ∃ s ∈ subs, w ∈ s.value := by
  fun_induction substituteFrom subs skip ws with
  | case1 => cases h
  | case2 skip v ws ih => exact (ih h).imp_left (List.mem_cons_of_mem v)
  | case3 v ws s hfound ih =>
    rcases List.mem_append.mp h with h | h
    · exact .inr ⟨s, List.mem_of_find?_eq_some hfound, h⟩
    · exact (ih h).imp_left (List.mem_cons_of_mem v)
  | case4 v ws hnone ih =>
    rcases List.mem_cons.mp h with rfl | h
    · exact .inl List.mem_cons_self
    · exact (ih h).imp_left (List.mem_cons_of_mem v)

theorem isWord_strip (h : IsWord w) (hne : l.strip w ≠ "") : IsWord (l.strip w) := by
  refine ⟨hne, ?_⟩
  intro c hc
  rw [← String.ofList_toList (s := w), toList_strip l h.visible] at hc
  exact isBlank_of_mem_lower h.visible ((Regex.erase_sublist _ _).subset hc)

/-- The words of a message are words, whatever is removed from them and replaced. -/
theorem isWord_of_mem_words {punctuation : Regex} (h : w ∈ (ofPairs punctuation pairs).words message) : IsWord w := by
  obtain ⟨hmem, hne⟩ := List.mem_filter.mp h
  obtain ⟨v, hv, rfl⟩ := List.mem_map.mp hmem
  refine isWord_strip ?_ (by simpa using hne)
  rcases mem_substituteFrom hv with hv | ⟨s, hs, hv⟩
  · exact isWord_of_mem_edged hv
  · exact (isWord_of_mem_table hs).2 v hv

end Lexicon

/-! ## Captures of compiled triggers -/

namespace Pattern

variable {scope : Scope} {source : String} {p : Pattern}

/-- Alternatives without words are not among the choices of a compiled trigger. -/
theorem ne_nil_of_mem_choice (hp : compile scope source = .ok p) {alternatives : List (List String)}
    (hitem : .choice alternatives ∈ p.items) {a : List String} (ha : a ∈ alternatives) : a ≠ [] := by
  obtain ⟨_, _, -, -, part, -, hstands⟩ := exists_part_of_mem hp hitem
  cases hstands with
  | choice hoffers hfirsts =>
    have hkept := (List.mem_filter.mp ((hfirsts.mem_iff a).mp ha)).2
    simpa using hkept

theorem ne_nil_of_canCapture (hp : compile scope source = .ok p) {item : Item} (hitem : item ∈ p.items) {run : List String}
    (h : item.CanCapture run) : run ≠ [] := by
  cases item with
  | wildcard k =>
    cases k with
    | any => exact h
    | digits => exact h.1
    | letters => exact h.1
  | choice alternatives => exact ne_nil_of_mem_choice hp hitem h
  | word w => exact h.elim
  | optional alternatives => exact h.elim

/-- A capture is a run of the words, and not an empty one. -/
theorem exists_run_of_compile (hp : compile scope source = .ok p) {words captures : List String}
    (h : p.align words = some captures) :
    ∀ text ∈ captures, ∃ run, run ≠ [] ∧ run <:+: words ∧ text = spaced run := by
  obtain ⟨runs, hruns, rfl, hoccur⟩ := captures_of_align h
  intro text htext
  obtain ⟨run, hrun, rfl⟩ := List.mem_map.mp htext
  obtain ⟨item, hitem, hcan⟩ := exists_of_mem_forall₂ hruns hrun
  exact ⟨run, ne_nil_of_canCapture hp (List.mem_filter.mp hitem).1 hcan, hoccur.isInfix run hrun, rfl⟩

end Pattern

/-! ## Reading again -/

/-- A text of some of these words in a row. -/
structure Text.IsRunOf (words : List String) (text : String) : Prop where
  nonempty : wordsOf text ≠ []
  run : wordsOf text <:+: words
  spaced : spaced (wordsOf text) = text

theorem Text.isRunOf_spaced {words run : List String} (hwords : ∀ w ∈ words, IsWord w) (hne : run ≠ [])
    (hrun : run <:+: words) : IsRunOf words (spaced run) := by
  have htold : wordsOf (spaced run) = run := wordsOf_spaced fun w hw => hwords w (hrun.subset hw)
  refine ⟨?_, ?_, ?_⟩
  · rwa [htold]
  · rwa [htold]
  · rw [htold]

namespace Lexicon

/-- What is written down of the words of a message is told apart into them. -/
structure Rereadable (l : Lexicon) (message : String) : Prop where
  words : ∀ w ∈ l.words message, IsWord w
  wording : wordsOf (l.wording message) = l.words message
  /-- In captures, of any trigger that aligns with the words. -/
  captures : ∀ {scope source p captures}, Pattern.compile scope source = .ok p → p.align (l.words message) = some captures →
    ∀ text ∈ captures, IsRunOf (l.words message) text
  /-- In the steps of a turn, for the message and for each redirect. -/
  steps : ∀ {s : Scene}, s.rules.lexicon = l → s.rules.Ready → ∀ u,
    let report := (Turn.play s u message).1
    List.Forall₂ (fun text step => wordsOf step.input = l.words text) (message :: report.redirects) report.steps

/-- Every message is read as words that can be written down and told apart again, under every punctuation and with all
substitutions. -/
theorem words_reread (punctuation : Regex) (pairs : List (String × String)) (message : String) :
    (ofPairs punctuation pairs).Rereadable message := by
  have hwords : ∀ {text}, ∀ w ∈ (ofPairs punctuation pairs).words text, IsWord w := fun w => isWord_of_mem_words
  refine ⟨hwords, wordsOf_spaced hwords, ?_, ?_⟩
  · intro scope source p captures hp halign text htext
    obtain ⟨run, hne, hrun, rfl⟩ := Pattern.exists_run_of_compile hp halign text htext
    exact isRunOf_spaced hwords hne hrun
  · intro s hlexicon hready u report
    have hkeepable : Turn.Keepable s fun _ => True := ⟨fun _ _ _ => trivial, fun _ _ => trivial, fun _ _ _ => trivial⟩
    have htold : Turn.Told s (fun _ => True) report := Turn.told_play hkeepable hready (u := u) trivial message
    apply htold.journal.searches.imp
    intro text step hsearched
    rw [hsearched.ranked.1, hlexicon]
    exact wordsOf_spaced hwords

/-- A choice of two words captures both, and they are told apart although a single word of the message was replaced by
them. -/
theorem words_reread_hi_there :
    let l := ofPairs standardPunctuation [("hey", "Hi, there")]
    l.words "HEY, -- Bob!" = ["hi", "there", "bob"] ∧ wordsOf (l.wording "HEY, -- Bob!") = ["hi", "there", "bob"] ∧
      ∃ p, Pattern.compile { arrays := ∅, lexicon := l } "(hi there|hi) *" = .ok p ∧
        p.align (l.words "HEY, -- Bob!") = some ["hi there", "bob"] ∧ IsRunOf ["hi", "there", "bob"] "hi there" := by
  intro l
  have hwords : l.words "HEY, -- Bob!" = ["hi", "there", "bob"] := by decide +kernel
  have hp : Pattern.compile { arrays := ∅, lexicon := l } "(hi there|hi) *" =
      .ok ⟨"(hi there|hi) *", [.choice [["hi", "there"], ["hi"]], .wildcard .any], 0⟩ := by decide +kernel
  have halign : Pattern.align ⟨"(hi there|hi) *", [.choice [["hi", "there"], ["hi"]], .wildcard .any], 0⟩
      (l.words "HEY, -- Bob!") = some ["hi there", "bob"] := by
    rw [hwords]
    cbv
  have hreread : l.Rereadable "HEY, -- Bob!" := words_reread standardPunctuation _ _
  have hcaptures := hreread.captures hp halign "hi there" List.mem_cons_self
  rw [hwords] at hcaptures
  exact ⟨hwords, hreread.wording.trans hwords, _, hp, halign, hcaptures⟩

end Lexicon

end Repartee
