/-
  Repartee.Proofs.Grammar.Outline — what a trigger consists of before any of it is looked up.

  A trigger is written with weight tags, which stand for a space, and with groups in round or square
  brackets. `Lifts` says which weight tags a text has, `Outline` which groups: a text without brackets
  stands between each two of them and inside each. A text with other brackets has no outline.

  Proved:
  - Every text has its weight tags lifted in one way, the reader's (`exists_lifts`, `Lifts.eq`).
  - An outline is cut into its parts, which are all words and groups (`Outline.cutParts_eq`), and a text
    that is cut into words and groups only has an outline (`exists_outline`).
-/

import Repartee.Pattern.Reader
import Repartee.Proofs.Cutting

namespace Repartee.Pattern

open Text
open Unicode (isBlank)

/-! ## Weight tags -/

/-- The text with a space for each weight tag, and what stands in these tags. A tag reaches to the next closing
brace, and tags are looked for from the left. -/
inductive Lifts : List Char → List Char → List (List Char) → Prop
  | nil : Lifts [] [] []
  | tag {value cs text : List Char} {values : List (List Char)} : '}' ∉ value → Lifts cs text values →
      Lifts (weightOpening ++ (value ++ '}' :: cs)) (' ' :: text) (value :: values)
  | keep {c : Char} {cs text : List Char} {values : List (List Char)} :
      (∀ value rest, '}' ∉ value → c :: cs ≠ weightOpening ++ (value ++ '}' :: rest)) → Lifts cs text values →
      Lifts (c :: cs) (c :: text) values

theorem weightTag?_eq_some_iff {cs value rest : List Char} : weightTag? cs = some (value, rest) ↔
    '}' ∉ value ∧ cs = weightOpening ++ (value ++ '}' :: rest) := by
  simp only [weightTag?, Option.bind_eq_some_iff, after?_eq_some_iff, cutOnce_eq_some_iff, beq_iff_eq]
  constructor
  · rintro ⟨inside, hcs, c, rfl, hvalue, hinside⟩
    refine ⟨fun hmem => ?_, hinside ▸ hcs⟩
    simpa using hvalue _ hmem
  · rintro ⟨hvalue, hcs⟩
    refine ⟨_, hcs, '}', rfl, fun d hd => ?_, rfl⟩
    rw [beq_eq_false_iff_ne]
    exact ne_of_mem_of_not_mem hd hvalue

theorem exists_lifts (cs : List Char) : ∃ text values, Lifts cs text values := by
  induction cs using liftWeights.induct with
  | case1 => exact ⟨_, _, .nil⟩
  | case2 c cs value rest htag _ _ _ ih =>
    obtain ⟨text, values, h⟩ := ih
    obtain ⟨hvalue, hcs⟩ := weightTag?_eq_some_iff.mp htag
    rw [hcs]
    exact ⟨_, _, .tag hvalue h⟩
  | case3 c cs htag _ _ _ ih =>
    obtain ⟨text, values, h⟩ := ih
    refine ⟨_, _, .keep (fun value rest hvalue hcs => ?_) h⟩
    rw [weightTag?_eq_some_iff.mpr ⟨hvalue, hcs⟩] at htag
    cases htag

theorem liftWeights_tag {cs value rest : List Char} (h : weightTag? cs = some (value, rest)) :
    liftWeights cs = (' ' :: (liftWeights rest).1, trim value :: (liftWeights rest).2) := by
  cases cs with
  | nil => cases h
  | cons c cs =>
    rw [liftWeights]
    split
    · rename_i value' rest' h'
      obtain ⟨rfl, rfl⟩ : value = value' ∧ rest = rest' := by simpa [h] using h'
      rfl
    · rename_i h'
      cases h.symm.trans h'

theorem liftWeights_char {c : Char} {cs : List Char} (h : weightTag? (c :: cs) = none) :
    liftWeights (c :: cs) = (c :: (liftWeights cs).1, (liftWeights cs).2) := by
  rw [liftWeights]
  split
  · rename_i h'
    cases h.symm.trans h'
  · rfl

theorem Lifts.eq {cs text : List Char} {values : List (List Char)} (h : Lifts cs text values) :
    liftWeights cs = (text, values.map trim) := by
  induction h with
  | nil => rw [liftWeights]; rfl
  | tag hvalue _ ih =>
    rw [liftWeights_tag (weightTag?_eq_some_iff.mpr ⟨hvalue, rfl⟩), ih]
    rfl
  | @keep c cs text values hnone _ ih =>
    have htag : weightTag? (c :: cs) = none := by
      rw [Option.eq_none_iff_forall_ne_some]
      rintro ⟨value, rest⟩ htag
      obtain ⟨hvalue, hcs⟩ := weightTag?_eq_some_iff.mp htag
      exact hnone value rest hvalue hcs
    rw [liftWeights_char htag, ih]

/-- No tag is found exactly if none of the characters of tags is left. -/
theorem firstTag?_eq_none_iff {cs : List Char} : firstTag? cs = none ↔ ∀ c ∈ cs, isTagMark c = false := by
  rw [firstTag?]
  have hdrop : cs.dropWhile (!isTagMark ·) = [] ↔ ∀ c ∈ cs, isTagMark c = false := by
    simp [List.dropWhile_eq_nil_iff]
  rw [← hdrop]
  cases cs.dropWhile (!isTagMark ·) with
  | nil => simp
  | cons c rest =>
    simp only [reduceCtorEq, iff_false]
    repeat' split
    all_goals simp

/-! ## Groups -/

/-- A text with groups in it. -/
inductive Outline where
  /-- A text without groups. -/
  | plain (cs : List Char)
  /-- The first group, what stands before it, and the rest. -/
  | group (before : List Char) (square : Bool) (body : List Char) (after : Outline)

def groupOpening (square : Bool) : Char := if square then '[' else '('

def groupClosing (square : Bool) : Char := if square then ']' else ')'

namespace Outline

def written : Outline → List Char
  | plain cs => cs
  | group before square body after => before ++ groupOpening square :: (body ++ groupClosing square :: after.written)

/-- There are no brackets but those of the groups. -/
def Flat : Outline → Prop
  | plain cs => ∀ c ∈ cs, isBracket c = false
  | group before _ body after => (∀ c ∈ before, isBracket c = false) ∧ (∀ c ∈ body, isBracket c = false) ∧ after.Flat

/-- The words outside the groups, and the groups, in order. -/
def parts : Outline → List Part
  | plain cs => (words cs).map .word
  | group before square body after => (words before).map .word ++ .group square body :: after.parts

/-- A character in front. -/
def cons (c : Char) : Outline → Outline
  | plain cs => plain (c :: cs)
  | group before square body after => group (c :: before) square body after

theorem written_cons (c : Char) (o : Outline) : (o.cons c).written = c :: o.written := by
  cases o <;> rfl

theorem flat_cons {c : Char} {o : Outline} (hc : isBracket c = false) (h : o.Flat) : (o.cons c).Flat := by
  cases o with
  | plain cs => exact List.forall_mem_cons.mpr ⟨hc, h⟩
  | group before square body after => exact ⟨List.forall_mem_cons.mpr ⟨hc, h.1⟩, h.2⟩

end Outline

theorem groupBody?_closed {close : Char} {body : List Char} (hclose : isBracket close = true)
    (hbody : ∀ c ∈ body, isBracket c = false) (rest : List Char) :
    groupBody? close (body ++ close :: rest) = some (body, rest) := by
  induction body with
  | nil => rw [List.nil_append, groupBody?, if_pos rfl]
  | cons c body ih =>
    obtain ⟨hc, hbody⟩ := List.forall_mem_cons.mp hbody
    have hne : c ≠ close := by
      rintro rfl
      cases hc.symm.trans hclose
    rw [List.cons_append, groupBody?, if_neg hne, hc, if_neg Bool.false_ne_true, ih hbody]
    rfl

theorem eq_of_groupBody? {close : Char} {cs body rest : List Char} (h : groupBody? close cs = some (body, rest)) :
    cs = body ++ close :: rest ∧ ∀ c ∈ body, isBracket c = false := by
  induction cs generalizing body with
  | nil => cases h
  | cons c cs ih =>
    rw [groupBody?] at h
    split at h
    · rename_i hc
      cases h
      exact ⟨by rw [hc, List.nil_append], List.forall_mem_nil _⟩
    · split at h
      · cases h
      · rename_i hbracket
        obtain ⟨body, hb, rfl⟩ := map_prepend_eq_some.mp h
        obtain ⟨rfl, hbody⟩ := ih hb
        exact ⟨rfl, List.forall_mem_cons.mpr ⟨Bool.eq_false_iff.mpr hbracket, hbody⟩⟩

/-! ## Cutting a text with an outline -/

theorem isBracket_groupOpening (square : Bool) : isBracket (groupOpening square) = true := by
  cases square <;> decide

theorem isBracket_groupClosing (square : Bool) : isBracket (groupClosing square) = true := by
  cases square <;> decide

theorem isBlank_of_isBracket {c : Char} (h : isBracket c = true) : isBlank c = false := by
  simp only [isBracket, Bool.or_eq_true, beq_iff_eq] at h
  rcases h with ((rfl | rfl) | rfl) | rfl
  all_goals decide

theorem wordPart_eq {word : List Char} (h : ∀ c ∈ word, isBlank c = false) :
    wordPart word = (words word.reverse).map .word := by
  cases word with
  | nil => rfl
  | cons c word =>
    rw [words_eq_singleton (by simp) fun d hd => h d (List.mem_reverse.mp hd)]
    rfl

theorem cutParts_blank {c : Char} (hc : isBlank c = true) (word cs : List Char) :
    cutParts word (c :: cs) = wordPart word ++ cutParts [] cs := by
  rw [cutParts, if_pos hc]

theorem cutParts_char {c : Char} (hblank : isBlank c = false) (hbracket : isBracket c = false) (word cs : List Char) :
    cutParts word (c :: cs) = cutParts (c :: word) cs := by
  simp only [isBracket, Bool.or_eq_false_iff, beq_eq_false_iff_ne] at hbracket
  obtain ⟨⟨⟨h₁, h₂⟩, h₃⟩, h₄⟩ := hbracket
  rw [cutParts, if_neg (by simp [hblank]), if_neg (by simp [h₁, h₃]), if_neg h₂, if_neg h₄]

/-- The character that opens a group says how it is closed. -/
theorem opening_cases {c : Char} (h : c = '(' ∨ c = '[') :
    ∃ square, c = groupOpening square ∧ (if c = '(' then ')' else ']') = groupClosing square := by
  rcases h with rfl | rfl
  · exact ⟨false, rfl, rfl⟩
  · exact ⟨true, rfl, rfl⟩

theorem cutParts_group {square : Bool} {body : List Char} (hbody : ∀ c ∈ body, isBracket c = false) (word rest : List Char) :
    cutParts word (groupOpening square :: (body ++ groupClosing square :: rest)) =
      wordPart word ++ .group square body :: cutParts [] rest := by
  have hopening : groupOpening square = '(' ∨ groupOpening square = '[' := by cases square <;> decide
  have hfound : groupBody? (if groupOpening square = '(' then ')' else ']') (body ++ groupClosing square :: rest) =
      some (body, rest) := by
    have hclosing : (if groupOpening square = '(' then ')' else ']') = groupClosing square := by cases square <;> decide
    rw [hclosing]
    exact groupBody?_closed (isBracket_groupClosing square) hbody rest
  have hsquare : decide (groupOpening square = '[') = square := by cases square <;> decide
  rw [cutParts, if_neg (by simp [isBlank_of_isBracket (isBracket_groupOpening square)]), if_pos hopening]
  split
  · rename_i body' rest' hfound'
    obtain ⟨rfl, rfl⟩ : body = body' ∧ rest = rest' := by simpa [hfound] using hfound'
    rw [hsquare]
  · rename_i hfound'
    cases hfound.symm.trans hfound'

/-- Up to the next group, or the end, a text without brackets is cut into its words. -/
theorem cutParts_append {cs word rest : List Char} (hcs : ∀ c ∈ cs, isBracket c = false)
    (hword : ∀ c ∈ word, isBlank c = false)
    (hrest : ∀ word, cutParts word rest = wordPart word ++ cutParts [] rest) :
    cutParts word (cs ++ rest) = (words (word.reverse ++ cs)).map .word ++ cutParts [] rest := by
  induction cs generalizing word with
  | nil => rw [List.nil_append, List.append_nil, hrest, wordPart_eq hword]
  | cons c cs ih =>
    obtain ⟨hc, hcs⟩ := List.forall_mem_cons.mp hcs
    rw [List.cons_append]
    cases hblank : isBlank c with
    | true =>
      rw [cutParts_blank hblank, ih hcs (List.forall_mem_nil _), words_append _ _ hblank, wordPart_eq hword,
        List.map_append, List.append_assoc]
      rfl
    | false =>
      rw [cutParts_char hblank hc, ih hcs (List.forall_mem_cons.mpr ⟨hblank, hword⟩), List.reverse_cons, List.append_assoc]
      rfl

theorem Outline.cutParts_eq {o : Outline} (h : o.Flat) : cutParts [] o.written = o.parts := by
  induction o with
  | plain cs =>
    have hrest : ∀ word, cutParts word [] = wordPart word ++ cutParts [] [] := fun word => by
      rw [cutParts, cutParts, wordPart, wordPart, List.isEmpty_nil, if_pos rfl, List.append_nil]
    have hcut := cutParts_append h (List.forall_mem_nil _) hrest
    have hend : cutParts [] [] = [] := by rw [cutParts]; rfl
    rw [hend, List.append_nil, List.append_nil] at hcut
    exact hcut
  | group before square body after ih =>
    obtain ⟨hbefore, hbody, hafter⟩ := h
    have hrest : ∀ word, cutParts word (groupOpening square :: (body ++ groupClosing square :: after.written)) =
        wordPart word ++ cutParts [] (groupOpening square :: (body ++ groupClosing square :: after.written)) := fun word => by
      rw [cutParts_group hbody, cutParts_group hbody]
      rfl
    rw [written, cutParts_append hbefore (List.forall_mem_nil _) hrest, cutParts_group hbody, ih hafter]
    rfl

/-- Only a bracket without its partner keeps a text from having an outline. -/
theorem exists_outline {word cs : List Char} (h : ∀ bracket, .unbalanced bracket ∉ cutParts word cs) :
    ∃ o : Outline, o.Flat ∧ o.written = cs := by
  induction word, cs using cutParts.induct with
  | case1 word => exact ⟨.plain [], List.forall_mem_nil _, rfl⟩
  | case2 word c cs hblank ih =>
    rw [cutParts_blank hblank] at h
    obtain ⟨o, ho, rfl⟩ := ih fun bracket hmem => h bracket (List.mem_append_right _ hmem)
    have hbracket : isBracket c = false := by
      by_contra hne
      cases hblank.symm.trans (isBlank_of_isBracket (Bool.not_eq_false _ ▸ hne))
    exact ⟨o.cons c, Outline.flat_cons hbracket ho, o.written_cons c⟩
  | case3 word c cs _ hopen body rest hbody ih =>
    obtain ⟨square, rfl, hclosing⟩ := opening_cases hopen
    rw [dite_eq_ite, hclosing] at hbody
    obtain ⟨rfl, hfree⟩ := eq_of_groupBody? hbody
    rw [cutParts_group hfree] at h
    obtain ⟨o, ho, rfl⟩ := ih fun bracket hmem => h bracket (List.mem_append_right _ (.tail _ hmem))
    exact ⟨.group [] square body o, ⟨List.forall_mem_nil _, hfree, ho⟩, rfl⟩
  | case4 word c cs hblank hopen hbody =>
    refine absurd ?_ (h c)
    rw [cutParts, if_neg hblank, if_pos hopen]
    split
    · rename_i hbody'
      rw [dite_eq_ite] at hbody
      cases hbody.symm.trans hbody'
    · exact List.mem_append_right _ List.mem_cons_self
  | case5 word cs hblank hopen =>
    refine absurd ?_ (h '(')
    rw [cutParts, if_neg hblank, if_neg hopen, if_pos rfl]
    exact List.mem_cons_self
  | case6 word cs hblank hopen hround =>
    refine absurd ?_ (h '[')
    rw [cutParts, if_neg hblank, if_neg hopen, if_neg hround, if_pos rfl]
    exact List.mem_cons_self
  | case7 word c cs hblank hopen hround hsquare ih =>
    have hbracket : isBracket c = false := by
      rw [not_or] at hopen
      simp [isBracket, hopen, hround, hsquare]
    rw [cutParts_char (Bool.eq_false_iff.mpr hblank) hbracket] at h
    obtain ⟨o, ho, rfl⟩ := ih h
    exact ⟨o.cons c, Outline.flat_cons hbracket ho, o.written_cons c⟩

end Repartee.Pattern
