/-
  Repartee.Proofs.Cutting — what it means that a text is cut.

  Each way to cut a text is given by where its pieces stand in it: what is put together from them is
  the text, and the place of the cut is the first one.

  Proved:
  - Cutting off a beginning and cutting at the first character of a kind (`after?_eq_some_iff`,
    `cutOnce_eq_some_iff`). A text is not cut at a string that does not occur in it
    (`cutAt_eq_none_iff`), else it is cut at the first occurrence (`cutAt_eq_some_iff`), and where does
    not depend on what follows it (`cutAt_append_of_some`, `cutAt_append_of_none`).
  - Pieces and words of a text with a cut in it (`fields_append`, `words_append`), words of a text
    without any (`words_eq_singleton`).
  - A text is its words with blanks around them (`words_word`, `words_induction`), and has a first word
    of any kind it has words of (`exists_first_word`). Words put together are told apart again (`wordsOf_spaced`).
  - What is trimmed off is blank (`exists_trim`), and trimming again changes nothing (`trim_trim`). Words and
    texts in a row are trimmed at their outer ends only (`words_trim`, `trim_intercalate`). A trimmed text
    begins with its first word, or is its only one (`head?_trim`, `wordsOf_eq_singleton_iff`).
  - Pieces, words and the trimmed text stand in the text (`isInfix_of_mem_fields`, `isInfix_of_mem_words`,
    `trim_isInfix`).
-/

import Mathlib.Data.List.Basic
import Mathlib.Data.List.TakeWhile
import Repartee.Text.Split

namespace Repartee.Text

open Unicode (isBlank)

variable {p : Char → Bool} {c : Char} {start before rest blanks cs : List Char}

theorem after?_eq_some_iff : after? start cs = some rest ↔ cs = start ++ rest := by
  induction start generalizing cs with
  | nil => simp [after?]
  | cons s start ih =>
    cases cs with
    | nil => simp [after?]
    | cons c cs =>
      rw [after?, List.cons_append, List.cons.injEq]
      by_cases h : s = c
      · rw [if_pos h, ih, and_iff_right h.symm]
      · rw [if_neg h]
        simp [Ne.symm h]

theorem cutOnce_eq_some_iff : cutOnce p cs = some (before, rest) ↔
    ∃ c, p c = true ∧ (∀ d ∈ before, p d = false) ∧ cs = before ++ c :: rest := by
  constructor
  · intro h
    simp only [cutOnce] at h
    split at h
    · cases h
    · rename_i c after hdrop
      cases h
      have hhead := List.head?_dropWhile_not (!p ·) cs
      rw [hdrop] at hhead
      refine ⟨c, by simpa using hhead, fun d hd => by simpa using List.mem_takeWhile_imp hd, ?_⟩
      rw [← hdrop, List.takeWhile_append_dropWhile]
  · rintro ⟨c, hc, hbefore, hcs⟩
    have hkeep : ∀ d ∈ before, (!p d) = true := fun d hd => by simp [hbefore d hd]
    simp [hcs, cutOnce, List.dropWhile_append_of_pos hkeep, List.takeWhile_append_of_pos hkeep, hc]

theorem cutAt_eq_none_iff {sep : List Char} : cutAt sep cs = none ↔ ¬ sep <:+: cs := by
  induction cs with
  | nil =>
    rw [cutAt, Option.map_eq_none_iff, List.infix_nil]
    cases sep with
    | nil => simp [after?]
    | cons s sep => simp [after?]
  | cons c cs ih =>
    rw [cutAt, List.infix_cons_iff, not_or, ← ih]
    cases hafter : after? sep (c :: cs) with
    | none =>
      have hbegins : ¬ sep <+: c :: cs := by
        rintro ⟨rest, hrest⟩
        rw [after?_eq_some_iff.mpr hrest.symm] at hafter
        cases hafter
      rw [and_iff_right hbegins, Option.map_eq_none_iff]
    | some rest =>
      have hbegins : sep <+: c :: cs := ⟨rest, (after?_eq_some_iff.mp hafter).symm⟩
      simp [hbegins]

/-- What stands behind the first occurrence does not matter. -/
theorem cutAt_append_of_some {sep : List Char} (h : cutAt sep cs = some (before, rest)) (ds : List Char) :
    cutAt sep (cs ++ ds) = some (before, rest ++ ds) := by
  induction cs generalizing before with
  | nil =>
    rw [cutAt, Option.map_eq_some_iff] at h
    obtain ⟨behind, hbehind, heq⟩ := h
    cases heq
    obtain ⟨rfl, rfl⟩ := List.nil_eq_append_iff.mp (after?_eq_some_iff.mp hbehind)
    cases ds <;> rfl
  | cons c cs ih =>
    rw [List.cons_append, cutAt]
    rw [cutAt] at h
    cases hafter : after? sep (c :: cs) with
    | some behind =>
      rw [hafter] at h
      cases h
      have happend : after? sep (c :: (cs ++ ds)) = some (rest ++ ds) := by
        rw [after?_eq_some_iff, ← List.cons_append, after?_eq_some_iff.mp hafter, List.append_assoc]
      rw [happend]
    | none =>
      rw [hafter] at h
      obtain ⟨b, hb, rfl⟩ := map_prepend_eq_some.mp h
      -- The first occurrence lies further on, so one that begins here would end before it does.
      have hnone : after? sep (c :: (cs ++ ds)) = none := by
        rw [Option.eq_none_iff_forall_ne_some]
        intro behind hbehind
        have hfits : sep.length ≤ cs.length := by
          have hinfix : sep <:+: cs := by
            by_contra hne
            rw [cutAt_eq_none_iff.mpr hne] at hb
            cases hb
          exact hinfix.length_le
        have hbegins : sep <+: c :: cs := by
          have hlong : sep <+: (c :: cs) ++ ds := ⟨behind, (after?_eq_some_iff.mp hbehind).symm⟩
          exact List.prefix_of_prefix_length_le hlong (List.prefix_append _ _) (Nat.le_succ_of_le hfits)
        obtain ⟨behind', hbehind'⟩ := hbegins
        rw [after?_eq_some_iff.mpr hbehind'.symm] at hafter
        cases hafter
      rw [hnone, ih hb]
      rfl

/-- A text does not go over into an occurrence of a string whose first character stands nowhere else in it. -/
theorem after?_append_of_none {s : Char} {start : List Char} (h : after? start cs = none) (hs : s ∉ start) (ds : List Char) :
    after? start (cs ++ s :: ds) = none := by
  induction start generalizing cs with
  | nil => cases h
  | cons t start ih =>
    obtain ⟨hst, hstart⟩ := not_or.mp (List.mem_cons.not.mp hs)
    cases cs with
    | nil => exact if_neg (Ne.symm hst)
    | cons c cs =>
      rw [List.cons_append, after?]
      rw [after?] at h
      by_cases htc : t = c
      · rw [if_pos htc] at h ⊢
        exact ih h hstart
      · exact if_neg htc

/-- Whether a text begins with a string is not changed by a character behind it that cannot go on in the string. -/
theorem after?_append_cons {s : Char} {start : List Char} (hs : s ∉ start.tail) (hne : cs ≠ []) (ds : List Char) :
    after? start (cs ++ s :: ds) = (after? start cs).map (· ++ s :: ds) := by
  obtain ⟨c, cs, rfl⟩ := List.exists_cons_of_ne_nil hne
  cases hafter : after? start (c :: cs) with
  | some rest =>
    rw [Option.map_some, after?_eq_some_iff, after?_eq_some_iff.mp hafter, List.append_assoc]
  | none =>
    cases start with
    | nil => cases hafter
    | cons t start =>
      rw [after?] at hafter
      rw [List.cons_append, after?]
      by_cases htc : t = c
      · rw [if_pos htc] at hafter ⊢
        exact after?_append_of_none hafter hs ds
      · exact if_neg htc

theorem cutAt_append_of_none {sep : List Char} (h : cutAt sep cs = none) (hsep : ∀ s ∈ sep.head?, s ∉ sep.tail) :
    cutAt sep (cs ++ sep) = some (cs, []) := by
  cases sep with
  | nil => exact absurd List.nil_infix (cutAt_eq_none_iff.mp h)
  | cons s sep =>
    have hs : s ∉ sep := hsep s rfl
    induction cs with
    | nil =>
      have hhere : after? (s :: sep) (s :: sep) = some [] := after?_eq_some_iff.mpr (List.append_nil _).symm
      rw [List.nil_append, cutAt, hhere]
    | cons c cs ih =>
      rw [cutAt] at h
      cases hafter : after? (s :: sep) (c :: cs) with
      | some behind =>
        rw [hafter] at h
        cases h
      | none =>
        rw [hafter] at h
        have hnone : after? (s :: sep) (c :: (cs ++ s :: sep)) = none := by
          rw [after?] at hafter ⊢
          by_cases hsc : s = c
          · rw [if_pos hsc] at hafter ⊢
            exact after?_append_of_none hafter hs _
          · exact if_neg hsc
        rw [List.cons_append, cutAt, hnone, ih (Option.map_eq_none_iff.mp h)]
        rfl

theorem eq_of_cutAt {sep : List Char} (h : cutAt sep cs = some (before, rest)) : cs = before ++ (sep ++ rest) := by
  induction cs generalizing before with
  | nil =>
    rw [cutAt, Option.map_eq_some_iff] at h
    obtain ⟨behind, hbehind, heq⟩ := h
    cases heq
    rw [List.nil_append, after?_eq_some_iff.mp hbehind]
  | cons c cs ih =>
    rw [cutAt] at h
    cases hafter : after? sep (c :: cs) with
    | some behind =>
      rw [hafter] at h
      cases h
      rw [List.nil_append, after?_eq_some_iff.mp hafter]
    | none =>
      rw [hafter] at h
      obtain ⟨b, hb, rfl⟩ := map_prepend_eq_some.mp h
      rw [ih hb, List.cons_append]

/-- A text is cut at a string if the string does not occur before. -/
theorem cutAt_eq_some_iff {s : Char} {sep : List Char} (hs : s ∉ sep) :
    cutAt (s :: sep) cs = some (before, rest) ↔ cs = before ++ (s :: sep ++ rest) ∧ ¬ s :: sep <:+: before := by
  constructor
  · intro h
    have hcs := eq_of_cutAt h
    refine ⟨hcs, fun hoccurs => ?_⟩
    obtain ⟨⟨b, r⟩, hearlier⟩ := Option.ne_none_iff_exists'.mp (mt cutAt_eq_none_iff.mp (not_not.mpr hoccurs))
    have hlength := cutAt_length hearlier
    have hsame := cutAt_append_of_some hearlier (s :: sep ++ rest)
    rw [← hcs, h, Option.some.injEq, Prod.mk.injEq] at hsame
    rw [hsame.1, List.length_cons] at hlength
    omega
  · rintro ⟨rfl, hfirst⟩
    have hcut : cutAt (s :: sep) (before ++ s :: sep) = some (before, []) :=
      cutAt_append_of_none (cutAt_eq_none_iff.mpr hfirst) (by simpa using hs)
    rw [← List.append_assoc]
    exact cutAt_append_of_some hcut rest

/-- A string does not occur across a character it does not have. -/
theorem infix_append_cons {part ds : List Char} (hc : c ∉ part) : part <:+: cs ++ c :: ds ↔ part <:+: cs ∨ part <:+: ds := by
  have hbegins : ∀ cs : List Char, part <+: cs ++ c :: ds → part <+: cs := by
    intro cs h
    refine List.prefix_of_prefix_length_le h (List.prefix_append _ _) ?_
    by_contra hlonger
    have hcs : cs ++ [c] <+: cs ++ c :: ds := ⟨ds, by simp⟩
    have hinside : cs ++ [c] <+: part := List.prefix_of_prefix_length_le hcs h (by simp; omega)
    exact hc (hinside.subset (by simp))
  refine ⟨fun h => ?_, ?_⟩
  · induction cs with
    | nil =>
      rcases List.infix_cons_iff.mp h with h | h
      · exact .inl (hbegins [] h).isInfix
      · exact .inr h
    | cons x cs ih =>
      rw [List.cons_append, List.infix_cons_iff] at h
      rcases h with h | h
      · exact .inl (hbegins (x :: cs) h).isInfix
      · exact (ih h).imp_left fun hcs => List.infix_cons_iff.mpr (.inr hcs)
  · rintro (h | h)
    · exact h.trans (List.prefix_append _ _).isInfix
    · exact h.trans ((List.suffix_cons _ _).trans (List.suffix_append _ _)).isInfix

/-! ## Pieces -/

theorem fields_ne_nil (p : Char → Bool) (cs : List Char) : fields p cs ≠ [] := by
  induction cs with
  | nil => simp [fields]
  | cons x cs ih =>
    rw [fields]
    by_cases hx : p x = true
    · simp [hx]
    · simp [hx, ih]

theorem fields_append (cs ds : List Char) (hc : p c = true) : fields p (cs ++ c :: ds) = fields p cs ++ fields p ds := by
  induction cs with
  | nil => simp [fields, hc]
  | cons x cs ih =>
    rw [List.cons_append, fields, fields, ih]
    by_cases hx : p x = true
    · rw [if_pos hx, if_pos hx, List.cons_append]
    · rw [if_neg hx, if_neg hx]
      obtain ⟨f, fs, hf⟩ := List.exists_cons_of_ne_nil (fields_ne_nil p cs)
      rw [hf]
      rfl

theorem fields_of_forall (h : ∀ c ∈ cs, p c = false) : fields p cs = [cs] := by
  induction cs with
  | nil => rfl
  | cons c cs ih =>
    obtain ⟨hc, hcs⟩ := List.forall_mem_cons.mp h
    rw [fields, if_neg (by simp [hc]), ih hcs, List.modifyHead_cons]

theorem isInfix_of_mem_fields {piece : List Char} (h : piece ∈ fields p cs) : piece <:+: cs := by
  have hpieces : ∃ first rest, fields p cs = first :: rest ∧ first <+: cs ∧ ∀ piece ∈ rest, piece <:+: cs := by
    clear h
    induction cs with
    | nil => exact ⟨[], [], rfl, List.nil_prefix, List.forall_mem_nil _⟩
    | cons c cs ih =>
      obtain ⟨first, rest, hfields, hfirst, hrest⟩ := ih
      rw [fields, hfields]
      split
      · refine ⟨[], _, rfl, List.nil_prefix, List.forall_mem_cons.mpr ⟨?_, fun piece hpiece => ?_⟩⟩
        · exact hfirst.isInfix.trans (List.suffix_cons c cs).isInfix
        · exact (hrest piece hpiece).trans (List.suffix_cons c cs).isInfix
      · refine ⟨c :: first, rest, rfl, List.cons_prefix_cons.mpr ⟨rfl, hfirst⟩, fun piece hpiece => ?_⟩
        exact (hrest piece hpiece).trans (List.suffix_cons c cs).isInfix
  obtain ⟨first, rest, hfields, hfirst, hrest⟩ := hpieces
  rw [hfields, List.mem_cons] at h
  rcases h with rfl | h
  · exact hfirst.isInfix
  · exact hrest piece h

/-! ## Words -/

theorem words_append (cs ds : List Char) (hc : isBlank c = true) : words (cs ++ c :: ds) = words cs ++ words ds := by
  rw [words, fields_append cs ds hc, List.filter_append]
  rfl

theorem words_eq_singleton (hne : cs ≠ []) (h : ∀ c ∈ cs, isBlank c = false) : words cs = [cs] := by
  rw [words, fields_of_forall h, List.filter_cons_of_pos]
  · rfl
  · simpa using hne

theorem words_intercalate (hc : isBlank c = true) (css : List (List Char)) :
    words ([c].intercalate css) = css.flatMap words := by
  induction css with
  | nil => rfl
  | cons cs css ih =>
    cases css with
    | nil => rw [List.intercalate_singleton, List.flatMap_singleton]
    | cons ds css =>
      rw [List.intercalate_cons_cons, List.append_assoc, List.singleton_append, words_append _ _ hc, ih]
      rfl

theorem words_ne_nil_iff : words cs ≠ [] ↔ ∃ c ∈ cs, isBlank c = false := by
  induction cs with
  | nil => simp [words, fields]
  | cons c cs ih =>
    simp only [List.mem_cons, exists_eq_or_imp, ← ih]
    cases hc : isBlank c with
    | true =>
      have hcut : words (c :: cs) = words cs := words_append [] cs hc
      rw [hcut, or_iff_right (by simp)]
    | false =>
      obtain ⟨f, fs, hfields⟩ := List.exists_cons_of_ne_nil (fields_ne_nil isBlank cs)
      refine iff_of_true ?_ (.inl rfl)
      rw [words, fields, if_neg (by simp [hc]), hfields, List.modifyHead_cons]
      exact List.cons_ne_nil _ _

/-! ## Words one by one -/

theorem words_of_blanks (h : ∀ c ∈ blanks, isBlank c = true) : words blanks = [] := by
  by_contra hne
  obtain ⟨c, hc, hblank⟩ := words_ne_nil_iff.mp hne
  cases hblank.symm.trans (h c hc)

theorem words_blanks_append (h : ∀ c ∈ blanks, isBlank c = true) (cs : List Char) : words (blanks ++ cs) = words cs := by
  induction blanks with
  | nil => rfl
  | cons c blanks ih =>
    obtain ⟨hc, hblanks⟩ := List.forall_mem_cons.mp h
    rw [List.cons_append]
    exact (words_append [] _ hc).trans (ih hblanks)

theorem words_append_blanks (h : ∀ c ∈ blanks, isBlank c = true) (cs : List Char) : words (cs ++ blanks) = words cs := by
  cases blanks with
  | nil => rw [List.append_nil]
  | cons c blanks =>
    obtain ⟨hc, hblanks⟩ := List.forall_mem_cons.mp h
    rw [words_append cs blanks hc, words_of_blanks hblanks, List.append_nil]

theorem isInfix_of_mem_words {w : List Char} (h : w ∈ words cs) : w <:+: cs := isInfix_of_mem_fields (List.mem_filter.mp h).1

/-- A word ends where a blank follows it, or nothing. -/
theorem words_word {w : List Char} (hblanks : ∀ c ∈ blanks, isBlank c = true) (hne : w ≠ [])
    (hw : ∀ c ∈ w, isBlank c = false) (hrest : ∀ c ∈ rest.head?, isBlank c = true) :
    words (blanks ++ (w ++ rest)) = w :: words rest := by
  rw [words_blanks_append hblanks]
  cases rest with
  | nil => rw [List.append_nil, words_eq_singleton hne hw, words_of_blanks (List.forall_mem_nil _)]
  | cons c rest =>
    have hc := hrest c rfl
    have hskip : words (c :: rest) = words rest := words_append [] rest hc
    rw [words_append w rest hc, words_eq_singleton hne hw, hskip, List.singleton_append]

/-- A text is blank, or it begins with blanks and a word. -/
@[elab_as_elim]
theorem words_induction {P : List Char → Prop} (blank : ∀ blanks, (∀ c ∈ blanks, isBlank c = true) → P blanks)
    (word : ∀ blanks w rest, (∀ c ∈ blanks, isBlank c = true) → w ≠ [] → (∀ c ∈ w, isBlank c = false) →
      (∀ c ∈ rest.head?, isBlank c = true) → P rest → P (blanks ++ (w ++ rest))) (cs : List Char) : P cs := by
  by_cases hblank : cs.dropWhile isBlank = []
  · exact blank cs (List.dropWhile_eq_nil_iff.mp hblank)
  · have hfirst := List.head?_dropWhile_not isBlank cs
    obtain ⟨c, behind, hbehind⟩ := List.exists_cons_of_ne_nil hblank
    rw [hbehind] at hfirst
    have hw : (c :: behind).takeWhile (!isBlank ·) = c :: behind.takeWhile (!isBlank ·) :=
      List.takeWhile_cons_of_pos (by simpa using hfirst)
    have hshorter : ((c :: behind).dropWhile (!isBlank ·)).length < cs.length := by
      have hlength := congrArg List.length (List.takeWhile_append_dropWhile (p := (!isBlank ·)) (l := c :: behind))
      have hle := (List.dropWhile_suffix (l := cs) isBlank).length_le
      rw [hbehind] at hle
      rw [hw, List.length_append, List.length_cons] at hlength
      omega
    have hcs : cs = cs.takeWhile isBlank ++
        ((c :: behind).takeWhile (!isBlank ·) ++ (c :: behind).dropWhile (!isBlank ·)) := by
      rw [List.takeWhile_append_dropWhile, ← hbehind, List.takeWhile_append_dropWhile]
    rw [hcs]
    refine word _ _ _ (fun d hd => List.mem_takeWhile_imp hd) (by rw [hw]; exact List.cons_ne_nil _ _)
      (fun d hd => by simpa using List.mem_takeWhile_imp hd) (fun d hd => ?_) (words_induction blank word _)
    have hhead := List.head?_dropWhile_not (!isBlank ·) (c :: behind)
    rw [Option.mem_def.mp hd] at hhead
    simpa using hhead
termination_by cs.length

theorem mem_words {w : List Char} (h : w ∈ words cs) : w ≠ [] ∧ ∀ c ∈ w, c ∈ cs ∧ isBlank c = false := by
  induction cs using words_induction with
  | blank blanks hblanks =>
    rw [words_of_blanks hblanks] at h
    cases h
  | word blanks v rest hblanks hne hv hrest ih =>
    rw [words_word hblanks hne hv hrest] at h
    rcases List.mem_cons.mp h with rfl | h
    · exact ⟨hne, fun c hc => ⟨by simp [hc], hv c hc⟩⟩
    · obtain ⟨hne, hw⟩ := ih h
      exact ⟨hne, fun c hc => ⟨by simp [(hw c hc).1], (hw c hc).2⟩⟩

/-- A text as it stands between blanks. -/
structure IsWord (w : String) : Prop where
  nonempty : w ≠ ""
  visible : ∀ c ∈ w.toList, isBlank c = false

/-- Words can be told by evaluation. -/
theorem isWord_of_all {w : String} (hne : w ≠ "") (h : w.toList.all (!isBlank ·) = true) : IsWord w :=
  ⟨hne, fun c hc => by simpa using List.all_eq_true.mp h c hc⟩

theorem isWord_ofList {w : List Char} (h : w ∈ words cs) : IsWord (.ofList w) := by
  obtain ⟨hne, hw⟩ := mem_words h
  refine ⟨by simpa using hne, fun c hc => ?_⟩
  rw [String.toList_ofList] at hc
  exact (hw c hc).2

theorem isWord_of_mem_wordsOf {s w : String} (h : w ∈ wordsOf s) : IsWord w := by
  obtain ⟨cs, hcs, rfl⟩ := List.mem_map.mp h
  exact isWord_ofList hcs

theorem words_toList_spaced {ws : List String} (h : ∀ w ∈ ws, IsWord w) : words (spaced ws).toList = ws.map String.toList := by
  have hone : ∀ w ∈ ws, words w.toList = [w.toList] := fun w hw =>
    words_eq_singleton (fun hnil => (h w hw).nonempty (String.toList_eq_nil_iff.mp hnil)) (h w hw).visible
  rw [spaced, String.toList_intercalate]
  refine (words_intercalate (c := ' ') (by decide) _).trans ?_
  rw [List.flatMap_map, List.flatMap_congr hone, ← List.map_eq_flatMap]

theorem map_ofList_toList (ws : List String) : (ws.map String.toList).map String.ofList = ws := by
  rw [List.map_map]
  exact List.map_id'' (fun w => String.ofList_toList) ws

theorem filter_map_toList {ws : List String} (h : ∀ w ∈ ws, IsWord w) :
    (ws.map String.toList).filter (!·.isEmpty) = ws.map String.toList := by
  rw [List.filter_eq_self]
  intro cs hcs
  obtain ⟨w, hw, rfl⟩ := List.mem_map.mp hcs
  simpa [String.toList_eq_nil_iff] using (h w hw).nonempty

/-- Words that are put together are told apart again. -/
theorem wordsOf_spaced {ws : List String} (h : ∀ w ∈ ws, IsWord w) : wordsOf (spaced ws) = ws := by
  rw [wordsOf, words_toList_spaced h, map_ofList_toList]

/-- Before a word in a text that begins with a blank stands a text that does so too. -/
theorem begins_blank {w after : List Char} (h : ∀ c ∈ (before ++ (w ++ after)).head?, isBlank c = true)
    (hne : w ≠ []) (hw : ∀ c ∈ w, isBlank c = false) : before ≠ [] ∧ ∀ c ∈ before.head?, isBlank c = true := by
  cases before with
  | nil =>
    obtain ⟨c, w, rfl⟩ := List.exists_cons_of_ne_nil hne
    cases (hw c List.mem_cons_self).symm.trans (h c rfl)
  | cons c before => exact ⟨List.cons_ne_nil _ _, h⟩

/-- The first word of a kind, and where it stands. -/
theorem exists_first_word {q : List Char → Prop} [DecidablePred q] (h : ∃ w ∈ words cs, q w) :
    ∃ before w after, cs = before ++ (w ++ after) ∧ (w ≠ [] ∧ ∀ c ∈ w, isBlank c = false) ∧
      (∀ c ∈ before.getLast?, isBlank c = true) ∧ (∀ c ∈ after.head?, isBlank c = true) ∧ q w ∧
      ∀ v ∈ words before, ¬ q v := by
  induction cs using words_induction with
  | blank blanks hblanks =>
    rw [words_of_blanks hblanks] at h
    obtain ⟨w, hw, -⟩ := h
    cases hw
  | word blanks v rest hblanks hne hv hrest ih =>
    by_cases hq : q v
    · refine ⟨blanks, v, rest, rfl, ⟨hne, hv⟩, fun c hc => hblanks c (List.mem_of_getLast? hc), hrest, hq, ?_⟩
      rw [words_of_blanks hblanks]
      exact List.forall_mem_nil _
    · rw [words_word hblanks hne hv hrest, List.exists_mem_cons_iff, or_iff_right hq] at h
      obtain ⟨before, w, after, rfl, hword, hbefore, hafter, hw, hfirst⟩ := ih h
      obtain ⟨hsome, hhead⟩ := begins_blank hrest hword.1 hword.2
      refine ⟨blanks ++ (v ++ before), w, after, by simp, hword, fun c hc => hbefore c ?_, hafter, hw, ?_⟩
      · rwa [← List.append_assoc, List.getLast?_append_of_ne_nil _ hsome] at hc
      · rw [words_word hblanks hne hv hhead]
        exact List.forall_mem_cons.mpr ⟨hq, hfirst⟩

/-! ## Trimming -/

/-- What is dropped at both ends of a text satisfies the condition. -/
theorem exists_dropEnds (p : Char → Bool) (cs : List Char) : ∃ before after, (∀ c ∈ before, p c = true) ∧
    (∀ c ∈ after, p c = true) ∧ cs = before ++ (dropEndWhile p (cs.dropWhile p) ++ after) := by
  refine ⟨cs.takeWhile p, ((cs.dropWhile p).reverse.takeWhile p).reverse, fun c hc => List.mem_takeWhile_imp hc,
    fun c hc => List.mem_takeWhile_imp (List.mem_reverse.mp hc), ?_⟩
  have hend : dropEndWhile p (cs.dropWhile p) ++ ((cs.dropWhile p).reverse.takeWhile p).reverse = cs.dropWhile p := by
    rw [dropEndWhile, ← List.reverse_append, List.takeWhile_append_dropWhile, List.reverse_reverse]
  rw [hend, List.takeWhile_append_dropWhile]

theorem dropEnds_of_ends (hfirst : ∀ c ∈ cs.head?, p c = false) (hlast : ∀ c ∈ cs.getLast?, p c = false) :
    dropEndWhile p (cs.dropWhile p) = cs := by
  have hkept : ∀ cs : List Char, (∀ c ∈ cs.head?, p c = false) → cs.dropWhile p = cs := by
    intro cs h
    cases cs with
    | nil => rfl
    | cons c cs => exact List.dropWhile_cons_of_neg (Bool.eq_false_iff.mp (h c rfl))
  rw [hkept cs hfirst, dropEndWhile, hkept cs.reverse (by rwa [List.head?_reverse]), List.reverse_reverse]

/-- At the ends of what is left nothing satisfies the condition. -/
theorem ends_dropEnds (p : Char → Bool) (cs : List Char) : (∀ c ∈ (dropEndWhile p (cs.dropWhile p)).head?, p c = false) ∧
    ∀ c ∈ (dropEndWhile p (cs.dropWhile p)).getLast?, p c = false := by
  have hfirst : ∀ ds : List Char, ∀ c ∈ (ds.dropWhile p).head?, p c = false := by
    intro ds c hc
    have hhead := List.head?_dropWhile_not p ds
    rw [hc] at hhead
    exact hhead
  constructor
  · -- What is dropped at the end is put back: the first character is the same.
    intro c hc
    have hprefix : dropEndWhile p (cs.dropWhile p) <+: cs.dropWhile p := by
      rw [dropEndWhile, ← List.reverse_suffix, List.reverse_reverse]
      exact List.dropWhile_suffix p
    obtain ⟨rest, hrest⟩ := List.head?_eq_some_iff.mp hc
    rw [hrest] at hprefix
    obtain ⟨after, hafter⟩ := hprefix
    exact hfirst cs c (by rw [← hafter]; rfl)
  · intro c hc
    rw [dropEndWhile, List.getLast?_reverse] at hc
    exact hfirst _ c hc

/-- What `trim` drops is blank. -/
theorem exists_trim (cs : List Char) : ∃ before after, (∀ c ∈ before, isBlank c = true) ∧
    (∀ c ∈ after, isBlank c = true) ∧ cs = before ++ (trim cs ++ after) :=
  exists_dropEnds isBlank cs

theorem trim_isInfix (cs : List Char) : trim cs <:+: cs := by
  obtain ⟨before, after, -, -, hcs⟩ := exists_trim cs
  exact ⟨before, after, by rw [List.append_assoc, ← hcs]⟩

theorem mem_of_mem_trim (h : c ∈ trim cs) : c ∈ cs := by
  obtain ⟨before, after, -, -, hcs⟩ := exists_trim cs
  rw [hcs]
  exact List.mem_append_right _ (List.mem_append_left _ h)

theorem trim_append_blanks (h : ∀ c ∈ blanks, isBlank c = true) (cs : List Char) :
    trim (cs ++ blanks) = trim cs := by
  have hblanks : trimStart blanks = [] := List.dropWhile_eq_nil_iff.mpr h
  rw [trim, trim, trimStart, List.dropWhile_append]
  split
  · rename_i hempty
    rw [List.isEmpty_iff] at hempty
    rw [trimStart, hempty]
    exact congrArg _ hblanks
  · rw [dropEndWhile, List.reverse_append, List.dropWhile_append_of_pos fun c hc => h c (List.mem_reverse.mp hc)]
    rfl

theorem trim_blanks_append (h : ∀ c ∈ blanks, isBlank c = true) (cs : List Char) :
    trim (blanks ++ cs) = trim cs := by
  rw [trim, trim, trimStart, List.dropWhile_append_of_pos h, trimStart]

theorem trim_trimStart (cs : List Char) : trim (trimStart cs) = trim cs := by
  conv_rhs => rw [← List.takeWhile_append_dropWhile (p := isBlank) (l := cs)]
  exact (trim_blanks_append (fun c hc => List.mem_takeWhile_imp hc) _).symm

theorem trim_trim (cs : List Char) : trim (trim cs) = trim cs := by
  obtain ⟨before, after, hbefore, hafter, hcs⟩ := exists_trim cs
  calc trim (trim cs)
    _ = trim (before ++ (trim cs ++ after)) := by rw [trim_blanks_append hbefore, trim_append_blanks hafter]
    _ = trim cs := by rw [← hcs]

theorem ends_of_trim (h : trim cs = cs) : (∀ c ∈ cs.head?, isBlank c = false) ∧ ∀ c ∈ cs.getLast?, isBlank c = false := by
  have hends : (∀ c ∈ (trim cs).head?, isBlank c = false) ∧ ∀ c ∈ (trim cs).getLast?, isBlank c = false :=
    ends_dropEnds isBlank cs
  rwa [h] at hends

theorem trim_of_ends (hfirst : ∀ c ∈ cs.head?, isBlank c = false) (hlast : ∀ c ∈ cs.getLast?, isBlank c = false) :
    trim cs = cs :=
  dropEnds_of_ends hfirst hlast

theorem isBlank_of_getLast?_trim (h : (trim cs).getLast? = some c) : isBlank c = false := (ends_of_trim (trim_trim cs)).2 c h

theorem trim_of_forall (h : ∀ c ∈ cs, isBlank c = false) : trim cs = cs :=
  trim_of_ends (fun c hc => h c (List.mem_of_mem_head? hc)) (fun c hc => h c (List.mem_of_mem_getLast? hc))

theorem trimmed_eq_iff {s : String} : trimmed s = s ↔ trim s.toList = s.toList := by
  rw [trimmed]
  refine ⟨fun h => ?_, fun h => by rw [h, String.ofList_toList]⟩
  rw [← h, String.toList_ofList, trim_trim]

/-- Texts in a row are trimmed if each of them is. -/
theorem trim_intercalate (sep : List Char) {css : List (List Char)} (h : ∀ cs ∈ css, cs ≠ [] ∧ trim cs = cs) :
    trim (sep.intercalate css) = sep.intercalate css := by
  have hends : (∀ c ∈ (sep.intercalate css).head?, isBlank c = false) ∧
      (∀ c ∈ (sep.intercalate css).getLast?, isBlank c = false) ∧ (css ≠ [] → sep.intercalate css ≠ []) := by
    induction css with
    | nil => exact ⟨nofun, nofun, fun hne => absurd rfl hne⟩
    | cons cs css ih =>
      obtain ⟨⟨hne, htrim⟩, hcss⟩ := List.forall_mem_cons.mp h
      obtain ⟨hfirst, hlast⟩ := ends_of_trim htrim
      cases css with
      | nil =>
        rw [List.intercalate_singleton]
        exact ⟨hfirst, hlast, fun _ => hne⟩
      | cons ds css =>
        obtain ⟨-, hlast, hsome⟩ := ih hcss
        rw [List.intercalate_cons_cons, List.append_assoc]
        refine ⟨?_, ?_, fun _ => List.append_ne_nil_of_left_ne_nil hne _⟩
        · rwa [List.head?_append_of_ne_nil _ hne]
        · rwa [← List.append_assoc, List.getLast?_append_of_ne_nil _ (hsome (List.cons_ne_nil _ _))]
  exact trim_of_ends hends.1 hends.2.1

theorem words_trim (cs : List Char) : words (trim cs) = words cs := by
  obtain ⟨before, after, hbefore, hafter, hcs⟩ := exists_trim cs
  conv_rhs => rw [hcs, words_blanks_append hbefore, words_append_blanks hafter]

theorem words_ne_nil_of_trim (hne : cs ≠ []) (h : trim cs = cs) : words cs ≠ [] := by
  obtain ⟨c, rest, rfl⟩ := List.exists_cons_of_ne_nil hne
  exact words_ne_nil_iff.mpr ⟨c, List.mem_cons_self, (ends_of_trim h).1 c rfl⟩

/-- The first word begins where the text does once it is trimmed. -/
theorem head?_trim (cs : List Char) : (trim cs).head? = (words cs).head?.bind List.head? := by
  rw [← words_trim]
  cases htrim : trim cs with
  | nil => rfl
  | cons c rest =>
    have hfirst : isBlank c = false := (ends_of_trim (trim_trim cs)).1 c (by rw [htrim]; rfl)
    obtain ⟨f, fs, hfields⟩ := List.exists_cons_of_ne_nil (fields_ne_nil isBlank rest)
    rw [words, fields, if_neg (by simp [hfirst]), hfields, List.modifyHead_cons]
    rfl

/-- A text without blanks around it is one word exactly if it has no blanks. -/
theorem length_words_eq_one_iff (hne : cs ≠ []) (h : trim cs = cs) :
    (words cs).length = 1 ↔ ∀ c ∈ cs, isBlank c = false := by
  obtain ⟨hfirst, hlast⟩ := ends_of_trim h
  constructor
  · intro hlength c hc
    by_contra hblank
    rw [Bool.not_eq_false] at hblank
    obtain ⟨before, after, rfl⟩ := List.append_of_mem hc
    have hbefore : words before ≠ [] := by
      cases before with
      | nil => cases hblank.symm.trans (hfirst c rfl)
      | cons d before => exact words_ne_nil_iff.mpr ⟨d, List.mem_cons_self, hfirst d rfl⟩
    have hafter : words after ≠ [] := by
      cases hend : after.getLast? with
      | none =>
        rw [List.getLast?_eq_none_iff.mp hend] at hlast
        cases hblank.symm.trans (hlast c (by simp))
      | some d =>
        exact words_ne_nil_iff.mpr ⟨d, List.mem_of_getLast? hend, hlast d (by simp [List.getLast?_cons, hend])⟩
    rw [words_append _ _ hblank, List.length_append] at hlength
    have := List.length_pos_iff.mpr hbefore
    have := List.length_pos_iff.mpr hafter
    omega
  · intro hfree
    rw [words_eq_singleton hne hfree]
    rfl

/-- A text has one word only if it is that word once it is trimmed. -/
theorem words_eq_singleton_iff {w : List Char} (hne : w ≠ []) (hw : ∀ c ∈ w, isBlank c = false) :
    words cs = [w] ↔ trim cs = w := by
  rw [← words_trim]
  constructor
  · intro hone
    have hsome : trim cs ≠ [] := fun hnil => by rw [hnil] at hone; cases hone
    have hfree := (length_words_eq_one_iff hsome (trim_trim cs)).mp (by rw [hone]; rfl)
    rw [words_eq_singleton hsome hfree] at hone
    exact (List.singleton_inj.mp hone)
  · rintro rfl
    exact words_eq_singleton hne hw

theorem wordsOf_eq_singleton_iff {s w : String} (hw : IsWord w) : wordsOf s = [w] ↔ trimmed s = w := by
  have hchars : wordsOf s = [w] ↔ words s.toList = [w.toList] := by
    rw [wordsOf]
    constructor
    · intro h
      obtain ⟨cs, hwords, hcs⟩ := List.map_eq_singleton_iff.mp h
      rw [hwords, ← hcs, String.toList_ofList]
    · intro h
      rw [h, List.map_singleton, String.ofList_toList]
  rw [hchars, words_eq_singleton_iff (fun hnil => hw.nonempty (String.toList_eq_nil_iff.mp hnil)) hw.visible, trimmed]
  constructor
  · intro h
    rw [h, String.ofList_toList]
  · rintro rfl
    rw [String.toList_ofList]

end Repartee.Text
