/-
  Repartee.Proofs.Alternatives — what stands between the bars or the blanks of a random block.

  A random block is cut into its alternatives by the text alone. Bars count unless they stand in a random
  block inside it, whatever other tag they stand in; if no bar counts, every blank does. So replies that
  are written one after the other become the alternatives exactly if no bar and, without bars, no blank
  stands in them, but for the bars of random blocks of their own.

  Proved:
  - Over a text whose random blocks are paired, the search for the end of a block and the search for bars
    go on as they began (`Passed.blockBody?_eq`, `Passed.cutBars_eq`).
  - A text is cut at no bar exactly if each of its bars is in a random block (`length_cutBars_eq_one_iff`).
  - Which replies become alternatives (`read_alternatives`).
-/

import Mathlib.Data.List.Basic
import Repartee.Proofs.Nesting

namespace Repartee.Template

open Text
open Unicode (isBlank)

/-! ## Paired random blocks -/

/-- How many random blocks are open after a text, if `depth` are open before it; none if one more is closed. -/
def openRandoms (depth : ℕ) : List Char → Option ℕ
  | [] => some depth
  | c :: cs =>
    if (after? (openingOf "random") (c :: cs)).isSome then openRandoms (depth + 1) cs
    else if (after? (closingOf "random") (c :: cs)).isSome then
      if depth = 0 then none else openRandoms (depth - 1) cs
    else openRandoms depth cs

/-- Each random block that is opened is closed, and no other is. -/
def RandomsPaired (cs : List Char) : Prop := openRandoms 0 cs = some 0

instance (cs : List Char) : Decidable (RandomsPaired cs) := inferInstanceAs (Decidable (_ = _))

/-- A bar stands outside random blocks. -/
def OuterBar (cs : List Char) : Prop := ∃ before after, cs = before ++ '|' :: after ∧ RandomsPaired before

/-- A character that no mark of a random block goes on with. -/
def Seam (s : Char) : Prop := s ∉ (openingOf "random").tail ∧ s ∉ (closingOf "random").tail

theorem marks_append {c s : Char} (hs : Seam s) (cs ds : List Char) :
    after? (openingOf "random") (c :: (cs ++ s :: ds)) = (after? (openingOf "random") (c :: cs)).map (· ++ s :: ds) ∧
      after? (closingOf "random") (c :: (cs ++ s :: ds)) = (after? (closingOf "random") (c :: cs)).map (· ++ s :: ds) :=
  ⟨after?_append_cons hs.1 (List.cons_ne_nil c cs) ds, after?_append_cons hs.2 (List.cons_ne_nil c cs) ds⟩

/-- The marks of random blocks that are passed in a text, with the numbers of open blocks before and after it. -/
inductive Passed : ℕ → List Char → ℕ → Prop
  | nil (depth : ℕ) : Passed depth [] depth
  | opening {depth end_ : ℕ} {c : Char} {cs rest : List Char} : after? (openingOf "random") (c :: cs) = some rest →
      Passed (depth + 1) cs end_ → Passed depth (c :: cs) end_
  | closing {depth end_ : ℕ} {c : Char} {cs rest : List Char} : after? (openingOf "random") (c :: cs) = none →
      after? (closingOf "random") (c :: cs) = some rest → Passed depth cs end_ → Passed (depth + 1) (c :: cs) end_
  | other {depth end_ : ℕ} {c : Char} {cs : List Char} : after? (openingOf "random") (c :: cs) = none →
      after? (closingOf "random") (c :: cs) = none → Passed depth cs end_ → Passed depth (c :: cs) end_

section Paired

variable {a ds : List Char} {depth open_ end_ : ℕ} {s : Char}

theorem openRandoms_eq_some_iff : openRandoms depth a = some end_ ↔ Passed depth a end_ := by
  constructor
  · intro h
    induction a generalizing depth with
    | nil =>
      cases h
      exact .nil _
    | cons c cs ih =>
      rw [openRandoms] at h
      cases hopening : after? (openingOf "random") (c :: cs) with
      | some rest =>
        rw [hopening] at h
        exact .opening hopening (ih h)
      | none =>
        rw [hopening] at h
        cases hclosing : after? (closingOf "random") (c :: cs) with
        | some rest =>
          rw [hclosing] at h
          cases depth with
          | zero => cases h
          | succ depth => exact .closing hopening hclosing (ih h)
        | none =>
          rw [hclosing] at h
          exact .other hopening hclosing (ih h)
  · intro h
    induction h with
    | nil => rfl
    | opening hopening _ ih =>
      rw [openRandoms, hopening]
      exact ih
    | closing hopening hclosing _ ih =>
      rw [openRandoms, hopening, hclosing]
      exact ih
    | other hopening hclosing _ ih =>
      rw [openRandoms, hopening, hclosing]
      exact ih

theorem Passed.append (h : Passed depth a open_) (hs : Seam s) (h' : Passed open_ (s :: ds) end_) :
    Passed depth (a ++ s :: ds) end_ := by
  induction h with
  | nil => exact h'
  | @opening _ _ c cs _ hopening _ ih =>
    exact .opening ((marks_append hs cs ds).1.trans (congrArg _ hopening)) (ih h')
  | @closing _ _ c cs _ hopening hclosing _ ih =>
    exact .closing ((marks_append hs cs ds).1.trans (congrArg _ hopening))
      ((marks_append hs cs ds).2.trans (congrArg _ hclosing)) (ih h')
  | @other _ _ c cs hopening hclosing _ ih =>
    exact .other ((marks_append hs cs ds).1.trans (congrArg _ hopening))
      ((marks_append hs cs ds).2.trans (congrArg _ hclosing)) (ih h')

/-- The search for the end of a block passes over a text whose random blocks are paired. -/
theorem Passed.blockBody?_eq (h : Passed depth a open_) (hs : Seam s) (ds : List Char) :
    blockBody? "random" depth (a ++ s :: ds) = (blockBody? "random" open_ (s :: ds)).map (prependAll a) := by
  induction h with
  | nil => rw [List.nil_append, map_prependAll_nil]
  | @opening _ _ c cs _ hopening _ ih =>
    rw [List.cons_append, blockBody?_cons, (marks_append hs cs ds).1, hopening, Option.map_some, Option.isSome_some,
      if_pos rfl, ih, map_prepend_prependAll]
  | @closing _ _ c cs _ hopening hclosing _ ih =>
    rw [List.cons_append, blockBody?_cons, (marks_append hs cs ds).1, (marks_append hs cs ds).2, hopening, hclosing,
      Option.map_none, Option.isSome_none, if_neg Bool.false_ne_true]
    change (blockBody? "random" _ (cs ++ s :: ds)).map (prepend c) = _
    rw [ih, map_prepend_prependAll]
  | @other _ _ c cs hopening hclosing _ ih =>
    rw [List.cons_append, blockBody?_cons, (marks_append hs cs ds).1, (marks_append hs cs ds).2, hopening, hclosing,
      Option.map_none, Option.isSome_none, if_neg Bool.false_ne_true]
    change (blockBody? "random" _ (cs ++ s :: ds)).map (prepend c) = _
    rw [ih, map_prepend_prependAll]

/-! ## Bars -/

/-- Two lists of pieces, of which the last of one and the first of the other are one piece. -/
def glue : List (List Char) → List (List Char) → List (List Char)
  | [], qs => qs
  | [p], qs => qs.modifyHead (p ++ ·)
  | p :: p' :: ps, qs => p :: glue (p' :: ps) qs

theorem glue_modifyHead {ps : List (List Char)} (hne : ps ≠ []) (c : Char) (qs : List (List Char)) :
    glue (ps.modifyHead (c :: ·)) qs = (glue ps qs).modifyHead (c :: ·) := by
  match ps with
  | [] => exact absurd rfl hne
  | [p] => cases qs <;> rfl
  | p :: p' :: ps => rfl

theorem glue_nil_cons {ps : List (List Char)} (hne : ps ≠ []) (qs : List (List Char)) : glue ps ([] :: qs) = ps ++ qs := by
  induction ps with
  | nil => exact absurd rfl hne
  | cons p ps ih =>
    cases ps with
    | nil => rw [glue, List.modifyHead_cons, List.append_nil, List.singleton_append]
    | cons p' ps =>
      rw [glue, ih (List.cons_ne_nil _ _)]
      rfl

theorem cutBars_ne_nil (depth : ℕ) (cs : List Char) : cutBars depth cs ≠ [] := by
  induction cs generalizing depth with
  | nil => exact List.cons_ne_nil _ _
  | cons c cs ih =>
    rw [cutBars]
    repeat' split
    all_goals simp [ih]

theorem Passed.cutBars_eq (h : Passed depth a open_) (hs : Seam s) (ds : List Char) :
    cutBars depth (a ++ s :: ds) = glue (cutBars depth a) (cutBars open_ (s :: ds)) := by
  induction h with
  | nil =>
    rw [List.nil_append, cutBars]
    cases cutBars _ (s :: ds) <;> rfl
  | @opening _ _ c cs _ hopening _ ih =>
    rw [List.cons_append, cutBars, cutBars, (marks_append hs cs ds).1, hopening, Option.map_some, Option.isSome_some,
      Option.isSome_some, if_pos rfl, if_pos rfl, ih, glue_modifyHead (cutBars_ne_nil _ _)]
  | @closing depth _ c cs _ hopening hclosing _ ih =>
    rw [List.cons_append, cutBars, cutBars, (marks_append hs cs ds).1, (marks_append hs cs ds).2, hopening, hclosing]
    change (cutBars depth (cs ++ s :: ds)).modifyHead (c :: ·) = glue ((cutBars depth cs).modifyHead (c :: ·)) _
    rw [ih, glue_modifyHead (cutBars_ne_nil _ _)]
  | @other depth _ c cs hopening hclosing _ ih =>
    rw [List.cons_append, cutBars, cutBars, (marks_append hs cs ds).1, (marks_append hs cs ds).2, hopening, hclosing]
    simp only [Option.map_none, Option.isSome_none, if_neg Bool.false_ne_true]
    by_cases hbar : c = '|' ∧ depth = 0
    · obtain ⟨rfl, rfl⟩ := hbar
      obtain ⟨p, ps, hps⟩ := List.exists_cons_of_ne_nil (cutBars_ne_nil 0 cs)
      rw [if_pos ⟨rfl, rfl⟩, if_pos ⟨rfl, rfl⟩, ih, hps, glue]
    · rw [if_neg hbar, if_neg hbar, ih, glue_modifyHead (cutBars_ne_nil _ _)]

theorem seam_bar : Seam '|' := ⟨by decide +kernel, by decide +kernel⟩

theorem seam_blank : Seam ' ' := ⟨by decide +kernel, by decide +kernel⟩

theorem seam_brace : Seam '{' := ⟨by decide +kernel, by decide +kernel⟩

theorem cutBars_bar (ds : List Char) : cutBars 0 ('|' :: ds) = [] :: cutBars 0 ds := by
  have hopening : after? (openingOf "random") ('|' :: ds) = none := rfl
  have hclosing : after? (closingOf "random") ('|' :: ds) = none := rfl
  rw [cutBars, hopening, hclosing]
  rfl

theorem length_cutBars_eq_one_iff (h : Passed depth a open_) :
    (cutBars depth a).length = 1 ↔ ∀ before after, a = before ++ '|' :: after → ¬ Passed depth before 0 := by
  constructor
  · rintro hlength before after rfl hbefore
    have hcut := hbefore.cutBars_eq seam_bar after
    rw [cutBars_bar, glue_nil_cons (cutBars_ne_nil _ _)] at hcut
    have hfirst := List.length_pos_of_ne_nil (cutBars_ne_nil depth before)
    have hsecond := List.length_pos_of_ne_nil (cutBars_ne_nil 0 after)
    rw [hcut, List.length_append] at hlength
    omega
  · intro hbars
    induction h with
    | nil => rfl
    | @opening _ _ c cs _ hopening _ ih =>
      rw [cutBars, hopening, Option.isSome_some, if_pos rfl, List.length_modifyHead]
      refine ih fun before after hcs hbefore => hbars (c :: before) after (congrArg _ hcs) ?_
      subst hcs
      obtain ⟨_, hmark, -⟩ := Option.map_eq_some_iff.mp ((marks_append seam_bar before after).1.symm.trans hopening)
      exact .opening hmark hbefore
    | @closing depth _ c cs _ hopening hclosing _ ih =>
      rw [cutBars, hopening, hclosing]
      change ((cutBars depth cs).modifyHead (c :: ·)).length = 1
      rw [List.length_modifyHead]
      refine ih fun before after hcs hbefore => hbars (c :: before) after (congrArg _ hcs) ?_
      subst hcs
      obtain ⟨hopening', hclosing'⟩ := marks_append seam_bar (c := c) before after
      obtain ⟨_, hmark, -⟩ := Option.map_eq_some_iff.mp (hclosing'.symm.trans hclosing)
      exact .closing (Option.map_eq_none_iff.mp (hopening'.symm.trans hopening)) hmark hbefore
    | @other depth _ c cs hopening hclosing _ ih =>
      have hbar : ¬ (c = '|' ∧ depth = 0) := by
        rintro ⟨rfl, rfl⟩
        exact hbars [] cs rfl (.nil 0)
      rw [cutBars, hopening, hclosing]
      simp only [Option.isSome_none, if_neg Bool.false_ne_true, if_neg hbar]
      rw [List.length_modifyHead]
      refine ih fun before after hcs hbefore => hbars (c :: before) after (congrArg _ hcs) ?_
      subst hcs
      obtain ⟨hopening', hclosing'⟩ := marks_append seam_bar (c := c) before after
      exact .other (Option.map_eq_none_iff.mp (hopening'.symm.trans hopening))
        (Option.map_eq_none_iff.mp (hclosing'.symm.trans hclosing)) hbefore

/-- The pieces that a text is cut into at bars make up the text. -/
theorem intercalate_cutBars (depth : ℕ) (cs : List Char) : ['|'].intercalate (cutBars depth cs) = cs := by
  have hhead : ∀ {ps : List (List Char)} (c : Char), ps ≠ [] →
      ['|'].intercalate (ps.modifyHead (c :: ·)) = c :: ['|'].intercalate ps := by
    intro ps c hne
    match ps with
    | [] => exact absurd rfl hne
    | [p] => rfl
    | p :: p' :: ps => rfl
  induction cs generalizing depth with
  | nil => rfl
  | cons c cs ih =>
    have hrest : ∀ depth, ['|'].intercalate ((cutBars depth cs).modifyHead (c :: ·)) = c :: cs := fun depth => by
      rw [hhead c (cutBars_ne_nil depth cs), ih]
    rw [cutBars]
    split
    · exact hrest _
    · split
      · exact hrest _
      · split
        · rename_i hbar
          have hcut := ih 0
          obtain ⟨p, ps, hps⟩ := List.exists_cons_of_ne_nil (cutBars_ne_nil 0 cs)
          rw [hps] at hcut ⊢
          rw [List.intercalate_cons_cons, hcut, hbar.1]
          rfl
        · exact hrest _

theorem cutBars_of_length {cs : List Char} (h : (cutBars depth cs).length = 1) : cutBars depth cs = [cs] := by
  obtain ⟨p, hp⟩ := List.length_eq_one_iff.mp h
  have hcut := intercalate_cutBars depth cs
  rw [hp, List.intercalate_singleton] at hcut
  rw [hp, hcut]

end Paired

/-! ## Joined texts -/

section Joined

variable {as : List (List Char)}

theorem Passed.joined {s : Char} (hs : Seam s) (hmark : s ≠ '{') (h : ∀ a ∈ as, Passed 0 a 0) :
    Passed 0 ([s].intercalate as) 0 := by
  induction as with
  | nil => exact .nil 0
  | cons a as ih =>
    obtain ⟨ha, has⟩ := List.forall_mem_cons.mp h
    cases as with
    | nil => rwa [List.intercalate_singleton]
    | cons b as =>
      rw [List.intercalate_cons_cons, List.append_assoc, List.singleton_append]
      exact ha.append hs (.other (if_neg hmark.symm) (if_neg hmark.symm) (ih has))

theorem cutBars_joined (hne : as ≠ []) (h : ∀ a ∈ as, Passed 0 a 0) :
    cutBars 0 (['|'].intercalate as) = as.flatMap (cutBars 0) := by
  induction as with
  | nil => exact absurd rfl hne
  | cons a as ih =>
    obtain ⟨ha, has⟩ := List.forall_mem_cons.mp h
    cases as with
    | nil => rw [List.intercalate_singleton, List.flatMap_singleton]
    | cons b as =>
      rw [List.intercalate_cons_cons, List.append_assoc, List.singleton_append, ha.cutBars_eq seam_bar, cutBars_bar,
        glue_nil_cons (cutBars_ne_nil _ _), ih (List.cons_ne_nil _ _) has]
      rfl

theorem cutBars_blank (ds : List Char) : cutBars 0 (' ' :: ds) = (cutBars 0 ds).modifyHead (' ' :: ·) := by
  have hopening : after? (openingOf "random") (' ' :: ds) = none := rfl
  have hclosing : after? (closingOf "random") (' ' :: ds) = none := rfl
  rw [cutBars, hopening, hclosing]
  rfl

theorem cutBars_spaced (h : ∀ a ∈ as, Passed 0 a 0 ∧ cutBars 0 a = [a]) :
    cutBars 0 ([' '].intercalate as) = [[' '].intercalate as] := by
  induction as with
  | nil => rfl
  | cons a as ih =>
    obtain ⟨⟨ha, hcut⟩, has⟩ := List.forall_mem_cons.mp h
    cases as with
    | nil => rwa [List.intercalate_singleton]
    | cons b as =>
      rw [List.intercalate_cons_cons, List.append_assoc, List.singleton_append, ha.cutBars_eq seam_blank, hcut,
        cutBars_blank, ih has]
      rfl

theorem outerBar_spaced (h : ∀ a ∈ as, Passed 0 a 0) (hbar : ∃ a ∈ as, OuterBar a) : OuterBar ([' '].intercalate as) := by
  induction as with
  | nil =>
    obtain ⟨a, ha, -⟩ := hbar
    cases ha
  | cons a as ih =>
    obtain ⟨ha, has⟩ := List.forall_mem_cons.mp h
    cases as with
    | nil =>
      obtain ⟨a', ha', hbar⟩ := hbar
      rw [List.intercalate_singleton, ← List.mem_singleton.mp ha']
      exact hbar
    | cons b as =>
      rw [List.intercalate_cons_cons, List.append_assoc, List.singleton_append]
      obtain ⟨a', ha', hbar⟩ := hbar
      rcases List.mem_cons.mp ha' with rfl | hmem
      · obtain ⟨before, after, rfl, hbefore⟩ := hbar
        exact ⟨before, after ++ ' ' :: [' '].intercalate (b :: as), by simp, hbefore⟩
      · obtain ⟨before, after, hrest, hbefore⟩ := ih has ⟨a', hmem, hbar⟩
        refine ⟨a ++ ' ' :: before, after, by simp [hrest], openRandoms_eq_some_iff.mpr ?_⟩
        have hblank : Passed 0 (' ' :: before) 0 := .other rfl rfl (openRandoms_eq_some_iff.mp hbefore)
        exact ha.append seam_blank hblank

end Joined

section Pieces

variable {α β : Type} {f : α → List β} {l : List α}

theorem length_le_length_flatMap (h : ∀ a ∈ l, f a ≠ []) : l.length ≤ (l.flatMap f).length := by
  induction l with
  | nil => exact Nat.le_refl _
  | cons a l ih =>
    obtain ⟨ha, hl⟩ := List.forall_mem_cons.mp h
    have := List.length_pos_of_ne_nil ha
    have := ih hl
    rw [List.flatMap_cons, List.length_append, List.length_cons]
    omega

/-- Lists none of which is empty have as many members as they are only if each has one. -/
theorem length_eq_one_of_flatMap (h : ∀ a ∈ l, f a ≠ []) (hlength : (l.flatMap f).length = l.length) :
    ∀ a ∈ l, (f a).length = 1 := by
  induction l with
  | nil => exact List.forall_mem_nil _
  | cons a l ih =>
    obtain ⟨ha, hl⟩ := List.forall_mem_cons.mp h
    have := List.length_pos_of_ne_nil ha
    have := length_le_length_flatMap hl
    rw [List.flatMap_cons, List.length_append, List.length_cons] at hlength
    exact List.forall_mem_cons.mpr ⟨by omega, ih hl (by omega)⟩

end Pieces

/-! ## Replies -/

def randomized (body : String) : String := "\x7brandom\x7d" ++ body ++ "\x7b/random\x7d"

theorem tag?_randomized {body : String} (h : RandomsPaired body.toList) :
    tag? (randomized body).toList = some (.random body.toList, []) := by
  have hlist : (randomized body).toList = openingOf "random" ++ (body.toList ++ closingOf "random") := by
    rw [randomized, String.toList_append, String.toList_append, List.append_assoc]
    rfl
  have hbody : blockBody? "random" 0 (body.toList ++ closingOf "random") = some (body.toList, []) := by
    have hclosing := @blockBody?_closing "random" List.mem_cons_self []
    rw [List.append_nil, closingOf_eq] at hclosing
    rw [closingOf_eq, (openRandoms_eq_some_iff.mp h).blockBody?_eq seam_brace, hclosing, Option.map_some, prependAll,
      List.append_nil]
  have hblock : blockTag? "random" .random .random (randomized body).toList = some (.random body.toList, []) := by
    rw [hlist, blockTag?, after?_append]
    dsimp only
    rw [hbody]
  have hweight : weightTag? (randomized body).toList = none := by
    rw [hlist]
    rfl
  rw [tag?_of_brace (by rw [hlist]; rfl), braceTag?, hweight, hblock]
  rfl

theorem single_random_iff {body : String} {pss : List (List Piece)} (h : RandomsPaired body.toList) :
    Single (randomized body) (.random pss) ↔ ∃ reads,
      (alternatives body.toList).mapM (readPieces (randomized body) []) = .ok reads ∧ reads.map (·.1) = pss := by
  rw [single_iff_meaning (tag?_randomized h), Tag.meaning]
  constructor
  · intro ⟨_, hmeaning⟩
    obtain ⟨reads, hreads, heq⟩ := bind_eq_ok.mp hmeaning
    cases heq
    exact ⟨reads, hreads, rfl⟩
  · rintro ⟨reads, hreads, rfl⟩
    exact ⟨none, bind_eq_ok.mpr ⟨reads, hreads, rfl⟩⟩

theorem alternatives_of_length {body : List Char} (h : 2 ≤ (cutBars 0 body).length) : alternatives body = cutBars 0 body := by
  rw [alternatives]
  split
  · rename_i heq
    rw [heq] at h
    simp at h
  · rfl

theorem mapM_readPieces {as : List String} {ts : List Template} (h : List.Forall₂ (fun a t => read a = .ok t) as ts)
    (whole : String) : ∃ reads, (as.map String.toList).mapM (readPieces whole []) = .ok reads ∧
      reads.map (·.1) = ts.map (·.pieces) := by
  induction h with
  | nil => exact ⟨[], rfl, rfl⟩
  | @cons a t as ts ha _ ih =>
    obtain ⟨reads, hreads, hpieces⟩ := ih
    obtain ⟨weight, hread⟩ := exists_readPieces ha whole
    refine ⟨(t.pieces, weight) :: reads, ?_, ?_⟩
    · rw [List.map_cons, List.mapM_cons, hread, hreads]
      rfl
    · rw [List.map_cons, List.map_cons, hpieces]

/-- As many alternatives are read as there are. -/
theorem length_alternatives {body : String} {pss : List (List Piece)} (h : RandomsPaired body.toList)
    (hsingle : Single (randomized body) (.random pss)) : (alternatives body.toList).length = pss.length := by
  obtain ⟨reads, hreads, rfl⟩ := (single_random_iff h).mp hsingle
  have hlength := congrArg List.length (mapM_eq_ok.mp hreads)
  rw [List.length_map, List.length_map] at hlength
  rw [hlength, List.length_map]

section Replies

variable {as : List String} {ts : List Template}

/-- The alternatives of texts whose random blocks are paired, and which of the texts are cut at no bar. -/
theorem passed_of_paired (hpaired : ∀ a ∈ as, RandomsPaired a.toList) : ∀ cs ∈ as.map String.toList, Passed 0 cs 0 := by
  intro cs hcs
  obtain ⟨a, ha, rfl⟩ := List.mem_map.mp hcs
  exact openRandoms_eq_some_iff.mp (hpaired a ha)

theorem length_cutBars_iff {a : String} (h : RandomsPaired a.toList) :
    (cutBars 0 a.toList).length = 1 ↔ ¬ OuterBar a.toList := by
  rw [length_cutBars_eq_one_iff (openRandoms_eq_some_iff.mp h)]
  constructor
  · rintro hbars ⟨before, after, heq, hbefore⟩
    exact hbars before after heq (openRandoms_eq_some_iff.mp hbefore)
  · intro hnone before after heq hbefore
    exact hnone ⟨before, after, heq, openRandoms_eq_some_iff.mpr hbefore⟩

/-- If each text is cut into pieces by itself, the alternatives are the texts exactly if none of them is cut. -/
theorem single_iff_of_flatMap (hread : List.Forall₂ (fun a t => read a = .ok t) as ts) {body : String}
    (hpaired : RandomsPaired body.toList) {cut : List Char → List (List Char)}
    (hcut : alternatives body.toList = as.flatMap fun a => cut a.toList) (hne : ∀ a ∈ as, cut a.toList ≠ [])
    (hone : ∀ a ∈ as, (cut a.toList).length = 1 → cut a.toList = [a.toList]) :
    Single (randomized body) (.random (ts.map (·.pieces))) ↔ ∀ a ∈ as, (cut a.toList).length = 1 := by
  constructor
  · intro hsingle
    have hlength := length_alternatives hpaired hsingle
    rw [hcut, List.length_map, ← List.Forall₂.length_eq hread] at hlength
    exact length_eq_one_of_flatMap hne hlength
  · intro hall
    have hwhole : alternatives body.toList = as.map String.toList := by
      rw [hcut, ← List.flatMap_singleton' (as.map String.toList), List.flatMap_map]
      exact List.flatMap_congr fun a ha => hone a ha (hall a ha)
    rw [single_random_iff hpaired, hwhole]
    exact mapM_readPieces hread _

theorem single_barred_iff (hread : List.Forall₂ (fun a t => read a = .ok t) as ts)
    (hpaired : ∀ a ∈ as, RandomsPaired a.toList) (htwo : 2 ≤ as.length) :
    Single (randomized ("|".intercalate as)) (.random (ts.map (·.pieces))) ↔ ∀ a ∈ as, ¬ OuterBar a.toList := by
  have hpassed := passed_of_paired hpaired
  have hlist : ("|".intercalate as).toList = ['|'].intercalate (as.map String.toList) := String.toList_intercalate
  have hbody : RandomsPaired ("|".intercalate as).toList := by
    rw [hlist]
    exact openRandoms_eq_some_iff.mpr (Passed.joined seam_bar (by decide) hpassed)
  have hcut : cutBars 0 ("|".intercalate as).toList = as.flatMap fun a => cutBars 0 a.toList := by
    have hne : as.map String.toList ≠ [] := by
      rintro heq
      rw [List.map_eq_nil_iff.mp heq, List.length_nil] at htwo
      omega
    rw [hlist, cutBars_joined hne hpassed, List.flatMap_map]
  have hne : ∀ a ∈ as, cutBars 0 a.toList ≠ [] := fun a _ => cutBars_ne_nil 0 a.toList
  have hlength : 2 ≤ (cutBars 0 ("|".intercalate as).toList).length := by
    rw [hcut]
    exact Nat.le_trans htwo (length_le_length_flatMap hne)
  rw [single_iff_of_flatMap hread hbody ((alternatives_of_length hlength).trans hcut) hne fun a _ => cutBars_of_length]
  exact forall₂_congr fun a ha => length_cutBars_iff (hpaired a ha)

theorem single_spaced_iff (hread : List.Forall₂ (fun a t => read a = .ok t) as ts)
    (hpaired : ∀ a ∈ as, RandomsPaired a.toList) (hplain : ∀ a ∈ as, a ≠ "" ∧ trimmed a = a ∧ ¬ OuterBar a.toList) :
    Single (randomized (" ".intercalate as)) (.random (ts.map (·.pieces))) ↔
      ∀ a ∈ as, ∀ c ∈ a.toList, isBlank c = false := by
  have hlist : (" ".intercalate as).toList = [' '].intercalate (as.map String.toList) := String.toList_intercalate
  have hbody : RandomsPaired (" ".intercalate as).toList := by
    rw [hlist]
    exact openRandoms_eq_some_iff.mpr (Passed.joined seam_blank (by decide) (passed_of_paired hpaired))
  have huncut : ∀ cs ∈ as.map String.toList, Passed 0 cs 0 ∧ cutBars 0 cs = [cs] := by
    intro cs hcs
    refine ⟨passed_of_paired hpaired cs hcs, ?_⟩
    obtain ⟨a, ha, rfl⟩ := List.mem_map.mp hcs
    exact cutBars_of_length ((length_cutBars_iff (hpaired a ha)).mpr (hplain a ha).2.2)
  have hwords : alternatives (" ".intercalate as).toList = as.flatMap fun a => words a.toList := by
    rw [hlist, alternatives, cutBars_spaced huncut]
    dsimp only
    rw [words_intercalate (by decide), List.flatMap_map]
  have hends : ∀ a ∈ as, a.toList ≠ [] ∧ trim a.toList = a.toList := by
    intro a ha
    refine ⟨fun hnil => (hplain a ha).1 (String.toList_eq_nil_iff.mp hnil), ?_⟩
    rw [← String.toList_ofList (l := trim a.toList)]
    exact congrArg String.toList (hplain a ha).2.1
  rw [single_iff_of_flatMap hread hbody hwords (fun a ha => words_ne_nil_of_trim (hends a ha).1 (hends a ha).2)
    fun a ha hone => words_eq_singleton (hends a ha).1 ((length_words_eq_one_iff (hends a ha).1 (hends a ha).2).mp hone)]
  exact forall₂_congr fun a ha => length_words_eq_one_iff (hends a ha).1 (hends a ha).2

/-- Where a bar counts, no blank does. -/
theorem alternatives_spaced_ne (hpaired : ∀ a ∈ as, RandomsPaired a.toList) (hbar : ∃ a ∈ as, OuterBar a.toList) :
    alternatives (" ".intercalate as).toList ≠ as.map String.toList := by
  have hpassed := passed_of_paired hpaired
  have hlist : (" ".intercalate as).toList = [' '].intercalate (as.map String.toList) := String.toList_intercalate
  have hbody : OuterBar ([' '].intercalate (as.map String.toList)) := by
    obtain ⟨a, ha, hbar⟩ := hbar
    exact outerBar_spaced hpassed ⟨a.toList, List.mem_map_of_mem ha, hbar⟩
  have htwo : 2 ≤ (cutBars 0 ([' '].intercalate (as.map String.toList))).length := by
    obtain ⟨before, after, heq, hbefore⟩ := hbody
    have hone := length_cutBars_eq_one_iff (Passed.joined seam_blank (by decide) hpassed)
    have hpos := List.length_pos_of_ne_nil (cutBars_ne_nil 0 ([' '].intercalate (as.map String.toList)))
    have hne : (cutBars 0 ([' '].intercalate (as.map String.toList))).length ≠ 1 := fun hlength =>
      hone.mp hlength before after heq (openRandoms_eq_some_iff.mp hbefore)
    omega
  rw [hlist, alternatives_of_length htwo]
  intro hcut
  have hjoined := intercalate_cutBars 0 ([' '].intercalate (as.map String.toList))
  rw [hcut] at hjoined htwo
  -- The pieces would be joined by bars and by blanks to the same text.
  match as, htwo, hjoined with
  | a :: b :: as, _, hjoined =>
    rw [List.map_cons, List.map_cons, List.intercalate_cons_cons, List.intercalate_cons_cons, List.append_assoc,
      List.append_assoc, List.append_cancel_left_eq] at hjoined
    cases hjoined

end Replies

/-- Texts with bars between them are the alternatives exactly if each bar in them stands in a random block of
theirs. If so, texts with blanks between them are the alternatives exactly if no blank stands in them; if not,
the block is cut into other texts. -/
theorem read_alternatives {as : List String} {ts : List Template} (hread : List.Forall₂ (fun a t => read a = .ok t) as ts)
    (hpaired : ∀ a ∈ as, RandomsPaired a.toList) :
    (2 ≤ as.length → (Single (randomized ("|".intercalate as)) (.random (ts.map (·.pieces))) ↔
      ∀ a ∈ as, ¬ OuterBar a.toList)) ∧
    ((∀ a ∈ as, a ≠ "" ∧ trimmed a = a ∧ ¬ OuterBar a.toList) →
      (Single (randomized (" ".intercalate as)) (.random (ts.map (·.pieces))) ↔
        ∀ a ∈ as, ∀ c ∈ a.toList, isBlank c = false)) ∧
    ((∃ a ∈ as, OuterBar a.toList) → alternatives (" ".intercalate as).toList ≠ as.map String.toList) :=
  ⟨single_barred_iff hread hpaired, single_spaced_iff hread hpaired, alternatives_spaced_ne hpaired⟩

theorem read_alternatives_inner_random : ∃ as ts, (List.Forall₂ (fun a t => read a = .ok t) as ts ∧
    ∀ a ∈ as, RandomsPaired a.toList) ∧ 2 ≤ as.length ∧ (∀ a ∈ as, a ≠ "" ∧ trimmed a = a ∧ ¬ OuterBar a.toList) ∧
    Single (randomized ("|".intercalate as)) (.random (ts.map (·.pieces))) ∧
    Single (randomized (" ".intercalate as)) (.random (ts.map (·.pieces))) := by
  have hinner : wellNested true true [.random [[.text "hi"], [.text "yo"]]] := by
    simp only [wellNested, Piece.WellNested, alternativesWellNested, Piece.isText, List.head?_nil, Option.any_none,
      Bool.and_false, true_and, and_true]
    decide +kernel
  have hread : List.Forall₂ (fun a t => read a = .ok t) ["\x7brandom\x7dhi|yo\x7b/random\x7d", "you"] _ :=
    .cons (read_of_printPieces hinner (by decide +kernel))
      (.cons (read_untagged rfl (by decide) rfl (by decide +kernel)) .nil)
  have hall : ∀ a ∈ ["\x7brandom\x7dhi|yo\x7b/random\x7d", "you"],
      RandomsPaired a.toList ∧ (cutBars 0 a.toList).length = 1 ∧ a ≠ "" ∧ trimmed a = a := by decide +kernel
  have hblanks : ∀ a ∈ ["\x7brandom\x7dhi|yo\x7b/random\x7d", "you"], ∀ c ∈ a.toList, isBlank c = false :=
    List.forall_mem_cons.mpr ⟨forall_of_all (by decide +kernel), List.forall_mem_singleton.mpr (forall_of_all (by decide +kernel))⟩
  have hbars := fun a ha => (length_cutBars_iff (hall a ha).1).mp (hall a ha).2.1
  have hplain := fun a ha => And.intro (hall a ha).2.2.1 (And.intro (hall a ha).2.2.2 (hbars a ha))
  obtain ⟨hbarred, hspaced, -⟩ := read_alternatives hread fun a ha => (hall a ha).1
  exact ⟨_, _, ⟨hread, fun a ha => (hall a ha).1⟩, by decide, hplain, (hbarred (by decide)).mpr hbars,
    (hspaced hplain).mpr hblanks⟩

theorem read_cut_at_bar : read "\x7brandom\x7d<set x=a|b>|c\x7b/random\x7d" = .ok
    { source := "\x7brandom\x7d<set x=a|b>|c\x7b/random\x7d"
      pieces := [.random [[.text "<set x=a"], [.text "b>"], [.text "c"]]]
      weight := 0 } := by
  have hsingle : Single (randomized "<set x=a|b>|c") (.random [[.text "<set x=a"], [.text "b>"], [.text "c"]]) := by
    have halternatives : alternatives "<set x=a|b>|c".toList = ["<set x=a".toList, "b>".toList, "c".toList] := by
      decide +kernel
    rw [single_random_iff (by decide +kernel), halternatives]
    refine ⟨[([.text "<set x=a"], none), ([.text "b>"], none), ([.text "c"], none)], mapM_eq_ok.mpr ?_, rfl⟩
    rw [List.map_cons, List.map_cons, List.map_cons, readPieces_untagged rfl (by decide) rfl (by decide +kernel),
      readPieces_untagged rfl (by decide) rfl (by decide +kernel), readPieces_untagged rfl (by decide) rfl (by decide +kernel)]
    rfl
  exact hsingle

theorem read_cut_at_blank : read "\x7brandom\x7d\x7bformal\x7da b\x7b/formal\x7d c\x7b/random\x7d" =
    .error (.unclosed .casing "\x7brandom\x7d\x7bformal\x7da b\x7b/formal\x7d c\x7b/random\x7d") := by
  have halternatives : alternatives "\x7bformal\x7da b\x7b/formal\x7d c".toList =
      ["\x7bformal\x7da".toList, "b\x7b/formal\x7d".toList, "c".toList] := by decide +kernel
  have hunclosed : tag? "\x7bformal\x7da".toList = some (.unclosed .casing, []) := rfl
  have htag : tag? "\x7brandom\x7d\x7bformal\x7da b\x7b/formal\x7d c\x7b/random\x7d".toList =
      some (.random "\x7bformal\x7da b\x7b/formal\x7d c".toList, []) := rfl
  rw [read, readPieces_tag htag, Tag.meaning, halternatives, List.mapM_cons, readPieces_tag hunclosed]
  rfl

/-- A tag with a bar in it is cut in two, and so is one with a blank in it. -/
theorem tags_are_cut_at_bars_and_blanks :
    (read "<set x=a|b>" = .ok { source := "<set x=a|b>", pieces := [.set "x" [.text "a|b"]], weight := 0 } ∧
      read "\x7brandom\x7d<set x=a|b>|c\x7b/random\x7d" = .ok
        { source := "\x7brandom\x7d<set x=a|b>|c\x7b/random\x7d"
          pieces := [.random [[.text "<set x=a"], [.text "b>"], [.text "c"]]]
          weight := 0 }) ∧
    (read "\x7bformal\x7da b\x7b/formal\x7d" = .ok
        { source := "\x7bformal\x7da b\x7b/formal\x7d", pieces := [.recase .formal [.text "a b"]], weight := 0 } ∧
      read "\x7brandom\x7d\x7bformal\x7da b\x7b/formal\x7d c\x7b/random\x7d" =
        .error (.unclosed .casing "\x7brandom\x7d\x7bformal\x7da b\x7b/formal\x7d c\x7b/random\x7d")) := by
  have hset : Single "<set x=a|b>" (.set "x" [.text "a|b"]) := by
    have htag : tag? "<set x=a|b>".toList = some (.set "x" "a|b".toList, []) := rfl
    refine (single_iff_meaning htag).mpr ⟨none, ?_⟩
    rw [Tag.meaning, readPieces_untagged rfl (by decide) rfl (by decide +kernel)]
    rfl
  have hformal : wellNested true true [.recase .formal [.text "a b"]] := by
    simp only [wellNested, Piece.WellNested, Piece.isText, List.head?_nil, Option.any_none, Bool.and_false, true_and,
      and_true]
    decide +kernel
  exact ⟨⟨hset, read_cut_at_bar⟩, read_of_printPieces hformal (by decide +kernel), read_cut_at_blank⟩

end Repartee.Template
