/-
  Repartee.Proofs.Respelling.Texts — one text in two spellings.

  The tag `<@>` is short for `{@<star>}`. The long form has braces of its own, so the two are
  interchangeable only where no brace is awaited: a redirect, topic or weight tag reaches from
  its opening to the next closing brace, whatever stands between. Blanks may be added at the end
  of the text besides.

  Proved:
  - A text that begins with a fixed string does so in both spellings (`after?_alike_of_plain`,
    `Foreign.after?_alike`), and up to an awaited brace there is one spelling only (`cutBrace_within`).
  - Cutting, trimming and splitting a text cut, trim and split both spellings alike
    (`cutAt_alike`, `Respelled.trim`, `words_alike`).
-/

import Mathlib.Data.List.Forall2
import Mathlib.Data.Option.Basic
import Repartee.Template.Tag

namespace Repartee.Template

open Text
open Unicode (isBlank)

/-- What the tags begin with that reach to the next closing brace. -/
def bracedStarts : List (List Char) := ["\x7bweight=".toList, "\x7b@".toList, "\x7btopic=".toList]

def startsBraced (cs : List Char) : Bool := bracedStarts.any fun start => (after? start cs).isSome

/-- Whether a closing brace is awaited after the first character. -/
def awaits (within : Bool) (cs : List Char) : Bool :=
  match cs with
  | '}' :: _ => false
  | cs => within || startsBraced cs

/-- The second text is the first with some `<@>` written out, where no closing brace is awaited, and
with blanks at its end. -/
inductive Respelled (pad : List Char) : Bool → List Char → List Char → Prop
  | pad {within : Bool} : Respelled pad within [] pad
  | keep {within : Bool} {c : Char} {l l' : List Char} : Respelled pad (awaits within (c :: l)) l l' →
      Respelled pad within (c :: l) (c :: l')
  | redirect {l l' : List Char} : Respelled pad false l l' →
      Respelled pad false ('<' :: '@' :: '>' :: l)
        ('{' :: '@' :: '<' :: 's' :: 't' :: 'a' :: 'r' :: '>' :: '}' :: l')

section Awaits

variable {c : Char} {l p start : List Char} {within : Bool}

theorem after?_of_begins {rest : List Char} (hp : p <+: l) (h : after? start p = some rest) :
    (after? start l).isSome = true := by
  induction start generalizing p l with
  | nil => rfl
  | cons s start ih =>
    cases p with
    | nil => cases h
    | cons c p =>
      obtain ⟨l, rfl, hrest⟩ := List.cons_prefix_iff.mp hp
      rw [after?] at h ⊢
      by_cases hs : s = c
      · rw [if_pos hs] at h ⊢
        exact ih hrest h
      · rw [if_neg hs] at h
        cases h

theorem startsBraced_of_begins (hp : p <+: l) (h : startsBraced p = true) : startsBraced l = true := by
  rw [startsBraced, List.any_eq_true] at h ⊢
  obtain ⟨start, hmem, hstart⟩ := h
  obtain ⟨rest, hrest⟩ := Option.isSome_iff_exists.mp hstart
  exact ⟨start, hmem, after?_of_begins hp hrest⟩

theorem awaits_of_ne (h : c ≠ '}') : awaits within (c :: l) = (within || startsBraced (c :: l)) := by
  unfold awaits
  split
  · rename_i heq
    cases heq
    exact absurd rfl h
  · rfl

/-- The less is awaited the less has been read. -/
theorem awaits_mono {within' : Bool} (hp : p <+: l) (hw : within' = true → within = true)
    (h : awaits within' (c :: p) = true) : awaits within (c :: l) = true := by
  by_cases hc : c = '}'
  · subst hc
    exact h
  · rw [awaits_of_ne hc, Bool.or_eq_true] at h ⊢
    rcases h with h | h
    · exact .inl (hw h)
    · exact .inr (startsBraced_of_begins (List.cons_prefix_cons.mpr ⟨rfl, hp⟩) h)

end Awaits

namespace Respelled

variable {pad l l' : List Char} {within within' : Bool}

theorem mono (h : Respelled pad within l l') (hw : within' = true → within = true) : Respelled pad within' l l' := by
  induction h generalizing within' with
  | pad => exact .pad
  | keep h ih => exact .keep (ih (awaits_mono List.prefix_rfl hw))
  | redirect h ih =>
    cases within' with
    | false => exact .redirect h
    | true => exact absurd (hw rfl) (by decide)

theorem free (h : Respelled pad within l l') : Respelled pad false l l' := h.mono nofun

/-- A text is a spelling of itself. -/
theorem padded (pad l : List Char) (within : Bool) : Respelled pad within l (l ++ pad) := by
  induction l generalizing within with
  | nil => exact .pad
  | cons c l ih => exact .keep (ih _)

theorem refl (l : List Char) (within : Bool) : Respelled [] within l l := by
  have h := padded [] l within
  rwa [List.append_nil] at h

/-- A character before both texts, of which the first may have been cut short. -/
theorem cons_of_begins {c : Char} {p p' : List Char} (hp : p <+: l) (h : Respelled pad (awaits within (c :: l)) p p') :
    Respelled pad within (c :: p) (c :: p') :=
  .keep (h.mono (awaits_mono hp id))

theorem eq_nil_iff (h : Respelled [] within l l') : l' = [] ↔ l = [] := by
  cases h with
  | pad => rfl
  | keep h => simp
  | redirect h => simp

/-- Where the spellings differ, the marks of a tag are seen in both. -/
theorem eq_or_mem (h : Respelled [] within l l') : l' = l ∨ '<' ∈ l ∧ '@' ∈ l ∧ '{' ∈ l' ∧ '@' ∈ l' := by
  induction h with
  | pad => exact .inl rfl
  | keep h ih =>
    rcases ih with rfl | ⟨h₁, h₂, h₃, h₄⟩
    · exact .inl rfl
    · exact .inr ⟨.tail _ h₁, .tail _ h₂, .tail _ h₃, .tail _ h₄⟩
  | redirect h => exact .inr (by simp)

end Respelled

/-! ## Fixed strings -/

theorem rel_map {α β γ δ : Type} {R : α → β → Prop} {S : γ → δ → Prop} {f : α → γ} {g : β → δ} {o : Option α}
    {o' : Option β} (hRS : ∀ a b, R a b → S (f a) (g b)) (h : Option.Rel R o o') :
    Option.Rel S (o.map f) (o'.map g) := by
  cases h with
  | none => exact .none
  | some hR => exact .some (hRS _ _ hR)

theorem rel_cases {α β : Type} {R : α → β → Prop} {o : Option α} {o' : Option β} (h : Option.Rel R o o') :
    o = none ∧ o' = none ∨ ∃ a b, o = some a ∧ o' = some b ∧ R a b := by
  cases h with
  | none => exact .inl ⟨rfl, rfl⟩
  | some h => exact .inr ⟨_, _, rfl, rfl, h⟩

theorem rel_imp {α β : Type} {R S : α → β → Prop} {o : Option α} {o' : Option β} (hRS : ∀ a b, R a b → S a b)
    (h : Option.Rel R o o') : Option.Rel S o o' := by
  cases h with
  | none => exact .none
  | some hR => exact .some (hRS _ _ hR)

theorem after?_append (start rest : List Char) : after? start (start ++ rest) = some rest := by
  induction start with
  | nil => rfl
  | cons c start ih => exact (if_pos rfl).trans ih

/-- What is true of each of some characters, tried one by one. -/
theorem forall_of_all {l : List Char} {p : Char → Prop} [DecidablePred p] (h : l.all (fun c => decide (p c)) = true) :
    ∀ c ∈ l, p c := by
  simpa using h

section After

variable {pad l l' q : List Char} {within : Bool} (hpad : ∀ c ∈ pad, isBlank c = true)

include hpad

theorem after?_pad {x : Char} (hx : isBlank x = false) (q : List Char) : after? (x :: q) pad = none := by
  cases pad with
  | nil => rfl
  | cons c pad =>
    have hne : x ≠ c := by
      rintro rfl
      rw [hpad x List.mem_cons_self] at hx
      cases hx
    rw [after?, if_neg hne]

/-- A string in which no tag and no blank begins. A brace that is awaited before it stays awaited if it has
none. -/
theorem after?_alike_of_plain (hq : ∀ c ∈ q, c ≠ '<' ∧ c ≠ '{' ∧ isBlank c = false) (h : Respelled pad within l l') :
    Option.Rel (Respelled pad (within && !q.contains '}')) (after? q l) (after? q l') := by
  induction q generalizing within l l' with
  | nil => exact .some (h.mono (by simp))
  | cons x q ih =>
    obtain ⟨⟨hangle, hbrace, hblank⟩, hq⟩ := List.forall_mem_cons.mp hq
    cases h with
    | pad =>
      rw [after?_pad hpad hblank]
      exact .none
    | @keep _ c l l' h =>
      rw [after?, after?]
      by_cases hx : x = c
      · subst hx
        rw [if_pos rfl, if_pos rfl]
        refine rel_imp (fun rest rest' hrest => hrest.mono fun hw => ?_) (ih hq h)
        rw [List.contains_cons, Bool.not_or, ← Bool.and_assoc, Bool.and_eq_true, Bool.and_eq_true] at hw
        obtain ⟨⟨hwithin, hne⟩, hq⟩ := hw
        have hx : x ≠ '}' := by
          rintro rfl
          cases hne
        rw [awaits_of_ne hx, hwithin, Bool.true_or, Bool.true_and, hq]
      · rw [if_neg hx, if_neg hx]
        exact .none
    | redirect h =>
      rw [after?, after?, if_neg hangle, if_neg hbrace]
      exact .none

end After

/-- The characters of both spellings of the tag. -/
def tagChars : List Char := ['<', '@', '>', '{', 's', 't', 'a', 'r', '}']

/-- A tag that redirects to the first capture. -/
def shortTag : List Char := ['<', '@', '>']

/-- The same tag written out. -/
def longTag : List Char := ['{', '@', '<', 's', 't', 'a', 'r', '>', '}']

/-- The string `p` begins at no place of a text that `l` follows. -/
def Absent (p l : List Char) : List Char → Prop
  | [] => True
  | c :: mark => after? p (c :: (mark ++ l)) = none ∧ Absent p l mark

/-- A string that begins at no place in either spelling of the tag. -/
structure Foreign (p : List Char) : Prop where
  start : ∃ x y q, p = x :: y :: q ∧ (x = '{' ∧ y ≠ '@' ∨ x = '<' ∧ y ≠ '@' ∧ y ≠ 's' ∨ x = '=')
  tail : ∀ c ∈ p.tail, c ≠ '<' ∧ c ≠ '{' ∧ isBlank c = false

namespace Foreign

variable {p : List Char} (hp : Foreign p)

include hp

theorem short (l : List Char) : Absent p l shortTag := by
  obtain ⟨x, y, q, rfl, ⟨rfl, hy⟩ | ⟨rfl, hy, -⟩ | rfl⟩ := hp.start
  · simp [Absent, shortTag, after?]
  · simp [Absent, shortTag, after?, hy]
  · simp [Absent, shortTag, after?]

theorem long (l : List Char) : Absent p l longTag := by
  obtain ⟨x, y, q, rfl, ⟨rfl, hy⟩ | ⟨rfl, -, hy⟩ | rfl⟩ := hp.start
  · simp [Absent, longTag, after?, hy]
  · simp [Absent, longTag, after?, hy]
  · simp [Absent, longTag, after?]

variable {pad l l' : List Char} {within : Bool} (hpad : ∀ c ∈ pad, isBlank c = true)

include hpad

theorem blank : after? p pad = none := by
  obtain ⟨x, y, q, rfl, hx⟩ := hp.start
  refine after?_pad hpad ?_ _
  rcases hx with ⟨rfl, -⟩ | ⟨rfl, -⟩ | rfl
  · decide
  · decide
  · decide

theorem after?_alike (h : Respelled pad within l l') : Option.Rel (Respelled pad false) (after? p l) (after? p l') := by
  cases h with
  | pad =>
    rw [hp.blank (List.forall_mem_nil _), hp.blank hpad]
    exact .none
  | @keep _ c l l' h =>
    obtain ⟨x, y, q, rfl, -⟩ := hp.start
    rw [after?, after?]
    by_cases hx : x = c
    · rw [if_pos hx, if_pos hx]
      exact rel_imp (fun _ _ => Respelled.free) (after?_alike_of_plain hpad hp.tail h)
    · rw [if_neg hx, if_neg hx]
      exact .none
  | @redirect l l' h =>
    have hl : after? p ('<' :: '@' :: '>' :: l) = none := (hp.short l).1
    have hl' : after? p ('{' :: '@' :: '<' :: 's' :: 't' :: 'a' :: 'r' :: '>' :: '}' :: l') = none := (hp.long l').1
    rw [hl, hl']
    exact .none

end Foreign

/-! ## Cuts -/

/-- Put a text in front of the first of two pieces. -/
def prependAll (mark : List Char) (pieces : List Char × List Char) : List Char × List Char :=
  (mark ++ pieces.1, pieces.2)

theorem map_prependAll_nil (found : Option (List Char × List Char)) : found.map (prependAll []) = found := by
  cases found <;> rfl

theorem map_prepend_prependAll (c : Char) (mark : List Char) (found : Option (List Char × List Char)) :
    (found.map (prependAll mark)).map (prepend c) = found.map (prependAll (c :: mark)) := by
  rw [Option.map_map]
  rfl

/-- Both texts are cut at corresponding places or both are not. -/
def CutAlike (pad : List Char) (within : Bool) (l : List Char) :
    Option (List Char × List Char) → Option (List Char × List Char) → Prop :=
  Option.Rel fun found found' =>
    found.1 <+: l ∧ Respelled [] within found.1 found'.1 ∧ Respelled pad false found.2 found'.2

namespace CutAlike

variable {pad l l' : List Char} {within : Bool} {found found' : Option (List Char × List Char)}

theorem here {c : Char} (h : Respelled pad (awaits within (c :: l)) l l') :
    CutAlike pad within (c :: l) (some ([], l)) (some ([], l')) :=
  .some ⟨List.nil_prefix, .pad, h.free⟩

theorem prepend {c : Char} (h : CutAlike pad (awaits within (c :: l)) l found found') :
    CutAlike pad within (c :: l) (found.map (Text.prepend c)) (found'.map (Text.prepend c)) :=
  rel_map (fun _ _ ⟨hbegins, hbefore, hafter⟩ =>
    ⟨List.cons_prefix_cons.mpr ⟨rfl, hbegins⟩, hbefore.cons_of_begins hbegins, hafter⟩) h

/-- A cut after the tag. -/
theorem redirect (h : CutAlike pad false l found found') :
    CutAlike pad false (shortTag ++ l) (found.map (prependAll shortTag)) (found'.map (prependAll longTag)) :=
  rel_map (fun _ _ ⟨hbegins, hbefore, hafter⟩ =>
    ⟨(List.prefix_append_right_inj shortTag).mpr hbegins, .redirect hbefore, hafter⟩) h

end CutAlike

section Cuts

variable {pad l l' : List Char} {within : Bool}

theorem cutOnce_cons (p : Char → Bool) (c : Char) (cs : List Char) :
    cutOnce p (c :: cs) = if p c then some ([], cs) else (cutOnce p cs).map (prepend c) := by
  by_cases hc : p c = true
  · simp [cutOnce, hc]
  · simp only [cutOnce, List.dropWhile_cons, List.takeWhile_cons, hc, Bool.not_false, if_true, Bool.false_eq_true, if_false]
    cases cs.dropWhile (!p ·) with
    | nil => rfl
    | cons d rest => rfl

/-- What holds no cut goes before it. -/
theorem cutOnce_append {p : Char → Bool} {mark : List Char} (h : ∀ c ∈ mark, p c = false) (cs : List Char) :
    cutOnce p (mark ++ cs) = (cutOnce p cs).map (prependAll mark) := by
  induction mark with
  | nil => rw [List.nil_append, map_prependAll_nil]
  | cons c mark ih =>
    rw [List.forall_mem_cons] at h
    rw [List.cons_append, cutOnce_cons, h.1, ih h.2, map_prepend_prependAll]
    rfl

theorem cutOnce_eq {p : Char → Bool} {before : List Char} {c : Char} (h : ∀ d ∈ before, p d = false) (hc : p c = true)
    (rest : List Char) : cutOnce p (before ++ c :: rest) = some (before, rest) := by
  rw [cutOnce_append h, cutOnce_cons, if_pos hc, Option.map_some, prependAll, List.append_nil]

theorem cutAt_append {p l mark : List Char} (h : Absent p l mark) :
    cutAt p (mark ++ l) = (cutAt p l).map (prependAll mark) := by
  induction mark with
  | nil => rw [List.nil_append, map_prependAll_nil]
  | cons c mark ih => rw [List.cons_append, cutAt, h.1, ih h.2, map_prepend_prependAll]

theorem cutOnce_of_forall {p : Char → Bool} {cs : List Char} (h : ∀ c ∈ cs, p c = false) : cutOnce p cs = none := by
  induction cs with
  | nil => rfl
  | cons c cs ih =>
    rw [List.forall_mem_cons] at h
    rw [cutOnce_cons, h.1, ih h.2]
    rfl

/-- Up to the closing brace that is awaited there is one spelling. -/
theorem cutBrace_within (hpad : ∀ c ∈ pad, isBlank c = true) (h : Respelled pad true l l') :
    Option.Rel (fun found found' => found'.1 = found.1 ∧ Respelled pad false found.2 found'.2)
      (cutOnce (· == '}') l) (cutOnce (· == '}') l') := by
  -- On the first text only: a tag is not written out where a brace is awaited.
  induction l generalizing l' with
  | nil =>
    cases h with
    | pad =>
      have hnone : ∀ c ∈ pad, (c == '}') = false := by
        intro c hc
        rw [beq_eq_false_iff_ne]
        rintro rfl
        cases hpad _ hc
      rw [cutOnce_of_forall hnone]
      exact .none
  | cons c l ih =>
    cases h with
    | @keep _ _ _ l' h =>
      rw [cutOnce_cons, cutOnce_cons]
      by_cases hc : c = '}'
      · subst hc
        exact .some ⟨rfl, h⟩
      · rw [awaits_of_ne hc, Bool.true_or] at h
        rw [if_neg (by simpa using hc), if_neg (by simpa using hc)]
        exact rel_map (fun _ _ ⟨hbefore, hafter⟩ => ⟨by rw [prepend, prepend, hbefore], hafter⟩) (ih h)

theorem cutOnce_alike {p : Char → Bool} (hp : ∀ c ∈ tagChars, p c = false) (h : Respelled [] within l l') :
    CutAlike [] within l (cutOnce p l) (cutOnce p l') := by
  induction h with
  | pad => exact .none
  | @keep within c l l' h ih =>
    rw [cutOnce_cons, cutOnce_cons]
    by_cases hc : p c = true
    · rw [if_pos hc, if_pos hc]
      exact .here h
    · rw [if_neg hc, if_neg hc]
      exact ih.prepend
  | redirect h ih =>
    have hshort : ∀ c ∈ shortTag, p c = false := fun c hc => hp c (forall_of_all (by decide) c hc)
    have hlong : ∀ c ∈ longTag, p c = false := fun c hc => hp c (forall_of_all (by decide) c hc)
    change CutAlike _ _ _ (cutOnce p (shortTag ++ _)) (cutOnce p (longTag ++ _))
    rw [cutOnce_append hshort, cutOnce_append hlong]
    exact ih.redirect

theorem cutAt_alike {p : List Char} (hp : Foreign p) (hpad : ∀ c ∈ pad, isBlank c = true) (h : Respelled pad within l l') :
    CutAlike pad within l (cutAt p l) (cutAt p l') := by
  induction h with
  | pad =>
    have hnone : ∀ l : List Char, (∀ c ∈ l, isBlank c = true) → cutAt p l = none := by
      intro l hl
      induction l with
      | nil => rw [cutAt, hp.blank (List.forall_mem_nil _)]; rfl
      | cons c l ih => rw [cutAt, hp.blank hl, ih (List.forall_mem_cons.mp hl).2]; rfl
    rw [hnone [] (List.forall_mem_nil _), hnone _ hpad]
    exact .none
  | @keep within c l l' h ih =>
    rw [cutAt, cutAt]
    rcases rel_cases (hp.after?_alike hpad (.keep h)) with ⟨hl, hl'⟩ | ⟨rest, rest', hl, hl', hrest⟩
    · rw [hl, hl']
      exact ih.prepend
    · rw [hl, hl']
      exact .some ⟨List.nil_prefix, .pad, hrest⟩
  | @redirect l l' h ih =>
    change CutAlike _ _ _ (cutAt p (shortTag ++ l)) (cutAt p (longTag ++ l'))
    rw [cutAt_append (hp.short l), cutAt_append (hp.long l')]
    exact ih.redirect

end Cuts

/-! ## Trimming and splitting -/

theorem dropEndWhile_cons (p : Char → Bool) (c : Char) (cs : List Char) :
    dropEndWhile p (c :: cs) = if p c = true ∧ dropEndWhile p cs = [] then [] else c :: dropEndWhile p cs := by
  rw [dropEndWhile, dropEndWhile, List.reverse_cons, List.dropWhile_append]
  by_cases hnil : cs.reverse.dropWhile p = []
  · by_cases hc : p c = true
    · simp [hnil, hc]
    · simp [hnil, hc]
  · simp [hnil]

theorem dropEndWhile_append_of_forall {p : Char → Bool} {mark : List Char} (h : ∀ c ∈ mark, p c = false) (cs : List Char) :
    dropEndWhile p (mark ++ cs) = mark ++ dropEndWhile p cs := by
  induction mark with
  | nil => rfl
  | cons c mark ih =>
    rw [List.forall_mem_cons] at h
    rw [List.cons_append, dropEndWhile_cons, h.1, ih h.2, if_neg fun hc => Bool.false_ne_true hc.1, List.cons_append]

theorem dropEndWhile_begins (p : Char → Bool) (cs : List Char) : dropEndWhile p cs <+: cs := by
  have h := List.dropWhile_suffix (l := cs.reverse) p
  rw [← List.reverse_prefix, List.reverse_reverse] at h
  exact h

section Splitting

variable {l l' : List Char} {within : Bool}

namespace Respelled

theorem trimStart (h : Respelled [] within l l') : Respelled [] false (Text.trimStart l) (Text.trimStart l') := by
  induction h with
  | pad => exact .pad
  | @keep within c l l' h ih =>
    rw [Text.trimStart, Text.trimStart, List.dropWhile_cons, List.dropWhile_cons]
    by_cases hc : isBlank c = true
    · rw [if_pos hc, if_pos hc]
      exact ih
    · rw [if_neg hc, if_neg hc]
      exact (keep h).free
  | redirect h => exact .redirect h

theorem trimEnd (h : Respelled [] within l l') :
    Respelled [] within (dropEndWhile isBlank l) (dropEndWhile isBlank l') := by
  induction h with
  | pad => exact .pad
  | @keep within c l l' h ih =>
    simp only [dropEndWhile_cons, ih.eq_nil_iff]
    split
    · exact .pad
    · exact ih.cons_of_begins (dropEndWhile_begins isBlank l)
  | @redirect l l' h ih =>
    change Respelled _ _ (dropEndWhile isBlank (shortTag ++ l)) (dropEndWhile isBlank (longTag ++ l'))
    rw [dropEndWhile_append_of_forall (forall_of_all (by decide)), dropEndWhile_append_of_forall (forall_of_all (by decide))]
    exact .redirect ih

theorem trim (h : Respelled [] within l l') : Respelled [] false (Text.trim l) (Text.trim l') := h.trimStart.trimEnd

theorem takeWord (h : Respelled [] within l l') :
    Respelled [] within (l.takeWhile (!isBlank ·)) (l'.takeWhile (!isBlank ·)) := by
  induction h with
  | pad => exact .pad
  | @keep within c l l' h ih =>
    rw [List.takeWhile_cons, List.takeWhile_cons]
    split
    · exact ih.cons_of_begins (List.takeWhile_prefix _)
    · exact .pad
  | redirect h ih => exact .redirect ih

theorem dropWord (h : Respelled [] within l l') :
    Respelled [] false (l.dropWhile (!isBlank ·)) (l'.dropWhile (!isBlank ·)) := by
  induction h with
  | pad => exact .pad
  | @keep within c l l' h ih =>
    rw [List.dropWhile_cons, List.dropWhile_cons]
    split
    · exact ih
    · exact (keep h).free
  | redirect h ih => exact ih

theorem contains_eq {c : Char} (hc : c ∉ tagChars) (h : Respelled [] within l l') : l'.contains c = l.contains c := by
  induction h with
  | pad => rfl
  | keep h ih => rw [List.contains_cons, List.contains_cons, ih]
  | redirect h ih =>
    have hne : ∀ d ∈ tagChars, (c == d) = false := by
      intro d hd
      rw [beq_eq_false_iff_ne]
      rintro rfl
      exact hc hd
    simp only [tagChars, List.forall_mem_cons] at hne
    simp only [List.contains_cons, hne, Bool.false_or, ih]

end Respelled

/-- Both texts are cut into corresponding parts, the first of them at the beginning. -/
inductive PartsAlike (within : Bool) (l : List Char) : List (List Char) → List (List Char) → Prop
  | cons {p p' : List Char} {ps ps' : List (List Char)} : p <+: l → Respelled [] within p p' →
      List.Forall₂ (Respelled [] false) ps ps' → PartsAlike within l (p :: ps) (p' :: ps')

namespace PartsAlike

variable {ps ps' : List (List Char)}

theorem forall₂ (h : PartsAlike within l ps ps') : List.Forall₂ (Respelled [] false) ps ps' := by
  cases h with
  | cons _ hp hps => exact .cons hp.free hps

theorem next {c : Char} (h : PartsAlike (awaits within (c :: l)) l ps ps') :
    PartsAlike within (c :: l) ([] :: ps) ([] :: ps') :=
  .cons List.nil_prefix .pad h.forall₂

theorem more {c : Char} (h : PartsAlike (awaits within (c :: l)) l ps ps') :
    PartsAlike within (c :: l) (ps.modifyHead (c :: ·)) (ps'.modifyHead (c :: ·)) := by
  cases h with
  | cons hbegins hp hps => exact .cons (List.cons_prefix_cons.mpr ⟨rfl, hbegins⟩) (hp.cons_of_begins hbegins) hps

theorem redirect (h : PartsAlike false l ps ps') :
    PartsAlike false (shortTag ++ l) (ps.modifyHead (shortTag ++ ·)) (ps'.modifyHead (longTag ++ ·)) := by
  cases h with
  | cons hbegins hp hps => exact .cons ((List.prefix_append_right_inj shortTag).mpr hbegins) (.redirect hp) hps

end PartsAlike

theorem modifyHead_cons_append (c : Char) (mark : List Char) (ps : List (List Char)) :
    (ps.modifyHead (mark ++ ·)).modifyHead (c :: ·) = ps.modifyHead (c :: mark ++ ·) := by
  cases ps <;> rfl

theorem fields_append_of_forall {p : Char → Bool} {mark : List Char} (h : ∀ c ∈ mark, p c = false) (cs : List Char) :
    fields p (mark ++ cs) = (fields p cs).modifyHead (mark ++ ·) := by
  induction mark with
  | nil => cases hcs : fields p cs <;> rw [List.nil_append, hcs] <;> rfl
  | cons c mark ih =>
    rw [List.forall_mem_cons] at h
    rw [List.cons_append, fields, h.1, ih h.2, if_neg Bool.false_ne_true, modifyHead_cons_append]

theorem fields_alike (h : Respelled [] within l l') : PartsAlike within l (fields isBlank l) (fields isBlank l') := by
  induction h with
  | pad => exact .cons List.nil_prefix .pad .nil
  | @keep within c l l' h ih =>
    rw [fields, fields]
    split
    · exact ih.next
    · exact ih.more
  | @redirect l l' h ih =>
    change PartsAlike _ _ (fields isBlank (shortTag ++ l)) (fields isBlank (longTag ++ l'))
    rw [fields_append_of_forall (forall_of_all (by decide)), fields_append_of_forall (forall_of_all (by decide))]
    exact ih.redirect

theorem words_alike (h : Respelled [] within l l') : List.Forall₂ (Respelled [] false) (words l) (words l') := by
  rw [words, words]
  refine List.rel_filter (fun a b hab => ?_) (fields_alike h).forall₂
  simp [hab.eq_nil_iff]

end Splitting

end Repartee.Template
