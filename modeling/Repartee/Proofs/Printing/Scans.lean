/-
  Repartee.Proofs.Printing.Scans — where tags end in a text whose tags are all closed.

  Every kind of tag looks for its end in its own way: angle brackets are counted, a block counts
  the blocks of its name, a redirect or topic ends at the next closing brace, a call at the next
  `</call>`, an alternative at the next bar outside inner random blocks. A `Marked` text is put
  together from plain characters and closed tags. No search ends in it: after such a text each goes
  on as before it.

  Proved:
  - Every search passes over a marked text (`Marked.passes_angleBody?`, `Marked.passes_blockBody?`,
    `Marked.passes_cutBars`, `Marked.passes_cutAt`), and one without tags in braces holds no closing
    brace (`Marked.brace_not_mem`).
  - So each finds the end that stands behind it (`Marked.angleBody?_eq`, `Marked.blockBody?_eq`,
    `Marked.cutBars_eq`, `Marked.cutAt_eq`).
-/

import Repartee.Proofs.Respelling.Tags

namespace Repartee.Template

open Text

/-- The characters that are read as marks somewhere in a reply. -/
def markChars : List Char := ['\\', '{', '}', '<', '>', '|']

/-- Characters that stand for themselves in a reply, wherever they stand. -/
def isPlain (c : Char) : Bool := !markChars.contains c

def callOpening : List Char := "<call>".toList

def callClosing : List Char := "</call>".toList

/-- A text whose tags are all closed. The flags say what may stand in it: bars outside random blocks,
calls, and tags in braces. -/
inductive Marked : (bars calls braces : Bool) → List Char → Prop
  | nil {bars calls braces : Bool} : Marked bars calls braces []
  | append {bars calls braces : Bool} {l l' : List Char} : Marked bars calls braces l → Marked bars calls braces l' →
      Marked bars calls braces (l ++ l')
  | plain {bars calls braces : Bool} {c : Char} : isPlain c = true → Marked bars calls braces [c]
  | bar {calls braces : Bool} : Marked true calls braces ['|']
  | angled {bars calls braces : Bool} {c : Char} {inside : List Char} : isPlain c = true → c ≠ '/' →
      Marked false calls braces inside → Marked bars calls braces (['<', c] ++ inside ++ ['>'])
  | call {bars braces : Bool} {line : List Char} : Marked false false braces line →
      Marked bars true braces (callOpening ++ line ++ callClosing)
  | braced {bars calls : Bool} {start inside : List Char} : start ∈ bracedStarts → Marked false calls false inside →
      Marked bars calls true (start ++ inside ++ ['}'])
  | block {bars calls : Bool} {name : String} {body : List Char} : name ∈ blockNames →
      Marked (name == "random") calls true body → Marked bars calls true (openingOf name ++ body ++ closingOf name)

/-! ## Passing over a text -/

/-- How text goes in front of what a search finds. -/
structure Front (α : Type) where
  put : List Char → α → α
  put_nil : ∀ found, put [] found = found
  put_append : ∀ mark mark' found, put (mark ++ mark') found = put mark (put mark' found)

/-- In front of the first of two pieces. -/
def Front.cut : Front (Option (List Char × List Char)) where
  put mark found := found.map (prependAll mark)
  put_nil := map_prependAll_nil
  put_append mark mark' found := by
    cases found with
    | none => rfl
    | some pieces => rw [Option.map_some, Option.map_some, Option.map_some, prependAll, List.append_assoc]; rfl

/-- In front of the first of all pieces. -/
def Front.parts : Front (List (List Char)) where
  put mark parts := parts.modifyHead (mark ++ ·)
  put_nil parts := by cases parts <;> rfl
  put_append mark mark' parts := by
    cases parts with
    | nil => rfl
    | cons part parts => rw [List.modifyHead_cons, List.modifyHead_cons, List.modifyHead_cons, List.append_assoc]

/-- Over a mark the search `f` goes on as `g`: it finds what `g` finds after it, with the mark in front. -/
def Passes {α : Type} (F : Front α) (f g : List Char → α) (mark : List Char) : Prop :=
  ∀ rest, f (mark ++ rest) = F.put mark (g rest)

namespace Passes

variable {α : Type} {F : Front α} {f g k : List Char → α} {mark mark' inside : List Char}

theorem nil : Passes F f f [] := fun rest => (F.put_nil (f rest)).symm

theorem append (h : Passes F f g mark) (h' : Passes F g k mark') : Passes F f k (mark ++ mark') := fun rest => by
  rw [List.append_assoc, h, h', F.put_append]

/-- Over a tag that is entered by one mark and left by another. -/
theorem tag (hopen : Passes F f g mark) (hinside : Passes F g g inside) (hclose : Passes F g f mark') :
    Passes F f f (mark ++ inside ++ mark') :=
  (hopen.append hinside).append hclose

theorem of_forall (h : ∀ c ∈ mark, Passes F f f [c]) : Passes F f f mark := by
  induction mark with
  | nil => exact nil
  | cons c mark ih =>
    obtain ⟨hc, hmark⟩ := List.forall_mem_cons.mp h
    exact hc.append (ih hmark)

theorem found {f g : List Char → Option (List Char × List Char)} {rest after : List Char} (h : Passes .cut f g mark)
    (hg : g rest = some ([], after)) : f (mark ++ rest) = some (mark, after) := by
  rw [h, hg]
  exact congrArg (fun before => some (before, after)) (List.append_nil mark)

end Passes

theorem ne_of_isPlain {c d : Char} (hc : isPlain c = true) (hd : isPlain d = false) : c ≠ d := by
  rintro rfl
  cases hc.symm.trans hd

theorem not_mem_of_isPlain {c d : Char} (hc : isPlain c = true) (hd : isPlain d = false) : d ∉ [c] := fun hmem =>
  ne_of_isPlain hc hd (List.mem_singleton.mp hmem).symm

/-! ## Angle brackets -/

theorem passes_angleBody?_of_ne {c : Char} (hopen : c ≠ '<') (hclose : c ≠ '>') (depth : Nat) :
    Passes .cut (angleBody? depth) (angleBody? depth) [c] := by
  intro rest
  change angleBody? depth (c :: rest) = _
  simp only [angleBody?, if_neg hopen, if_neg hclose]
  rfl

theorem passes_angleBody?_of_not_mem {mark : List Char} (h : '<' ∉ mark ∧ '>' ∉ mark) (depth : Nat) :
    Passes .cut (angleBody? depth) (angleBody? depth) mark :=
  .of_forall fun _ hc => passes_angleBody?_of_ne (ne_of_mem_of_not_mem hc h.1) (ne_of_mem_of_not_mem hc h.2) depth

theorem passes_opening (depth : Nat) : Passes .cut (angleBody? depth) (angleBody? (depth + 1)) ['<'] := fun _ => rfl

theorem passes_closing (depth : Nat) : Passes .cut (angleBody? (depth + 1)) (angleBody? depth) ['>'] := fun _ => rfl

/-- No angle bracket stands in a mark of a tag in braces. -/
theorem marks_without_angle :
    (∀ start ∈ bracedStarts, '<' ∉ start ∧ '>' ∉ start) ∧
      ∀ name ∈ blockNames, ('<' ∉ openingOf name ∧ '>' ∉ openingOf name) ∧ '<' ∉ closingOf name ∧ '>' ∉ closingOf name := by
  decide

theorem Marked.passes_angleBody? {bars calls braces : Bool} {l : List Char} (h : Marked bars calls braces l) (depth : Nat) :
    Passes .cut (angleBody? depth) (angleBody? depth) l := by
  induction h generalizing depth with
  | nil => exact .nil
  | append _ _ ih ih' => exact (ih depth).append (ih' depth)
  | plain hc => exact passes_angleBody?_of_ne (ne_of_isPlain hc (by decide)) (ne_of_isPlain hc (by decide)) depth
  | bar => exact passes_angleBody?_of_ne (by decide) (by decide) depth
  | angled hc _ _ ih =>
    have hname := passes_angleBody?_of_ne (ne_of_isPlain hc (by decide)) (ne_of_isPlain hc (by decide)) (depth + 1)
    exact .tag ((passes_opening depth).append hname) (ih (depth + 1)) (passes_closing depth)
  | call _ ih =>
    have hname : ∀ word : List Char, '<' ∉ word ∧ '>' ∉ word →
        Passes .cut (angleBody? depth) (angleBody? depth) (['<'] ++ word ++ ['>']) := fun word hword =>
      .tag (passes_opening depth) (passes_angleBody?_of_not_mem hword (depth + 1)) (passes_closing depth)
    exact .tag (hname "call".toList (by decide)) (ih depth) (hname "/call".toList (by decide))
  | braced hstart _ ih =>
    exact .tag (passes_angleBody?_of_not_mem (marks_without_angle.1 _ hstart) depth) (ih depth)
      (passes_angleBody?_of_ne (by decide) (by decide) depth)
  | block hname _ ih =>
    obtain ⟨hopen, hclose⟩ := marks_without_angle.2 _ hname
    exact .tag (passes_angleBody?_of_not_mem hopen depth) (ih depth) (passes_angleBody?_of_not_mem hclose depth)

theorem Marked.angleBody?_eq {bars calls braces : Bool} {inside : List Char} (h : Marked bars calls braces inside)
    (rest : List Char) : angleBody? 0 (inside ++ '>' :: rest) = some (inside, rest) :=
  (h.passes_angleBody? 0).found rfl

/-! ## Blocks -/

theorem openingOf_eq (name : String) : openingOf name = '{' :: (name.toList ++ ['}']) := by
  rw [openingOf, String.toList_append, String.toList_append]
  rfl

theorem closingOf_eq (name : String) : closingOf name = '{' :: '/' :: (name.toList ++ ['}']) := by
  rw [closingOf, String.toList_append, String.toList_append]
  rfl

/-- No mark of the block `name` begins in a text, whatever follows it. -/
def Unmarked (name : String) (mark : List Char) : Prop :=
  ∀ rest, Absent (openingOf name) rest mark ∧ Absent (closingOf name) rest mark

theorem unmarked_of_not_mem (name : String) {mark : List Char} (h : '{' ∉ mark) : Unmarked name mark := by
  intro rest
  induction mark with
  | nil => exact ⟨trivial, trivial⟩
  | cons c mark ih =>
    rw [List.mem_cons, not_or] at h
    obtain ⟨hc, hmark⟩ := h
    obtain ⟨hopen, hclose⟩ := ih hmark
    have hnone : ∀ p : List Char, after? ('{' :: p) (c :: (mark ++ rest)) = none := fun p => if_neg hc
    exact ⟨⟨openingOf_eq name ▸ hnone _, hopen⟩, ⟨closingOf_eq name ▸ hnone _, hclose⟩⟩

section Names

variable {name name' : String} {start : List Char} (hname : name ∈ blockNames)

include hname

theorem unmarked_start (hstart : start ∈ bracedStarts) : Unmarked name start := by
  intro rest
  simp only [blockNames, recaseNames, bracedStarts, List.map_cons, List.map_nil, List.mem_cons, List.not_mem_nil, or_false]
    at hname hstart
  rcases hname with rfl | rfl | rfl | rfl | rfl
  all_goals
    rcases hstart with rfl | rfl | rfl
    all_goals exact ⟨by simp [Absent, openingOf, after?], by simp [Absent, closingOf, after?]⟩

theorem unmarked_block (hname' : name' ∈ blockNames) (hne : name ≠ name') :
    Unmarked name (openingOf name') ∧ Unmarked name (closingOf name') := by
  simp only [blockNames, recaseNames, List.map_cons, List.map_nil, List.mem_cons, List.not_mem_nil, or_false]
    at hname hname'
  rcases hname with rfl | rfl | rfl | rfl | rfl
  all_goals
    rcases hname' with rfl | rfl | rfl | rfl | rfl
    all_goals first
      | exact absurd rfl hne
      | exact ⟨fun rest => ⟨by simp [Absent, openingOf, after?], by simp [Absent, openingOf, closingOf, after?]⟩,
          fun rest => ⟨by simp [Absent, openingOf, closingOf, after?], by simp [Absent, closingOf, after?]⟩⟩

theorem after?_opening_of_closing (rest : List Char) : after? (openingOf name) (closingOf name ++ rest) = none := by
  simp only [blockNames, recaseNames, List.map_cons, List.map_nil, List.mem_cons, List.not_mem_nil, or_false] at hname
  rcases hname with rfl | rfl | rfl | rfl | rfl
  all_goals rfl

end Names

theorem passes_blockBody?_of_unmarked {name : String} {mark : List Char} (h : Unmarked name mark) (depth : Nat) :
    Passes .cut (blockBody? name depth) (blockBody? name depth) mark := fun rest =>
  blockBody?_append (h rest).1 (h rest).2 depth

theorem passes_cutBars_of_unmarked {mark : List Char} (h : Unmarked "random" mark) (hbar : '|' ∉ mark) (depth : Nat) :
    Passes .parts (cutBars depth) (cutBars depth) mark := fun rest =>
  cutBars_append (h rest).1 (h rest).2 hbar depth

/-- What follows the brace of a mark holds no brace that opens another. -/
theorem unmarked_name {name : String} (hname : name ∈ blockNames) :
    Unmarked name (name.toList ++ ['}']) ∧ Unmarked name ('/' :: (name.toList ++ ['}'])) := by
  have hfree : ∀ name ∈ blockNames, '{' ∉ '/' :: (name.toList ++ ['}']) := by decide
  have hname := hfree name hname
  exact ⟨unmarked_of_not_mem name fun hmem => hname (.tail _ hmem), unmarked_of_not_mem name hname⟩

section OwnMarks

variable {name : String} (hname : name ∈ blockNames) (depth : Nat)

include hname

theorem passes_blockBody?_opening : Passes .cut (blockBody? name depth) (blockBody? name (depth + 1)) (openingOf name) := by
  intro rest
  have hafter := after?_append (openingOf name) rest
  have hbehind := passes_blockBody?_of_unmarked (unmarked_name hname).1 (depth + 1) rest
  rw [openingOf_eq, List.cons_append] at hafter ⊢
  rw [blockBody?_cons, openingOf_eq, hafter, Option.isSome_some, if_pos rfl, hbehind]
  exact map_prepend_prependAll _ _ _

theorem passes_blockBody?_closing : Passes .cut (blockBody? name (depth + 1)) (blockBody? name depth) (closingOf name) := by
  intro rest
  have hopen := after?_opening_of_closing hname rest
  have hafter := after?_append (closingOf name) rest
  have hbehind := passes_blockBody?_of_unmarked (unmarked_name hname).2 depth rest
  rw [closingOf_eq, List.cons_append] at hopen hafter ⊢
  rw [blockBody?_cons, hopen, closingOf_eq, hafter, Option.isSome_none, if_neg Bool.false_ne_true]
  dsimp only
  rw [hbehind]
  exact map_prepend_prependAll _ _ _

theorem blockBody?_closing (rest : List Char) : blockBody? name 0 (closingOf name ++ rest) = some ([], rest) := by
  have hopen := after?_opening_of_closing hname rest
  have hafter := after?_append (closingOf name) rest
  rw [closingOf_eq, List.cons_append] at hopen hafter ⊢
  rw [blockBody?_cons, hopen, closingOf_eq, hafter, Option.isSome_none, if_neg Bool.false_ne_true]

end OwnMarks

/-- No bar stands in a mark of a tag in braces. -/
theorem marks_without_bar :
    (∀ start ∈ bracedStarts, '|' ∉ start) ∧ ∀ name ∈ blockNames, '|' ∉ openingOf name ∧ '|' ∉ closingOf name := by
  decide

theorem unmarked_call (name : String) : Unmarked name callOpening ∧ Unmarked name callClosing :=
  ⟨unmarked_of_not_mem name (by decide), unmarked_of_not_mem name (by decide)⟩

theorem unmarked_of_ne (name : String) {c : Char} (h : c ≠ '{') : Unmarked name [c] :=
  unmarked_of_not_mem name (by simpa using h.symm)

/-- The opening mark of a tag in angle brackets. -/
theorem unmarked_angled (name : String) {c : Char} (h : c ≠ '{') : Unmarked name ['<', c] :=
  unmarked_of_not_mem name (by simpa using h.symm)

theorem Marked.passes_blockBody? {bars calls braces : Bool} {l : List Char} (h : Marked bars calls braces l)
    {name : String} (hname : name ∈ blockNames) (depth : Nat) :
    Passes .cut (Template.blockBody? name depth) (Template.blockBody? name depth) l := by
  have hmark : ∀ {mark}, Unmarked name mark → ∀ depth,
      Passes .cut (Template.blockBody? name depth) (Template.blockBody? name depth) mark := passes_blockBody?_of_unmarked
  induction h generalizing depth with
  | nil => exact .nil
  | append _ _ ih ih' => exact (ih depth).append (ih' depth)
  | plain hc => exact hmark (unmarked_of_ne name (ne_of_isPlain hc (by decide))) depth
  | bar => exact hmark (unmarked_of_ne name (by decide)) depth
  | angled hc _ _ ih =>
    exact .tag (hmark (unmarked_angled name (ne_of_isPlain hc (by decide))) depth) (ih depth)
      (hmark (unmarked_of_ne name (by decide)) depth)
  | call _ ih => exact .tag (hmark (unmarked_call name).1 depth) (ih depth) (hmark (unmarked_call name).2 depth)
  | braced hstart _ ih =>
    exact .tag (hmark (unmarked_start hname hstart) depth) (ih depth) (hmark (unmarked_of_ne name (by decide)) depth)
  | @block _ _ name' _ hname' _ ih =>
    -- A block of the same name is counted and left again, one of another name does not show.
    by_cases heq : name = name'
    · subst heq
      exact .tag (passes_blockBody?_opening hname depth) (ih (depth + 1)) (passes_blockBody?_closing hname depth)
    · obtain ⟨hopen, hclose⟩ := unmarked_block hname hname' heq
      exact .tag (hmark hopen depth) (ih depth) (hmark hclose depth)

theorem Marked.blockBody?_eq {bars calls braces : Bool} {body : List Char} (h : Marked bars calls braces body)
    {name : String} (hname : name ∈ blockNames) (rest : List Char) :
    blockBody? name 0 (body ++ (closingOf name ++ rest)) = some (body, rest) :=
  (h.passes_blockBody? hname 0).found (blockBody?_closing hname rest)

/-! ## Bars -/

theorem passes_cutBars_opening (depth : Nat) :
    Passes .parts (cutBars depth) (cutBars (depth + 1)) (openingOf "random") := by
  intro rest
  have hafter := after?_append (openingOf "random") rest
  have hbehind := passes_cutBars_of_unmarked (unmarked_name List.mem_cons_self).1 (by decide) (depth + 1) rest
  rw [openingOf_eq, List.cons_append] at hafter ⊢
  rw [cutBars, openingOf_eq, hafter, Option.isSome_some, if_pos rfl, hbehind]
  exact modifyHead_cons_append _ _ _

theorem passes_cutBars_closing (depth : Nat) :
    Passes .parts (cutBars (depth + 1)) (cutBars depth) (closingOf "random") := by
  intro rest
  have hopen := after?_opening_of_closing List.mem_cons_self rest
  have hafter := after?_append (closingOf "random") rest
  have hbehind := passes_cutBars_of_unmarked (unmarked_name List.mem_cons_self).2 (by decide) depth rest
  rw [closingOf_eq, List.cons_append] at hopen hafter ⊢
  rw [cutBars, hopen, closingOf_eq, hafter, Option.isSome_none, if_neg Bool.false_ne_true, Option.isSome_some, if_pos rfl,
    Nat.add_sub_cancel, hbehind]
  exact modifyHead_cons_append _ _ _

theorem passes_cutBars_bar (depth : Nat) : Passes .parts (cutBars (depth + 1)) (cutBars (depth + 1)) ['|'] := fun _ => rfl

theorem Marked.passes_cutBars {bars calls braces : Bool} {l : List Char} (h : Marked bars calls braces l) (depth : Nat)
    (hbars : bars = true → 0 < depth) : Passes .parts (Template.cutBars depth) (Template.cutBars depth) l := by
  have hrandom : "random" ∈ blockNames := List.mem_cons_self
  have hmark : ∀ {mark}, Unmarked "random" mark → '|' ∉ mark → ∀ depth,
      Passes .parts (Template.cutBars depth) (Template.cutBars depth) mark := passes_cutBars_of_unmarked
  induction h generalizing depth with
  | nil => exact .nil
  | append _ _ ih ih' => exact (ih depth hbars).append (ih' depth hbars)
  | plain hc =>
    exact hmark (unmarked_of_ne _ (ne_of_isPlain hc (by decide))) (not_mem_of_isPlain hc (by decide)) depth
  | bar =>
    obtain ⟨depth, rfl⟩ := Nat.exists_eq_succ_of_ne_zero (Nat.ne_of_gt (hbars rfl))
    exact passes_cutBars_bar depth
  | @angled _ _ _ c _ hc _ _ ih =>
    have hbar : '|' ∉ ['<', c] := by simpa using (ne_of_isPlain hc (by decide)).symm
    exact .tag (hmark (unmarked_angled _ (ne_of_isPlain hc (by decide))) hbar depth) (ih depth (by simp))
      (hmark (unmarked_of_ne _ (by decide)) (by decide) depth)
  | call _ ih =>
    exact .tag (hmark (unmarked_call _).1 (by decide) depth) (ih depth (by simp))
      (hmark (unmarked_call _).2 (by decide) depth)
  | braced hstart _ ih =>
    exact .tag (hmark (unmarked_start hrandom hstart) (marks_without_bar.1 _ hstart) depth) (ih depth (by simp))
      (hmark (unmarked_of_ne _ (by decide)) (by decide) depth)
  | @block _ _ name _ hname _ ih =>
    -- The bars of an inner random block stand one level deeper, where there is no cut.
    by_cases heq : "random" = name
    · subst heq
      exact .tag (passes_cutBars_opening depth) (ih (depth + 1) fun _ => Nat.succ_pos depth) (passes_cutBars_closing depth)
    · obtain ⟨hopen, hclose⟩ := unmarked_block hrandom hname heq
      have hbody := ih depth fun h => absurd (beq_iff_eq.mp h).symm heq
      have hbar := marks_without_bar.2 _ hname
      exact .tag (hmark hopen hbar.1 depth) hbody (hmark hclose hbar.2 depth)

theorem Marked.cutBars_eq {calls braces : Bool} {l : List Char} (h : Marked false calls braces l) :
    cutBars 0 l = [l] ∧ ∀ rest, cutBars 0 (l ++ '|' :: rest) = l :: cutBars 0 rest := by
  have hpass := h.passes_cutBars 0 (by simp)
  constructor
  · have hend := hpass []
    rw [List.append_nil] at hend
    rw [hend]
    exact congrArg (fun part => [part]) (List.append_nil l)
  · intro rest
    rw [hpass]
    exact congrArg (fun part => part :: cutBars 0 rest) (List.append_nil l)

/-! ## Calls and braces -/

theorem passes_cutAt_of_ne {c : Char} (h : c ≠ '<') : Passes .cut (cutAt callClosing) (cutAt callClosing) [c] := by
  intro rest
  have hnone : after? callClosing (c :: rest) = none := if_neg h.symm
  change cutAt callClosing (c :: rest) = _
  rw [cutAt, hnone]
  rfl

theorem passes_cutAt_of_not_mem {mark : List Char} (h : '<' ∉ mark) :
    Passes .cut (cutAt callClosing) (cutAt callClosing) mark :=
  .of_forall fun _ hc => passes_cutAt_of_ne (ne_of_mem_of_not_mem hc h)

theorem passes_cutAt_angled {c : Char} (h : c ≠ '<') (hslash : c ≠ '/') :
    Passes .cut (cutAt callClosing) (cutAt callClosing) ['<', c] := by
  intro rest
  have hnone : after? callClosing ('<' :: c :: rest) = none := if_neg hslash.symm
  change cutAt callClosing ('<' :: c :: rest) = _
  rw [cutAt, hnone]
  dsimp only
  have hbehind := passes_cutAt_of_ne h rest
  rw [List.cons_append, List.nil_append] at hbehind
  rw [hbehind]
  exact map_prepend_prependAll _ _ _

theorem Marked.passes_cutAt {bars calls braces : Bool} {l : List Char} (h : Marked bars calls braces l)
    (hcalls : calls = false) : Passes .cut (Text.cutAt callClosing) (Text.cutAt callClosing) l := by
  induction h with
  | nil => exact .nil
  | append _ _ ih ih' => exact (ih hcalls).append (ih' hcalls)
  | plain hc => exact passes_cutAt_of_ne (ne_of_isPlain hc (by decide))
  | bar => exact passes_cutAt_of_ne (by decide)
  | angled hc hslash _ ih =>
    exact .tag (passes_cutAt_angled (ne_of_isPlain hc (by decide)) hslash) (ih hcalls) (passes_cutAt_of_ne (by decide))
  | call => cases hcalls
  | braced hstart _ ih =>
    exact .tag (passes_cutAt_of_not_mem (marks_without_angle.1 _ hstart).1) (ih hcalls) (passes_cutAt_of_ne (by decide))
  | block hname _ ih =>
    obtain ⟨hopen, hclose⟩ := marks_without_angle.2 _ hname
    exact .tag (passes_cutAt_of_not_mem hopen.1) (ih hcalls) (passes_cutAt_of_not_mem hclose.1)

theorem Marked.cutAt_eq {bars braces : Bool} {line : List Char} (h : Marked bars false braces line) (rest : List Char) :
    cutAt callClosing (line ++ (callClosing ++ rest)) = some (line, rest) :=
  (h.passes_cutAt rfl).found rfl

theorem Marked.brace_not_mem {bars calls braces : Bool} {l : List Char} (h : Marked bars calls braces l)
    (hbraces : braces = false) : '}' ∉ l := by
  induction h with
  | nil => exact List.not_mem_nil
  | append _ _ ih ih' => exact fun hmem => (List.mem_append.mp hmem).elim (ih hbraces) (ih' hbraces)
  | plain hc => exact not_mem_of_isPlain hc (by decide)
  | bar => decide
  | angled hc _ _ ih =>
    have hne := (ne_of_isPlain hc (d := '}') (by decide)).symm
    simp [hne, ih hbraces]
  | call _ ih =>
    have hmarks : '}' ∉ callOpening ∧ '}' ∉ callClosing := by decide
    simp [hmarks, ih hbraces]
  | braced => cases hbraces
  | block => cases hbraces

end Repartee.Template
