/-
  Repartee.Proofs.Respelling.Tags — the tags of one text in two spellings.

  Wherever a tag begins in one spelling it begins in the other, and what it holds is the same text
  in two spellings. The name of a tag and the name of a variable have no room for another tag, and
  up to an awaited brace there is one spelling, so only values, bodies and lines can differ.

  Proved:
  - Bodies of tags are cut alike (`angleBody?_alike`, `blockBody?_alike`, `alternatives_alike`).
  - The tag at the beginning of both texts is the same, but for what it holds (`tag?_alike`).
-/

import Repartee.Proofs.Respelling.Texts

namespace Repartee.Template

open Text
open Unicode (isBlank)

/-! ## Bodies -/

/-- The names of the tags that are closed by a tag of their own. -/
def blockNames : List String := "random" :: recaseNames.map (·.1)

theorem foreign_of_brace {p q : List Char} {y : Char} (hp : p = '{' :: y :: q) (hy : y ≠ '@')
    (hq : (y :: q).all (fun c => decide (c ≠ '<' ∧ c ≠ '{' ∧ isBlank c = false)) = true) : Foreign p := by
  subst hp
  exact ⟨⟨'{', y, q, rfl, .inl ⟨rfl, hy⟩⟩, forall_of_all hq⟩

theorem foreign_block {name : String} (h : name ∈ blockNames) : Foreign (openingOf name) ∧ Foreign (closingOf name) := by
  simp only [blockNames, recaseNames, List.map_cons, List.map_nil, List.mem_cons, List.not_mem_nil, or_false] at h
  rcases h with rfl | rfl | rfl | rfl | rfl
  all_goals exact ⟨foreign_of_brace rfl (by decide) (by decide), foreign_of_brace rfl (by decide) (by decide)⟩

theorem foreign_callEnd : Foreign "</call>".toList := ⟨⟨'<', '/', _, rfl, by decide⟩, forall_of_all (by decide)⟩

section Bodies

variable {pad l l' : List Char} {within : Bool}

theorem angleBody?_of_blank {l : List Char} (hl : ∀ c ∈ l, isBlank c = true) (depth : Nat) : angleBody? depth l = none := by
  induction l generalizing depth with
  | nil => rfl
  | cons c l ih =>
    obtain ⟨hc, hl⟩ := List.forall_mem_cons.mp hl
    have hopen : c ≠ '<' := by
      rintro rfl
      cases hc
    have hclose : c ≠ '>' := by
      rintro rfl
      cases hc
    simp only [angleBody?, if_neg hopen, if_neg hclose, ih hl, Option.map_none]

theorem angleBody?_alike (hpad : ∀ c ∈ pad, isBlank c = true) (h : Respelled pad within l l') (depth : Nat) :
    CutAlike pad within l (angleBody? depth l) (angleBody? depth l') := by
  induction h generalizing depth with
  | pad =>
    rw [angleBody?_of_blank hpad]
    exact .none
  | @keep within c l l' h ih =>
    simp only [angleBody?]
    split
    · exact (ih _).prepend
    · split
      · cases depth with
        | zero => exact .here h
        | succ depth => exact (ih _).prepend
      · exact (ih _).prepend
  | redirect h ih =>
    simp only [angleBody?, Char.reduceEq, if_true, if_false, Option.map_map]
    exact (ih depth).redirect

theorem blockBody?_cons (name : String) (depth : Nat) (c : Char) (cs : List Char) : blockBody? name depth (c :: cs) =
    if (after? (openingOf name) (c :: cs)).isSome then (blockBody? name (depth + 1) cs).map (prepend c)
    else
      match after? (closingOf name) (c :: cs), depth with
      | some rest, 0 => some ([], rest)
      | some _, depth + 1 => (blockBody? name depth cs).map (prepend c)
      | none, depth => (blockBody? name depth cs).map (prepend c) := (rfl)

theorem blockBody?_append {name : String} {l mark : List Char} (hopening : Absent (openingOf name) l mark)
    (hclosing : Absent (closingOf name) l mark) (depth : Nat) :
    blockBody? name depth (mark ++ l) = (blockBody? name depth l).map (prependAll mark) := by
  induction mark with
  | nil => rw [List.nil_append, map_prependAll_nil]
  | cons c mark ih =>
    rw [List.cons_append, blockBody?_cons, hopening.1, hclosing.1]
    simp only [ih hopening.2 hclosing.2, map_prepend_prependAll, Option.isSome_none, Bool.false_eq_true, if_false]

theorem cutBars_append {l mark : List Char} (hopening : Absent (openingOf "random") l mark)
    (hclosing : Absent (closingOf "random") l mark) (hbar : '|' ∉ mark) (depth : Nat) :
    cutBars depth (mark ++ l) = (cutBars depth l).modifyHead (mark ++ ·) := by
  induction mark with
  | nil => cases hl : cutBars depth l <;> rw [List.nil_append, hl] <;> rfl
  | cons c mark ih =>
    rw [List.mem_cons, not_or] at hbar
    have hne : ¬ (c = '|' ∧ depth = 0) := fun h => hbar.1 h.1.symm
    rw [List.cons_append, cutBars, hopening.1, hclosing.1, Option.isSome_none, if_neg Bool.false_ne_true,
      if_neg Bool.false_ne_true, if_neg hne, ih hopening.2 hclosing.2 hbar.2, modifyHead_cons_append]

theorem blockBody?_of_blank {name : String} (hname : name ∈ blockNames) {l : List Char} (hl : ∀ c ∈ l, isBlank c = true)
    (depth : Nat) : blockBody? name depth l = none := by
  induction l generalizing depth with
  | nil => rfl
  | cons c l ih =>
    obtain ⟨hopening, hclosing⟩ := foreign_block hname
    rw [blockBody?_cons, hopening.blank hl, hclosing.blank hl]
    simp only [ih (List.forall_mem_cons.mp hl).2, Option.isSome_none, Bool.false_eq_true, if_false, Option.map_none]

theorem blockBody?_alike {name : String} (hname : name ∈ blockNames) (hpad : ∀ c ∈ pad, isBlank c = true)
    (h : Respelled pad within l l') (depth : Nat) :
    CutAlike pad within l (blockBody? name depth l) (blockBody? name depth l') := by
  obtain ⟨hopening, hclosing⟩ := foreign_block hname
  induction h generalizing depth with
  | pad =>
    rw [blockBody?_of_blank hname hpad]
    exact .none
  | @keep within c l l' h ih =>
    rw [blockBody?_cons, blockBody?_cons]
    rcases rel_cases (hopening.after?_alike hpad (.keep h)) with ⟨hl, hl'⟩ | ⟨_, _, hl, hl', -⟩
    · rw [hl, hl']
      rcases rel_cases (hclosing.after?_alike hpad (.keep h)) with ⟨hl, hl'⟩ | ⟨rest, rest', hl, hl', hrest⟩
      · rw [hl, hl']
        exact (ih _).prepend
      · rw [hl, hl']
        cases depth with
        | zero => exact .some ⟨List.nil_prefix, .pad, hrest⟩
        | succ depth => exact (ih _).prepend
    · rw [hl, hl']
      exact (ih _).prepend
  | @redirect l l' h ih =>
    change CutAlike _ _ _ (blockBody? name depth (shortTag ++ l)) (blockBody? name depth (longTag ++ l'))
    rw [blockBody?_append (hopening.short l) (hclosing.short l), blockBody?_append (hopening.long l') (hclosing.long l')]
    exact (ih depth).redirect

theorem cutBars_alike (h : Respelled [] within l l') (depth : Nat) :
    PartsAlike within l (cutBars depth l) (cutBars depth l') := by
  have hname : "random" ∈ blockNames := List.mem_cons_self
  obtain ⟨hopening, hclosing⟩ := foreign_block hname
  have hpad : ∀ c ∈ ([] : List Char), isBlank c = true := List.forall_mem_nil _
  induction h generalizing depth with
  | pad => exact .cons List.nil_prefix .pad .nil
  | @keep within c l l' h ih =>
    rw [cutBars, cutBars]
    rcases rel_cases (hopening.after?_alike hpad (.keep h)) with ⟨hl, hl'⟩ | ⟨_, _, hl, hl', -⟩
    · rw [hl, hl']
      rcases rel_cases (hclosing.after?_alike hpad (.keep h)) with ⟨hl, hl'⟩ | ⟨_, _, hl, hl', -⟩
      · rw [hl, hl']
        simp only [Option.isSome_none, Bool.false_eq_true, if_false]
        split
        · exact (ih _).next
        · exact (ih _).more
      · rw [hl, hl']
        exact (ih _).more
    · rw [hl, hl']
      exact (ih _).more
  | @redirect l l' h ih =>
    change PartsAlike _ _ (cutBars depth (shortTag ++ l)) (cutBars depth (longTag ++ l'))
    rw [cutBars_append (hopening.short l) (hclosing.short l) (by decide),
      cutBars_append (hopening.long l') (hclosing.long l') (by decide)]
    exact (ih depth).redirect

theorem alternatives_alike (h : Respelled [] within l l') :
    List.Forall₂ (Respelled [] false) (alternatives l) (alternatives l') := by
  have hparts := cutBars_alike h 0
  rw [alternatives, alternatives]
  revert hparts
  generalize cutBars 0 l = parts
  generalize cutBars 0 l' = parts'
  intro hparts
  cases hparts with
  | cons _ hp hps =>
    cases hps with
    | nil => exact words_alike h
    | cons hq hqs => exact .cons hp.free (.cons hq hqs)

end Bodies

/-! ## Names and arguments -/

/-- The same tag, but for the spelling of what it holds. -/
inductive Tag.Alike : Tag → Tag → Prop
  | same (t : Tag) : Alike t t
  | set (name : String) {cs cs' : List Char} : Respelled [] false cs cs' → Alike (.set name cs) (.set name cs')
  | math (op : MathOp) (name : String) {cs cs' : List Char} : Respelled [] false cs cs' →
      Alike (.math op name cs) (.math op name cs')
  | call {cs cs' : List Char} : Respelled [] false cs cs' → Alike (.call cs) (.call cs')
  | random {cs cs' : List Char} : Respelled [] false cs cs' → Alike (.random cs) (.random cs')
  | recase (r : Recase) {cs cs' : List Char} : Respelled [] false cs cs' → Alike (.recase r cs) (.recase r cs')

section Named

variable {name name' args args' cs : List Char} {c : Char}

theorem isIdentifier_of_mem (hc : c ∈ cs) (hmark : c = '<' ∨ c = '{') : isIdentifier cs = false := by
  rw [isIdentifier, Bool.and_eq_false_iff]
  refine .inr (List.all_eq_false.mpr ⟨c, hc, ?_⟩)
  rcases hmark with rfl | rfl
  · decide
  · decide

theorem mem_unsigned (hc : c ∈ cs) (hplus : c ≠ '+') : c ∈ (match cs with
    | '+' :: rest => rest
    | _ => cs) := by
  split
  · exact (List.mem_cons.mp hc).resolve_left hplus
  · exact hc

theorem natural_of_mem {bound : Nat} (hc : c ∈ cs) (hmark : c = '<' ∨ c = '{') : Decimal.natural bound cs = none := by
  have hdigit : c.isDigit = false ∧ c ≠ '+' := by rcases hmark with rfl | rfl <;> decide
  refine if_pos ?_
  rw [Bool.or_eq_true]
  exact .inr (List.any_eq_true.mpr ⟨c, mem_unsigned hc hdigit.2, by rw [hdigit.1]; rfl⟩)

theorem index?_of_mem_args {suffix : List Char} (hc : c ∈ args) (hmark : c = '<' ∨ c = '{') :
    index? suffix args = none := by
  have hargs : args.isEmpty = false := by
    rw [List.isEmpty_eq_false_iff_exists_mem]
    exact ⟨c, hc⟩
  rw [index?, hargs, Bool.and_false, natural_of_mem hc hmark]
  simp

theorem index?_of_mem_suffix {suffix : List Char} (hc : c ∈ suffix) (hmark : c = '<' ∨ c = '{') :
    index? suffix args = none := by
  have hsuffix : suffix.isEmpty = false := by
    rw [List.isEmpty_eq_false_iff_exists_mem]
    exact ⟨c, hc⟩
  rw [index?, hsuffix, Bool.false_and, natural_of_mem hc hmark]
  simp

theorem indexed?_of_forall (h : ∀ suffix, (∃ start ∈ indexedNames, after? start.1.toList name = some suffix) →
    index? suffix args = none) : indexed? name args = none := by
  have hnone : ∀ piece, (indexedNames.findSome? fun entry =>
      (after? entry.1.toList name).map fun suffix => (index? suffix args).map entry.2) = some piece → piece = none := by
    intro piece hpiece
    obtain ⟨⟨start, tag⟩, hstart, hafter⟩ := List.exists_of_findSome?_eq_some hpiece
    obtain ⟨suffix, hsuffix, rfl⟩ := Option.map_eq_some_iff.mp hafter
    rw [h suffix ⟨_, hstart, hsuffix⟩, Option.map_none]
  change (indexedNames.findSome? fun entry =>
    (after? entry.1.toList name).map fun suffix => (index? suffix args).map entry.2).join = none
  cases hfound : indexedNames.findSome? fun entry =>
      (after? entry.1.toList name).map fun suffix => (index? suffix args).map entry.2 with
  | none => rfl
  | some piece => exact hnone piece hfound

theorem mem_of_after? {start rest : List Char} (h : after? start cs = some rest) (hc : c ∈ cs) : c ∈ start ∨ c ∈ rest := by
  induction start generalizing cs with
  | nil =>
    cases h
    exact .inr hc
  | cons s start ih =>
    cases cs with
    | nil => cases h
    | cons d cs =>
      rw [after?] at h
      by_cases hs : s = d
      · rw [if_pos hs] at h
        rcases List.mem_cons.mp hc with rfl | hc
        · exact .inl (hs ▸ List.mem_cons_self)
        · exact (ih h hc).imp_left (List.mem_cons_of_mem s)
      · rw [if_neg hs] at h
        cases h

/-- A name that holds the mark of a tag is the name of none. -/
theorem namedTag?_of_mem_name (hc : c ∈ name) (hmark : c = '<' ∨ c = '{') : namedTag? name args = none := by
  have hne : ∀ s : String, c ∉ s.toList → String.ofList name ≠ s := by
    rintro s hs rfl
    exact hs (by rwa [String.toList_ofList])
  have hfree : ∀ s ∈ ["@", "id", "get", "bot", "env", "set", "add", "sub", "mult", "div", "sentence", "formal",
      "uppercase", "lowercase"], String.ofList name ≠ s := by
    intro s hs
    refine hne s ?_
    rcases hmark with rfl | rfl
    · revert s; decide
    · revert s; decide
  simp only [List.forall_mem_cons] at hfree
  have hindexed : indexed? name args = none := by
    refine indexed?_of_forall fun suffix ⟨start, hstart, hafter⟩ => ?_
    have hfree : ∀ start ∈ indexedNames, c ∉ start.1.toList := by
      rcases hmark with rfl | rfl
      · decide
      · decide
    exact index?_of_mem_suffix ((mem_of_after? hafter hc).resolve_left (hfree start hstart)) hmark
  rw [namedTag?, if_neg (fun h => hfree.1 h.1), if_neg (fun h => hfree.2.1 h.1)]
  simp [reading?, writing?, recaseNames, List.lookup_cons, hfree, hindexed, beq_eq_false_iff_ne.mpr]

theorem indexed?_of_mem_args (hc : c ∈ args) (hmark : c = '<' ∨ c = '{') : indexed? name args = none :=
  indexed?_of_forall fun _ _ => index?_of_mem_args hc hmark

/-- A tag that writes a variable is known by its name, and holds the value. -/
theorem alike_of_writing? {word : String} {tag : String → List Char → Tag} (hword : writing? word = some tag) (var : String)
    {value value' : List Char} (h : Respelled [] false value value') : (tag var value).Alike (tag var value') := by
  simp only [writing?] at hword
  split at hword
  · cases hword
    exact .set var h
  · repeat' split at hword
    all_goals cases hword
    all_goals exact .math _ var h

theorem namedTag?_of_writing? {tag : String → List Char → Tag} (hword : writing? (.ofList name) = some tag) :
    namedTag? name args = (cutOnce (· == '=') args).bind fun (var, value) =>
      if isIdentifier (trim var) then some (tag (.ofList (trim var)) (trim value)) else none := by
  have hread : reading? (.ofList name) = none ∧ String.ofList name ≠ "@" ∧ String.ofList name ≠ "id" := by
    simp only [writing?] at hword
    repeat' split at hword
    all_goals simp_all [reading?]
  rw [namedTag?, if_neg (fun h => hread.2.1 h.1), if_neg (fun h => hread.2.2 h.1), hread.1, hword]
  cases cutOnce (· == '=') args with
  | none => rfl
  | some found => rfl

/-- Arguments that hold the mark of a tag are those of a tag that writes. -/
theorem namedTag?_of_mem_args (hword : writing? (.ofList name) = none) (hc : c ∈ args) (hmark : c = '<' ∨ c = '{') :
    namedTag? name args = none := by
  have hargs : args ≠ [] := List.ne_nil_of_mem hc
  rw [namedTag?, if_neg (fun h => hargs h.2), if_neg (fun h => hargs h.2), hword]
  split
  · rw [isIdentifier_of_mem hc hmark, if_neg Bool.false_ne_true]
  · rename_i heq
    cases heq
  · rw [if_neg hargs]
  · rw [indexed?_of_mem_args hc hmark, Option.map_none]

theorem namedTag?_alike (hname : Respelled [] false name name') (hargs : Respelled [] false args args') :
    Option.Rel Tag.Alike (namedTag? name args) (namedTag? name' args') := by
  have hsame : ∀ found, Option.Rel Tag.Alike found found := by
    intro found
    cases found with
    | none => exact .none
    | some t => exact .some (.same t)
  rcases hname.eq_or_mem with rfl | ⟨hangle, -, hbrace, -⟩
  · rcases hargs.eq_or_mem with rfl | ⟨hangle, -, hbrace, -⟩
    · exact hsame _
    · cases hword : writing? (String.ofList name') with
      | none =>
        rw [namedTag?_of_mem_args hword hangle (.inl rfl), namedTag?_of_mem_args hword hbrace (.inr rfl)]
        exact .none
      | some tag =>
        rw [namedTag?_of_writing? hword, namedTag?_of_writing? hword]
        rcases rel_cases (cutOnce_alike (p := (· == '=')) (forall_of_all (by decide)) hargs) with
          ⟨hcut, hcut'⟩ | ⟨_, _, hcut, hcut', -, hvar, hvalue⟩
        · rw [hcut, hcut']
          exact .none
        · simp only [hcut, hcut', Option.bind_some]
          rcases hvar.trim.eq_or_mem with heq | ⟨hangle, -, hbrace, -⟩
          · rw [heq]
            split
            · exact .some (alike_of_writing? hword _ hvalue.trim)
            · exact .none
          · rw [isIdentifier_of_mem hangle (.inl rfl), isIdentifier_of_mem hbrace (.inr rfl)]
            exact .none
  · rw [namedTag?_of_mem_name hangle (.inl rfl), namedTag?_of_mem_name hbrace (.inr rfl)]
    exact .none

end Named

/-! ## The tag at the beginning -/

/-- The same tag with corresponding texts after it, or the same end of the text that is missing. -/
inductive FoundAlike (pad : List Char) : Tag × List Char → Tag × List Char → Prop
  | unclosed (what : Unclosed) : FoundAlike pad (.unclosed what, []) (.unclosed what, [])
  | tag {t t' : Tag} {rest rest' : List Char} : t.Alike t' → Respelled pad false rest rest' →
      FoundAlike pad (t, rest) (t', rest')

section Found

variable {pad l l' : List Char} {within : Bool} {c : Char} (hpad : ∀ c ∈ pad, isBlank c = true)
  (h : Respelled pad (awaits within (c :: l)) l l')

theorem rel_orElse {α β : Type} {R : α → β → Prop} {a b : Option α} {a' b' : Option β} (ha : Option.Rel R a a')
    (hb : Option.Rel R b b') : Option.Rel R (a <|> b) (a' <|> b') := by
  cases ha with
  | none => exact hb
  | some ha => exact .some ha

include hpad h

theorem bracedAfter?_alike {start : String} {q : List Char} (hstart : start.toList = '{' :: q)
    (hmem : start.toList ∈ bracedStarts) (hq : ∀ c ∈ q, c ≠ '<' ∧ c ≠ '{' ∧ isBlank c = false)
    (hbrace : q.contains '}' = false) :
    Option.Rel (Option.Rel fun found found' => found'.1 = found.1 ∧ Respelled pad false found.2 found'.2)
      (bracedAfter? start (c :: l)) (bracedAfter? start (c :: l')) := by
  rw [bracedAfter?, bracedAfter?]
  have hafter : Option.Rel (Respelled pad true) (after? start.toList (c :: l)) (after? start.toList (c :: l')) := by
    have hinner := after?_alike_of_plain hpad hq h
    have hbegins : (after? start.toList (c :: l)).isSome = true → awaits within (c :: l) = true := by
      intro hsome
      have hc : c ≠ '}' := by
        rintro rfl
        rw [hstart] at hsome
        cases hsome
      rw [awaits_of_ne hc, Bool.or_eq_true]
      exact .inr (List.any_eq_true.mpr ⟨start.toList, hmem, hsome⟩)
    revert hbegins
    rw [hstart, after?, after?]
    by_cases hc : '{' = c
    · rw [if_pos hc, if_pos hc]
      intro hbegins
      revert hinner hbegins
      generalize after? q l = after
      generalize after? q l' = after'
      intro hinner hbegins
      cases hinner with
      | none => exact .none
      | some hrest =>
        rw [hbegins rfl, hbrace] at hrest
        exact .some hrest
    · rw [if_neg hc, if_neg hc]
      exact fun _ => .none
  exact rel_map (fun _ _ hrest => cutBrace_within hpad hrest) hafter

theorem bracedTag?_alike {start : String} {q : List Char} (tag : List Char → Tag) (hstart : start.toList = '{' :: q)
    (hmem : start.toList ∈ bracedStarts) (hq : ∀ c ∈ q, c ≠ '<' ∧ c ≠ '{' ∧ isBlank c = false)
    (hbrace : q.contains '}' = false) :
    Option.Rel (FoundAlike pad) ((bracedAfter? start (c :: l)).join.map fun (value, rest) => (tag value, rest))
      ((bracedAfter? start (c :: l')).join.map fun (value, rest) => (tag value, rest)) := by
  rcases rel_cases (bracedAfter?_alike hpad h hstart hmem hq hbrace) with ⟨hl, hl'⟩ | ⟨_, _, hl, hl', hfound⟩
  · rw [hl, hl']
    exact .none
  · rw [hl, hl']
    refine rel_map (fun ⟨value, rest⟩ ⟨value', rest'⟩ ⟨hvalue, hrest⟩ => ?_) hfound
    cases hvalue
    exact .tag (.same _) hrest

theorem weightTag?_alike : Option.Rel (FoundAlike pad) (weightTag? (c :: l)) (weightTag? (c :: l')) :=
  bracedTag?_alike hpad h (fun value => .weight (trim value)) rfl (by decide) (forall_of_all (by decide)) (by decide)

theorem topicTag?_alike : Option.Rel (FoundAlike pad) (topicTag? (c :: l)) (topicTag? (c :: l')) :=
  bracedTag?_alike hpad h (fun name => .piece (.topic (.ofList (lower (trim name))))) rfl (by decide)
    (forall_of_all (by decide)) (by decide)

theorem redirectTag?_alike : Option.Rel (FoundAlike pad) (redirectTag? (c :: l)) (redirectTag? (c :: l')) := by
  refine rel_map (fun found found' hfound => ?_)
    (bracedAfter?_alike hpad h rfl (by decide) (forall_of_all (by decide)) (by decide))
  cases hfound with
  | none => exact .unclosed .redirect
  | @some found found' hfound =>
    obtain ⟨htarget, hrest⟩ := hfound
    dsimp only
    rw [htarget]
    exact .tag (.same _) hrest

theorem blockTag?_alike {name : String} (hname : name ∈ blockNames) (tag : List Char → Tag) (what : Unclosed)
    (htag : ∀ cs cs', Respelled [] false cs cs' → (tag cs).Alike (tag cs')) :
    Option.Rel (FoundAlike pad) (blockTag? name tag what (c :: l)) (blockTag? name tag what (c :: l')) := by
  rw [blockTag?, blockTag?]
  rcases rel_cases ((foreign_block hname).1.after?_alike hpad (.keep h)) with ⟨hl, hl'⟩ | ⟨inside, inside', hl, hl', hinside⟩
  · rw [hl, hl']
    exact .none
  · rw [hl, hl']
    dsimp only
    rcases rel_cases (blockBody?_alike hname hpad hinside 0) with ⟨hbody, hbody'⟩ | ⟨_, _, hbody, hbody', -, hspelled, hrest⟩
    · rw [hbody, hbody']
      exact .some (.unclosed what)
    · rw [hbody, hbody']
      exact .some (.tag (htag _ _ hspelled) hrest)

theorem recaseTag?_alike : Option.Rel (FoundAlike pad) (recaseTag? (c :: l)) (recaseTag? (c :: l')) := by
  have hfind : ∀ names : List (String × Recase), (∀ entry ∈ names, entry.1 ∈ blockNames) →
      Option.Rel (FoundAlike pad) (names.findSome? fun entry => blockTag? entry.1 (.recase entry.2) .casing (c :: l))
        (names.findSome? fun entry => blockTag? entry.1 (.recase entry.2) .casing (c :: l')) := by
    intro names hnames
    induction names with
    | nil => exact .none
    | cons entry names ih =>
      obtain ⟨hentry, hnames⟩ := List.forall_mem_cons.mp hnames
      rw [List.findSome?_cons, List.findSome?_cons]
      rcases rel_cases (blockTag?_alike hpad h hentry (.recase entry.2) .casing fun _ _ => .recase entry.2) with
        ⟨hl, hl'⟩ | ⟨_, _, hl, hl', hfound⟩
      · rw [hl, hl']
        exact ih hnames
      · rw [hl, hl']
        exact .some hfound
  exact hfind recaseNames (by decide)

theorem braceTag?_alike : Option.Rel (FoundAlike pad) (braceTag? (c :: l)) (braceTag? (c :: l')) := by
  have hname : "random" ∈ blockNames := List.mem_cons_self
  have hrandom := blockTag?_alike hpad h hname .random .random fun _ _ => .random
  exact rel_orElse (weightTag?_alike hpad h) (rel_orElse hrandom (rel_orElse (redirectTag?_alike hpad h)
    (rel_orElse (topicTag?_alike hpad h) (recaseTag?_alike hpad h))))

theorem callTag?_alike : Option.Rel (FoundAlike pad) (callTag? (c :: l)) (callTag? (c :: l')) := by
  have hcall : Foreign "<call>".toList := ⟨⟨'<', 'c', _, rfl, by decide⟩, forall_of_all (by decide)⟩
  refine rel_map (fun inside inside' hinside => ?_) (hcall.after?_alike hpad (.keep h))
  rcases rel_cases (cutAt_alike foreign_callEnd hpad hinside) with ⟨hcut, hcut'⟩ | ⟨_, _, hcut, hcut', -, hline, hrest⟩
  · rw [hcut, hcut']
    exact .unclosed .call
  · rw [hcut, hcut']
    exact .tag (.call hline.trim) hrest

end Found

section Paired

variable {pad l l' : List Char} {within : Bool} (hpad : ∀ c ∈ pad, isBlank c = true)

include hpad

theorem pairedTag?_alike (h : Respelled pad within l l') :
    Option.Rel (FoundAlike pad) (pairedTag? l) (pairedTag? l') := by
  rw [pairedTag?, pairedTag?]
  rcases rel_cases (angleBody?_alike hpad h 0) with ⟨hbody, hbody'⟩ | ⟨_, _, hbody, hbody', -, hinside, hrest⟩
  · rw [hbody, hbody']
    exact .none
  · rw [hbody, hbody']
    dsimp only
    rcases rel_cases (cutOnce_alike (p := isBlank) (forall_of_all (by decide)) hinside) with
      ⟨hcut, hcut'⟩ | ⟨_, _, hcut, hcut', -, hname, hargs⟩
    · rw [hcut, hcut']
      exact rel_map (fun _ _ ht => .tag ht hrest) (namedTag?_alike hinside.free .pad)
    · rw [hcut, hcut']
      exact rel_map (fun _ _ ht => .tag ht hrest) (namedTag?_alike hname.free hargs.trim)

/-- A tag that begins in one spelling begins in the other. -/
theorem tag?_alike {c : Char} (h : Respelled pad (awaits within (c :: l)) l l') :
    Option.Rel (FoundAlike pad) (tag? (c :: l)) (tag? (c :: l')) := by
  rw [tag?, tag?]
  split
  · exact braceTag?_alike hpad h
  · split
    · exact rel_orElse (callTag?_alike hpad h) (pairedTag?_alike hpad h)
    · exact .none

end Paired

/-- The short tag redirects to the first capture. -/
theorem tag?_short (l : List Char) : tag? ('<' :: '@' :: '>' :: l) = some (.piece (.redirect firstStar), l) := rfl

theorem tag?_long (l : List Char) :
    tag? ('{' :: '@' :: '<' :: 's' :: 't' :: 'a' :: 'r' :: '>' :: '}' :: l) = some (.redirect "<star>".toList, l) := rfl

/-- What is held between braces is what is cut off at the first closing one. -/
theorem bracedAfter?_eq (start : String) {inside : List Char} (h : '}' ∉ inside) (rest : List Char) :
    bracedAfter? start (start.toList ++ (inside ++ '}' :: rest)) = some (some (inside, rest)) := by
  have hne : ∀ c ∈ inside, (c == '}') = false := by
    intro c hc
    rw [beq_eq_false_iff_ne]
    rintro rfl
    exact h hc
  rw [bracedAfter?, after?_append, Option.map_some, cutOnce_eq hne rfl]

theorem tag?_braced {target : List Char} (h : '}' ∉ target) (rest : List Char) :
    tag? ('{' :: '@' :: (target ++ '}' :: rest)) = some (.redirect (trim target), rest) := by
  have hweight : weightTag? ('{' :: '@' :: (target ++ '}' :: rest)) = none := rfl
  have hrandom : blockTag? "random" .random .random ('{' :: '@' :: (target ++ '}' :: rest)) = none := rfl
  have hbraced : bracedAfter? "\x7b@" ('{' :: '@' :: (target ++ '}' :: rest)) = some (some (target, rest)) :=
    bracedAfter?_eq "\x7b@" h rest
  have hredirect : redirectTag? ('{' :: '@' :: (target ++ '}' :: rest)) = some (.redirect (trim target), rest) := by
    rw [redirectTag?, hbraced]
    rfl
  change braceTag? _ = _
  rw [braceTag?, hweight, hrandom, hredirect]
  rfl

end Repartee.Template
