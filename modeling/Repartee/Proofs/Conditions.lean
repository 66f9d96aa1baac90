/-
  Repartee.Proofs.Conditions — what a condition is.

  A condition is a guard, an arrow and a body, and the guard is a left side, an operator and a right side.
  Both sides are replies, so signs that operators are made of may stand in their tags. `Arrowed` and `Parted`
  say which arrow counts and which operator, by what stands before it.

  Proved:
  - In a guard without line feeds the search for an operator ends at the first word that is one, the first
    word of all apart (`cutGuard_of_parted`), and finds none only if there is none (`exists_of_cutGuard`).
  - A text is a condition exactly if it has an arrow, an operator before it, and replies around these; each part
    is what stands there; and what is written with its parts apart is read back (`read_grammar`).
-/

import Repartee.Proofs.Nesting

namespace Repartee.Condition

open Text
open Unicode (isBlank)

/-! ## Guards -/

/-- The words that compare, and how. -/
def operators : List (String × Comparison) :=
  [("==", .eq), ("eq", .eq), ("!=", .ne), ("ne", .ne), ("<>", .ne), ("<=", .le), (">=", .ge), ("<", .lt), (">", .gt)]

def comparison? (w : List Char) : Option Comparison := operators.lookup (.ofList w)

/-- A text with its first arrow between a guard and a body. -/
structure Arrowed (text guard body : List Char) : Prop where
  text : text = guard ++ ('=' :: '>' :: body)
  first : ¬ ['=', '>'] <:+: guard

/-- A guard with its first operator between two sides. An operator is a word of its own, and not the first word. -/
structure Parted (guard left operator right : List Char) : Prop where
  text : guard = left ++ (operator ++ right)
  before : ∀ c ∈ left.getLast?, isBlank c = true
  after : ∀ c ∈ right.head?, isBlank c = true
  operator : (comparison? operator).isSome = true
  notFirst : words left ≠ []
  first : ∀ w ∈ (words left).tail, comparison? w = none

/-- The condition with these parts, each of them trimmed. -/
structure Means (source : String) (left operator right body : List Char) (c : Condition) : Prop where
  source : c.source = source
  comparison : comparison? operator = some c.comparison
  left : Template.read (.ofList (trim left)) = .ok c.left
  right : Template.read (.ofList (trim right)) = .ok c.right
  body : Template.read (.ofList (trim body)) = .ok c.body

/-- A reply can be read here. -/
def Readable (cs : List Char) : Prop := ∃ t, Template.read (.ofList (trim cs)) = .ok t

/-- Parts of a condition that can be written one after the other. -/
structure Apart (l r b : String) : Prop where
  trimmed : trimmed l = l ∧ trimmed r = r ∧ trimmed b = b
  left : l ≠ ""
  noOperator : ∀ w ∈ (wordsOf l).tail, operators.lookup w = none
  noArrow : ¬ "=>".toList <:+: l.toList ∧ ¬ "=>".toList <:+: r.toList

theorem ofText?_eq (w : List Char) : Comparison.ofText? (.ofList w) = comparison? w := by
  generalize hs : String.ofList w = s
  simp only [comparison?, operators, hs, Comparison.ofText?, List.lookup_cons, List.lookup_nil]
  repeat' split
  all_goals simp_all

/-! ## The search for an operator -/

section Search

variable {blanks w rest before after passed : List Char}

theorem word_of_operator (h : (comparison? w).isSome = true) : w ≠ [] ∧ ∀ c ∈ w, isBlank c = false := by
  have hall : ∀ o ∈ operators, o.1.toList ≠ [] ∧ o.1.toList.all fun c => decide (isBlank c = false) := by decide +kernel
  obtain ⟨o, ho, heq⟩ := List.lookup_isSome_iff.mp h
  have hword := (hall o ho).imp_right Template.forall_of_all
  rwa [← beq_iff_eq.mp heq, String.toList_ofList] at hword

theorem operator?_blanks (h : ∀ c ∈ blanks, isBlank c = true) : operator? blanks = none := by
  have hnil : trimStart blanks = [] := List.dropWhile_eq_nil_iff.mpr h
  rw [operator?, hnil]
  rfl

theorem operator?_word (hblanks : ∀ c ∈ blanks, isBlank c = true) (hne : w ≠ []) (hw : ∀ c ∈ w, isBlank c = false)
    (hrest : ∀ c ∈ rest.head?, isBlank c = true) (hline : '\n' ∉ rest) :
    operator? (blanks ++ (w ++ rest)) = (comparison? w).map (·, trimStart rest) := by
  have hstart : trimStart (blanks ++ (w ++ rest)) = w ++ rest := by
    obtain ⟨c, w, rfl⟩ := List.exists_cons_of_ne_nil hne
    rw [trimStart, List.dropWhile_append_of_pos hblanks, List.cons_append,
      List.dropWhile_cons_of_neg (by simp [hw c List.mem_cons_self])]
  have hkeep : ∀ c ∈ w, (!isBlank c) = true := fun c hc => by simp [hw c hc]
  have hstop : rest.takeWhile (!isBlank ·) = [] ∧ rest.dropWhile (!isBlank ·) = rest := by
    cases rest with
    | nil => exact ⟨rfl, rfl⟩
    | cons c rest =>
      have hc : ¬ (!isBlank c) = true := by simp [hrest c rfl]
      exact ⟨List.takeWhile_cons_of_neg hc, List.dropWhile_cons_of_neg hc⟩
  have hright : '\n' ∉ trimStart rest := fun hmem => hline ((List.dropWhile_suffix _).subset hmem)
  rw [operator?, hstart, List.takeWhile_append_of_pos hkeep, List.dropWhile_append_of_pos hkeep, hstop.1, hstop.2,
    List.append_nil, ofText?_eq]
  cases comparison? w with
  | none => rfl
  | some k => simp [hright]

theorem cutGuard_pass {c : Char} (h : isBlank c = true → operator? (c :: rest) = none) (before : List Char) :
    cutGuard before (c :: rest) = cutGuard (c :: before) rest := by
  have hhere : operatorIf (isBlank c && !before.isEmpty && !before.contains '\n') (c :: rest) = none := by
    rw [operatorIf]
    split
    · rename_i hplace
      simp only [Bool.and_eq_true] at hplace
      exact h hplace.1.1
    · rfl
  rw [cutGuard_cons, hhere]

theorem cutGuard_nonblank (hw : ∀ c ∈ w, isBlank c = false) (before rest : List Char) :
    cutGuard before (w ++ rest) = cutGuard (w.reverse ++ before) rest := by
  induction w generalizing before with
  | nil => rfl
  | cons c w ih =>
    obtain ⟨hc, hw⟩ := List.forall_mem_cons.mp hw
    rw [List.cons_append, cutGuard_pass (fun hblank => absurd hblank (by simp [hc])), ih hw, List.reverse_cons,
      List.append_assoc, List.singleton_append]

/-- Blanks are passed over if no operator comes after them. -/
theorem cutGuard_blanks (hblanks : ∀ c ∈ blanks, isBlank c = true)
    (hnone : ∀ blanks, (∀ c ∈ blanks, isBlank c = true) → operator? (blanks ++ rest) = none) (before : List Char) :
    cutGuard before (blanks ++ rest) = cutGuard (blanks.reverse ++ before) rest := by
  induction blanks generalizing before with
  | nil => rfl
  | cons c blanks ih =>
    have hhere := hnone (c :: blanks) hblanks
    rw [List.cons_append] at hhere ⊢
    rw [cutGuard_pass (fun _ => hhere), ih (List.forall_mem_cons.mp hblanks).2, List.reverse_cons, List.append_assoc,
      List.singleton_append]

theorem cutGuard_of_blanks (hblanks : ∀ c ∈ blanks, isBlank c = true) (before : List Char) :
    cutGuard before blanks = none := by
  have hnone : ∀ blanks, (∀ c ∈ blanks, isBlank c = true) → operator? (blanks ++ []) = none := fun blanks h => by
    rw [List.append_nil, operator?_blanks h]
  rw [← List.append_nil blanks, cutGuard_blanks hblanks hnone]
  rfl

/-- A word that is no operator is passed over. -/
theorem cutGuard_word (hblanks : ∀ c ∈ blanks, isBlank c = true) (hne : w ≠ []) (hw : ∀ c ∈ w, isBlank c = false)
    (hrest : ∀ c ∈ rest.head?, isBlank c = true) (hline : '\n' ∉ rest) (hnone : comparison? w = none)
    (before : List Char) :
    cutGuard before (blanks ++ (w ++ rest)) = cutGuard (w.reverse ++ (blanks.reverse ++ before)) rest := by
  rw [cutGuard_blanks hblanks, cutGuard_nonblank hw]
  intro blanks hblanks
  rw [operator?_word hblanks hne hw hrest hline, hnone]
  rfl

/-- An operator that is not the first word is found. -/
theorem cutGuard_operator {k : Comparison} (hblanks : ∀ c ∈ blanks, isBlank c = true) (hsome : blanks ≠ [])
    (hbefore : before ≠ [] ∧ '\n' ∉ before) (hk : comparison? w = some k)
    (hrest : ∀ c ∈ rest.head?, isBlank c = true) (hline : '\n' ∉ rest) :
    cutGuard before (blanks ++ (w ++ rest)) = some (before.reverse, k, trimStart rest) := by
  obtain ⟨hne, hw⟩ := word_of_operator (by rw [hk]; rfl)
  have hhere := operator?_word hblanks hne hw hrest hline
  obtain ⟨c, blanks, rfl⟩ := List.exists_cons_of_ne_nil hsome
  rw [List.cons_append] at hhere ⊢
  have hplace : (isBlank c && !before.isEmpty && !before.contains '\n') = true := by
    simp [hblanks c List.mem_cons_self, hbefore.1, hbefore.2]
  rw [cutGuard_cons, operatorIf, if_pos hplace, hhere, hk, Option.map_some]

/-- The search goes on to the first operator. -/
theorem cutGuard_of_passed {k : Comparison} (hsome : passed ≠ []) (hhead : ∀ c ∈ passed.head?, isBlank c = true)
    (hlast : ∀ c ∈ passed.getLast?, isBlank c = true) (hnone : ∀ v ∈ words passed, comparison? v = none)
    (hk : comparison? w = some k) (hafter : ∀ c ∈ after.head?, isBlank c = true)
    (hbefore : before ≠ []) (hline : '\n' ∉ before ++ (passed ++ after)) :
    ∃ l, cutGuard before (passed ++ (w ++ after)) = some (l, k, trimStart after) ∧ trim l = trim (before.reverse ++ passed) := by
  simp only [List.mem_append, not_or] at hline
  obtain ⟨hline, hpassed, hlater⟩ := hline
  induction passed using words_induction generalizing before with
  | blank blanks hblanks =>
    exact ⟨_, cutGuard_operator hblanks hsome ⟨hbefore, hline⟩ hk hafter hlater, (trim_append_blanks hblanks _).symm⟩
  | word blanks v rest hblanks hne hv hrest ih =>
    rw [words_word hblanks hne hv hrest, List.forall_mem_cons] at hnone
    simp only [List.mem_append, not_or] at hpassed
    have hmore : rest ≠ [] := by
      rintro rfl
      have hend := hlast (v.getLast hne) (by simp [List.getLast?_eq_some_getLast hne])
      cases (hv _ (List.getLast_mem hne)).symm.trans hend
    have hstop : ∀ c ∈ (rest ++ (w ++ after)).head?, isBlank c = true := by
      rwa [List.head?_append_of_ne_nil _ hmore]
    have hend : ∀ c ∈ rest.getLast?, isBlank c = true := by
      rwa [← List.append_assoc, List.getLast?_append_of_ne_nil _ hmore] at hlast
    have hfree : '\n' ∉ rest ++ (w ++ after) := by
      have hw := (word_of_operator (by rw [hk]; rfl)).2
      simp only [List.mem_append, not_or]
      exact ⟨hpassed.2.2, fun hmem => Bool.false_ne_true ((hw _ hmem).symm.trans (by decide)), hlater⟩
    have hbehind : v.reverse ++ (blanks.reverse ++ before) ≠ [] := by simp [hne]
    obtain ⟨l, hcut, hl⟩ := ih hmore hrest hend hnone.2 hbehind (by simp [hpassed.1, hpassed.2.1, hline]) hpassed.2.2
    refine ⟨l, ?_, by simpa using hl⟩
    rw [List.append_assoc, List.append_assoc, cutGuard_word hblanks hne hv hstop hfree hnone.1, hcut]

theorem exists_of_cutGuard {found : List Char × Comparison × List Char} (hhead : ∀ c ∈ rest.head?, isBlank c = true)
    (hline : '\n' ∉ rest) (h : cutGuard before rest = some found) : ∃ w ∈ words rest, (comparison? w).isSome = true := by
  induction rest using words_induction generalizing before with
  | blank blanks hblanks =>
    rw [cutGuard_of_blanks hblanks] at h
    cases h
  | word blanks w rest hblanks hne hw hrest ih =>
    rw [words_word hblanks hne hw hrest, List.exists_mem_cons_iff]
    simp only [List.mem_append, not_or] at hline
    cases hk : comparison? w with
    | some k => exact .inl rfl
    | none =>
      rw [cutGuard_word hblanks hne hw hrest hline.2.2 hk] at h
      exact .inr (ih hrest hline.2.2 h)

end Search

/-! ## Guards that are parted -/

section Guard

variable {guard left operator right : List Char}

/-- A text that begins with a word goes on with a blank, if at all. -/
theorem exists_first (hhead : ∀ c ∈ guard.head?, isBlank c = false) (hwords : words guard ≠ []) :
    ∃ v rest, guard = v ++ rest ∧ v ≠ [] ∧ (∀ c ∈ v, isBlank c = false) ∧ (∀ c ∈ rest.head?, isBlank c = true) ∧
      words guard = v :: words rest := by
  induction guard using words_induction with
  | blank blanks hblanks => exact absurd (words_of_blanks hblanks) hwords
  | word blanks v rest hblanks hne hv hrest _ =>
    obtain rfl : blanks = [] := by
      cases blanks with
      | nil => rfl
      | cons c blanks => cases (hblanks c List.mem_cons_self).symm.trans (hhead c rfl)
    exact ⟨v, rest, rfl, hne, hv, hrest, words_word hblanks hne hv hrest⟩

theorem Parted.words (h : Parted guard left operator right) : words guard = words left ++ operator :: words right := by
  obtain ⟨hne, hw⟩ := word_of_operator h.operator
  have hright := words_word (List.forall_mem_nil _) hne hw h.after
  rcases List.eq_nil_or_concat' left with rfl | ⟨start, c, rfl⟩
  · exact absurd rfl h.notFirst
  have hc : isBlank c = true := h.before c (by simp)
  have hleft : Text.words (start ++ [c]) = Text.words start := words_append_blanks (by simpa using hc) start
  rw [h.text, hleft, List.append_assoc, List.singleton_append, words_append _ _ hc, ← hright, List.nil_append]

/-- A guard is parted if one of its words is an operator, the first apart. -/
theorem exists_parted (hhead : ∀ c ∈ guard.head?, isBlank c = false)
    (h : ∃ w ∈ (words guard).tail, (comparison? w).isSome = true) :
    ∃ left operator right, Parted guard left operator right := by
  have hwords : Text.words guard ≠ [] := by
    intro hnil
    rw [hnil] at h
    obtain ⟨w, hw, -⟩ := h
    cases hw
  obtain ⟨v, rest, rfl, hne, hv, hrest, hcut⟩ := exists_first hhead hwords
  rw [hcut, List.tail_cons] at h
  obtain ⟨before, w, after, rfl, hword, hbefore, hafter, hw, hfirst⟩ := exists_first_word h
  obtain ⟨hsome, hblank⟩ := begins_blank hrest hword.1 hword.2
  have hleft : Text.words (v ++ before) = v :: Text.words before := words_word (List.forall_mem_nil _) hne hv hblank
  refine ⟨v ++ before, w, after, by simp, ?_, hafter, hw, by simp [hleft], ?_⟩
  · rwa [List.getLast?_append_of_ne_nil _ hsome]
  · rw [hleft]
    exact fun u hu => Option.not_isSome_iff_eq_none.mp (hfirst u hu)

/-- The search cuts a guard into its parts. -/
theorem cutGuard_of_parted (hhead : ∀ c ∈ guard.head?, isBlank c = false) (hline : '\n' ∉ guard)
    (h : Parted guard left operator right) : ∃ l k, comparison? operator = some k ∧
      cutGuard [] guard = some (l, k, trimStart right) ∧ trim l = trim left := by
  obtain ⟨htext, hlast, hafter, hoperator, hnotFirst, hfirst⟩ := h
  obtain ⟨k, hk⟩ := Option.isSome_iff_exists.mp hoperator
  have hleft : ∀ c ∈ left.head?, isBlank c = false := by
    cases left with
    | nil => exact fun c hc => nomatch hc
    | cons c left => exact fun d hd => hhead d (by rw [htext]; exact hd)
  obtain ⟨v, passed, rfl, hne, hv, hpassed, hcut⟩ := exists_first hleft hnotFirst
  rw [hcut, List.tail_cons] at hfirst
  have hsome : passed ≠ [] := by
    rintro rfl
    rw [List.append_nil] at hlast
    have hend := hlast (v.getLast hne) (by simp [List.getLast?_eq_some_getLast hne])
    cases (hv _ (List.getLast_mem hne)).symm.trans hend
  rw [List.getLast?_append_of_ne_nil _ hsome] at hlast
  rw [htext] at hline
  simp only [List.mem_append, not_or] at hline
  have hbehind : v.reverse ≠ [] := by simpa using hne
  obtain ⟨l, hfound, hl⟩ := cutGuard_of_passed hsome hpassed hlast hfirst hk hafter hbehind
    (by simp [hline.1.1, hline.1.2, hline.2.2])
  refine ⟨l, k, hk, ?_, by rwa [List.reverse_reverse] at hl⟩
  rw [htext, List.append_assoc, cutGuard_nonblank hv, List.append_nil, hfound]

theorem operator_of_cutGuard {found : List Char × Comparison × List Char} (hhead : ∀ c ∈ guard.head?, isBlank c = false)
    (hline : '\n' ∉ guard) (h : cutGuard [] guard = some found) :
    ∃ w ∈ (words guard).tail, (comparison? w).isSome = true := by
  have hwords : Text.words guard ≠ [] := by
    intro hnil
    have hblank : ∀ c ∈ guard, isBlank c = true := by
      intro c hc
      by_contra hne
      exact words_ne_nil_iff.mpr ⟨c, hc, Bool.not_eq_true _ ▸ hne⟩ hnil
    rw [cutGuard_of_blanks hblank] at h
    cases h
  obtain ⟨v, rest, rfl, hne, hv, hrest, hcut⟩ := exists_first hhead hwords
  rw [cutGuard_nonblank hv] at h
  rw [hcut]
  exact exists_of_cutGuard hrest (fun hmem => hline (List.mem_append_right _ hmem)) h

end Guard

/-! ## Conditions -/

section Reading

variable {source : String} {guard body left operator right : List Char} {c : Condition}

theorem read_eq_ok_iff : read source = .ok c ↔ ∃ guard body l r, cutAt ['=', '>'] source.toList = some (guard, body) ∧
    cutGuard [] (trim guard) = some (l, c.comparison, r) ∧ c.source = source ∧
    Template.read (.ofList (trim l)) = .ok c.left ∧ Template.read (.ofList (trim r)) = .ok c.right ∧
    Template.read (.ofList (trim body)) = .ok c.body := by
  rw [read]
  constructor
  · intro h
    split at h
    · cases h
    · rename_i guard body hcut
      split at h
      · cases h
      · rename_i l k r hparts
        obtain ⟨tl, hl, h⟩ := bind_eq_ok.mp h
        obtain ⟨tr, hr, h⟩ := bind_eq_ok.mp h
        obtain ⟨tb, hb, h⟩ := bind_eq_ok.mp h
        cases h
        exact ⟨guard, body, l, r, hcut, hparts, rfl, hl, hr, hb⟩
  · rintro ⟨guard, body, l, r, hcut, hparts, rfl, hl, hr, hb⟩
    rw [hcut]
    dsimp only
    rw [hparts]
    dsimp only
    rw [hl, hr, hb]
    rfl

theorem cutAt_arrow {text : List Char} : cutAt ['=', '>'] text = some (guard, body) ↔ Arrowed text guard body := by
  rw [cutAt_eq_some_iff (by decide)]
  exact ⟨fun h => ⟨h.1, h.2⟩, fun h => ⟨h.text, h.first⟩⟩

theorem not_mem_trim (hline : '\n' ∉ source.toList) (h : Arrowed source.toList guard body) : '\n' ∉ trim guard := by
  intro hmem
  refine hline ?_
  rw [h.text]
  exact List.mem_append_left _ (mem_of_mem_trim hmem)

theorem read_of_means (hline : '\n' ∉ source.toList) (harrow : Arrowed source.toList guard body)
    (hparts : Parted (trim guard) left operator right) (hmeans : Means source left operator right body c) :
    read source = .ok c := by
  obtain ⟨l, k, hk, hcut, hl⟩ := cutGuard_of_parted (ends_of_trim (trim_trim guard)).1 (not_mem_trim hline harrow) hparts
  obtain rfl : k = c.comparison := Option.some.inj (hk.symm.trans hmeans.comparison)
  refine read_eq_ok_iff.mpr ⟨guard, body, l, trimStart right, cutAt_arrow.mpr harrow, hcut, hmeans.source, ?_, ?_, hmeans.body⟩
  · rw [hl]
    exact hmeans.left
  · rw [trim_trimStart]
    exact hmeans.right

theorem exists_means (hline : '\n' ∉ source.toList) (h : read source = .ok c) :
    ∃ guard body, Arrowed source.toList guard body ∧ (∃ w ∈ (words (trim guard)).tail, (comparison? w).isSome = true) ∧
      ∀ left operator right, Parted (trim guard) left operator right → Means source left operator right body c := by
  obtain ⟨guard, body, l, r, hcut, hparts, hsource, hl, hr, hb⟩ := read_eq_ok_iff.mp h
  have harrow := cutAt_arrow.mp hcut
  have hhead := (ends_of_trim (trim_trim guard)).1
  have hfree := not_mem_trim hline harrow
  refine ⟨guard, body, harrow, operator_of_cutGuard hhead hfree hparts, fun left operator right hparted => ?_⟩
  obtain ⟨l', k, hk, hcut', hl'⟩ := cutGuard_of_parted hhead hfree hparted
  rw [hparts, Option.some.injEq, Prod.mk.injEq, Prod.mk.injEq] at hcut'
  obtain ⟨rfl, rfl, rfl⟩ := hcut'
  rw [hl'] at hl
  rw [trim_trimStart] at hr
  exact ⟨hsource, hk, hl, hr, hb⟩

/-- Parts written one after the other, apart, are the parts of the text. -/
theorem parted_of_apart {l op r b : String} {k : Comparison} (h : Apart l r b) (hk : operators.lookup op = some k)
    (hsource : source = l ++ " " ++ op ++ " " ++ r ++ " => " ++ b) :
    ∃ guard left right, Arrowed source.toList guard (' ' :: b.toList) ∧ Parted (trim guard) left op.toList right ∧
      trim left = l.toList ∧ trim right = r.toList := by
  obtain ⟨⟨hltrim, hrtrim, -⟩, hl, hnone, hnoArrow⟩ := h
  rw [trimmed_eq_iff] at hltrim hrtrim
  have hk' : comparison? op.toList = some k := by rw [comparison?, String.ofList_toList, hk]
  obtain ⟨hop, hopfree⟩ := word_of_operator (by rw [hk']; rfl)
  have hspace : ∀ c ∈ [' '], isBlank c = true := Template.forall_of_all rfl
  have hlne : l.toList ≠ [] := fun h => hl (String.toList_injective h)
  -- The right side goes up to the end of the guard; it has its space only if it is not empty.
  obtain ⟨right, blanks, hright, hblanks, hguard, htrim, hlast⟩ : ∃ right blanks, (∀ c ∈ right.head?, isBlank c = true) ∧
      (∀ c ∈ blanks, isBlank c = true) ∧ ' ' :: (r.toList ++ [' ']) = right ++ blanks ∧ trim right = r.toList ∧
      ∀ c ∈ right.getLast?, isBlank c = false := by
    cases hr : r.toList with
    | nil => exact ⟨[], [' ', ' '], nofun, Template.forall_of_all rfl, rfl, rfl, nofun⟩
    | cons c cs =>
      rw [hr] at hrtrim
      refine ⟨' ' :: c :: cs, [' '], by simpa using hspace, hspace, rfl, ?_, ?_⟩
      · rw [← List.singleton_append, trim_blanks_append hspace, hrtrim]
      · rw [List.getLast?_cons_cons]
        exact (ends_of_trim hrtrim).2
  have hends : trim (l.toList ++ ' ' :: (op.toList ++ right)) = l.toList ++ ' ' :: (op.toList ++ right) := by
    refine trim_of_ends ?_ ?_
    · rw [List.head?_append_of_ne_nil _ hlne]
      exact (ends_of_trim hltrim).1
    · have hop : op.toList ++ right ≠ [] := by simp [hop]
      rw [List.append_cons, List.getLast?_append_of_ne_nil _ hop, List.getLast?_append]
      intro c hc
      rcases Option.or_eq_some_iff.mp hc with hc | ⟨-, hc⟩
      · exact hlast c hc
      · exact hopfree c (List.mem_of_getLast? hc)
  refine ⟨l.toList ++ ' ' :: (op.toList ++ ' ' :: (r.toList ++ [' '])), l.toList ++ [' '], right, ?_, ?_, ?_, htrim⟩
  · refine ⟨by simp [hsource], ?_⟩
    have hnone : ∀ o ∈ operators, ¬ ['=', '>'] <:+: o.1.toList := by decide +kernel
    obtain ⟨o, ho, heq⟩ := List.lookup_isSome_iff.mp (Option.isSome_of_mem hk)
    obtain rfl : op = o.1 := beq_iff_eq.mp heq
    rw [infix_append_cons (by decide), infix_append_cons (by decide), infix_append_cons (by decide)]
    simp only [not_or]
    exact ⟨hnoArrow.1, hnone o ho, hnoArrow.2, by simp⟩
  · have hwords : words (l.toList ++ [' ']) = words l.toList := words_append_blanks hspace _
    rw [hguard, ← List.append_assoc op.toList, ← List.cons_append, ← List.append_assoc, trim_append_blanks hblanks, hends]
    refine ⟨by simp, by simpa using hspace, hright, by rw [hk']; rfl, ?_, ?_⟩
    · rw [hwords]
      exact words_ne_nil_of_trim hlne hltrim
    · rw [hwords]
      intro w hw
      refine hnone (.ofList w) ?_
      rw [wordsOf, ← List.map_tail]
      exact List.mem_map_of_mem hw
  · rw [trim_append_blanks hspace, hltrim]

end Reading

/-- A text on one line is a condition exactly if it has an arrow, an operator before it that is a word but not the first,
and replies around these. It is then the condition with these parts. -/
theorem read_grammar {source : String} (hline : '\n' ∉ source.toList) :
    ((∃ c, read source = .ok c) ↔ ∃ guard body, Arrowed source.toList guard body ∧
      (∃ w ∈ (words (trim guard)).tail, (comparison? w).isSome = true) ∧
      ∀ left operator right, Parted (trim guard) left operator right → Readable left ∧ Readable right ∧ Readable body) ∧
    (∀ c, read source = .ok c ↔ ∃ guard body left operator right, Arrowed source.toList guard body ∧
      Parted (trim guard) left operator right ∧ Means source left operator right body c) ∧
    ∀ l op r b c, source = l ++ " " ++ op ++ " " ++ r ++ " => " ++ b → Apart l r b →
      c.source = source → operators.lookup op = some c.comparison → Template.read l = .ok c.left →
      Template.read r = .ok c.right → Template.read b = .ok c.body → read source = .ok c := by
  refine ⟨⟨?_, ?_⟩, fun c => ⟨fun h => ?_, ?_⟩, ?_⟩
  · rintro ⟨c, h⟩
    obtain ⟨guard, body, harrow, hoperator, hmeans⟩ := exists_means hline h
    refine ⟨guard, body, harrow, hoperator, fun left operator right hparted => ?_⟩
    have hmeans := hmeans left operator right hparted
    exact ⟨⟨_, hmeans.left⟩, ⟨_, hmeans.right⟩, ⟨_, hmeans.body⟩⟩
  · rintro ⟨guard, body, harrow, hoperator, hreadable⟩
    obtain ⟨left, operator, right, hparted⟩ := exists_parted (ends_of_trim (trim_trim guard)).1 hoperator
    obtain ⟨⟨tl, hl⟩, ⟨tr, hr⟩, ⟨tb, hb⟩⟩ := hreadable left operator right hparted
    obtain ⟨k, hk⟩ := Option.isSome_iff_exists.mp hparted.operator
    exact ⟨⟨source, tl, k, tr, tb⟩, read_of_means hline harrow hparted ⟨rfl, hk, hl, hr, hb⟩⟩
  · obtain ⟨guard, body, harrow, hoperator, hmeans⟩ := exists_means hline h
    obtain ⟨left, operator, right, hparted⟩ := exists_parted (ends_of_trim (trim_trim guard)).1 hoperator
    exact ⟨guard, body, left, operator, right, harrow, hparted, hmeans left operator right hparted⟩
  · rintro ⟨guard, body, left, operator, right, harrow, hparted, hmeans⟩
    exact read_of_means hline harrow hparted hmeans
  · intro l op r b c htext hapart hsource hk hl hr hb
    obtain ⟨guard, left, right, harrow, hparted, hleft, hright⟩ := parted_of_apart hapart hk htext
    refine read_of_means hline harrow hparted ⟨hsource, ?_, ?_, ?_, ?_⟩
    · rw [comparison?, String.ofList_toList, hk]
    · rw [hleft, String.ofList_toList, hl]
    · rw [hright, String.ofList_toList, hr]
    · have hbody : trim (' ' :: b.toList) = b.toList := by
        rw [← List.singleton_append, trim_blanks_append (Template.forall_of_all rfl), trimmed_eq_iff.mp hapart.trimmed.2.2]
      rw [hbody, String.ofList_toList, hb]

theorem read_grammar_several_operators : '\n' ∉ "== <get x>=1 ne eq == => a => b".toList ∧
    read "== <get x>=1 ne eq == => a => b" = .ok
      { source := "== <get x>=1 ne eq == => a => b"
        left := { source := "== <get x>=1", pieces := [.text "== ", .get "x", .text "=1"], weight := 0 }
        comparison := .ne
        right := { source := "eq ==", pieces := [.text "eq =="], weight := 0 }
        body := { source := "a => b", pieces := [.text "a => b"], weight := 0 } } := by
  have hline : '\n' ∉ "== <get x>=1 ne eq == => a => b".toList := by decide +kernel
  have hapart : Apart "== <get x>=1" "eq ==" "a => b" := ⟨by decide +kernel, by decide, by decide +kernel, by decide +kernel⟩
  have hnested : wellNested true true [.text "== ", .get "x", .text "=1"] := by
    simp only [wellNested, Piece.WellNested, Piece.isText, List.head?_cons, Option.any_some, Bool.false_and, true_and,
      and_true]
    decide +kernel
  refine ⟨hline, (read_grammar hline).2.2 _ "ne" _ _ _ (by decide +kernel) hapart rfl rfl ?_ ?_ ?_⟩
  · exact Template.read_of_printPieces hnested (by decide +kernel)
  · exact Template.read_untagged (c := 'e') rfl (by decide) rfl (by decide +kernel)
  · exact Template.read_untagged (c := 'a') rfl (by decide) rfl (by decide +kernel)

end Repartee.Condition
