/-
  Repartee.Proofs.Grammar — which triggers compile, and to what.

  `Grammatical` lists what a trigger has to be. The conditions speak of its weight tags and its outline,
  each on its own, and not of the order in which faults are looked for. `Stands` says which item each
  part of the outline stands for, and `Compiled` which pattern the whole is.

  Proved:
  - A part is accepted exactly if it is sound, and gives the item it stands for (`wordItem?_eq_ok_iff`,
    `groupItem_eq_ok_iff`, `partItem?_eq_ok_iff`). A sound part stands for something (`exists_stands`).
  - A trigger compiles exactly if it is grammatical, to the items of its parts and its first weight
    (`compile_grammar`).
-/

import Mathlib.Data.List.Basic
import Mathlib.Data.List.Induction
import Repartee.Proofs.Grammar.Outline
import Repartee.Proofs.Results

namespace Repartee.Pattern

open Text

/-! ## The grammar -/

def sigils : List Char := ['*', '#', '_']

def tagMarks : List Char := ['{', '}', '<', '>']

/-- A number of 32 bits: digits, with at most a plus sign before them. -/
def IsWeight (cs : List Char) (n : ℕ) : Prop :=
  ∃ digits, digits ≠ [] ∧ (∀ c ∈ digits, c.isDigit = true) ∧ (cs = digits ∨ cs = '+' :: digits) ∧
    n = Nat.ofDigitChars 10 digits 0 ∧ n < Decimal.bound32

/-- What is left of the words of a text in the alphabet of messages. -/
def wordsLeft (scope : Scope) (cs : List Char) : List String :=
  ((words cs).map fun w => scope.lexicon.strip (.ofList w)).filter (· ≠ "")

/-- The alternatives of a group: what it lists between bars, or the entries of the array it names. -/
inductive Offers (scope : Scope) (body : List Char) : List (List Char) → Prop
  | array {name : List Char} {entries : List String} : trim body = '@' :: name →
      scope.arrays.find? (.ofList (trim name)) = some entries → Offers scope body (entries.map String.toList)
  | listed : (trim body).head? ≠ some '@' → Offers scope body ((fields (· == '|') (trim body)).map trim)

/-- A group with these alternatives has something left: words, or `*` in a square group. -/
def Filled (scope : Scope) (square : Bool) (alternatives : List (List Char)) : Prop :=
  (∃ a ∈ alternatives, wordsLeft scope a ≠ []) ∨ square = true ∧ ['*'] ∈ alternatives

/-- What a group has to be. -/
structure GroupSound (scope : Scope) (square : Bool) (body : List Char) : Prop where
  /-- An array that is named is defined. -/
  array : ∀ name, trim body = '@' :: name → (scope.arrays.find? (.ofList (trim name))).isSome = true
  /-- No alternative holds a sigil, but one that is `*` in a square group. -/
  sigils : ∀ alternatives, Offers scope body alternatives → ∀ a ∈ alternatives,
    square = true ∧ a = ['*'] ∨ ∀ c ∈ a, c ∉ sigils
  filled : ∀ alternatives, Offers scope body alternatives → Filled scope square alternatives

/-- What a part of a trigger has to be: a word with a sigil in it is that sigil. -/
def PartSound (scope : Scope) : Part → Prop
  | .word run => ∀ c ∈ run, c ∈ sigils → run = [c]
  | .group square body => GroupSound scope square body
  | .unbalanced _ => False

/-- The members of a list, each once, in the order in which they first occur. -/
structure Firsts {α : Type} [BEq α] (l kept : List α) : Prop where
  mem_iff : ∀ a, a ∈ kept ↔ a ∈ l
  ordered : kept.Pairwise fun a b => l.idxOf a < l.idxOf b

/-- The item that a part stands for, if any. -/
inductive Stands (scope : Scope) : Part → Option Item → Prop
  | wildcard {c : Char} {k : Wildcard} : Wildcard.ofSigil? c = some k → Stands scope (.word [c]) (some (.wildcard k))
  | word {run : List Char} : (∀ c ∈ run, c ∉ sigils) → scope.lexicon.strip (.ofList run) ≠ "" →
      Stands scope (.word run) (some (.word (scope.lexicon.strip (.ofList run))))
  | nothing {run : List Char} : (∀ c ∈ run, c ∉ sigils) → scope.lexicon.strip (.ofList run) = "" →
      Stands scope (.word run) none
  | choice {body : List Char} {alternatives : List (List Char)} {kept : List (List String)} :
      Offers scope body alternatives → Firsts ((alternatives.map (wordsLeft scope)).filter (· ≠ [])) kept →
      Stands scope (.group false body) (some (.choice kept))
  | optional {body : List Char} {alternatives : List (List Char)} {kept : List (List String)} :
      Offers scope body alternatives →
      Firsts (((alternatives.filter (· ≠ ['*'])).map (wordsLeft scope)).filter (· ≠ [])) kept →
      Stands scope (.group true body)
        (some (.optional (kept.map .words ++ if ['*'] ∈ alternatives then [.anyWords] else [])))

/-- What a trigger has to be, given its weights and its outline. -/
structure Grammatical (scope : Scope) (values : List (List Char)) (o : Outline) : Prop where
  weights : ∀ value ∈ values, ∃ n, IsWeight (trim value) n
  tags : ∀ c ∈ o.written, c ∉ tagMarks
  brackets : o.Flat
  parts : ∀ part ∈ o.parts, PartSound scope part
  filled : ∃ part ∈ o.parts, ∃ item, Stands scope part (some item)

/-- The first weight is `n`, or there is no weight and `n` is zero. -/
def FirstWeight : List (List Char) → ℕ → Prop
  | [], n => n = 0
  | value :: _, n => IsWeight (trim value) n

/-- The pattern that a grammatical trigger is. -/
structure Compiled (scope : Scope) (trigger : List Char) (values : List (List Char)) (o : Outline) (p : Pattern) : Prop where
  text : p.text = .ofList trigger
  items : ∃ found, List.Forall₂ (Stands scope) o.parts found ∧ p.items = found.filterMap id
  weight : FirstWeight values p.weight

/-! ## Words -/

theorem isSigil_iff {c : Char} : isSigil c = true ↔ c ∈ sigils := by
  simp only [isSigil, Wildcard.ofSigil?, sigils, List.mem_cons, List.not_mem_nil, or_false]
  by_cases h₁ : c = '*'
  · simp [h₁]
  by_cases h₂ : c = '#'
  · simp [h₂]
  by_cases h₃ : c = '_'
  · simp [h₃]
  · simp [h₁, h₂, h₃]

theorem find?_isSigil_eq_none_iff {cs : List Char} : cs.find? isSigil = none ↔ ∀ c ∈ cs, c ∉ sigils := by
  simp only [List.find?_eq_none, isSigil_iff]

theorem literal?_eq (scope : Scope) (cs : List Char) : literal? scope cs =
    if scope.lexicon.strip (.ofList cs) = "" then none else some (scope.lexicon.strip (.ofList cs)) := by
  simp only [literal?, String.isEmpty_iff]

theorem filterMap_literal? (scope : Scope) (cs : List Char) : (Text.words cs).filterMap (literal? scope) = wordsLeft scope cs := by
  rw [wordsLeft]
  induction Text.words cs with
  | nil => rfl
  | cons w ws ih =>
    have hw := literal?_eq scope w
    by_cases h : scope.lexicon.strip (.ofList w) = ""
    · rw [if_pos h] at hw
      rw [List.filterMap_cons_none hw, ih, List.map_cons, List.filter_cons_of_neg (by simp [h])]
    · rw [if_neg h] at hw
      rw [List.filterMap_cons_some hw, ih, List.map_cons, List.filter_cons_of_pos (by simp [h])]

/-- Without a sigil a word stands for its literal, if it has one. -/
theorem stands_word_iff {scope : Scope} {run : List Char} (hfree : ∀ c ∈ run, c ∉ sigils) {item : Option Item} :
    Stands scope (.word run) item ↔ (literal? scope run).map .word = item := by
  rw [literal?_eq]
  constructor
  · intro h
    cases h with
    | wildcard hk => exact absurd (isSigil_iff.mp (by simp [isSigil, hk])) (hfree _ List.mem_cons_self)
    | word _ hne =>
      rw [if_neg hne]
      rfl
    | nothing _ hstrip =>
      rw [if_pos hstrip]
      rfl
  · rintro rfl
    by_cases hstrip : scope.lexicon.strip (.ofList run) = ""
    · rw [if_pos hstrip]
      exact .nothing hfree hstrip
    · rw [if_neg hstrip]
      exact .word hfree hstrip

theorem wordItem?_eq_ok_iff {scope : Scope} {text : String} {run : List Char} {item : Option Item} :
    wordItem? scope text run = .ok item ↔
      (∀ c ∈ run, c ∈ sigils → run = [c]) ∧ Stands scope (.word run) item := by
  rw [wordItem?]
  cases hfind : run.find? isSigil with
  | none =>
    have hfree := find?_isSigil_eq_none_iff.mp hfind
    have hcond : ∀ c ∈ run, c ∈ sigils → run = [c] := fun c hc hsigil => absurd hsigil (hfree c hc)
    simp only [and_iff_right hcond, stands_word_iff hfree, Except.ok.injEq]
  | some sigil =>
    have hsigil := List.find?_some hfind
    have hmem := List.mem_of_find?_eq_some hfind
    dsimp only
    constructor
    · intro h
      split at h
      · rename_i c k' hk'
        cases h
        obtain rfl := List.mem_singleton.mp hmem
        exact ⟨fun d hd _ => by rw [List.mem_singleton.mp hd], .wildcard hk'⟩
      · cases h
    · rintro ⟨hcond, h⟩
      have hrun := hcond sigil hmem (isSigil_iff.mp hsigil)
      subst hrun
      cases h with
      | wildcard hk' => simp [hk']
      | word hfree => exact absurd (isSigil_iff.mp hsigil) (hfree sigil hmem)
      | nothing hfree => exact absurd (isSigil_iff.mp hsigil) (hfree sigil hmem)

/-! ## Groups -/

theorem alternatives_eq_ok_iff {scope : Scope} {text : String} {body : List Char} {written : List (List Char)} :
    alternatives scope text body = .ok written ↔ Offers scope body written := by
  rw [alternatives]
  split
  · rename_i name hbody
    cases hfind : scope.arrays.find? (.ofList (trim name)) with
    | none =>
      constructor
      · intro h
        simp [hfind] at h
      · intro h
        cases h with
        | array hname hentries =>
          cases hbody.symm.trans hname
          cases hfind.symm.trans hentries
        | listed hfirst => simp [hbody] at hfirst
    | some entries =>
      constructor
      · intro h
        simp only [hfind] at h
        cases h
        exact .array hbody hfind
      · intro h
        cases h with
        | array hname hentries =>
          cases hbody.symm.trans hname
          cases hfind.symm.trans hentries
          simp [hfind]
        | listed hfirst => simp [hbody] at hfirst
  · rename_i hnone
    constructor
    · intro h
      cases h
      refine .listed fun hfirst => ?_
      obtain ⟨name, hname⟩ := List.head?_eq_some_iff.mp hfirst
      exact hnone name hname
    · intro h
      cases h with
      | array hname => exact absurd hname (hnone _)
      | listed => rfl

theorem Offers.unique {scope : Scope} {body : List Char} {written written' : List (List Char)} (h : Offers scope body written)
    (h' : Offers scope body written') : written = written' :=
  Except.ok.inj (((@alternatives_eq_ok_iff scope "" body written).mpr h).symm.trans (alternatives_eq_ok_iff.mpr h'))

theorem alternativeWords_eq_ok_iff {scope : Scope} {text : String} {a : List Char} {ws : List String} :
    alternativeWords scope text a = .ok ws ↔ (∀ c ∈ a, c ∉ sigils) ∧ wordsLeft scope a = ws := by
  rw [alternativeWords, filterMap_literal?]
  cases hfind : a.find? isSigil with
  | none => simp only [Except.ok.injEq, and_iff_right (find?_isSigil_eq_none_iff.mp hfind)]
  | some sigil =>
    have hsigil := isSigil_iff.mp (List.find?_some hfind)
    have hmem := List.mem_of_find?_eq_some hfind
    simp only [reduceCtorEq, false_iff, not_and]
    intro hfree
    exact absurd hsigil (hfree sigil hmem)

theorem mapM_alternativeWords_eq_ok_iff {scope : Scope} {text : String} {as : List (List Char)} {wss : List (List String)} :
    as.mapM (alternativeWords scope text) = .ok wss ↔ (∀ a ∈ as, ∀ c ∈ a, c ∉ sigils) ∧ as.map (wordsLeft scope) = wss := by
  induction as generalizing wss with
  | nil => simp [pure, Except.pure]
  | cons a as ih =>
    simp only [List.mapM_cons, bind_eq_ok, alternativeWords_eq_ok_iff, ih, List.forall_mem_cons, List.map_cons]
    constructor
    · intro ⟨ws, ⟨ha, hws⟩, wss', ⟨has, hwss⟩, h⟩
      cases h
      exact ⟨⟨ha, has⟩, by rw [hws, hwss]⟩
    · intro ⟨⟨ha, has⟩, h⟩
      exact ⟨_, ⟨ha, rfl⟩, _, ⟨has, rfl⟩, congrArg Except.ok h⟩

/-! ## Repeated alternatives -/

theorem distinct_concat (l : List (List String)) (a : List String) :
    distinct (l ++ [a]) = if a ∈ distinct l then distinct l else distinct l ++ [a] := by
  simp only [distinct, List.foldl_append, List.foldl_cons, List.foldl_nil, List.contains_iff_mem]

theorem firsts_distinct (l : List (List String)) : Firsts l (distinct l) := by
  induction l using List.reverseRecOn with
  | nil => exact ⟨fun a => Iff.rfl, .nil⟩
  | append_singleton l x ih =>
    obtain ⟨hmem, hordered⟩ := ih
    have hkeep : (distinct l).Pairwise fun a b => (l ++ [x]).idxOf a < (l ++ [x]).idxOf b := by
      refine hordered.imp_of_mem fun {a b} ha hb hab => ?_
      rwa [List.idxOf_append_of_mem ((hmem a).mp ha), List.idxOf_append_of_mem ((hmem b).mp hb)]
    rw [distinct_concat]
    by_cases hx : x ∈ distinct l
    · rw [if_pos hx]
      refine ⟨fun a => ?_, hkeep⟩
      have hin := (hmem x).mp hx
      rw [hmem, List.mem_append, List.mem_singleton]
      constructor
      · exact .inl
      · rintro (ha | rfl)
        · exact ha
        · exact hin
    · rw [if_neg hx]
      refine ⟨fun a => by simp [hmem], List.pairwise_append.mpr ⟨hkeep, List.pairwise_singleton _ _, fun a ha b hb => ?_⟩⟩
      -- What is new stands behind all there was.
      obtain rfl := List.mem_singleton.mp hb
      have hal := (hmem a).mp ha
      have hxl : b ∉ l := fun h => hx ((hmem b).mpr h)
      rw [List.idxOf_append_of_mem hal, List.idxOf_append_of_notMem hxl]
      have := List.idxOf_lt_length_of_mem hal
      omega

theorem Firsts.unique {l kept kept' : List (List String)} (h : Firsts l kept) (h' : Firsts l kept') : kept = kept' := by
  have hnodup : ∀ {kept}, Firsts l kept → kept.Nodup := fun hkept =>
    hkept.ordered.imp fun hab heq => by
      rw [heq] at hab
      exact Nat.lt_irrefl _ hab
  have hperm : kept.Perm kept' := (List.perm_ext_iff_of_nodup (hnodup h) (hnodup h')).mpr fun a =>
    (h.mem_iff a).trans (h'.mem_iff a).symm
  exact hperm.eq_of_pairwise (fun a b _ _ hab hba => absurd hab (Nat.lt_asymm hba)) h.ordered h'.ordered

/-! ## Group items -/

/-- The alternatives that words are taken from. -/
def wordy (square : Bool) (written : List (List Char)) : List (List Char) :=
  if square then written.filter (· ≠ ['*']) else written

theorem mem_wordy_iff {square : Bool} {written : List (List Char)} {a : List Char} :
    a ∈ wordy square written ↔ a ∈ written ∧ ¬ (square = true ∧ a = ['*']) := by
  cases square <;> simp [wordy]

/-- The alternatives with words left, each once. -/
def keptOf (scope : Scope) (square : Bool) (written : List (List Char)) : List (List String) :=
  distinct (((wordy square written).map (wordsLeft scope)).filter (· ≠ []))

theorem mem_keptOf_iff {scope : Scope} {square : Bool} {written : List (List Char)} {ws : List String} :
    ws ∈ keptOf scope square written ↔ ws ≠ [] ∧ ∃ a ∈ wordy square written, wordsLeft scope a = ws := by
  rw [keptOf, (firsts_distinct _).mem_iff, List.mem_filter, List.mem_map, and_comm, decide_eq_true_eq]

def anyWordsOf (square : Bool) (written : List (List Char)) : List OptionAlt :=
  if square && written.contains ['*'] then [.anyWords] else []

theorem anyWordsOf_eq_nil_iff {square : Bool} {written : List (List Char)} :
    anyWordsOf square written = [] ↔ ¬ (square = true ∧ ['*'] ∈ written) := by
  rw [anyWordsOf, ite_eq_right_iff, Bool.and_eq_true, List.contains_iff_mem]
  exact forall_congr' fun _ => by simp

theorem filled_iff {scope : Scope} {square : Bool} {written : List (List Char)} :
    Filled scope square written ↔ ¬ (keptOf scope square written = [] ∧ anyWordsOf square written = []) := by
  have hkept : keptOf scope square written ≠ [] ↔ ∃ a ∈ wordy square written, wordsLeft scope a ≠ [] := by
    constructor
    · intro h
      obtain ⟨ws, hws⟩ := List.exists_mem_of_ne_nil _ h
      obtain ⟨hne, a, ha, rfl⟩ := mem_keptOf_iff.mp hws
      exact ⟨a, ha, hne⟩
    · intro ⟨a, ha, hne⟩
      exact List.ne_nil_of_mem (mem_keptOf_iff.mpr ⟨hne, a, ha, rfl⟩)
  rw [anyWordsOf_eq_nil_iff, not_and_or, not_not, ← ne_eq, hkept, Filled]
  constructor
  · rintro (⟨a, ha, hne⟩ | hstar)
    · by_cases hstar : square = true ∧ a = ['*']
      · exact .inr ⟨hstar.1, hstar.2 ▸ ha⟩
      · exact .inl ⟨a, mem_wordy_iff.mpr ⟨ha, hstar⟩, hne⟩
    · exact .inr hstar
  · rintro (⟨a, ha, hne⟩ | hstar)
    · exact .inl ⟨a, (mem_wordy_iff.mp ha).1, hne⟩
    · exact .inr hstar

/-- What is made of a group that has something left. -/
def filledItem (scope : Scope) (square : Bool) (written : List (List Char)) : Item :=
  if square then .optional ((keptOf scope square written).map .words ++ anyWordsOf square written)
  else .choice (keptOf scope square written)

theorem groupItem_eq_ok_iff_filled {scope : Scope} {text : String} {square : Bool} {body : List Char} {item : Item} :
    groupItem scope text square body = .ok item ↔ ∃ written, Offers scope body written ∧
      (∀ a ∈ wordy square written, ∀ c ∈ a, c ∉ sigils) ∧ Filled scope square written ∧
        filledItem scope square written = item := by
  have hfilter : ∀ wss : List (List String), wss.filter (!·.isEmpty) = wss.filter (· ≠ []) := fun wss =>
    List.filter_congr fun ws _ => by cases ws <;> rfl
  have hwords := fun written wss => @mapM_alternativeWords_eq_ok_iff scope text (wordy square written) wss
  simp only [wordy] at hwords
  simp only [groupItem, bind_eq_ok, alternatives_eq_ok_iff, hwords, and_assoc, exists_and_left, exists_eq_left', hfilter]
  refine exists_congr fun written => and_congr_right fun _ => and_congr_right fun _ => ?_
  rw [filled_iff]
  cases square with
  | true =>
    change (if (keptOf scope true written).isEmpty && (anyWordsOf true written).isEmpty then _ else
      Except.ok (filledItem scope true written)) = _ ↔ _
    by_cases hnothing : keptOf scope true written = [] ∧ anyWordsOf true written = []
    · simp [hnothing]
    · rw [if_neg (by simpa using hnothing), and_iff_right hnothing, Except.ok.injEq]
  | false =>
    change (if (keptOf scope false written).isEmpty then _ else Except.ok (filledItem scope false written)) = _ ↔ _
    have hany : anyWordsOf false written = [] := rfl
    by_cases hnothing : keptOf scope false written = []
    · simp [hnothing, hany]
    · rw [if_neg (by simpa using hnothing), and_iff_right (fun h => hnothing h.1), Except.ok.injEq]

theorem forall_wordy_iff {square : Bool} {written : List (List Char)} :
    (∀ a ∈ wordy square written, ∀ c ∈ a, c ∉ sigils) ↔
      ∀ a ∈ written, square = true ∧ a = ['*'] ∨ ∀ c ∈ a, c ∉ sigils := by
  simp only [mem_wordy_iff, and_imp, or_iff_not_imp_left]

theorem stands_group_iff {scope : Scope} {square : Bool} {body : List Char} {found : Option Item} :
    Stands scope (.group square body) found ↔
      ∃ written, Offers scope body written ∧ some (filledItem scope square written) = found := by
  have hany : ∀ written, anyWordsOf true written = if ['*'] ∈ written then [.anyWords] else [] := fun written => by
    simp [anyWordsOf]
  have hwordy : ∀ written, wordy true written = written.filter (· ≠ ['*']) := fun _ => rfl
  constructor
  · intro h
    cases h with
    | choice hoffers hfirsts =>
      refine ⟨_, hoffers, ?_⟩
      rw [hfirsts.unique (firsts_distinct _)]
      rfl
    | optional hoffers hfirsts =>
      refine ⟨_, hoffers, ?_⟩
      rw [hfirsts.unique (firsts_distinct _), ← hany, ← hwordy]
      rfl
  · rintro ⟨written, hoffers, rfl⟩
    cases square with
    | false => exact .choice hoffers (firsts_distinct _)
    | true =>
      rw [filledItem, if_pos rfl, hany, keptOf, hwordy]
      exact .optional hoffers (firsts_distinct _)

theorem groupItem_eq_ok_iff {scope : Scope} {text : String} {square : Bool} {body : List Char} {item : Item} :
    groupItem scope text square body = .ok item ↔
      GroupSound scope square body ∧ Stands scope (.group square body) (some item) := by
  rw [groupItem_eq_ok_iff_filled, stands_group_iff]
  constructor
  · rintro ⟨written, hoffers, hsigils, hfilled, rfl⟩
    refine ⟨⟨fun name hname => ?_, fun written' h => ?_, fun written' h => h.unique hoffers ▸ hfilled⟩, written, hoffers, rfl⟩
    · cases hoffers with
      | array hname' hentries =>
        cases hname.symm.trans hname'
        rw [hentries, Option.isSome_some]
      | listed hfirst => simp [hname] at hfirst
    · rw [h.unique hoffers]
      exact forall_wordy_iff.mp hsigils
  · intro ⟨hsound, written, hoffers, hitem⟩
    exact ⟨written, hoffers, forall_wordy_iff.mpr (hsound.sigils written hoffers), hsound.filled written hoffers,
      Option.some.inj hitem⟩

/-! ## Parts -/

variable {scope : Scope} {text : String}

theorem partItem?_eq_ok_iff {part : Part} {found : Option Item} :
    partItem? scope text part = .ok found ↔ PartSound scope part ∧ Stands scope part found := by
  cases part with
  | word run => exact wordItem?_eq_ok_iff
  | group square body =>
    rw [partItem?, map_eq_ok, PartSound]
    constructor
    · rintro ⟨item, hitem, rfl⟩
      exact groupItem_eq_ok_iff.mp hitem
    · rintro ⟨hsound, hstands⟩
      obtain ⟨written, -, rfl⟩ := stands_group_iff.mp hstands
      exact ⟨_, groupItem_eq_ok_iff.mpr ⟨hsound, hstands⟩, rfl⟩
  | unbalanced bracket => simp [partItem?, PartSound]

theorem exists_stands {part : Part} (h : PartSound scope part) : ∃ found, Stands scope part found := by
  cases part with
  | word run =>
    by_cases hfree : ∀ c ∈ run, c ∉ sigils
    · exact ⟨_, (stands_word_iff hfree).mpr rfl⟩
    · obtain ⟨c, hc, hsigil⟩ : ∃ c ∈ run, c ∈ sigils := by simpa using hfree
      obtain ⟨k, hk⟩ := Option.isSome_iff_exists.mp (isSigil_iff.mpr hsigil)
      rw [h c hc hsigil]
      exact ⟨_, .wildcard hk⟩
  | group square body =>
    have hoffers : ∃ written, Offers scope body written := by
      by_cases hfirst : (trim body).head? = some '@'
      · obtain ⟨name, hname⟩ := List.head?_eq_some_iff.mp hfirst
        obtain ⟨entries, hentries⟩ := Option.isSome_iff_exists.mp (h.array name hname)
        exact ⟨_, .array hname hentries⟩
      · exact ⟨_, .listed hfirst⟩
    obtain ⟨written, hoffers⟩ := hoffers
    exact ⟨_, stands_group_iff.mpr ⟨written, hoffers, rfl⟩⟩
  | unbalanced bracket => cases h

theorem exists_forall₂_iff {α β : Type} {R : α → β → Prop} {l : List α} :
    (∃ l', List.Forall₂ R l l') ↔ ∀ a ∈ l, ∃ b, R a b := by
  induction l with
  | nil => exact ⟨fun _ => List.forall_mem_nil _, fun _ => ⟨[], .nil⟩⟩
  | cons a l ih =>
    rw [List.forall_mem_cons, ← ih]
    constructor
    · intro ⟨_, h⟩
      cases h with
      | cons hb hl => exact ⟨⟨_, hb⟩, _, hl⟩
    · intro ⟨⟨b, hb⟩, l', hl⟩
      exact ⟨b :: l', .cons hb hl⟩

theorem itemsOf_eq_ok_iff {parts : List Part} {items : List Item} : itemsOf scope text parts = .ok items ↔
    (∀ part ∈ parts, PartSound scope part) ∧ ∃ found, List.Forall₂ (Stands scope) parts found ∧ items = found.filterMap id := by
  induction parts generalizing items with
  | nil =>
    constructor
    · intro h
      cases h
      exact ⟨List.forall_mem_nil _, [], .nil, rfl⟩
    · rintro ⟨-, _, hfound, rfl⟩
      cases hfound
      rfl
  | cons part parts ih =>
    have hfilter : ∀ (f : Option Item) fs, (f :: fs).filterMap id = f.toList ++ fs.filterMap id := fun f fs => by
      cases f <;> rfl
    simp only [itemsOf, bind_eq_ok, partItem?_eq_ok_iff, ih, List.forall_mem_cons]
    constructor
    · rintro ⟨f, ⟨hpart, hf⟩, _, ⟨hparts, fs, hfs, rfl⟩, h⟩
      cases h
      exact ⟨⟨hpart, hparts⟩, f :: fs, .cons hf hfs, (hfilter f fs).symm⟩
    · rintro ⟨⟨hpart, hparts⟩, _, hfound, rfl⟩
      cases hfound with
      | cons hf hfs => exact ⟨_, ⟨hpart, hf⟩, _, ⟨hparts, _, hfs, rfl⟩, congrArg _ (hfilter _ _).symm⟩

theorem Stands.unique {part : Part} {found found' : Option Item} (hsound : PartSound scope part)
    (h : Stands scope part found) (h' : Stands scope part found') : found = found' :=
  Except.ok.inj (((@partItem?_eq_ok_iff scope "" part found).mpr ⟨hsound, h⟩).symm.trans
    (partItem?_eq_ok_iff.mpr ⟨hsound, h'⟩))

theorem filterMap_ne_nil_iff {parts : List Part} {found : List (Option Item)} (hparts : ∀ part ∈ parts, PartSound scope part)
    (h : List.Forall₂ (Stands scope) parts found) :
    found.filterMap id ≠ [] ↔ ∃ part ∈ parts, ∃ item, Stands scope part (some item) := by
  induction h with
  | nil => simp
  | @cons part f parts fs hf _ ih =>
    obtain ⟨hpart, hparts⟩ := List.forall_mem_cons.mp hparts
    have hsome : (∃ item, Stands scope part (some item)) ↔ ∃ item, f = some item :=
      exists_congr fun item => ⟨fun h => hf.unique hpart h, fun h => h ▸ hf⟩
    rw [List.exists_mem_cons_iff, hsome, ← ih hparts]
    cases f <;> simp

/-! ## Weights -/

theorem natural_digits_eq_some_iff {bound : ℕ} {digits : List Char} {n : ℕ} :
    (if digits.isEmpty || digits.any (!·.isDigit) then none
      else if Decimal.digitsValue digits < bound then some (Decimal.digitsValue digits) else none) = some n ↔
    digits ≠ [] ∧ (∀ c ∈ digits, c.isDigit = true) ∧ n = Nat.ofDigitChars 10 digits 0 ∧ n < bound := by
  have hvalue : Decimal.digitsValue digits = Nat.ofDigitChars 10 digits 0 := Nat.ofDigitChars_eq_foldl.symm
  rw [hvalue]
  split
  · rename_i hbad
    simp only [Bool.or_eq_true, List.isEmpty_iff, List.any_eq_true, Bool.not_eq_true'] at hbad
    simp only [reduceCtorEq, false_iff, not_and]
    intro hne hdigits
    rcases hbad with hempty | ⟨c, hc, hdigit⟩
    · exact absurd hempty hne
    · cases hdigit.symm.trans (hdigits c hc)
  · rename_i hgood
    simp only [Bool.or_eq_true, List.isEmpty_iff, List.any_eq_true, Bool.not_eq_true', not_or, not_exists, not_and,
      Bool.not_eq_false] at hgood
    rw [and_iff_right hgood.1, and_iff_right hgood.2, Option.ite_none_right_eq_some, Option.some.injEq]
    constructor
    · rintro ⟨hlt, rfl⟩
      exact ⟨rfl, hlt⟩
    · rintro ⟨rfl, hlt⟩
      exact ⟨hlt, rfl⟩

theorem weight?_eq_some_iff {value : List Char} {n : ℕ} : weight? value = some n ↔ IsWeight (trim value) n := by
  have hplus : Char.isDigit '+' = false := by decide
  unfold weight? Decimal.natural
  generalize trim value = cs
  rw [natural_digits_eq_some_iff]
  split
  · rename_i rest
    constructor
    · intro ⟨hne, hdigits, hn⟩
      exact ⟨rest, hne, hdigits, .inr rfl, hn⟩
    · rintro ⟨digits, hne, hdigits, rfl | hcs, hn⟩
      · cases hplus.symm.trans (hdigits '+' List.mem_cons_self)
      · cases hcs
        exact ⟨hne, hdigits, hn⟩
  · rename_i hfirst
    constructor
    · intro ⟨hne, hdigits, hn⟩
      exact ⟨cs, hne, hdigits, .inl rfl, hn⟩
    · rintro ⟨digits, hne, hdigits, rfl | hcs, hn⟩
      · exact ⟨hne, hdigits, hn⟩
      · exact absurd hcs (hfirst digits)

theorem mapM_weight?_eq_ok_iff {values : List (List Char)} {ns : List ℕ} :
    ((values.map trim).mapM fun value => match weight? value with
      | some w => Except.ok w
      | none => .error (RuleFault.badWeight (.ofList value) text)) = .ok ns ↔
    List.Forall₂ (fun value n => IsWeight (trim value) n) values ns := by
  induction values generalizing ns with
  | nil =>
    constructor
    · intro h
      cases h
      exact .nil
    · intro h
      cases h
      rfl
  | cons value values ih =>
    have hvalue : ∀ {n}, (match weight? (trim value) with
        | some w => Except.ok w
        | none => .error (RuleFault.badWeight (.ofList (trim value)) text)) = .ok n ↔ IsWeight (trim value) n := by
      intro n
      rw [← trim_trim, ← weight?_eq_some_iff, trim_trim]
      cases weight? (trim value) <;> simp
    simp only [List.map_cons, List.mapM_cons, bind_eq_ok, hvalue, ih]
    constructor
    · intro ⟨n, hn, ns', hns, h⟩
      cases h
      exact .cons hn hns
    · intro h
      cases h with
      | cons hn hns => exact ⟨_, hn, _, hns, rfl⟩

theorem exists_firstWeight {values : List (List Char)} (h : ∀ value ∈ values, ∃ n, IsWeight (trim value) n) :
    ∃ n, FirstWeight values n := by
  cases values with
  | nil => exact ⟨0, rfl⟩
  | cons value values => exact h value List.mem_cons_self

theorem firstWeight_eq_ok_iff {values : List (List Char)} {n : ℕ} : firstWeight text (values.map trim) = .ok n ↔
    (∀ value ∈ values, ∃ n, IsWeight (trim value) n) ∧ FirstWeight values n := by
  rw [firstWeight, bind_eq_ok]
  constructor
  · intro ⟨ns, hns, hn⟩
    cases hn
    replace hns := mapM_weight?_eq_ok_iff.mp hns
    refine ⟨exists_forall₂_iff.mp ⟨ns, hns⟩, ?_⟩
    cases hns with
    | nil => rfl
    | cons hn _ => exact hn
  · intro ⟨hall, hfirst⟩
    cases values with
    | nil => exact ⟨[], rfl, congrArg _ hfirst.symm⟩
    | cons value values =>
      obtain ⟨ns, hns⟩ := exists_forall₂_iff.mpr (List.forall_mem_cons.mp hall).2
      exact ⟨n :: ns, mapM_weight?_eq_ok_iff.mpr (.cons hfirst hns), rfl⟩

/-! ## Triggers -/

theorem firstTag?_eq_none_iff_tagMarks {cs : List Char} : firstTag? cs = none ↔ ∀ c ∈ cs, c ∉ tagMarks := by
  rw [firstTag?_eq_none_iff]
  refine forall₂_congr fun c _ => ?_
  simp [isTagMark, tagMarks, and_assoc]

theorem compile_eq_ok_iff {source : String} {p : Pattern} : compile scope source = .ok p ↔
    ∃ values o, Lifts (trim source.toList) o.written values ∧ Grammatical scope values o ∧
      Compiled scope (trim source.toList) values o p := by
  constructor
  · intro h
    obtain ⟨body, values, hlifts⟩ := exists_lifts (trim source.toList)
    simp only [compile, hlifts.eq, bind_eq_ok, firstWeight_eq_ok_iff] at h
    obtain ⟨n, ⟨hweights, hweight⟩, hrest⟩ := h
    cases htag : firstTag? body with
    | some tag => simp [htag] at hrest
    | none =>
      simp only [htag, bind_eq_ok, itemsOf_eq_ok_iff] at hrest
      obtain ⟨items, ⟨hsound, found, hfound, rfl⟩, hrest⟩ := hrest
      split at hrest
      · cases hrest
      · rename_i hfilled
        cases hrest
        obtain ⟨o, hflat, rfl⟩ := exists_outline fun bracket hmem => hsound _ hmem
        rw [Outline.cutParts_eq hflat] at hsound hfound
        rw [List.isEmpty_iff, ← ne_eq, filterMap_ne_nil_iff hsound hfound] at hfilled
        exact ⟨values, o, hlifts, ⟨hweights, firstTag?_eq_none_iff_tagMarks.mp htag, hflat, hsound, hfilled⟩, rfl,
          ⟨found, hfound, rfl⟩, hweight⟩
  · rintro ⟨values, o, hlifts, hgrammar, htext, ⟨found, hfound, hitems⟩, hweight⟩
    have hfilled := (filterMap_ne_nil_iff hgrammar.parts hfound).mpr hgrammar.filled
    have htag := firstTag?_eq_none_iff_tagMarks.mpr hgrammar.tags
    simp only [compile, hlifts.eq, bind_eq_ok, firstWeight_eq_ok_iff, htag, Outline.cutParts_eq hgrammar.brackets,
      itemsOf_eq_ok_iff]
    refine ⟨p.weight, ⟨hgrammar.weights, hweight⟩, p.items, ⟨hgrammar.parts, found, hfound, hitems⟩, ?_⟩
    rw [if_neg (by rwa [hitems, List.isEmpty_iff]), ← htext]

/-- A trigger compiles exactly if it is grammatical, and to the pattern that it is. -/
theorem compile_grammar (scope : Scope) (source : String) :
    ((∃ p, compile scope source = .ok p) ↔
      ∃ values o, Lifts (trim source.toList) o.written values ∧ Grammatical scope values o) ∧
    ∀ p, compile scope source = .ok p ↔ ∃ values o, Lifts (trim source.toList) o.written values ∧
      Grammatical scope values o ∧ Compiled scope (trim source.toList) values o p := by
  refine ⟨?_, fun p => compile_eq_ok_iff⟩
  simp only [compile_eq_ok_iff]
  constructor
  · rintro ⟨p, values, o, hlifts, hgrammar, -⟩
    exact ⟨values, o, hlifts, hgrammar⟩
  · intro ⟨values, o, hlifts, hgrammar⟩
    obtain ⟨found, hfound⟩ := exists_forall₂_iff.mpr fun part hpart => exists_stands (hgrammar.parts part hpart)
    obtain ⟨n, hn⟩ := exists_firstWeight hgrammar.weights
    exact ⟨{ text := _, items := _, weight := n }, values, o, hlifts, hgrammar, rfl, ⟨found, hfound, rfl⟩, hn⟩

end Repartee.Pattern
