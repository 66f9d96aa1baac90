/-
  Repartee.Proofs.Alignment — the search for an alignment finds the best one.

  `Aligns` says what an alignment is: every item takes some words, every word is taken, and the
  captures follow the items. `plain` searches for one by plain backtracking, with no memory and
  no words held in reserve, and defines which alignment is the best.

  Proved:
  - `plain` finds an alignment exactly if there is one (`plain_eq_none_iff`, `plain_sound`).
  - Holding words in reserve loses nothing, for items need as many words as they are said to
    need (`minWords_le`, `findSome?_moves`).
  - A place that was expanded need not be tried again (`Faithful`): if an alignment could follow
    from it, then one still does from a partial alignment above, which came from expanding it.
  - So the search answers as plain backtracking does, ends, and expands a place at most once,
    within the items and the words (`align_eq_plain`).
-/

import Repartee.Pattern.Align
import Repartee.Pattern.Reader
import Repartee.Proofs.Results

namespace Repartee.Pattern

/-! ## Alignments -/

/-- An item takes just these words and captures these texts. -/
def Takes (ws captured : List String) : Item → Prop
  | .word w => ws = [w] ∧ captured = []
  | .wildcard k => ws ≠ [] ∧ (∀ w ∈ ws, k.accepts w = true) ∧ captured = [Text.spaced ws]
  | .choice alternatives => ws ∈ alternatives ∧ captured = [Text.spaced ws]
  | .optional alternatives =>
    (.words ws ∈ alternatives ∨ .anyWords ∈ alternatives ∧ ws ≠ [] ∨ ws = []) ∧ captured = []

/-- The items take all the words, one after the other, with these captures. -/
inductive Aligns : List Item → List String → List String → Prop
  | nil : Aligns [] [] []
  | cons {item : Item} {items : List Item} {ws message captured captures : List String} :
      Takes ws captured item → Aligns items message captures →
      Aligns (item :: items) (ws ++ message) (captured ++ captures)

theorem minWidth_le_of_takes {item : Item} {ws captured : List String} (h : Takes ws captured item) :
    item.minWidth ≤ ws.length := by
  cases item with
  | word w => simp [h.1, Item.minWidth]
  | wildcard k => exact List.length_pos_iff.mpr h.1
  | choice alternatives =>
    have hmem : ws.length ∈ alternatives.map List.length := List.mem_map_of_mem h.1
    simp only [Item.minWidth]
    cases hmin : (alternatives.map List.length).min? with
    | none => simp [List.min?_eq_none_iff.mp hmin] at hmem
    | some n => exact (List.min?_eq_some_iff.mp hmin).2 _ hmem
  | optional alternatives => exact Nat.zero_le _

/-- Items cannot do with fewer words than they are said to need. -/
theorem minWords_le {items : List Item} {message captures : List String} (h : Aligns items message captures) :
    minWords items ≤ message.length := by
  induction h with
  | nil => exact Nat.zero_le _
  | cons ht _ ih =>
    have := minWidth_le_of_takes ht
    simp only [minWords, List.length_append]
    omega

/-! ## Plain backtracking -/

/-- The alternatives of an optional group that are given words. -/
def wordAlternatives (alternatives : List OptionAlt) : List (List String) :=
  alternatives.filterMap fun
    | .words ws => some ws
    | .anyWords => none

/-- The ways in which an item can take words from the front of a message, by preference. -/
def choices (message : List String) : Item → List Move
  | .word w => if [w] <+: message then [⟨1, []⟩] else []
  | .wildcard k =>
    ((downFrom message.length).filter fun n => (message.take n).all k.accepts).map fun n =>
      ⟨n, [Text.spaced (message.take n)]⟩
  | .choice alternatives =>
    (alternatives.filter (· <+: message)).map fun ws => ⟨ws.length, [Text.spaced ws]⟩
  | .optional alternatives =>
    ((wordAlternatives alternatives).filter (· <+: message)).map (fun ws => ⟨ws.length, []⟩) ++
      (if .anyWords ∈ alternatives then (downFrom message.length).map (⟨·, []⟩) else []) ++ [⟨0, []⟩]

/-- The captures of the best alignment, by trying the choices of every item in order. -/
def plain : List Item → List String → Option (List String)
  | [], message => if message = [] then some [] else none
  | item :: items, message =>
    (choices message item).findSome? fun m => (plain items (message.drop m.words)).map (m.captures ++ ·)

theorem mem_wordAlternatives {alternatives : List OptionAlt} {ws : List String} :
    ws ∈ wordAlternatives alternatives ↔ .words ws ∈ alternatives := by
  simp only [wordAlternatives, List.mem_filterMap]
  constructor
  · intro ⟨o, ho, h⟩
    cases o with
    | words ws' => cases h; exact ho
    | anyWords => cases h
  · intro h
    exact ⟨_, h, rfl⟩

theorem take_ne_nil_iff {message : List String} {n : Nat} (hn : n ≤ message.length) :
    message.take n ≠ [] ↔ 0 < n := by
  rw [← List.length_pos_iff, List.length_take, Nat.min_eq_left hn]

/-- The alternatives that a message begins with are its first words, so many of them. -/
theorem exists_prefix_iff {alternatives : List (List String)} {message : List String} {n : Nat} :
    (∃ ws, (ws ∈ alternatives ∧ ws <+: message) ∧ ws.length = n) ↔
      n ≤ message.length ∧ message.take n ∈ alternatives := by
  constructor
  · intro hex
    obtain ⟨ws, ⟨hws, hp⟩, rfl⟩ := hex
    rw [← List.prefix_iff_eq_take.mp hp]
    exact ⟨hp.length_le, hws⟩
  · intro ⟨hn, hmem⟩
    exact ⟨_, ⟨hmem, List.take_prefix n message⟩, by rw [List.length_take, Nat.min_eq_left hn]⟩

/-- An optional group takes one of its alternatives, any words if it may, or nothing. -/
theorem mem_choices_optional {message captured : List String} {alternatives : List OptionAlt} {n : Nat} :
    ⟨n, captured⟩ ∈ choices message (.optional alternatives) ↔
      n ≤ message.length ∧ Takes (message.take n) captured (.optional alternatives) := by
  simp only [choices, Takes, List.mem_append, List.mem_map, List.mem_filter, decide_eq_true_eq,
    List.mem_singleton, Move.mk.injEq]
  constructor
  · intro hex
    rcases hex with (⟨ws, h, rfl, rfl⟩ | h) | ⟨rfl, rfl⟩
    · obtain ⟨hn, hmem⟩ := exists_prefix_iff.mp ⟨ws, h, rfl⟩
      exact ⟨hn, .inl (mem_wordAlternatives.mp hmem), rfl⟩
    · split at h
      · rename_i hany
        obtain ⟨j, hj, he⟩ := List.mem_map.mp h
        cases he
        obtain ⟨hpos, hn⟩ := mem_downFrom.mp hj
        exact ⟨hn, .inr (.inl ⟨hany, (take_ne_nil_iff hn).mpr hpos⟩), rfl⟩
      · simp at h
    · exact ⟨Nat.zero_le _, .inr (.inr rfl), rfl⟩
  · intro hex
    rcases hex with ⟨hn, h | ⟨hany, hne⟩ | hnil, rfl⟩
    · obtain ⟨ws, hws, rfl⟩ := exists_prefix_iff.mpr ⟨hn, mem_wordAlternatives.mpr h⟩
      exact .inl (.inl ⟨ws, hws, rfl, rfl⟩)
    · refine .inl (.inr ?_)
      rw [if_pos hany]
      exact List.mem_map.mpr ⟨n, mem_downFrom.mpr ⟨(take_ne_nil_iff hn).mp hne, hn⟩, rfl⟩
    · have : ¬ 0 < n := fun hpos => (take_ne_nil_iff hn).mpr hpos hnil
      exact .inr ⟨by omega, rfl⟩

/-- The choices are the ways in which the item takes the first words of the message. -/
theorem mem_choices {message : List String} {item : Item} {m : Move} :
    m ∈ choices message item ↔ m.words ≤ message.length ∧ Takes (message.take m.words) m.captures item := by
  obtain ⟨n, captured⟩ := m
  cases item with
  | word w =>
    have h : n ≤ message.length ∧ message.take n = [w] ↔ [w] <+: message ∧ n = 1 := by
      simpa [and_comm, eq_comm] using (@exists_prefix_iff [[w]] message n).symm
    simp only [choices, Takes, ← and_assoc, h]
    split
    · rename_i hp
      simp [hp]
    · rename_i hp
      simp [hp]
  | wildcard k =>
    simp only [choices, Takes, List.mem_map, List.mem_filter, mem_downFrom, List.all_eq_true, Move.mk.injEq]
    constructor
    · intro hex
      obtain ⟨j, ⟨⟨hpos, hn⟩, hall⟩, rfl, rfl⟩ := hex
      exact ⟨hn, (take_ne_nil_iff hn).mpr hpos, hall, rfl⟩
    · intro hex
      obtain ⟨hn, hne, hall, rfl⟩ := hex
      exact ⟨n, ⟨⟨(take_ne_nil_iff hn).mp hne, hn⟩, hall⟩, rfl, rfl⟩
  | choice alternatives =>
    simp only [choices, Takes, List.mem_map, List.mem_filter, decide_eq_true_eq, Move.mk.injEq]
    rw [← and_assoc, ← exists_prefix_iff]
    constructor
    · intro hex
      obtain ⟨ws, h, rfl, rfl⟩ := hex
      exact ⟨⟨ws, h, rfl⟩, by rw [← List.prefix_iff_eq_take.mp h.2]⟩
    · intro hex
      obtain ⟨⟨ws, h, rfl⟩, rfl⟩ := hex
      exact ⟨ws, h, rfl, by rw [← List.prefix_iff_eq_take.mp h.2]⟩
  | optional alternatives => exact mem_choices_optional

theorem plain_sound {items : List Item} {message captures : List String} (h : plain items message = some captures) :
    Aligns items message captures := by
  induction items generalizing message captures with
  | nil =>
    simp only [plain] at h
    split at h
    · rename_i hnil
      cases h
      exact hnil ▸ .nil
    · cases h
  | cons item items ih =>
    obtain ⟨m, hm, h⟩ := List.exists_of_findSome?_eq_some h
    obtain ⟨rest, hrest, rfl⟩ := Option.map_eq_some_iff.mp h
    have := Aligns.cons (mem_choices.mp hm).2 (ih hrest)
    rwa [List.take_append_drop] at this

theorem plain_isSome_of_aligns {items : List Item} {message captures : List String}
    (h : Aligns items message captures) : (plain items message).isSome := by
  induction h with
  | nil => rfl
  | @cons item items ws message captured captures ht _ ih =>
    rw [plain, List.findSome?_isSome_iff]
    refine ⟨⟨ws.length, captured⟩, mem_choices.mpr ⟨by simp, by simpa using ht⟩, ?_⟩
    simpa using ih

/-- Plain backtracking fails only if there is no alignment. -/
theorem plain_eq_none_iff {items : List Item} {message : List String} :
    plain items message = none ↔ ¬ ∃ captures, Aligns items message captures := by
  constructor
  · intro h ⟨captures, ha⟩
    have := plain_isSome_of_aligns ha
    simp [h] at this
  · intro h
    cases hp : plain items message with
    | none => rfl
    | some captures => exact absurd ⟨captures, plain_sound hp⟩ h

theorem plain_eq_none_of_short {items : List Item} {message : List String} (h : message.length < minWords items) :
    plain items message = none := by
  rw [plain_eq_none_iff]
  intro ⟨captures, ha⟩
  have := minWords_le ha
  omega

/-! ## Words held in reserve -/

/-- What an optional group of a compiled pattern looks like: the alternative of any words is last. -/
def AnyWordsLast : Item → Prop
  | .optional alternatives =>
    alternatives = (wordAlternatives alternatives).map .words ++
      if .anyWords ∈ alternatives then [.anyWords] else []
  | _ => True

theorem anyWordsLast_optional (alternatives : List (List String)) (any : Bool) :
    AnyWordsLast (.optional (alternatives.map .words ++ if any then [.anyWords] else [])) := by
  have h : wordAlternatives (alternatives.map .words ++ if any then [.anyWords] else []) = alternatives := by
    rw [wordAlternatives, List.filterMap_append, List.filterMap_map]
    change alternatives.filterMap some ++ _ = alternatives
    rw [List.filterMap_some]
    cases any <;> simp
  simp only [AnyWordsLast, h]
  cases any <;> simp

theorem anyWordsLast_of_groupItem {scope : Scope} {text : String} {square : Bool} {body : List Char} {item : Item}
    (h : groupItem scope text square body = .ok item) : AnyWordsLast item := by
  simp only [groupItem, bind_eq_ok] at h
  obtain ⟨written, -, alts, -, h⟩ := h
  cases square with
  | false =>
    simp only [Bool.false_eq_true, if_false] at h
    split at h
    · cases h
    · cases h
      trivial
  | true =>
    simp only [if_true] at h
    by_cases he : (distinct (alts.filter (!·.isEmpty))).isEmpty &&
        (if (true && written.contains ['*']) = true then [OptionAlt.anyWords] else []).isEmpty
    · rw [if_pos he] at h
      cases h
    · rw [if_neg he] at h
      cases h
      exact anyWordsLast_optional _ _

theorem anyWordsLast_of_wordItem? {scope : Scope} {text : String} {cs : List Char} {item : Item}
    (h : wordItem? scope text cs = .ok (some item)) : AnyWordsLast item := by
  simp only [wordItem?] at h
  split at h
  · split at h
    · cases h
      trivial
    · cases h
  · obtain ⟨w, -, rfl⟩ := Option.map_eq_some_iff.mp (Except.ok.inj h)
    trivial

theorem anyWordsLast_of_itemsOf {scope : Scope} {text : String} {parts : List Part} {items : List Item}
    (h : itemsOf scope text parts = .ok items) : ∀ item ∈ items, AnyWordsLast item := by
  induction parts generalizing items with
  | nil =>
    cases h
    simp
  | cons part parts ih =>
    simp only [itemsOf, bind_eq_ok] at h
    obtain ⟨item, hitem, rest, hrest, h⟩ := h
    cases h
    intro i hi
    rcases List.mem_append.mp hi with hi | hi
    · obtain rfl : item = some i := Option.mem_toList.mp hi
      cases part with
      | word cs => exact anyWordsLast_of_wordItem? hitem
      | group square body =>
        simp only [partItem?, map_eq_ok] at hitem
        obtain ⟨i, hg, he⟩ := hitem
        cases he
        exact anyWordsLast_of_groupItem hg
      | unbalanced bracket => cases hitem
    · exact ih hrest i hi

theorem anyWordsLast_of_compile {scope : Scope} {source : String} {p : Pattern}
    (h : compile scope source = .ok p) : ∀ item ∈ p.items, AnyWordsLast item := by
  simp only [compile, bind_eq_ok] at h
  obtain ⟨weight, -, h⟩ := h
  split at h
  · cases h
  · simp only [bind_eq_ok] at h
    obtain ⟨items, hitems, h⟩ := h
    split at h
    · cases h
    · cases h
      exact anyWordsLast_of_itemsOf hitems

section

variable {α β : Type}

theorem findSome?_congr {l : List α} {f g : α → Option β} (h : ∀ x ∈ l, f x = g x) :
    l.findSome? f = l.findSome? g := by
  induction l with
  | nil => rfl
  | cons x l ih =>
    simp only [List.findSome?_cons]
    rw [h x List.mem_cons_self, ih fun y hy => h y (List.mem_cons_of_mem _ hy)]

theorem findSome?_filter (l : List α) (p : α → Bool) (f : α → Option β) :
    (l.filter p).findSome? f = l.findSome? fun x => if p x then f x else none := by
  induction l with
  | nil => rfl
  | cons x l ih =>
    by_cases hx : p x = true
    · simp [hx, ih, List.findSome?_cons]
    · simp [hx, ih]

/-- Numbers that are tried in vain need not be tried. -/
theorem findSome?_downFrom {n m : Nat} {f : Nat → Option β} (hle : m ≤ n)
    (hnone : ∀ k, m < k → k ≤ n → f k = none) : (downFrom n).findSome? f = (downFrom m).findSome? f := by
  induction n with
  | zero =>
    obtain rfl : m = 0 := by omega
    rfl
  | succ n ih =>
    by_cases he : m = n + 1
    · rw [he]
    · rw [downFrom, List.findSome?_cons, hnone (n + 1) (by omega) (Nat.le_refl _)]
      exact ih (by omega) fun k hk hkn => hnone k hk (by omega)

theorem all_take_iff {l : List α} {p : α → Bool} {n : Nat} (hn : n ≤ l.length) :
    (l.take n).all p = true ↔ n ≤ (l.takeWhile p).length := by
  induction l generalizing n with
  | nil =>
    obtain rfl : n = 0 := by simpa using hn
    simp
  | cons x l ih =>
    cases n with
    | zero => simp
    | succ n =>
      simp only [List.length_cons, Nat.succ_le_succ_iff] at hn
      by_cases hx : p x = true
      · simp only [List.take_succ_cons, List.all_cons, hx, Bool.true_and, ih hn, List.takeWhile_cons, if_true,
          List.length_cons, Nat.succ_le_succ_iff]
      · simp [hx]

end

theorem span_eq_min (k : Wildcard) (reserve : Nat) (message : List String) :
    span k reserve message = min (message.length - reserve) (message.takeWhile k.accepts).length := by
  rw [span, ← List.take_takeWhile, List.length_take]

theorem flatMap_optionMoves (reserve : Nat) (message : List String) (alternatives : List (List String)) :
    (alternatives.map OptionAlt.words).flatMap (optionMoves reserve message) =
      (alternatives.filter (· <+: message)).map fun ws => ⟨ws.length, []⟩ := by
  induction alternatives with
  | nil => rfl
  | cons ws alternatives ih =>
    simp only [List.map_cons, List.flatMap_cons, ih, optionMoves]
    by_cases hp : ws <+: message
    · simp [hp, List.isPrefixOf_iff_prefix.mpr hp]
    · have : ¬ ws.isPrefixOf message = true := fun h => hp (List.isPrefixOf_iff_prefix.mp h)
      simp [hp, this]

/-- Moves that leave too few words in reserve can be left out if nothing follows from them. -/
theorem findSome?_moves {item : Item} {message : List String} {reserve : Nat} {β : Type} {f : Move → Option β}
    (hi : AnyWordsLast item) (hf : ∀ m, m.words ≤ message.length → message.length < m.words + reserve → f m = none) :
    (moves reserve message item).findSome? f = (choices message item).findSome? f := by
  cases item with
  | word w =>
    have h : [w] <+: message ↔ message.head? = some w := by
      cases message <;> simp [eq_comm]
    simp only [moves, choices, h]
  | wildcard k =>
    have hspan := span_eq_min k reserve message
    have hle := span_le k reserve message
    simp only [moves, choices, List.findSome?_map, findSome?_filter]
    rw [findSome?_downFrom hle]
    · refine findSome?_congr fun n hn => ?_
      obtain ⟨-, hn⟩ := mem_downFrom.mp hn
      have hall : (message.take n).all k.accepts = true := (all_take_iff (by omega)).mpr (by omega)
      simp [hall]
    · intro n hlt hn
      by_cases hall : (message.take n).all k.accepts = true
      · have := (all_take_iff hn).mp hall
        simp only [hall, if_true]
        exact hf _ hn (by simp only; omega)
      · simp [hall]
  | choice alternatives =>
    have h : (fun ws : List String => ws.isPrefixOf message) = fun ws => decide (ws <+: message) := by
      funext ws
      rw [Bool.eq_iff_iff, List.isPrefixOf_iff_prefix, decide_eq_true_eq]
    simp only [moves, choices, h]
  | optional alternatives =>
    have h : alternatives.flatMap (optionMoves reserve message) =
        ((wordAlternatives alternatives).filter (· <+: message)).map (fun ws => ⟨ws.length, []⟩) ++
          if .anyWords ∈ alternatives then (downFrom (message.length - reserve)).map (⟨·, []⟩) else [] := by
      conv => lhs; rw [hi]
      rw [List.flatMap_append, flatMap_optionMoves]
      split <;> simp [optionMoves]
    simp only [moves, choices, h, List.findSome?_append]
    split
    · simp only [List.findSome?_map]
      rw [findSome?_downFrom (Nat.sub_le message.length reserve)]
      intro n hlt hn
      exact hf _ hn (by simp only; omega)
    · rfl

/-- The best alignment, by the moves that leave the words which the later items need. -/
theorem plain_cons {item : Item} (hi : AnyWordsLast item) (items : List Item) (message : List String) :
    plain (item :: items) message = (moves (minWords items) message item).findSome? fun m =>
      (plain items (message.drop m.words)).map (m.captures ++ ·) := by
  rw [plain, findSome?_moves hi]
  intro m hle hlt
  rw [plain_eq_none_of_short, Option.map_none]
  simp only [List.length_drop]
  omega

/-! ## Places that were expanded -/

/-- The captures of the best alignment that extends a partial one. -/
def outcome (p : Pattern) (message : List String) (a : Partial) : Option (List String) :=
  (plain (p.items.drop a.item) (message.drop a.position)).map (a.captures ++ ·)

/-- An alignment can follow from a place. -/
def Solvable (p : Pattern) (message : List String) (q : Nat × Nat) : Prop :=
  plain (p.items.drop q.1) (message.drop q.2) ≠ none

/-- Where an alignment can follow from an expanded place, one follows from a partial alignment on
top of the stack, among those that have used more items. -/
def Faithful (p : Pattern) (message : List String) (s : Search) : Prop :=
  ∀ q ∈ s.seen, p.Solvable message q → ∃ a ∈ s.stack.takeWhile (q.1 < ·.item), p.Solvable message a.place

/-- What the stack holds out. -/
def promise (p : Pattern) (message : List String) (s : Search) : Option (List String) :=
  s.stack.findSome? (p.outcome message)

theorem outcome_eq_none_iff {p : Pattern} {message : List String} {a : Partial} :
    p.outcome message a = none ↔ ¬ p.Solvable message a.place := by
  simp [outcome, Solvable, Partial.place]

theorem outcome_advance (p : Pattern) (message : List String) (a : Partial) (m : Move) :
    p.outcome message (a.advance m) =
      ((plain (p.items.drop (a.item + 1)) ((message.drop a.position).drop m.words)).map (m.captures ++ ·)).map
        (a.captures ++ ·) := by
  simp only [outcome, Partial.advance, List.drop_drop, Option.map_map]
  congr 1
  funext rest
  simp

/-- Expanding a partial alignment keeps what it holds out. -/
theorem findSome?_continuations {p : Pattern} {message : List String} {a : Partial} {next : Item}
    (hp : ∀ item ∈ p.items, AnyWordsLast item) (hnext : p.items[a.item]? = some next) :
    (p.continuations message a next).findSome? (p.outcome message) = p.outcome message a := by
  obtain ⟨hlt, hget⟩ := List.getElem?_eq_some_iff.mp hnext
  have hdrop : p.items.drop a.item = next :: p.items.drop (a.item + 1) := by
    rw [List.drop_eq_getElem_cons hlt, hget]
  have hlast : AnyWordsLast next := hp next (List.mem_of_getElem? hnext)
  rw [outcome, hdrop, plain_cons hlast, continuations, minWordsFrom, List.findSome?_map]
  simp only [Function.comp_def, outcome_advance]
  rw [List.map_findSome?]
  rfl

theorem exists_solvable_continuation {p : Pattern} {message : List String} {a : Partial} {next : Item}
    (hp : ∀ item ∈ p.items, AnyWordsLast item) (hnext : p.items[a.item]? = some next)
    (h : p.Solvable message a.place) : ∃ b ∈ p.continuations message a next, p.Solvable message b.place := by
  have ha : p.outcome message a ≠ none := fun hn => outcome_eq_none_iff.mp hn h
  rw [← findSome?_continuations hp hnext, Ne, List.findSome?_eq_none_iff] at ha
  apply Classical.byContradiction
  intro hnone
  exact ha fun b hb => outcome_eq_none_iff.mpr fun hbs => hnone ⟨b, hb, hbs⟩

theorem item_of_mem_continuations {p : Pattern} {message : List String} {a b : Partial} {next : Item}
    (h : b ∈ p.continuations message a next) : b.item = a.item + 1 := by
  obtain ⟨m, -, rfl⟩ := List.mem_map.mp h
  rfl

/-- What holds of every search on its way. -/
structure Sound (p : Pattern) (message : List String) (s : Search) : Prop where
  inside : p.Inside message s
  seenOnce : s.seen.Nodup
  seenInside : ∀ q ∈ s.seen, q.1 < p.items.length ∧ q.2 ≤ message.length
  faithful : p.Faithful message s

theorem sound_start (p : Pattern) (message : List String) : p.Sound message start :=
  ⟨p.inside_start message, List.nodup_nil, by simp [start], by simp [Faithful, start]⟩

/-- Nothing follows from a partial alignment that a step drops. -/
theorem not_solvable_of_dropped {p : Pattern} {message : List String} {s : Search} {a : Partial} {stack : List Partial}
    (hs : p.Sound message s) (hstack : s.stack = a :: stack)
    (h : p.items[a.item]? = none ∧ a.position ≠ message.length ∨ p.items[a.item]? ≠ none ∧ a.place ∈ s.seen) :
    ¬ p.Solvable message a.place := by
  intro hsolv
  rcases h with ⟨hend, hpos⟩ | ⟨-, hseen⟩
  · have hle := (hs.inside a (by simp [hstack])).2
    have hitems : p.items.drop a.item = [] := List.drop_eq_nil_of_le (List.getElem?_eq_none_iff.mp hend)
    have hwords : message.drop a.position ≠ [] := by
      rw [Ne, List.drop_eq_nil_iff]
      omega
    simp [Solvable, Partial.place, hitems, plain, hwords] at hsolv
  · obtain ⟨b, hb, -⟩ := hs.faithful _ hseen hsolv
    simp [hstack, Partial.place] at hb

theorem faithful_drop {p : Pattern} {message : List String} {s : Search} {a : Partial} {stack : List Partial}
    (h : p.Faithful message s) (hstack : s.stack = a :: stack) (ha : ¬ p.Solvable message a.place) :
    p.Faithful message { s with stack } := by
  intro q hq hsolv
  obtain ⟨b, hb, hbs⟩ := h q hq hsolv
  rw [hstack, List.takeWhile_cons] at hb
  split at hb
  · rcases List.mem_cons.mp hb with rfl | hb
    · exact absurd hbs ha
    · exact ⟨b, hb, hbs⟩
  · simp at hb

theorem faithful_expand {p : Pattern} {message : List String} {s : Search} {a : Partial} {stack : List Partial}
    {next : Item} (hp : ∀ item ∈ p.items, AnyWordsLast item) (h : p.Faithful message s)
    (hstack : s.stack = a :: stack) (hnext : p.items[a.item]? = some next) :
    p.Faithful message { stack := p.continuations message a next ++ stack, seen := a.place :: s.seen } := by
  intro q hq hsolv
  -- The continuations have used more items than any place whose hope was the expanded one.
  have habove : q.1 ≤ a.item →
      (p.continuations message a next ++ stack).takeWhile (q.1 < ·.item) =
        p.continuations message a next ++ stack.takeWhile (q.1 < ·.item) := by
    intro hle
    refine List.takeWhile_append_of_pos fun b hb => ?_
    have := item_of_mem_continuations hb
    simp only [decide_eq_true_eq]
    omega
  have hexpanded : q.1 ≤ a.item → p.Solvable message a.place →
      ∃ b ∈ (p.continuations message a next ++ stack).takeWhile (q.1 < ·.item), p.Solvable message b.place := by
    intro hle ha
    obtain ⟨b, hb, hbs⟩ := exists_solvable_continuation hp hnext ha
    exact ⟨b, habove hle ▸ List.mem_append_left _ hb, hbs⟩
  rcases List.mem_cons.mp hq with rfl | hq
  · exact hexpanded (Nat.le_refl _) hsolv
  · obtain ⟨b, hb, hbs⟩ := h q hq hsolv
    rw [hstack, List.takeWhile_cons] at hb
    split at hb
    · rename_i hlt
      have hle : q.1 ≤ a.item := Nat.le_of_lt (by simpa using hlt)
      rcases List.mem_cons.mp hb with rfl | hb
      · exact hexpanded hle hbs
      · exact ⟨b, habove hle ▸ List.mem_append_right _ hb, hbs⟩
    · simp at hb

theorem sound_step {p : Pattern} {message : List String} {s s' : Search}
    (hp : ∀ item ∈ p.items, AnyWordsLast item) (hs : p.Sound message s) (h : p.step message s = .working s') :
    p.Sound message s' := by
  have hinside := inside_step hs.inside h
  obtain ⟨a, stack, hstack, ⟨rfl, hdrop⟩ | ⟨next, hnext, hseen, rfl⟩⟩ := step_working h
  · exact ⟨hinside, hs.seenOnce, hs.seenInside,
      faithful_drop hs.faithful hstack (not_solvable_of_dropped hs hstack hdrop)⟩
  · refine ⟨hinside, List.nodup_cons.mpr ⟨hseen, hs.seenOnce⟩, ?_, faithful_expand hp hs.faithful hstack hnext⟩
    intro q hq
    rcases List.mem_cons.mp hq with rfl | hq
    · exact ⟨(List.getElem?_eq_some_iff.mp hnext).1, (hs.inside a (by simp [hstack])).2⟩
    · exact hs.seenInside q hq

/-! ## The whole search -/

theorem promise_step {p : Pattern} {message : List String} {s s' : Search}
    (hp : ∀ item ∈ p.items, AnyWordsLast item) (hs : p.Sound message s) (h : p.step message s = .working s') :
    p.promise message s' = p.promise message s := by
  obtain ⟨a, stack, hstack, ⟨rfl, hdrop⟩ | ⟨next, hnext, -, rfl⟩⟩ := step_working h
  · have ha := outcome_eq_none_iff.mpr (not_solvable_of_dropped hs hstack hdrop)
    simp only [promise, hstack, List.findSome?_cons, ha]
  · simp only [promise, hstack, List.findSome?_append, findSome?_continuations hp hnext, List.findSome?_cons]
    cases p.outcome message a <;> rfl

/-- A search that is done has found what its stack holds out. -/
theorem promise_done {p : Pattern} {message : List String} {s : Search} {captures : Option (List String)}
    (h : p.step message s = .done captures) : p.promise message s = captures := by
  simp only [step] at h
  split at h
  · rename_i hstack
    cases h
    simp [promise, hstack]
  · rename_i a stack hstack
    split at h
    · rename_i hend
      split at h
      · rename_i hpos
        cases h
        have hitems : p.items.drop a.item = [] := List.drop_eq_nil_of_le (List.getElem?_eq_none_iff.mp hend)
        simp [promise, hstack, outcome, hitems, hpos, plain]
      · cases h
    · split at h
      · cases h
      · cases h

theorem run_eq_promise {p : Pattern} {message : List String} {s : Search}
    (hp : ∀ item ∈ p.items, AnyWordsLast item) (hs : p.Sound message s) (hin : p.Inside message s) :
    p.run message s hin = p.promise message s := by
  fun_induction run p message s hin with
  | case1 s hin captures h => exact (promise_done h).symm
  | case2 s hin s' h ih => rw [ih (sound_step hp hs h), promise_step hp hs h]

/-- The searches that come up on the way to an alignment. -/
inductive Reach (p : Pattern) (message : List String) : Search → Prop
  | start : Reach p message start
  | step {s s' : Search} : Reach p message s → p.step message s = .working s' → Reach p message s'

theorem Reach.sound {p : Pattern} {message : List String} {s : Search}
    (hp : ∀ item ∈ p.items, AnyWordsLast item) (h : p.Reach message s) : p.Sound message s := by
  induction h with
  | start => exact p.sound_start message
  | step _ hstep ih => exact sound_step hp ih hstep

/-- A search ends, with the answer of its run. -/
theorem exists_done {p : Pattern} {message : List String} {s : Search} (hr : p.Reach message s)
    (hin : p.Inside message s) : ∃ s', p.Reach message s' ∧ p.step message s' = .done (p.run message s hin) := by
  fun_induction run p message s hin with
  | case1 s hin captures h => exact ⟨s, hr, h⟩
  | case2 s hin s' h ih => exact ih (hr.step h)

/-- A search from the start is plain backtracking. -/
theorem align_of_anyWordsLast {p : Pattern} (hp : ∀ item ∈ p.items, AnyWordsLast item) (message : List String) :
    p.align message = plain p.items message := by
  rw [align, run_eq_promise hp (p.sound_start message)]
  simp [promise, start, outcome]

theorem align_isSome_iff {p : Pattern} (hp : ∀ item ∈ p.items, AnyWordsLast item) {message : List String} :
    (p.align message).isSome ↔ ∃ captures, Aligns p.items message captures := by
  rw [align_of_anyWordsLast hp, Option.isSome_iff_ne_none, Ne, plain_eq_none_iff, Classical.not_not]

/-- The search for an alignment answers as plain backtracking does: with nothing exactly if there
is no alignment, else with the captures of the best one. It ends, and on its way it expands every
place once at most and never goes past the last word. -/
theorem align_eq_plain {scope : Scope} {source : String} {p : Pattern} (h : compile scope source = .ok p)
    (message : List String) :
    p.align message = plain p.items message ∧
      (p.align message = none ↔ ¬ ∃ captures, Aligns p.items message captures) ∧
      (∀ captures, p.align message = some captures → Aligns p.items message captures) ∧
      (∃ s, p.Reach message s ∧ p.step message s = .done (p.align message)) ∧
      ∀ s, p.Reach message s →
        s.seen.Nodup ∧ (∀ q ∈ s.seen, q.1 < p.items.length ∧ q.2 ≤ message.length) ∧ p.Inside message s := by
  have hp := anyWordsLast_of_compile h
  have hplain : p.align message = plain p.items message := by
    rw [align, run_eq_promise hp (p.sound_start message)]
    simp [promise, start, outcome]
  refine ⟨hplain, ?_, ?_, exists_done .start (p.inside_start message), ?_⟩
  · rw [hplain, plain_eq_none_iff]
  · intro captures hc
    exact plain_sound (hplain ▸ hc)
  · intro s hs
    have := hs.sound hp
    exact ⟨this.seenOnce, this.seenInside, this.inside⟩

/-- A group of any words gives back what a choice after it needs. -/
theorem align_eq_plain_any_words_before_choice :
    compile { arrays := ∅, lexicon := .standard } "* [*] (a|b c) y" =
        .ok ⟨"* [*] (a|b c) y",
          [.wildcard .any, .optional [.anyWords], .choice [["a"], ["b", "c"]], .word "y"], 0⟩ ∧
      align ⟨"* [*] (a|b c) y",
          [.wildcard .any, .optional [.anyWords], .choice [["a"], ["b", "c"]], .word "y"], 0⟩
          ["x", "a", "b", "c", "y"] = some ["x a", "b c"] := by
  have h : compile { arrays := ∅, lexicon := .standard } "* [*] (a|b c) y" =
      .ok ⟨"* [*] (a|b c) y",
        [.wildcard .any, .optional [.anyWords], .choice [["a"], ["b", "c"]], .word "y"], 0⟩ :=
    by decide +kernel
  exact ⟨h, (align_eq_plain h _).1.trans (by decide +kernel)⟩

end Repartee.Pattern
