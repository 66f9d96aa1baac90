/-
  Repartee.Proofs.Reserves — the words that the rest of a pattern needs.

  A wildcard leaves to the items after it the words that they need, and so does a group of any words. What the items from
  a place on need is added up from the last item backwards, by the width of each: one word for a word or a wildcard, the
  shortest alternative for a choice, nothing for an optional group. If it were too much, alignments would be missed; if it
  were too little, spans would be tried in vain.

  A choice without alternatives has a width too, although it takes nothing. But no trigger compiles to one, and so the
  widths of a compiled pattern are exact.

  Proved:
  - A choice of a compiled pattern has an alternative (`ne_nil_of_choice_mem`), and each wildcard accepts some word
    (`exists_accepts`), so every item can take as few words as its width says (`exists_takes`).
  - What items need one by one they need together: they align with so many words (`exists_aligns`), and with no fewer
    (`minWords_isLeast`).
  - What is held in reserve for the items from a place on is the least length of a message that they align with, and the
    least length of a message in which a search finds these items alone (`minWordsFrom_isLeast`).
-/

import Mathlib.Order.Bounds.Defs
import Repartee.Proofs.Literals

namespace Repartee.Pattern

variable {scope : Scope} {source : String} {p : Pattern} {item : Item} {items : List Item}

/-! ## What one item needs -/

theorem exists_accepts (k : Wildcard) : ∃ w, k.accepts w = true := by
  cases k with
  | any => exact ⟨"a", rfl⟩
  | digits => exact ⟨"0", by decide⟩
  | letters => exact ⟨"a", by decide +kernel⟩

/-- There is something that the item can take: a choice has an alternative. -/
def CanTake : Item → Prop
  | .choice alternatives => alternatives ≠ []
  | _ => True

/-- An item that can take something can do with as few words as its width says. -/
theorem exists_takes (h : CanTake item) : ∃ ws captured, Takes ws captured item ∧ ws.length = item.minWidth := by
  cases item with
  | word w => exact ⟨[w], [], ⟨rfl, rfl⟩, rfl⟩
  | wildcard k =>
    obtain ⟨w, hw⟩ := exists_accepts k
    exact ⟨[w], [Text.spaced [w]], ⟨by simp, by simpa using hw, rfl⟩, rfl⟩
  | choice alternatives =>
    cases hmin : (alternatives.map List.length).min? with
    | none => exact absurd (List.map_eq_nil_iff.mp (List.min?_eq_none_iff.mp hmin)) h
    | some n =>
      obtain ⟨ws, hws, hlength⟩ := List.mem_map.mp (List.min?_eq_some_iff.mp hmin).1
      refine ⟨ws, [Text.spaced ws], ⟨hws, rfl⟩, ?_⟩
      rw [Item.minWidth, hmin, hlength]
      rfl
  | optional alternatives => exact ⟨[], [], ⟨.inr (.inr rfl), rfl⟩, rfl⟩

/-- A group in round brackets compiles only if a word is left of some alternative. -/
theorem ne_nil_of_choice_mem (hp : compile scope source = .ok p) {alternatives : List (List String)}
    (hitem : .choice alternatives ∈ p.items) : alternatives ≠ [] := by
  obtain ⟨_, _, -, hgrammar, part, hpart, hstands⟩ := exists_part_of_mem hp hitem
  have hsound := hgrammar.parts part hpart
  cases hstands with
  | choice hoffers hfirsts =>
    rcases hsound.filled _ hoffers with ⟨a, ha, hne⟩ | ⟨hsquare, -⟩
    · have hkept : wordsLeft scope a ∈ alternatives :=
        (hfirsts.mem_iff _).mpr (List.mem_filter.mpr ⟨List.mem_map_of_mem ha, decide_eq_true hne⟩)
      exact List.ne_nil_of_mem hkept
    · cases hsquare

theorem canTake_of_compile (hp : compile scope source = .ok p) : ∀ item ∈ p.items, CanTake item := by
  intro item hitem
  cases item with
  | choice alternatives => exact ne_nil_of_choice_mem hp hitem
  | word w => trivial
  | wildcard k => trivial
  | optional alternatives => trivial

/-! ## What items need together -/

theorem exists_aligns (h : ∀ item ∈ items, CanTake item) :
    ∃ message captures, Aligns items message captures ∧ message.length = minWords items := by
  induction items with
  | nil => exact ⟨[], [], .nil, rfl⟩
  | cons item items ih =>
    obtain ⟨hitem, hitems⟩ := List.forall_mem_cons.mp h
    obtain ⟨ws, captured, htakes, hwidth⟩ := exists_takes hitem
    obtain ⟨message, captures, haligns, hlength⟩ := ih hitems
    refine ⟨ws ++ message, captured ++ captures, .cons htakes haligns, ?_⟩
    rw [List.length_append, hwidth, hlength, minWords]

theorem minWords_isLeast (h : ∀ item ∈ items, CanTake item) :
    IsLeast {n | ∃ message captures, Aligns items message captures ∧ message.length = n} (minWords items) := by
  refine ⟨exists_aligns h, ?_⟩
  rintro n ⟨message, captures, haligns, rfl⟩
  exact minWords_le haligns

/-! ## What is held in reserve -/

/-- The pattern of the items from `i` on. -/
def rest (p : Pattern) (i : ℕ) : Pattern := { p with items := p.items.drop i }

/-- With the last items alone, too, a search finds an alignment if there is one. -/
theorem align_rest_isSome_iff (hp : compile scope source = .ok p) {i : ℕ} {message : List String} :
    ((p.rest i).align message).isSome ↔ ∃ captures, Aligns (p.items.drop i) message captures := by
  apply align_isSome_iff
  intro item hitem
  exact anyWordsLast_of_compile hp item (List.mem_of_mem_drop hitem)

/-- What is held in reserve for the items from `i` on is the least length of a message that they align with. It is also
the least length of a message in which a search finds these items alone. -/
theorem minWordsFrom_isLeast (hp : compile scope source = .ok p) (i : ℕ) :
    IsLeast {n | ∃ message captures, Aligns (p.items.drop i) message captures ∧ message.length = n} (p.minWordsFrom i) ∧
      IsLeast {n | ∃ message, ((p.rest i).align message).isSome ∧ message.length = n} (p.minWordsFrom i) := by
  have hcan : ∀ item ∈ p.items.drop i, CanTake item := fun item hitem =>
    canTake_of_compile hp item (List.mem_of_mem_drop hitem)
  have hleast : IsLeast {n | ∃ message captures, Aligns (p.items.drop i) message captures ∧ message.length = n}
      (p.minWordsFrom i) := minWords_isLeast hcan
  refine ⟨hleast, ?_⟩
  simpa only [align_rest_isSome_iff hp, exists_and_right] using hleast

/-- After its first word this trigger needs the second alternative of its choice, which is the shorter one, nothing for
its optional group, and a word for each wildcard. -/
theorem minWordsFrom_isLeast_shades :
    let scope : Scope := { arrays := (∅ : Dict (List String)).put "shade" ["Dark blue", "red"], lexicon := .standard }
    let p : Pattern := ⟨"mix (@shade) [and|*] # _",
      [.word "mix", .choice [["dark", "blue"], ["red"]], .optional [.words ["and"], .anyWords], .wildcard .digits,
        .wildcard .letters], 0⟩
    compile scope "mix (@shade) [and|*] # _" = .ok p ∧ p.minWordsFrom 1 = 3 ∧
      IsLeast {n | ∃ message captures, Aligns (p.items.drop 1) message captures ∧ message.length = n} 3 ∧
      IsLeast {n | ∃ message, ((p.rest 1).align message).isSome ∧ message.length = n} 3 := by
  intro scope p
  have hp : compile scope "mix (@shade) [and|*] # _" = .ok p := by decide +kernel
  exact ⟨hp, rfl, minWordsFrom_isLeast hp 1⟩

end Repartee.Pattern
