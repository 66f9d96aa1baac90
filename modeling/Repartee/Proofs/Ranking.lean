/-
  Repartee.Proofs.Ranking — a ranking has the candidates of a pool in the order of their keys.

  `priority` states the key as one value of an ordered type, and reads the category and the two counts
  off the items of the pattern rather than off its flags and its own counts.

  Proved:
  - The flags of a pattern give the category that its items have (`rank_category`), and its counts are
    the numbers of wildcards and optional groups and of words and choices (`counts_eq`).
  - Keys compare as the ordered type does (`compare_isLE_iff`), so ranked entries are in order.
  - Each band of a ranking has the candidates on its side of the `%` line (`mem_band`), and the
    first of a band that fits comes before all others that fit (`first_of_band`).
-/

import Mathlib.Data.Prod.Lex
import Mathlib.Order.OrderDual
import Mathlib.Data.Bool.Basic
import Repartee.Catalog.Ranking

namespace Repartee

/-! ## The category and the counts of a pattern -/

/-- How open items are, from 0 for the narrowest to 3 for nothing but `*`. -/
def tier (items : List Item) : Nat :=
  if ∀ i ∈ items, i = .wildcard .any then 3
  else if ∃ i ∈ items, i.isOptional then 2
  else if ∃ i ∈ items, i.isWildcard then 1
  else 0

/-- The wildcards and optional groups among items. -/
def openItems : List Item → ℕ
  | [] => 0
  | .wildcard _ :: items | .optional _ :: items => openItems items + 1
  | .word _ :: items | .choice _ :: items => openItems items

/-- The words and choices among items. -/
def closedItems : List Item → ℕ
  | [] => 0
  | .word _ :: items | .choice _ :: items => closedItems items + 1
  | .wildcard _ :: items | .optional _ :: items => closedItems items

namespace Pattern

theorem isStar_iff {i : Item} : i.isStar = true ↔ i = .wildcard .any := by
  cases i with
  | wildcard k => cases k <;> simp [Item.isStar]
  | _ => simp [Item.isStar]

/-- Going through the items finds an optional group, or a wildcard, exactly if there is one. -/
theorem foldl_flags (items : List Item) (f : Flags) :
    let found := items.foldl (fun f i => f.union i.flags) f
    found.optional = (f.optional || items.any Item.isOptional) ∧
      found.wildcard = (f.wildcard || items.any Item.isWildcard) ∧ found.catchAll = f.catchAll := by
  induction items generalizing f with
  | nil => simp
  | cons i items ih =>
    obtain ⟨hopt, hwild, hcatch⟩ := ih (f.union i.flags)
    simp only [List.foldl_cons, List.any_cons, hopt, hwild, hcatch]
    rcases i with w | (_ | _ | _) | alternatives | alternatives <;>
      simp [Flags.union, Flags.wildcard, Item.flags, Item.isOptional, Item.isWildcard,
        Bool.or_assoc, Bool.or_comm, Bool.or_left_comm]

theorem rank_category (p : Pattern) : p.category.rank = tier p.items := by
  obtain ⟨hopt, hwild, hcatch⟩ := foldl_flags p.items {}
  by_cases hall : p.items.all Item.isStar
  · have hstars : ∀ i ∈ p.items, i = .wildcard .any := fun i hi => isStar_iff.mp (List.all_eq_true.mp hall i hi)
    simp only [category, flags, if_pos hall, tier, if_pos hstars, Flags.union, Bool.or_true, if_true, Category.rank]
  · have hstars : ¬ ∀ i ∈ p.items, i = .wildcard .any := fun h =>
      hall (List.all_eq_true.mpr fun i hi => isStar_iff.mpr (h i hi))
    simp only [category, flags, if_neg hall, tier, if_neg hstars, hopt, hwild, hcatch]
    by_cases ho : ∃ i ∈ p.items, i.isOptional
    · simp [ho, Category.rank]
    · by_cases hw : ∃ i ∈ p.items, i.isWildcard
      · simp [ho, hw, Flags.wildcard, Category.rank]
      · simp [ho, hw, Flags.wildcard, Category.rank]

theorem counts_eq (p : Pattern) : p.openCount = openItems p.items ∧ p.closedCount = closedItems p.items := by
  rw [openCount, closedCount]
  induction p.items with
  | nil => exact ⟨rfl, rfl⟩
  | cons i items ih =>
    rw [List.countP_cons, List.countP_cons, ih.1, ih.2]
    cases i <;> exact ⟨rfl, rfl⟩

end Pattern

/-! ## The key as an ordered value -/

/-- Where a candidate stands among all others: the least answers first. -/
def priority (t : Trigger) (e : Candidate) (position : ℕ) :
    Bool ×ₗ ℕᵒᵈ ×ₗ ℕ ×ₗ ℕ ×ₗ Bool ×ₗ ℕ ×ₗ ℕᵒᵈ ×ₗ ℕ :=
  toLex (t.previous.isNone, toLex (OrderDual.toDual t.pattern.weight, toLex (e.depth,
    toLex (tier t.pattern.items, toLex (e.included, toLex (openItems t.pattern.items,
      toLex (OrderDual.toDual (closedItems t.pattern.items), position)))))))

def RankKey.order (k : RankKey) : ℕᵒᵈ ×ₗ ℕ ×ₗ ℕ ×ₗ Bool ×ₗ ℕ ×ₗ ℕᵒᵈ ×ₗ ℕ :=
  toLex (OrderDual.toDual k.weight, toLex (k.depth, toLex (k.category, toLex (k.included,
    toLex (k.openCount, toLex (OrderDual.toDual k.closedCount, k.position))))))

theorem isLE_then_iff {α : Type} [LinearOrder α] {x y : α} {o : Ordering} :
    ((compare x y).then o).isLE ↔ x < y ∨ x = y ∧ o.isLE := by
  rcases lt_trichotomy x y with h | h | h
  · simp [compare_lt_iff_lt.mpr h, h]
  · simp [h]
  · simp [compare_gt_iff_gt.mpr h, h.not_gt, h.ne']

theorem RankKey.compare_isLE_iff {a b : RankKey} : (a.compare b).isLE ↔ a.order ≤ b.order := by
  simp only [RankKey.compare, RankKey.order, isLE_then_iff, Prod.Lex.toLex_le_toLex, OrderDual.toDual_lt_toDual,
    OrderDual.toDual_inj, Nat.isLE_compare, eq_comm (a := b.weight), eq_comm (a := b.closedCount)]

theorem priority_eq (t : Trigger) (e : Candidate) (n : ℕ) :
    priority t e n = toLex (t.previous.isNone, (rankKey t.pattern e n).order) := by
  rw [priority, RankKey.order, rankKey, Pattern.rank_category, t.pattern.counts_eq.1, t.pattern.counts_eq.2]

/-- Candidates of one band stand as their keys do. -/
theorem priority_le_iff {t t' : Trigger} {e e' : Candidate} {n n' : ℕ}
    (h : t.previous.isSome = t'.previous.isSome) :
    priority t e n ≤ priority t' e' n' ↔ (rankKey t.pattern e n).order ≤ (rankKey t'.pattern e' n').order := by
  have hnone : t.previous.isNone = t'.previous.isNone := by
    rw [← Option.not_isSome, ← Option.not_isSome, h]
  simp [priority_eq, Prod.Lex.toLex_le_toLex, hnone]

theorem position_eq_of_priority_eq {t t' : Trigger} {e e' : Candidate} {n n' : ℕ}
    (h : priority t e n = priority t' e' n') : n = n' := by
  simp only [priority, toLex_inj, Prod.mk.injEq] at h
  exact h.2.2.2.2.2.2.2

/-- The constrained come before the ordinary. -/
theorem priority_le_of_constrained {t t' : Trigger} {e e' : Candidate} {n n' : ℕ}
    (h : t.previous.isSome = true) (h' : t'.previous.isSome = false) : priority t e n ≤ priority t' e' n' := by
  rw [priority_eq, priority_eq, Prod.Lex.toLex_le_toLex]
  left
  rw [← Option.not_isSome, ← Option.not_isSome, h, h']
  exact Bool.false_lt_true

namespace Catalog

/-! ## Ranked entries -/

/-- Ranked entries are the same entries, in the order of their keys. -/
theorem exists_ranked (entries : List (RankKey × Candidate)) :
    ∃ sorted : List (RankKey × Candidate), sorted.Perm entries ∧ sorted.Pairwise (fun a b => a.1.order ≤ b.1.order) ∧
      ranked entries = sorted.map (·.2) := by
  refine ⟨entries.mergeSort fun a b => (a.1.compare b.1).isLE, List.mergeSort_perm _ _, ?_, rfl⟩
  refine (List.pairwise_mergeSort ?_ ?_ entries).imp RankKey.compare_isLE_iff.mp
  · intro a b c hab hbc
    rw [RankKey.compare_isLE_iff] at *
    exact hab.trans hbc
  · intro a b
    rw [Bool.or_eq_true, RankKey.compare_isLE_iff, RankKey.compare_isLE_iff]
    exact le_total _ _

theorem mem_ranked {entries : List (RankKey × Candidate)} {e : Candidate} :
    e ∈ ranked entries ↔ ∃ k, (k, e) ∈ entries := by
  obtain ⟨sorted, hperm, -, heq⟩ := exists_ranked entries
  simp only [heq, List.mem_map, hperm.mem_iff, Prod.exists, exists_eq_right]

/-- The first that fits among ranked entries has the least key of all that fit. -/
theorem first_of_ranked {entries : List (RankKey × Candidate)} {p : Candidate → Prop}
    {before after : List Candidate} {e : Candidate} (h : ranked entries = before ++ e :: after)
    (hbefore : ∀ x ∈ before, ¬ p x) :
    ∃ k, (k, e) ∈ entries ∧ ∀ k' e', (k', e') ∈ entries → p e' → k.order ≤ k'.order := by
  obtain ⟨sorted, hperm, hsorted, heq⟩ := exists_ranked entries
  obtain ⟨front, back, rfl, rfl, hback⟩ := List.map_eq_append_iff.mp (heq.symm.trans h)
  obtain ⟨⟨k, e⟩, back, rfl, rfl, rfl⟩ := List.map_eq_cons_iff.mp hback
  refine ⟨k, hperm.mem_iff.mp (by simp), fun k' e' he' hfits => ?_⟩
  rcases List.mem_append.mp (hperm.mem_iff.mpr he') with hmem | hmem
  · exact absurd hfits (hbefore e' (List.mem_map_of_mem hmem))
  · rcases List.mem_cons.mp hmem with heq | hmem
    · cases heq
      exact le_refl _
    · exact (List.pairwise_cons.mp (List.pairwise_append.mp hsorted).2.1).1 _ hmem

/-! ## The bands of a ranking -/

variable {c : Catalog} {pool : List Candidate}

/-- The pool has this candidate at this place, and the catalog its trigger. -/
def Offers (c : Catalog) (pool : List Candidate) (n : ℕ) (e : Candidate) (t : Trigger) : Prop :=
  pool[n]? = some e ∧ c.triggers[e.trigger]? = some t

/-- No candidate of the pool has a trigger of this kind. -/
def OffersNo (c : Catalog) (pool : List Candidate) (p : Trigger → Prop) : Prop :=
  ∀ n e t, c.Offers pool n e t → ¬ p t

/-- Of the pool's candidates whose triggers fit, this one is the least. -/
structure Best (c : Catalog) (pool : List Candidate) (p : Trigger → Prop) (n : ℕ) (e : Candidate)
    (t : Trigger) : Prop where
  offers : c.Offers pool n e t
  fits : p t
  least : ∀ n' e' t', c.Offers pool n' e' t' → p t' → priority t e n ≤ priority t' e' n'

/-- The pool's candidates with a `%` line, or those without, with their keys. -/
def band (c : Catalog) (pool : List Candidate) (constrained : Bool) : List (RankKey × Candidate) :=
  (pool.zipIdx.filterMap c.keyed?).filter fun e => c.isConstrained e.2 == constrained

theorem rank_eq (c : Catalog) (pool : List Candidate) :
    c.rank pool =
      { constrained := ranked (c.band pool true)
        ordinary := ranked (c.band pool false)
        catchAll := (ranked (c.band pool false)).find? c.isBareStar } := by
  simp only [rank, List.partition_eq_filter_filter, band, beq_true, beq_false, Function.comp_def]

theorem mem_band {constrained : Bool} {k : RankKey} {e : Candidate} :
    (k, e) ∈ c.band pool constrained ↔
      ∃ n t, c.Offers pool n e t ∧ t.previous.isSome = constrained ∧ k = rankKey t.pattern e n := by
  simp only [band, List.mem_filter, List.mem_filterMap, keyed?, Option.map_eq_some_iff, Prod.exists,
    List.mem_zipIdx_iff_getElem?, Prod.mk.injEq, Offers, isConstrained, beq_iff_eq]
  constructor
  · intro hex
    obtain ⟨⟨_, n, hn, t, ht, rfl, rfl⟩, hside⟩ := hex
    exact ⟨n, t, ⟨hn, ht⟩, by simpa [ht] using hside, rfl⟩
  · intro hex
    obtain ⟨n, t, ⟨hn, ht⟩, hside, rfl⟩ := hex
    exact ⟨⟨e, n, hn, t, ht, rfl, rfl⟩, by simpa [ht] using hside⟩

theorem mem_ranked_band {constrained : Bool} {e : Candidate} :
    e ∈ ranked (c.band pool constrained) ↔ ∃ n t, c.Offers pool n e t ∧ t.previous.isSome = constrained := by
  rw [mem_ranked]
  constructor
  · intro ⟨k, hk⟩
    obtain ⟨n, t, ho, hside, -⟩ := mem_band.mp hk
    exact ⟨n, t, ho, hside⟩
  · intro ⟨n, t, ho, hside⟩
    exact ⟨_, mem_band.mpr ⟨n, t, ho, hside, rfl⟩⟩

/-- The first of a band whose trigger fits is the least of those on its side of the `%` line. -/
theorem first_of_band {constrained : Bool} {p : Trigger → Prop} {before after : List Candidate} {e : Candidate}
    {t : Trigger} (h : ranked (c.band pool constrained) = before ++ e :: after)
    (ht : c.triggers[e.trigger]? = some t) (hfits : p t)
    (hbefore : ∀ x ∈ before, ∀ t, c.triggers[x.trigger]? = some t → t.previous.isSome = constrained → ¬ p t) :
    ∃ n, c.Best pool (fun t => t.previous.isSome = constrained ∧ p t) n e t := by
  obtain ⟨k, hk, hleast⟩ := first_of_ranked
    (p := fun x => ∃ t, c.triggers[x.trigger]? = some t ∧ t.previous.isSome = constrained ∧ p t) h
    fun x hx ⟨t, ht, hside, hf⟩ => hbefore x hx t ht hside hf
  obtain ⟨n, t', ho, hside, rfl⟩ := mem_band.mp hk
  cases ht.symm.trans ho.2
  refine ⟨n, ho, ⟨hside, hfits⟩, fun n' e' t' ho' hf' => ?_⟩
  rw [priority_le_iff (hside.trans hf'.1.symm)]
  exact hleast _ e' (mem_band.mpr ⟨n', t', ho', hf'.1, rfl⟩) ⟨t', ho'.2, hf'⟩

/-- The least of the constrained that fit is the least of all that fit. -/
theorem Best.of_constrained {p : Trigger → Prop} {n : ℕ} {e : Candidate} {t : Trigger}
    (h : c.Best pool (fun t => t.previous.isSome = true ∧ p t) n e t) : c.Best pool p n e t := by
  refine ⟨h.offers, h.fits.2, fun n' e' t' ho' hf' => ?_⟩
  cases hside : t'.previous.isSome with
  | true => exact h.least n' e' t' ho' ⟨hside, hf'⟩
  | false => exact priority_le_of_constrained h.fits.1 hside

/-- If no constrained one fits, the least of the ordinary that fit is the least of all. -/
theorem Best.of_ordinary {p : Trigger → Prop} {n : ℕ} {e : Candidate} {t : Trigger}
    (h : c.Best pool (fun t => t.previous.isSome = false ∧ p t) n e t)
    (hno : c.OffersNo pool fun t => t.previous.isSome = true ∧ p t) : c.Best pool p n e t := by
  refine ⟨h.offers, h.fits.2, fun n' e' t' ho' hf' => h.least n' e' t' ho' ⟨?_, hf'⟩⟩
  exact Bool.eq_false_iff.mpr fun hside => hno n' e' t' ho' ⟨hside, hf'⟩

end Catalog

end Repartee
