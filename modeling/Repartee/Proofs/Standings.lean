/-
  Repartee.Proofs.Standings — a ranking is its pool in a strict order.

  A candidate stands in its band by its merit: weight, depth, category, own or included, open items,
  closed items. Only candidates of equal merit stand by their place in the pool. So what is ranked, and
  which of two candidates of different merit comes first, does not depend on how the pool is arranged.

  Proved:
  - Each band has every place of the pool on its side of the `%` line once, and `priority` increases
    strictly along it (`isBand_rank`).
  - In a band the better of two comes first (`IsBand.sublist_iff`), and those of equal merit stand as
    in the pool (`IsBand.filter_eq`).
  - All of this for the two bands of a ranking, which hold the pool between them, with its catch-all
    (`rank_stands`).
-/

import Mathlib.Data.List.Sigma
import Repartee.Proofs.BestMatch

namespace Repartee

/-! ## Merit -/

/-- Weight, depth, tier, whether included, open items and closed items, compared in this order. -/
abbrev Merit : Type := ℕᵒᵈ ×ₗ ℕ ×ₗ ℕ ×ₗ Bool ×ₗ ℕ ×ₗ ℕᵒᵈ

/-- What a candidate is ranked by before its place in the pool, the least first. -/
def merit (t : Trigger) (e : Candidate) : Merit :=
  toLex (OrderDual.toDual t.pattern.weight, toLex (e.depth, toLex (tier t.pattern.items, toLex (e.included,
    toLex (openItems t.pattern.items, OrderDual.toDual (closedItems t.pattern.items))))))

/-- In one band the place decides between candidates of equal merit only. -/
theorem priority_lt_iff {t t' : Trigger} {e e' : Candidate} {n n' : ℕ} (h : t.previous.isSome = t'.previous.isSome) :
    priority t e n < priority t' e' n' ↔ merit t e < merit t' e' ∨ merit t e = merit t' e' ∧ n < n' := by
  have hnone : t.previous.isNone = t'.previous.isNone := by
    rw [← Option.not_isSome, ← Option.not_isSome, h]
  simp only [priority, merit, hnone, Prod.Lex.toLex_lt_toLex, toLex_inj, Prod.mk.injEq, lt_self_iff_false, false_or, true_and]
  grind

/-- The band on one side of the `%` line. -/
def Ranking.side (r : Ranking) : Bool → List Candidate
  | true => r.constrained
  | false => r.ordinary

theorem sublist_or_sublist {α : Type} {l : List α} {a b : α} (ha : a ∈ l) (hb : b ∈ l) (hne : a ≠ b) :
    [a, b].Sublist l ∨ [b, a].Sublist l := by
  induction l with
  | nil => cases ha
  | cons x l ih =>
    rcases List.mem_cons.mp ha with rfl | hal
    · have hbl := (List.mem_cons.mp hb).resolve_left hne.symm
      exact .inl ((List.singleton_sublist.mpr hbl).cons_cons a)
    · rcases List.mem_cons.mp hb with rfl | hbl
      · exact .inr ((List.singleton_sublist.mpr hal).cons_cons b)
      · exact (ih hal hbl).imp (·.cons x) (·.cons x)

namespace Catalog

variable {c : Catalog} {pool pool' : List Candidate} {constrained : Bool}

/-- The merit of a candidate whose trigger is in the catalog. -/
def merit? (c : Catalog) (e : Candidate) : Option Merit :=
  c.triggers[e.trigger]?.map (merit · e)

/-! ## Places -/

/-- The places of the pool on one side of the `%` line. -/
def sidePlaces (c : Catalog) (pool : List Candidate) (constrained : Bool) : List (Candidate × ℕ) :=
  pool.zipIdx.filter fun place => c.isConstrained place.1 == constrained

/-- The one place comes strictly before the other in the order of `priority`. -/
def Precedes (c : Catalog) (a b : Candidate × ℕ) : Prop :=
  ∃ t u, c.triggers[a.1.trigger]? = some t ∧ c.triggers[b.1.trigger]? = some u ∧ priority t a.1 a.2 < priority u b.1 b.2

/-- The places of a pool on one side of the `%` line, each once and in strict order. -/
def IsBand (c : Catalog) (pool : List Candidate) (constrained : Bool) (band : List Candidate) : Prop :=
  ∃ places : List (Candidate × ℕ), places.map Prod.fst = band ∧ places.Perm (c.sidePlaces pool constrained) ∧
    places.Pairwise c.Precedes

/-- All triggers of the pool are in the catalog. -/
def Holds (c : Catalog) (pool : List Candidate) : Prop := ∀ e ∈ pool, ∃ t, c.triggers[e.trigger]? = some t

theorem Holds.perm (h : c.Holds pool) (hperm : pool'.Perm pool) : c.Holds pool' := fun e he => h e (hperm.mem_iff.mp he)

theorem nodup_sidePlaces (c : Catalog) (pool : List Candidate) (constrained : Bool) :
    ((c.sidePlaces pool constrained).map Prod.snd).Nodup :=
  (pool.nodup_zipIdx_map_snd).sublist (List.filter_sublist.map Prod.snd)

theorem increasing_sidePlaces (c : Catalog) (pool : List Candidate) (constrained : Bool) :
    (c.sidePlaces pool constrained).Pairwise fun a b => a.2 < b.2 := by
  have hall : pool.zipIdx.Pairwise fun a b => a.2 < b.2 := by
    rw [← List.pairwise_map (R := (· < ·)), List.zipIdx_map_snd]
    exact List.pairwise_lt_range'
  exact hall.sublist List.filter_sublist

theorem map_sidePlaces (c : Catalog) (pool : List Candidate) (constrained : Bool) :
    (c.sidePlaces pool constrained).map Prod.fst = pool.filter fun e => c.isConstrained e == constrained := by
  have hfst : pool.zipIdx.map Prod.fst = pool := List.zipIdx_map_fst 0 pool
  conv_rhs => rw [← hfst, List.filter_map]
  rfl

/-- The entries of a band are its places with their keys. -/
theorem map_band (h : c.Holds pool) :
    (c.band pool constrained).map (fun x => (x.2, x.1.position)) = c.sidePlaces pool constrained := by
  have hlist : ∀ l : List (Candidate × ℕ), (∀ place ∈ l, ∃ t, c.triggers[place.1.trigger]? = some t) →
      ((l.filterMap c.keyed?).filter fun x => c.isConstrained x.2 == constrained).map (fun x => (x.2, x.1.position)) =
        l.filter fun place => c.isConstrained place.1 == constrained := by
    intro l hl
    induction l with
    | nil => rfl
    | cons place l ih =>
      obtain ⟨⟨t, ht⟩, hl⟩ := List.forall_mem_cons.mp hl
      have hkey : c.keyed? place = some (rankKey t.pattern place.1 place.2, place.1) := by
        simp only [keyed?, ht, Option.map_some]
      rw [List.filterMap_cons_some hkey]
      by_cases hside : c.isConstrained place.1 == constrained
      · simp only [List.filter_cons, if_pos hside, List.map_cons, ih hl, rankKey]
      · simp only [List.filter_cons, if_neg hside, ih hl]
  refine hlist pool.zipIdx fun place hplace => h place.1 ?_
  exact List.fst_mem_of_mem_zipIdx hplace

/-- Ranking a band puts its places in strict order. -/
theorem isBand_rank (h : c.Holds pool) : c.IsBand pool constrained (ranked (c.band pool constrained)) := by
  obtain ⟨sorted, hperm, hsorted, hranked⟩ := exists_ranked (c.band pool constrained)
  have hplaces := hperm.map fun x => (x.2, x.1.position)
  rw [map_band h] at hplaces
  refine ⟨_, ?_, hplaces, ?_⟩
  · rw [hranked, List.map_map]
    rfl
  · have hnodup := (hplaces.map Prod.snd).nodup_iff.mpr (nodup_sidePlaces c pool constrained)
    rw [List.map_map, List.Nodup, List.pairwise_map] at hnodup
    rw [List.pairwise_map]
    refine (hsorted.and hnodup).imp_of_mem fun {a b} ha hb hab => ?_
    -- The keys are in order, and two places are never the same.
    obtain ⟨n, t, ho, hside, hkey⟩ := mem_band.mp (hperm.mem_iff.mp ha)
    obtain ⟨m, u, ho', hside', hkey'⟩ := mem_band.mp (hperm.mem_iff.mp hb)
    have hle := (priority_le_iff (hside.trans hside'.symm)).mpr (hkey ▸ hkey' ▸ hab.1)
    have hne : n ≠ m := by
      have hne := hab.2
      simp only [Function.comp_apply, hkey, hkey', rankKey] at hne
      exact hne
    refine ⟨t, u, ho.2, ho'.2, ?_⟩
    rw [hkey, hkey']
    exact lt_of_le_of_ne hle fun heq => hne (position_eq_of_priority_eq heq)

/-! ## Bands -/

namespace IsBand

variable {band : List Candidate}

theorem perm (h : c.IsBand pool constrained band) : band.Perm (pool.filter fun e => c.isConstrained e == constrained) := by
  obtain ⟨places, rfl, hperm, -⟩ := h
  rw [← map_sidePlaces]
  exact hperm.map Prod.fst

/-- Of two places of a band the first has the better merit, or the same and the smaller number. -/
theorem merit_of_precedes {a b : Candidate × ℕ} (ha : a ∈ c.sidePlaces pool constrained)
    (hb : b ∈ c.sidePlaces pool constrained) (h : c.Precedes a b) :
    ∃ t u, c.triggers[a.1.trigger]? = some t ∧ c.triggers[b.1.trigger]? = some u ∧
      (merit t a.1 < merit u b.1 ∨ merit t a.1 = merit u b.1 ∧ a.2 < b.2) := by
  obtain ⟨t, u, ht, hu, hlt⟩ := h
  have hside := (List.mem_filter.mp ha).2
  have hside' := (List.mem_filter.mp hb).2
  simp only [isConstrained, ht, hu, Option.any_some, beq_iff_eq] at hside hside'
  exact ⟨t, u, ht, hu, (priority_lt_iff (hside.trans hside'.symm)).mp hlt⟩

/-- Along a band the merit never gets better. -/
theorem pairwise_merit (h : c.IsBand pool constrained band) : band.Pairwise fun a b =>
    ∀ t u, c.triggers[a.trigger]? = some t → c.triggers[b.trigger]? = some u → merit t a ≤ merit u b := by
  obtain ⟨places, rfl, hperm, hplaces⟩ := h
  rw [List.pairwise_map]
  refine hplaces.imp_of_mem fun {a b} ha hb hab t u ht hu => ?_
  obtain ⟨t', u', ht', hu', hlt⟩ := merit_of_precedes (hperm.mem_iff.mp ha) (hperm.mem_iff.mp hb) hab
  cases ht.symm.trans ht'
  cases hu.symm.trans hu'
  rcases hlt with hlt | ⟨heq, -⟩
  · exact hlt.le
  · exact heq.le

/-- Of two candidates of a band with different merits the better comes first. -/
theorem sublist_iff (h : c.IsBand pool constrained band) {a b : Candidate} (ha : a ∈ band) (hb : b ∈ band) {t u : Trigger}
    (ht : c.triggers[a.trigger]? = some t) (hu : c.triggers[b.trigger]? = some u) (hne : merit t a ≠ merit u b) :
    [a, b].Sublist band ↔ merit t a < merit u b := by
  constructor
  · intro hab
    exact lt_of_le_of_ne (List.pairwise_iff_forall_sublist.mp h.pairwise_merit hab t u ht hu) hne
  · intro hlt
    have heq : a ≠ b := by
      rintro rfl
      cases ht.symm.trans hu
      exact hne rfl
    rcases sublist_or_sublist ha hb heq with hab | hba
    · exact hab
    · exact absurd (List.pairwise_iff_forall_sublist.mp h.pairwise_merit hba u t hu ht) (not_le_of_gt hlt)

/-- The candidates of one merit stand in a band as they do in the pool. -/
theorem filter_eq (h : c.IsBand pool constrained band) (m : Merit) :
    band.filter (fun e => c.merit? e = some m) =
      (pool.filter fun e => c.isConstrained e == constrained).filter (fun e => c.merit? e = some m) := by
  obtain ⟨places, rfl, hperm, hplaces⟩ := h
  rw [← map_sidePlaces, List.filter_map, List.filter_map]
  congr 1
  refine @List.Perm.eq_of_pairwise _ (fun a b => a.2 < b.2) _ _ ?_ ?_ ?_ (hperm.filter _)
  · intro a b _ _ hab hba
    exact absurd hab (Nat.lt_asymm hba)
  · -- Among places of one merit the number alone decides.
    rw [List.pairwise_filter]
    refine hplaces.imp_of_mem fun {a b} ha hb hab hma hmb => ?_
    obtain ⟨t, u, ht, hu, hlt⟩ := merit_of_precedes (hperm.mem_iff.mp ha) (hperm.mem_iff.mp hb) hab
    simp only [Function.comp_apply, merit?, ht, hu, Option.map_some, Option.some.injEq, decide_eq_true_eq] at hma hmb
    rcases hlt with hlt | ⟨-, hlt⟩
    · exact absurd (hma.trans hmb.symm) hlt.ne
    · exact hlt
  · exact (increasing_sidePlaces c pool constrained).sublist List.filter_sublist

end IsBand

/-! ## The whole ranking -/

theorem isBand_side (h : c.Holds pool) (constrained : Bool) : c.IsBand pool constrained ((c.rank pool).side constrained) := by
  rw [rank_eq]
  cases constrained with
  | true => exact isBand_rank h
  | false => exact isBand_rank h

/-- Every permutation of the pool has the same candidates in its bands. -/
theorem mem_side_iff (h : c.Holds pool) (hperm : pool'.Perm pool) {e : Candidate} :
    e ∈ (c.rank pool').side constrained ↔ e ∈ (c.rank pool).side constrained := by
  rw [(isBand_side (h.perm hperm) constrained).perm.mem_iff, (isBand_side h constrained).perm.mem_iff,
    (hperm.filter _).mem_iff]

/-- The trigger of the candidate is a lone `*`. -/
def IsLone (c : Catalog) (e : Candidate) : Prop := ∃ t, c.triggers[e.trigger]? = some t ∧ t.pattern.items = [.wildcard .any]

theorem isBareStar_eq_true_iff {e : Candidate} : c.isBareStar e = true ↔ c.IsLone e := by
  cases ht : c.triggers[e.trigger]? with
  | none => simp [isBareStar, IsLone, ht]
  | some t => simp [IsLone, ht, isBareStar_iff ht]

/-- What a ranking owes to its pool. -/
structure Stands (c : Catalog) (pool : List Candidate) (r : Ranking) : Prop where
  whole : (r.constrained ++ r.ordinary).Perm pool
  bands : ∀ constrained, c.IsBand pool constrained (r.side constrained)
  /-- The first lone `*` of the ordinary. -/
  catchAll : ∀ e, r.catchAll = some e ↔
    ∃ before after, r.ordinary = before ++ e :: after ∧ c.IsLone e ∧ ∀ x ∈ before, ¬ c.IsLone x
  no_catchAll : r.catchAll = none ↔ ∀ e ∈ r.ordinary, ¬ c.IsLone e
  /-- Of two with different merits the same one comes first, however the pool is arranged. -/
  arranged : ∀ constrained, ∀ a ∈ r.side constrained, ∀ b ∈ r.side constrained, c.merit? a ≠ c.merit? b →
    ∀ pool', pool'.Perm pool → ([a, b].Sublist ((c.rank pool').side constrained) ↔ [a, b].Sublist (r.side constrained))
  /-- Those of equal merit keep the order of the pool. -/
  kept : ∀ constrained m, (r.side constrained).filter (fun e => c.merit? e = some m) =
    (pool.filter fun e => c.isConstrained e == constrained).filter (fun e => c.merit? e = some m)

/-- A ranking is its pool in two bands, those with a `%` line first, each in the strict order of `priority`. -/
theorem rank_stands (h : c.Holds pool) : c.Stands pool (c.rank pool) := by
  have hcatchAll : (c.rank pool).catchAll = (c.rank pool).ordinary.find? c.isBareStar := rfl
  constructor
  case whole =>
    have hnot : (fun e => c.isConstrained e == false) = fun e => !(c.isConstrained e == true) := by
      funext e
      cases c.isConstrained e <;> rfl
    have hordinary := (isBand_side h false).perm
    rw [hnot] at hordinary
    exact ((isBand_side h true).perm.append hordinary).trans (List.filter_append_perm _ pool)
  case bands => exact isBand_side h
  case catchAll =>
    intro e
    rw [hcatchAll, List.find?_eq_some_iff_append]
    simp only [isBareStar_eq_true_iff, Bool.not_eq_true', Bool.eq_false_iff, ne_eq]
    constructor
    · intro ⟨hlone, before, after, hlist, hbefore⟩
      exact ⟨before, after, hlist, hlone, hbefore⟩
    · intro ⟨before, after, hlist, hlone, hbefore⟩
      exact ⟨hlone, before, after, hlist, hbefore⟩
  case no_catchAll =>
    rw [hcatchAll, List.find?_eq_none]
    simp only [isBareStar_eq_true_iff]
  case arranged =>
    intro constrained a ha b hb hne pool' hperm
    have hband := isBand_side h constrained
    have hband' := isBand_side (h.perm hperm) constrained
    obtain ⟨t, ht⟩ := h a (List.mem_of_mem_filter (hband.perm.mem_iff.mp ha))
    obtain ⟨u, hu⟩ := h b (List.mem_of_mem_filter (hband.perm.mem_iff.mp hb))
    have hmerit : merit t a ≠ merit u b := by
      simpa [merit?, ht, hu] using hne
    rw [hband.sublist_iff ha hb ht hu hmerit,
      hband'.sublist_iff ((mem_side_iff h hperm).mpr ha) ((mem_side_iff h hperm).mpr hb) ht hu hmerit]
  case kept =>
    intro constrained m
    exact (isBand_side h constrained).filter_eq m

/-- Two triggers of one pattern stand as in the pool, and the narrower ones go before them. Of three with a
wildcard each, the one with fewer of them goes first, then the one with more words. The constrained one is in the
other band. -/
theorem rank_stands_mixed_pool :
    let star : Pattern := ⟨"*", [.wildcard .any], 0⟩
    let hello : Pattern := ⟨"hello", [.word "hello"], 0⟩
    let open₂ : Pattern := ⟨"my * is *", [.word "my", .wildcard .any, .word "is", .wildcard .any], 0⟩
    let closed₁ : Pattern := ⟨"my *", [.word "my", .wildcard .any], 0⟩
    let closed₂ : Pattern := ⟨"my name *", [.word "my", .word "name", .wildcard .any], 0⟩
    let c : Catalog := { triggers := #[{ pattern := star }, { pattern := star, previous := some hello }, { pattern := hello },
      { pattern := open₂ }, { pattern := closed₁ }, { pattern := closed₂ }] }
    let pool : List Candidate := [⟨0, 1, 0, true⟩, ⟨1, 0, 0, false⟩, ⟨3, 0, 0, false⟩, ⟨4, 0, 0, false⟩, ⟨5, 0, 0, false⟩,
      ⟨0, 2, 0, true⟩, ⟨2, 0, 0, false⟩]
    c.Holds pool ∧ c.rank pool =
      { constrained := [⟨1, 0, 0, false⟩]
        ordinary := [⟨2, 0, 0, false⟩, ⟨5, 0, 0, false⟩, ⟨4, 0, 0, false⟩, ⟨3, 0, 0, false⟩, ⟨0, 1, 0, true⟩, ⟨0, 2, 0, true⟩]
        catchAll := some ⟨0, 1, 0, true⟩ } ∧ c.Stands pool (c.rank pool) := by
  intro star hello open₂ closed₁ closed₂ c pool
  have h : c.Holds pool := by
    intro e he
    have hbound : ∀ e ∈ pool, e.trigger < c.triggers.size := by decide
    exact ⟨_, Array.getElem?_eq_getElem (hbound e he)⟩
  refine ⟨h, ?_, rank_stands h⟩
  rw [rank]
  simp +decide [ranked, keyed?, isConstrained, c, pool, star, hello, open₂, closed₁, closed₂, List.mergeSort]

end Catalog

end Repartee
