/-
  Repartee.Proofs.BestMatch — the search answers with the best candidate there is.

  Which candidate that is does not depend on bands, sorting or the order of a scan: it is the
  eligible one of least `priority`, and only if there is none the least lone `*`.

  Proved:
  - A scan stops at the first that fits (`firstFit_eq_some`, `firstFit_eq_none_iff`).
  - Each of the three places the search looks has the best of its kind (`search_cases`).
  - From any topic of any catalog, the search gives the best answer, and none only if no
    candidate can answer (`search_reach`).
-/

import Repartee.Catalog.Search
import Repartee.Proofs.Ranking

namespace Repartee

/-! ## Scans -/

section Scan

variable {α β : Type} {fit : α → Option β} {as : List α}

theorem firstFit_eq_none_iff : firstFit fit as = none ↔ ∀ a ∈ as, fit a = none := by
  induction as with
  | nil => simp [firstFit]
  | cons a as ih =>
    rw [firstFit, List.forall_mem_cons]
    cases h : fit a with
    | some b => simp
    | none => simp [ih]

theorem firstFit_eq_some {n : ℕ} {a : α} {b : β} (h : firstFit fit as = some (n, a, b)) :
    ∃ before after, as = before ++ a :: after ∧ fit a = some b ∧ ∀ x ∈ before, fit x = none := by
  induction as generalizing n with
  | nil => cases h
  | cons x as ih =>
    rw [firstFit] at h
    cases hx : fit x with
    | some y =>
      simp only [hx, Option.some.injEq, Prod.mk.injEq] at h
      obtain ⟨-, rfl, rfl⟩ := h
      exact ⟨[], as, rfl, hx, by simp⟩
    | none =>
      simp only [hx, Option.map_eq_some_iff, Prod.exists, Prod.mk.injEq] at h
      obtain ⟨n, _, _, h, -, rfl, rfl⟩ := h
      obtain ⟨before, after, rfl, hb, hbefore⟩ := ih h
      exact ⟨x :: before, after, rfl, hb, List.forall_mem_cons.mpr ⟨hx, hbefore⟩⟩

end Scan

/-! ## Who may answer -/

/-- Its pattern aligns with the message, and its `%` line, if it has one, with the last reply. -/
def Eligible (words lastReply : List String) (t : Trigger) : Prop :=
  (t.pattern.align words).isSome ∧ ∀ previous ∈ t.previous, (previous.align lastReply).isSome

/-- A lone `*` without a `%` line. -/
def LoneStar (t : Trigger) : Prop := t.previous = none ∧ t.pattern.items = [.wildcard .any]

/-- The finding has the captures of this trigger, which is eligible. -/
structure Answers (words lastReply : List String) (t : Trigger) (f : Finding) : Prop where
  stars : t.pattern.align words = some f.stars
  botStars : t.previous.elim (some []) (·.align lastReply) = some f.botStars
  usedPrevious : f.usedPrevious = t.previous.isSome

/-- The finding has the whole message as its one capture. -/
structure FallsBack (words : List String) (f : Finding) : Prop where
  stars : f.stars = [Text.spaced words]
  botStars : f.botStars = []
  usedPrevious : f.usedPrevious = false

namespace Catalog

variable {c : Catalog} {pool : List Candidate} {words lastReply : List String}

theorem constrainedFit_eq_some_iff {e : Candidate} {stars botStars : List String} :
    c.constrainedFit words lastReply e = some (stars, botStars) ↔
      ∃ t previous, c.triggers[e.trigger]? = some t ∧ t.previous = some previous ∧
        previous.align lastReply = some botStars ∧ t.pattern.align words = some stars := by
  simp only [constrainedFit, Option.bind_eq_bind, Option.bind_eq_some_iff, Option.some.injEq, Prod.mk.injEq]
  constructor
  · intro hex
    obtain ⟨t, ht, previous, hp, _, hb, _, hs, rfl, rfl⟩ := hex
    exact ⟨t, previous, ht, hp, hb, hs⟩
  · intro ⟨t, previous, ht, hp, hb, hs⟩
    exact ⟨t, ht, previous, hp, _, hb, _, hs, rfl, rfl⟩

theorem not_eligible_of_constrainedFit {e : Candidate} {t : Trigger} (ht : c.triggers[e.trigger]? = some t)
    (hside : t.previous.isSome = true) (h : c.constrainedFit words lastReply e = none) :
    ¬ Eligible words lastReply t := by
  intro ⟨hstars, hbot⟩
  obtain ⟨previous, hp⟩ := Option.isSome_iff_exists.mp hside
  obtain ⟨stars, hs⟩ := Option.isSome_iff_exists.mp hstars
  obtain ⟨botStars, hb⟩ := Option.isSome_iff_exists.mp (hbot previous hp)
  rw [constrainedFit_eq_some_iff.mpr ⟨t, previous, ht, hp, hb, hs⟩] at h
  cases h

theorem not_eligible_of_fit {e : Candidate} {t : Trigger} (ht : c.triggers[e.trigger]? = some t)
    (h : c.fit words e = none) : ¬ Eligible words lastReply t := by
  intro ⟨hstars, _⟩
  rw [fit, ht, Option.bind_some] at h
  simp [h] at hstars

theorem isBareStar_iff {e : Candidate} {t : Trigger} (ht : c.triggers[e.trigger]? = some t) :
    c.isBareStar e = true ↔ t.pattern.items = [.wildcard .any] := by
  simp [isBareStar, ht, Pattern.isBareStar]

/-! ## The three places the search looks in -/

theorem offersNo_of_constrained (h : firstFit (c.constrainedFit words lastReply) (c.rank pool).constrained = none) :
    c.OffersNo pool fun t => t.previous.isSome = true ∧ Eligible words lastReply t := by
  intro n e t ho ⟨hside, heligible⟩
  rw [rank_eq] at h
  have hfit := firstFit_eq_none_iff.mp h e (mem_ranked_band.mpr ⟨n, t, ho, hside⟩)
  exact not_eligible_of_constrainedFit ho.2 hside hfit heligible

theorem best_of_constrained {m : ℕ} {e : Candidate} {stars botStars : List String}
    (h : firstFit (c.constrainedFit words lastReply) (c.rank pool).constrained = some (m, e, stars, botStars)) :
    ∃ n t, c.Best pool (Eligible words lastReply) n e t ∧ ∀ tried,
      Answers words lastReply t { candidate := e, stars, botStars, usedPrevious := true, tried } := by
  rw [rank_eq] at h
  obtain ⟨before, after, hband, hfit, hbefore⟩ := firstFit_eq_some h
  obtain ⟨t, previous, ht, hp, hb, hs⟩ := constrainedFit_eq_some_iff.mp hfit
  have heligible : Eligible words lastReply t := by
    refine ⟨by simp [hs], fun previous' hp' => ?_⟩
    cases hp.symm.trans hp'
    simp [hb]
  obtain ⟨n, hbest⟩ := first_of_band hband ht heligible fun x hx t' ht' hside =>
    not_eligible_of_constrainedFit ht' hside (hbefore x hx)
  exact ⟨n, t, hbest.of_constrained, fun tried => ⟨hs, by simp [hp, hb], by simp [hp]⟩⟩

theorem exists_ordinary {e : Candidate} (h : e ∈ ranked (c.band pool false)) :
    ∃ n t, c.Offers pool n e t ∧ t.previous = none := by
  obtain ⟨n, t, ho, hside⟩ := mem_ranked_band.mp h
  exact ⟨n, t, ho, Option.isNone_iff_eq_none.mp (Option.isSome_eq_false_iff.mp hside)⟩

/-- With no constrained one eligible, a scan of the ordinary that finds nothing leaves none. -/
theorem offersNo_of_ordinary
    (hconstrained : c.OffersNo pool fun t => t.previous.isSome = true ∧ Eligible words lastReply t)
    (h : firstFit (c.fit words) (c.rank pool).ordinary = none) : c.OffersNo pool (Eligible words lastReply) := by
  intro n e t ho heligible
  rw [rank_eq] at h
  cases hside : t.previous.isSome with
  | true => exact hconstrained n e t ho ⟨hside, heligible⟩
  | false =>
    have hfit := firstFit_eq_none_iff.mp h e (mem_ranked_band.mpr ⟨n, t, ho, hside⟩)
    exact not_eligible_of_fit ho.2 hfit heligible

theorem best_of_ordinary {m : ℕ} {e : Candidate} {stars : List String}
    (hconstrained : c.OffersNo pool fun t => t.previous.isSome = true ∧ Eligible words lastReply t)
    (h : firstFit (c.fit words) (c.rank pool).ordinary = some (m, e, stars)) :
    ∃ n t, c.Best pool (Eligible words lastReply) n e t ∧ ∀ tried,
      Answers words lastReply t { candidate := e, stars, botStars := [], usedPrevious := false, tried } := by
  rw [rank_eq] at h
  obtain ⟨before, after, hband, hfit, hbefore⟩ := firstFit_eq_some h
  obtain ⟨t, ht, hs⟩ := Option.bind_eq_some_iff.mp hfit
  obtain ⟨n', t', ho, hp⟩ := exists_ordinary (hband ▸ List.mem_append_right before List.mem_cons_self)
  cases ht.symm.trans ho.2
  have heligible : Eligible words lastReply t := ⟨by simp [hs], by simp [hp]⟩
  obtain ⟨n, hbest⟩ := first_of_band hband ht heligible fun x hx t' ht' _ => not_eligible_of_fit ht' (hbefore x hx)
  exact ⟨n, t, hbest.of_ordinary hconstrained, fun tried => ⟨hs, by simp [hp], by simp [hp]⟩⟩

theorem offersNo_of_catchAll (h : (c.rank pool).catchAll = none) : c.OffersNo pool LoneStar := by
  intro n e t ho ⟨hp, hitems⟩
  rw [rank_eq] at h
  have hmem : e ∈ ranked (c.band pool false) := mem_ranked_band.mpr ⟨n, t, ho, by simp [hp]⟩
  exact List.find?_eq_none.mp h e hmem ((isBareStar_iff ho.2).mpr hitems)

theorem best_of_catchAll {e : Candidate} (h : (c.rank pool).catchAll = some e) :
    ∃ n t, c.Best pool LoneStar n e t := by
  rw [rank_eq] at h
  obtain ⟨hstar, before, after, hband, hbefore⟩ := List.find?_eq_some_iff_append.mp h
  obtain ⟨n', t, ho, hp⟩ := exists_ordinary (hband ▸ List.mem_append_right before List.mem_cons_self)
  have hlone : LoneStar t := ⟨hp, (isBareStar_iff ho.2).mp hstar⟩
  obtain ⟨n, hbest⟩ := first_of_band hband ho.2 hlone fun x hx t' ht' _ hlone' => by
    simpa [(isBareStar_iff ht').mpr hlone'.2] using hbefore x hx
  exact ⟨n, t, hbest.of_ordinary fun n e t _ ⟨hside, hlone'⟩ => by simp [hlone'.1] at hside⟩

/-! ## The best answer -/

/-- The search gives the best eligible candidate, else the best lone `*`, else nothing. -/
theorem search_cases (c : Catalog) (pool : List Candidate) (words lastReply : List String) :
    (∃ n t f, c.search (c.rank pool) words lastReply = some f ∧
      c.Best pool (Eligible words lastReply) n f.candidate t ∧ Answers words lastReply t f) ∨
    c.OffersNo pool (Eligible words lastReply) ∧
      ((∃ n t f, c.search (c.rank pool) words lastReply = some f ∧
        c.Best pool LoneStar n f.candidate t ∧ FallsBack words f) ∨
      c.search (c.rank pool) words lastReply = none ∧ c.OffersNo pool LoneStar) := by
  rw [search]
  rcases hc : firstFit (c.constrainedFit words lastReply) (c.rank pool).constrained with
    _ | ⟨m, e, stars, botStars⟩
  · have hconstrained := offersNo_of_constrained hc
    rcases ho : firstFit (c.fit words) (c.rank pool).ordinary with _ | ⟨m, e, stars⟩
    · refine .inr ⟨offersNo_of_ordinary hconstrained ho, ?_⟩
      rcases hs : (c.rank pool).catchAll with _ | e
      · exact .inr ⟨rfl, offersNo_of_catchAll hs⟩
      · obtain ⟨n, t, hbest⟩ := best_of_catchAll hs
        exact .inl ⟨n, t, _, rfl, hbest, rfl, rfl, rfl⟩
    · obtain ⟨n, t, hbest, hanswers⟩ := best_of_ordinary hconstrained ho
      exact .inl ⟨n, t, _, rfl, hbest, hanswers _⟩
  · obtain ⟨n, t, hbest, hanswers⟩ := best_of_constrained hc
    exact .inl ⟨n, t, _, rfl, hbest, hanswers _⟩

/-- From a topic, the eligible candidate of least priority answers, with its captures. Without one the
least lone `*` takes the whole message, and nothing answers only if there is no such one either. -/
theorem search_reach (c : Catalog) (topic : TopicId) (words lastReply : List String) :
    let pool := c.reach topic
    let found := c.search (c.rank pool) words lastReply
    ((∃ n e t, c.Offers pool n e t ∧ Eligible words lastReply t) →
      ∃ n t f, found = some f ∧ c.Best pool (Eligible words lastReply) n f.candidate t ∧
        Answers words lastReply t f) ∧
    (c.OffersNo pool (Eligible words lastReply) → (∃ n e t, c.Offers pool n e t ∧ LoneStar t) →
      ∃ n t f, found = some f ∧ c.Best pool LoneStar n f.candidate t ∧ FallsBack words f) ∧
    (found = none ↔ c.OffersNo pool (Eligible words lastReply) ∧ c.OffersNo pool LoneStar) := by
  intro pool found
  rcases search_cases c pool words lastReply with
    ⟨n, t, f, hfound, hbest, hanswers⟩ | ⟨hnone, ⟨n, t, f, hfound, hbest, hfalls⟩ | ⟨hfound, hno⟩⟩
  · refine ⟨fun _ => ⟨n, t, f, hfound, hbest, hanswers⟩, fun hnone => ?_, ?_⟩
    · exact absurd hbest.fits (hnone _ _ _ hbest.offers)
    · simp only [found, hfound, reduceCtorEq, false_iff, not_and]
      exact fun hnone => absurd hbest.fits (hnone _ _ _ hbest.offers)
  · refine ⟨fun ⟨n, e, t, ho, hf⟩ => absurd hf (hnone n e t ho), fun _ _ => ⟨n, t, f, hfound, hbest, hfalls⟩, ?_⟩
    simp only [found, hfound, reduceCtorEq, false_iff, not_and]
    exact fun _ hno => absurd hbest.fits (hno _ _ _ hbest.offers)
  · refine ⟨fun ⟨n, e, t, ho, hf⟩ => absurd hf (hnone n e t ho), fun _ ⟨n, e, t, ho, hf⟩ => ?_, ?_⟩
    · exact absurd hf (hno n e t ho)
    · exact ⟨fun _ => ⟨hnone, hno⟩, fun _ => hfound⟩

/-- Three triggers answer, alike in all but their counts. The one with fewer wildcards goes before the one with two,
and the one with more words before the one with one. -/
theorem search_reach_by_counts :
    let open₂ : Trigger := { pattern := ⟨"my * is *", [.word "my", .wildcard .any, .word "is", .wildcard .any], 0⟩ }
    let closed₁ : Trigger := { pattern := ⟨"my *", [.word "my", .wildcard .any], 0⟩ }
    let closed₂ : Trigger := { pattern := ⟨"my name *", [.word "my", .word "name", .wildcard .any], 0⟩ }
    let c : Catalog := { topics := #[{ name := "random", triggers := [0, 1, 2] }], triggers := #[open₂, closed₁, closed₂] }
    let words := ["my", "name", "is", "ann"]
    (∀ t ∈ [open₂, closed₁, closed₂], Eligible words [] t) ∧
      ∃ f, c.search (c.rank (c.reach 0)) words [] = some f ∧ f.candidate.trigger = 2 ∧ f.stars = ["is ann"] := by
  intro open₂ closed₁ closed₂ c words
  have heligible : ∀ t ∈ [open₂, closed₁, closed₂], Eligible words [] t := by
    have halign : ∀ t ∈ [open₂, closed₁, closed₂], t.previous = none ∧ (t.pattern.align words).isSome := by
      decide +kernel
    intro t ht
    obtain ⟨hp, hstars⟩ := halign t ht
    exact ⟨hstars, by simp [hp]⟩
  refine ⟨heligible, ?_⟩
  have hreach : c.reach 0 = [⟨0, 0, 0, false⟩, ⟨1, 0, 0, false⟩, ⟨2, 0, 0, false⟩] := by decide +kernel
  have hthird : c.Offers (c.reach 0) 2 ⟨2, 0, 0, false⟩ closed₂ := ⟨by rw [hreach]; rfl, rfl⟩
  have hfirst : ¬ priority open₂ ⟨0, 0, 0, false⟩ 0 ≤ priority closed₂ ⟨2, 0, 0, false⟩ 2 := by decide
  have hsecond : ¬ priority closed₁ ⟨1, 0, 0, false⟩ 1 ≤ priority closed₂ ⟨2, 0, 0, false⟩ 2 := by decide
  have hstars : closed₂.pattern.align words = some ["is ann"] := by decide +kernel
  obtain ⟨n, t, ⟨candidate, stars, _, _, _⟩, hfound, hbest, hanswers⟩ :=
    (search_reach c 0 words []).1 ⟨2, _, _, hthird, heligible _ (by simp)⟩
  have hleast := hbest.least 2 _ _ hthird (heligible _ (by simp))
  obtain ⟨hplace, ht⟩ := hbest.offers
  rw [hreach] at hplace
  rcases n with _ | _ | _ | n
  · cases hplace
    cases ht
    exact absurd hleast hfirst
  · cases hplace
    cases ht
    exact absurd hleast hsecond
  · cases hplace
    cases ht
    exact ⟨_, hfound, rfl, Option.some.inj (hanswers.stars.symm.trans hstars)⟩
  · cases hplace

end Catalog

end Repartee
