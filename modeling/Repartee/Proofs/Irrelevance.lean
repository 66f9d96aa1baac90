/-
  Repartee.Proofs.Irrelevance — a trigger that cannot answer changes no answer.

  A trigger added to a topic moves the places of those after it, in every topic that reaches it.
  The order of the others among themselves stays, and so does the best of those that can answer.

  Proved:
  - The best candidate of a pool is one (`Best.unique`).
  - A pool that adds only candidates which do not fit has the same best one (`Enlarges.best`), and
    gives the same answer (`search_of_enlarges`).
  - A new trigger adds only itself to the pools of the topics that reach it (`reach_addTrigger`), so
    if it cannot answer, all answers stay (`search_addTrigger`).
-/

import Repartee.Proofs.Alignment
import Repartee.Proofs.Arena
import Repartee.Proofs.BestMatch
import Repartee.Proofs.Walks

namespace Repartee

/-! ## Places in a filtered list -/

section Places

variable {α : Type} {l : List α} {p : α → Bool} {n m : ℕ} {a b : α}

/-- The place that an entry keeps is the number of those kept before it. -/
theorem getElem?_filter_countP (h : l[n]? = some a) (hp : p a = true) :
    (l.filter p)[(l.take n).countP p]? = some a := by
  obtain ⟨hn, rfl⟩ := List.getElem?_eq_some_iff.mp h
  have hsplit : l.filter p = (l.take n).filter p ++ l[n] :: (l.drop (n + 1)).filter p := by
    rw [← List.filter_cons_of_pos hp, ← List.drop_eq_getElem_cons hn, ← List.filter_append, List.take_append_drop]
  rw [hsplit, List.countP_eq_length_filter, List.getElem?_append_right (Nat.le_refl _), Nat.sub_self]
  rfl

theorem exists_of_getElem?_filter (h : (l.filter p)[m]? = some a) :
    ∃ n, l[n]? = some a ∧ p a = true ∧ (l.take n).countP p = m := by
  induction l generalizing m with
  | nil => simp at h
  | cons x l ih =>
    by_cases hx : p x = true
    · rw [List.filter_cons_of_pos hx] at h
      cases m with
      | zero =>
        obtain rfl : x = a := by simpa using h
        exact ⟨0, rfl, hx, rfl⟩
      | succ m =>
        obtain ⟨n, hn, hp, hcount⟩ := ih (by simpa using h)
        exact ⟨n + 1, hn, hp, by rw [List.take_succ_cons, List.countP_cons_of_pos hx, hcount]⟩
    · rw [List.filter_cons_of_neg hx] at h
      obtain ⟨n, hn, hp, hcount⟩ := ih h
      exact ⟨n + 1, hn, hp, by rw [List.take_succ_cons, List.countP_cons_of_neg hx, hcount]⟩

theorem countP_take_lt (h : l[n]? = some a) (hp : p a = true) (hnm : n < m) :
    (l.take n).countP p < (l.take m).countP p := by
  have hle := (List.take_sublist_take_left (l := l) hnm).countP_le (p := p)
  rw [List.take_add_one, h, List.countP_append] at hle
  simp only [Option.toList_some, List.countP_singleton, hp, if_true] at hle
  omega

/-- The kept places stand in the order of the old ones. -/
theorem countP_take_le_iff (hn : l[n]? = some a) (ha : p a = true) (hm : l[m]? = some b) (hb : p b = true) :
    (l.take n).countP p ≤ (l.take m).countP p ↔ n ≤ m := by
  constructor
  · intro hle
    by_contra hlt
    have := countP_take_lt hm hb (Nat.lt_of_not_le hlt)
    omega
  · intro hle
    rcases Nat.eq_or_lt_of_le hle with rfl | hlt
    · exact Nat.le_refl _
    · exact (countP_take_lt hn ha hlt).le

end Places

/-! ## The best candidate is one -/

theorem priority_le_congr {t t' : Trigger} {e e' : Candidate} {n n' m m' : ℕ} (h : n ≤ n' ↔ m ≤ m') :
    priority t e n ≤ priority t' e' n' ↔ priority t e m ≤ priority t' e' m' := by
  simp only [priority, Prod.Lex.toLex_le_toLex, h]

/-- The same captures, for the same candidate, however many were tried. -/
theorem Answers.unique {words lastReply : List String} {t : Trigger} {f f' : Finding}
    (h : Answers words lastReply t f) (h' : Answers words lastReply t f') (hc : f.candidate = f'.candidate) :
    { f with tried := 0 } = { f' with tried := 0 } := by
  have hstars := h.stars.symm.trans h'.stars
  have hbot := h.botStars.symm.trans h'.botStars
  have hused := h.usedPrevious.trans h'.usedPrevious.symm
  simp only [Option.some.injEq] at hstars hbot
  simp only [hc, hstars, hbot, hused]

theorem FallsBack.unique {words : List String} {f f' : Finding} (h : FallsBack words f) (h' : FallsBack words f')
    (hc : f.candidate = f'.candidate) : { f with tried := 0 } = { f' with tried := 0 } := by
  simp only [hc, h.stars, h'.stars, h.botStars, h'.botStars, h.usedPrevious, h'.usedPrevious]

namespace Catalog

section Best

variable {c d : Catalog} {pool pool' : List Candidate} {p : Trigger → Prop}

theorem Best.unique {n n' : ℕ} {e e' : Candidate} {t t' : Trigger} (h : c.Best pool p n e t)
    (h' : c.Best pool p n' e' t') : e = e' ∧ t = t' := by
  have heq := le_antisymm (h.least n' e' t' h'.offers h'.fits) (h'.least n e t h.offers h.fits)
  cases position_eq_of_priority_eq heq
  obtain ⟨he, ht⟩ := h.offers
  obtain ⟨he', ht'⟩ := h'.offers
  cases he.symm.trans he'
  cases ht.symm.trans ht'
  exact ⟨rfl, rfl⟩

theorem Best.not_offersNo {n : ℕ} {e : Candidate} {t : Trigger} (h : c.Best pool p n e t) : ¬ c.OffersNo pool p :=
  fun hno => hno n e t h.offers h.fits

/-- The pool of `d` has the candidates of `c`'s pool, in their order, and others that do not fit. -/
structure Enlarges (c d : Catalog) (pool pool' : List Candidate) (kept : Candidate → Bool) (p : Trigger → Prop) :
    Prop where
  filtered : pool = pool'.filter kept
  triggers : ∀ e ∈ pool, d.triggers[e.trigger]? = c.triggers[e.trigger]?
  others : ∀ e t, kept e = false → d.triggers[e.trigger]? = some t → ¬ p t

variable {kept : Candidate → Bool}

theorem Enlarges.offers_of_fits (h : c.Enlarges d pool pool' kept p) {n : ℕ} {e : Candidate} {t : Trigger}
    (ho : d.Offers pool' n e t) (hp : p t) :
    kept e = true ∧ c.Offers pool ((pool'.take n).countP kept) e t := by
  have hkept : kept e = true := by
    by_contra hnot
    exact h.others e t (Bool.eq_false_iff.mpr hnot) ho.2 hp
  have he := getElem?_filter_countP ho.1 hkept
  rw [← h.filtered] at he
  exact ⟨hkept, he, (h.triggers e (List.mem_of_getElem? he)).symm.trans ho.2⟩

theorem Enlarges.exists_offers (h : c.Enlarges d pool pool' kept p) {m : ℕ} {e : Candidate} {t : Trigger}
    (ho : c.Offers pool m e t) :
    ∃ n, d.Offers pool' n e t ∧ kept e = true ∧ (pool'.take n).countP kept = m := by
  obtain ⟨he, ht⟩ := ho
  have hmem := List.mem_of_getElem? he
  rw [h.filtered] at he
  obtain ⟨n, hn, hkept, hcount⟩ := exists_of_getElem?_filter he
  exact ⟨n, ⟨hn, (h.triggers e hmem).trans ht⟩, hkept, hcount⟩

theorem Enlarges.offersNo (h : c.Enlarges d pool pool' kept p) (hno : d.OffersNo pool' p) : c.OffersNo pool p := by
  intro m e t ho
  obtain ⟨n, ho', -⟩ := h.exists_offers ho
  exact hno n e t ho'

theorem Enlarges.best (h : c.Enlarges d pool pool' kept p) {n : ℕ} {e : Candidate} {t : Trigger}
    (hbest : d.Best pool' p n e t) : ∃ m, c.Best pool p m e t := by
  obtain ⟨hkept, ho⟩ := h.offers_of_fits hbest.offers hbest.fits
  refine ⟨_, ho, hbest.fits, fun m' e' t' ho' hp' => ?_⟩
  obtain ⟨n', hon', hkept', rfl⟩ := h.exists_offers ho'
  rw [priority_le_congr (countP_take_le_iff hbest.offers.1 hkept hon'.1 hkept')]
  exact hbest.least n' e' t' hon' hp'

/-- A larger pool gives the answer that the smaller one does, if what it adds neither is eligible nor can
stand in for what is. -/
theorem search_of_enlarges {words lastReply : List String}
    (heligible : c.Enlarges d pool pool' kept (Eligible words lastReply))
    (hlone : c.Enlarges d pool pool' kept LoneStar) :
    (d.search (d.rank pool') words lastReply).map (fun f => { f with tried := 0 }) =
      (c.search (c.rank pool) words lastReply).map (fun f => { f with tried := 0 }) := by
  rcases search_cases d pool' words lastReply with
    ⟨n, t, f, hfound, hbest, hanswers⟩ | ⟨hnone, ⟨n, t, f, hfound, hbest, hfalls⟩ | ⟨hfound, hno⟩⟩
  · obtain ⟨m, hbest⟩ := heligible.best hbest
    rcases search_cases c pool words lastReply with ⟨m', t', f', hfound', hbest', hanswers'⟩ | ⟨hnone', -⟩
    · obtain ⟨he, rfl⟩ := hbest.unique hbest'
      rw [hfound, hfound', Option.map_some, Option.map_some, hanswers.unique hanswers' he]
    · exact absurd hnone' hbest.not_offersNo
  · obtain ⟨m, hbest⟩ := hlone.best hbest
    rcases search_cases c pool words lastReply with
      ⟨m', t', f', -, hbest', -⟩ | ⟨-, ⟨m', t', f', hfound', hbest', hfalls'⟩ | ⟨-, hno'⟩⟩
    · exact absurd (heligible.offersNo hnone) hbest'.not_offersNo
    · obtain ⟨he, rfl⟩ := hbest.unique hbest'
      rw [hfound, hfound', Option.map_some, Option.map_some, hfalls.unique hfalls' he]
    · exact absurd hno' hbest.not_offersNo
  · rcases search_cases c pool words lastReply with
      ⟨m', t', f', -, hbest', -⟩ | ⟨-, ⟨m', t', f', -, hbest', -⟩ | ⟨hfound', -⟩⟩
    · exact absurd (heligible.offersNo hnone) hbest'.not_offersNo
    · exact absurd (hlone.offersNo hno) hbest'.not_offersNo
    · rw [hfound, hfound']

end Best

/-! ## Adding a trigger -/

section Adding

variable {c : Catalog} {t : TopicId} {trigger : Trigger}

theorem triggerWithKey?_eq_none {key : String × Option String}
    (h : ∀ id ∈ c.ownTriggers t, ∀ other, c.triggers[id]? = some other → other.key ≠ key) :
    c.triggerWithKey? t key = none := by
  rw [triggerWithKey?, List.find?_eq_none]
  intro id hid hany
  cases hother : c.triggers[id]? with
  | none => simp [hother] at hany
  | some other => exact h id hid other hother (by simpa [hother] using hany)

/-- Without the new trigger, a topic offers what it did before. -/
theorem candidates_addTrigger (hc : c.WellFormed) (hkey : c.triggerWithKey? t trigger.key = none)
    (ht : t < c.topics.size) (u : TopicId) (depth : Nat) (included : Bool) :
    ((c.addTrigger t trigger).1.candidates u depth included).filter (·.trigger ≠ c.triggers.size) =
      c.candidates u depth included := by
  have hold : (c.candidates u depth included).filter (·.trigger ≠ c.triggers.size) = c.candidates u depth included := by
    refine List.filter_eq_self.mpr fun e he => ?_
    obtain ⟨id, hid, rfl⟩ := List.mem_map.mp he
    simpa using ne_size_of_mem_ownTriggers hc hid
  rw [candidates, ownTriggers_addTrigger hkey ht]
  by_cases htu : t = u
  · rw [if_pos htu, List.map_append, List.filter_append, ← candidates, hold]
    simp
  · rw [if_neg htu]
    exact hold

theorem reach_addTrigger (hc : c.WellFormed) (hkey : c.triggerWithKey? t trigger.key = none)
    (ht : t < c.topics.size) (topic : TopicId) :
    c.reach topic = ((c.addTrigger t trigger).1.reach topic).filter (·.trigger ≠ c.triggers.size) := by
  have hsize : (c.addTrigger t trigger).1.topics.size = c.topics.size := by simp [Catalog.addTrigger, hkey]
  have hmatches : (c.addTrigger t trigger).1.Matches c (fun e => [e].filter (·.trigger ≠ c.triggers.size)) (fun e => [e])
      (· = ·) := by
    refine ⟨fun h h' => by rw [h, h'], fun {u v} h => ?_, fun {u v} h => ?_, fun {u v} h depth included => ?_⟩ <;>
      cases h
    · rw [(edges_addTrigger hkey u).1]
      exact List.forall₂_refl _
    · rw [(edges_addTrigger hkey u).2]
      exact List.forall₂_refl _
    · rw [← List.filter_flatMap, List.flatMap_singleton', List.flatMap_singleton']
      exact candidates_addTrigger hc hkey ht u depth included
  have hreach := reach_flatMap hmatches (fun {u v} h => by cases h; rw [hsize]) (rfl : topic = topic)
  rw [← List.filter_flatMap, List.flatMap_singleton', List.flatMap_singleton'] at hreach
  exact hreach.symm

/-- The new trigger is the only one that the larger pool adds. -/
theorem enlarges_addTrigger (hc : c.WellFormed) (hkey : c.triggerWithKey? t trigger.key = none)
    (ht : t < c.topics.size) (topic : TopicId) {p : Trigger → Prop} (hp : ¬ p { trigger with topic := t }) :
    c.Enlarges (c.addTrigger t trigger).1 (c.reach topic) ((c.addTrigger t trigger).1.reach topic)
      (·.trigger ≠ c.triggers.size) p := by
  have hreach := reach_addTrigger hc hkey ht topic
  refine ⟨hreach, fun e he => ?_, fun e other hnew hother => ?_⟩
  · rw [hreach] at he
    have hne : e.trigger ≠ c.triggers.size := by simpa using (List.mem_filter.mp he).2
    rw [triggers_addTrigger hkey, Array.getElem?_push, if_neg hne]
  · have heq : e.trigger = c.triggers.size := by simpa using hnew
    rw [triggers_addTrigger hkey, heq, Array.getElem?_push, if_pos rfl] at hother
    cases hother
    exact hp

/-- The search for an alignment answers as plain backtracking does, for a pattern of one item that is no
optional group. -/
theorem align_of_single {p : Pattern} {item : Item} (h : p.items = [item]) (hitem : item.isOptional = false)
    (words : List String) : p.align words = Pattern.plain [item] words := by
  have hlast : ∀ item ∈ p.items, Pattern.AnyWordsLast item := by
    rw [h, List.forall_mem_singleton]
    cases item with
    | optional alternatives => cases hitem
    | _ => trivial
  rw [Pattern.align_of_anyWordsLast hlast, h]

/-- A lone `*` takes any words, if there are some. -/
theorem eligible_of_loneStar {words lastReply : List String} (h : LoneStar trigger) (hwords : words ≠ []) :
    Eligible words lastReply trigger := by
  obtain ⟨hprevious, hitems⟩ := h
  have haligns : Pattern.Aligns [.wildcard .any] (words ++ []) ([Text.spaced words] ++ []) :=
    .cons ⟨hwords, fun _ _ => rfl, rfl⟩ .nil
  refine ⟨?_, by simp [hprevious]⟩
  rw [align_of_single hitems rfl]
  simpa using Pattern.plain_isSome_of_aligns haligns

/-- A trigger of a new key that is not eligible, and is no lone `*` when there are no words, leaves the
answer of every topic as it was, but for how many were tried. -/
theorem search_addTrigger (hc : c.Built) (ht : t < c.topics.size)
    (hnew : ∀ id ∈ c.ownTriggers t, ∀ other, c.triggers[id]? = some other → other.key ≠ trigger.key)
    {words lastReply : List String} (hnot : ¬ Eligible words lastReply trigger)
    (hstar : words = [] → ¬ LoneStar trigger) (topic : TopicId) :
    let d := (c.addTrigger t trigger).1
    (d.search (d.rank (d.reach topic)) words lastReply).map (fun f => { f with tried := 0 }) =
      (c.search (c.rank (c.reach topic)) words lastReply).map (fun f => { f with tried := 0 }) := by
  have hwf := wellFormed_of_built hc
  have hkey := triggerWithKey?_eq_none hnew
  have hlone : ¬ LoneStar trigger := by
    intro hlone
    by_cases hwords : words = []
    · exact hstar hwords hlone
    · exact hnot (eligible_of_loneStar hlone hwords)
  exact search_of_enlarges (enlarges_addTrigger hwf hkey ht topic hnot) (enlarges_addTrigger hwf hkey ht topic hlone)

end Adding

/-- A weighty trigger of an included topic does not keep a lone `*` from answering another word. -/
theorem search_addTrigger_to_included :
    let star : Trigger := { pattern := ⟨"*", [.wildcard .any], 0⟩ }
    let bye : Trigger := { pattern := ⟨"bye{weight=9}", [.word "bye"], 9⟩ }
    let topics := (((({} : Catalog).addTopic "random").1.addTopic "more").1.addInclude 0 1)
    let c := (topics.addTrigger 0 star).1
    let d := (c.addTrigger 1 bye).1
    c.Built ∧ ¬ Eligible ["hello"] [] bye ∧
      (d.search (d.rank (d.reach 0)) ["hello"] []).map (fun f => { f with tried := 0 }) =
        (c.search (c.rank (c.reach 0)) ["hello"] []).map (fun f => { f with tried := 0 }) := by
  intro star bye topics c d
  have htopics : topics = ⟨#[{ name := "random", includes := [1] }, { name := "more" }], #[]⟩ := by
    simp [topics, addTopic, topicId?, addInclude, pushUnique]
  have hsize : c.topics.size = 2 := by simp [c, htopics, addTrigger, triggerWithKey?]
  have hown : c.ownTriggers 1 = [] := by simp [c, htopics, addTrigger, triggerWithKey?, ownTriggers]
  have hc : c.Built := by
    refine (((Built.empty.addTopic "random").addTopic "more").addInclude ?_ ?_).addTrigger star ?_
    · simp [addTopic, topicId?]
    · simp [addTopic, topicId?]
    · simp [addTopic, topicId?, addInclude]
  have hnot : ¬ Eligible ["hello"] [] bye := by
    intro h
    have halign : bye.pattern.align ["hello"] = Pattern.plain [.word "bye"] ["hello"] := align_of_single rfl rfl _
    have hnone : Pattern.plain [.word "bye"] ["hello"] = none := by decide +kernel
    simpa [halign, hnone] using h.1
  exact ⟨hc, hnot, search_addTrigger hc (by rw [hsize]; decide) (by simp [hown]) hnot (by simp) 0⟩

end Catalog

end Repartee
