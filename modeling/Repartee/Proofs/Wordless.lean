/-
  Repartee.Proofs.Wordless — what answers a message that has no words.

  An empty message, or one of blanks and marks alone, is read as no words. Words, wildcards and
  choices take one word at least, so a pattern with one of them takes more than that. The fallback
  is meant for such a message: the lone `*` answers it although it takes one word too. But optional
  groups take no words if need be, and a pattern of nothing else is tried before the fallback
  (`an_optional_group_answers_without_words`).

  Proved:
  - A message without letters, numbers and the like has no words (`words_eq_nil`).
  - A compiled pattern aligns with no words exactly if it is made of optional groups
    (`align_nil_eq_some_iff`).
  - Such a trigger answers a message without words if its `%` line allows it. If the topic reaches
    none, nothing but the best lone `*` does, with an empty capture (`search_wordless`).
-/

import Repartee.Proofs.LastMatch
import Repartee.Proofs.Rereading

namespace Repartee

open Text

/-! ## Messages without words -/

theorem Lexicon.words_eq_nil (l : Lexicon) {message : String}
    (h : ∀ c ∈ lower message.toList, Unicode.isAlphanumeric c = false) : l.words message = [] := by
  have htrimmed : ∀ w ∈ Text.words (lower message.toList), trimEdges w = [] := by
    intro w hw
    have hmarks : ∀ c ∈ w, (!Unicode.isAlphanumeric c) = true := by
      intro c hc
      rw [h c ((mem_words hw).2 c hc).1]
      rfl
    have hnone : w.dropWhile (!Unicode.isAlphanumeric ·) = [] := List.dropWhile_eq_nil_iff.mpr hmarks
    rw [trimEdges, hnone]
    rfl
  have hedged : edged message = [] := by
    rw [edged, List.map_eq_nil_iff, List.filter_eq_nil_iff]
    intro cs hcs
    obtain ⟨w, hw, rfl⟩ := List.mem_map.mp hcs
    simp [htrimmed w hw]
  rw [words, hedged, substitute, substituteFrom]
  rfl

/-! ## Patterns that take no words -/

namespace Pattern

/-- Made of optional groups alone. -/
def AllOptional (p : Pattern) : Prop := ∀ item ∈ p.items, item.isOptional = true

instance (p : Pattern) : Decidable p.AllOptional := inferInstanceAs (Decidable (∀ item ∈ p.items, item.isOptional = true))

/-- Only optional groups take no words, and they capture nothing. -/
theorem takes_nil_iff {item : Item} (hchoice : ∀ alternatives, item = .choice alternatives → [] ∉ alternatives)
    {captured : List String} : Takes [] captured item ↔ item.isOptional = true ∧ captured = [] := by
  cases item with
  | word w => simp [Takes, Item.isOptional]
  | wildcard k => simp [Takes, Item.isOptional]
  | choice alternatives => simp [Takes, Item.isOptional, hchoice alternatives rfl]
  | optional alternatives => simp [Takes, Item.isOptional]

theorem aligns_nil_iff {items : List Item} (hchoice : ∀ alternatives, .choice alternatives ∈ items → [] ∉ alternatives)
    {captures : List String} : Aligns items [] captures ↔ (∀ item ∈ items, item.isOptional = true) ∧ captures = [] := by
  induction items generalizing captures with
  | nil =>
    constructor
    · intro h
      cases h
      exact ⟨by simp, rfl⟩
    · rintro ⟨-, rfl⟩
      exact .nil
  | cons item items ih =>
    have htakes : ∀ {captured}, Takes [] captured item ↔ item.isOptional = true ∧ captured = [] :=
      takes_nil_iff fun alternatives heq => hchoice alternatives (heq ▸ List.mem_cons_self)
    replace ih : ∀ {captures}, Aligns items [] captures ↔ (∀ item ∈ items, item.isOptional = true) ∧ captures = [] :=
      ih fun alternatives hmem => hchoice alternatives (List.mem_cons_of_mem _ hmem)
    constructor
    · intro h
      generalize hnil : ([] : List String) = message at h
      cases h with
      | @cons _ _ ws message captured captures htaken haligned =>
        obtain ⟨rfl, rfl⟩ := List.append_eq_nil_iff.mp hnil.symm
        obtain ⟨hitem, rfl⟩ := htakes.mp htaken
        obtain ⟨hitems, rfl⟩ := ih.mp haligned
        exact ⟨List.forall_mem_cons.mpr ⟨hitem, hitems⟩, rfl⟩
    · rintro ⟨hall, rfl⟩
      obtain ⟨hitem, hitems⟩ := List.forall_mem_cons.mp hall
      exact Aligns.cons (htakes.mpr ⟨hitem, rfl⟩) (ih.mpr ⟨hitems, rfl⟩)

/-- A compiled pattern takes no words exactly if it is made of optional groups. -/
theorem align_nil_eq_some_iff {p : Pattern} (hp : p.IsCompiled) {captures : List String} :
    p.align [] = some captures ↔ p.AllOptional ∧ captures = [] := by
  obtain ⟨scope, source, hcompile⟩ := hp
  have haligns : ∀ {captures}, Aligns p.items [] captures ↔ p.AllOptional ∧ captures = [] :=
    aligns_nil_iff fun alternatives hmem hnil => ne_nil_of_mem_choice hcompile hmem hnil rfl
  constructor
  · intro h
    exact haligns.mp (align_sound h)
  · rintro ⟨hall, rfl⟩
    have hsome : (p.align []).isSome :=
      (align_isSome_iff (anyWordsLast_of_compile hcompile)).mpr ⟨[], haligns.mpr ⟨hall, rfl⟩⟩
    obtain ⟨captures, hcaptures⟩ := Option.isSome_iff_exists.mp hsome
    obtain ⟨-, rfl⟩ := haligns.mp (align_sound hcaptures)
    exact hcaptures

end Pattern

/-! ## Triggers that answer -/

/-- Made of optional groups alone, with a `%` line that aligns with the last reply, if it has one. -/
structure SpeaksUnasked (lastReply : List String) (t : Trigger) : Prop where
  optional : t.pattern.AllOptional
  previous : ∀ previous ∈ t.previous, (previous.align lastReply).isSome

theorem eligible_nil_iff {t : Trigger} (ht : t.pattern.IsCompiled) {lastReply : List String} :
    Eligible [] lastReply t ↔ SpeaksUnasked lastReply t := by
  constructor
  · rintro ⟨hsome, hprevious⟩
    obtain ⟨captures, hcaptures⟩ := Option.isSome_iff_exists.mp hsome
    exact ⟨((Pattern.align_nil_eq_some_iff ht).mp hcaptures).1, hprevious⟩
  · intro h
    refine ⟨?_, h.previous⟩
    rw [(Pattern.align_nil_eq_some_iff ht).mpr ⟨h.optional, rfl⟩]
    rfl

namespace Catalog

variable {c : Catalog} {pool : List Candidate}

theorem Offers.isCompiled (hc : c.All (·.pattern.IsCompiled)) {n : ℕ} {e : Candidate} {t : Trigger}
    (h : c.Offers pool n e t) : t.pattern.IsCompiled := hc t (Array.mem_of_getElem? h.2)

/-- What the search finds for no words. -/
theorem search_nil_cases (hc : c.All (·.pattern.IsCompiled)) (pool : List Candidate) (lastReply : List String) :
    (∃ n t f, c.search (c.rank pool) [] lastReply = some f ∧ c.Best pool (SpeaksUnasked lastReply) n f.candidate t ∧
      Answers [] lastReply t f) ∨
    c.OffersNo pool (SpeaksUnasked lastReply) ∧
      ((∃ n t f, c.search (c.rank pool) [] lastReply = some f ∧ c.Best pool LoneStar n f.candidate t ∧ FallsBack [] f) ∨
        c.search (c.rank pool) [] lastReply = none ∧ c.OffersNo pool LoneStar) := by
  rcases search_cases c pool [] lastReply with ⟨n, t, f, hfound, hbest, hanswers⟩ | ⟨hno, hrest⟩
  · left
    refine ⟨n, t, f, hfound, ⟨hbest.offers, ?_, ?_⟩, hanswers⟩
    · exact (eligible_nil_iff (hbest.offers.isCompiled hc)).mp hbest.fits
    · intro n' e' t' ho' hspeaks
      exact hbest.least n' e' t' ho' ((eligible_nil_iff (ho'.isCompiled hc)).mpr hspeaks)
  · right
    refine ⟨?_, hrest⟩
    intro n e t ho hspeaks
    exact hno n e t ho ((eligible_nil_iff (ho.isCompiled hc)).mpr hspeaks)

/-- To a message without words nothing answers but the best lone `*`, with an empty capture, unless the topic reaches a
trigger of optional groups alone that the last reply allows. Then the best of these answers, and captures nothing. -/
theorem search_wordless (hc : c.All (·.pattern.IsCompiled)) {l : Lexicon} {message : String} (hmessage : l.words message = [])
    (topic : TopicId) (lastReply : List String) :
    let pool := c.reach topic
    let found := c.search (c.rank pool) (l.words message) lastReply
    (c.OffersNo pool (SpeaksUnasked lastReply) →
      (∀ f ∈ found, f.stars = [""] ∧ f.usedPrevious = false ∧ ∃ n t, c.Best pool LoneStar n f.candidate t) ∧
        (found = none ↔ c.OffersNo pool LoneStar)) ∧
    ((∃ n e t, c.Offers pool n e t ∧ SpeaksUnasked lastReply t) →
      ∃ f n t, found = some f ∧ f.stars = [] ∧ f.usedPrevious = t.previous.isSome ∧
        c.Best pool (SpeaksUnasked lastReply) n f.candidate t) := by
  intro pool found
  have hsearch : found = c.search (c.rank pool) [] lastReply := by rw [← hmessage]
  rw [hsearch]
  rcases search_nil_cases hc pool lastReply with
    ⟨n, t, f, hfound, hbest, hanswers⟩ | ⟨hno, ⟨n, t, f, hfound, hbest, hfalls⟩ | ⟨hnone, hnoStar⟩⟩
  · constructor
    · intro hno
      exact absurd hbest.fits (hno _ _ _ hbest.offers)
    · intro _
      have hstars := (Pattern.align_nil_eq_some_iff (hbest.offers.isCompiled hc)).mp hanswers.stars
      exact ⟨f, n, t, hfound, hstars.2, hanswers.usedPrevious, hbest⟩
  · constructor
    · intro _
      rw [hfound]
      refine ⟨?_, ?_⟩
      · rintro g hg
        cases hg
        exact ⟨hfalls.stars, hfalls.usedPrevious, n, t, hbest⟩
      · simp only [reduceCtorEq, false_iff]
        intro hnoStar
        exact hnoStar _ _ _ hbest.offers hbest.fits
    · rintro ⟨n, e, t, ho, hspeaks⟩
      exact absurd hspeaks (hno n e t ho)
  · constructor
    · intro _
      rw [hnone]
      exact ⟨nofun, fun _ => hnoStar, fun _ => rfl⟩
    · rintro ⟨n, e, t, ho, hspeaks⟩
      exact absurd hspeaks (hno n e t ho)

end Catalog

namespace Bot

/-- Marks are answered by the lone `*`, although the other trigger has an optional group and the last reply allows it. -/
theorem search_wordless_fallback :
    let events := [Event.load {} (.text "a" "+ [please] help\n% what *\n- Helping.\n+ *\n- Fallback.")]
    ∃ b₀, Bot.new {} = .ok b₀ ∧
      let r := (b₀.after events).rules
      let pool := r.catalog.reach 0
      let found := r.catalog.search (r.catalog.rank pool) (r.lexicon.words " ?! ") ["what", "now"]
      r.catalog.All (·.pattern.IsCompiled) ∧ r.lexicon.words " ?! " = [] ∧
        r.catalog.OffersNo pool (SpeaksUnasked ["what", "now"]) ∧ found.map (·.candidate.trigger) = some 1 ∧
        ∀ f ∈ found, f.stars = [""] ∧ f.usedPrevious = false ∧ ∃ n t, r.catalog.Best pool LoneStar n f.candidate t := by
  intro events
  obtain ⟨b₀, hnew, hspoken, hfound⟩ : ∃ b₀, Bot.new {} = .ok b₀ ∧
      let r := (b₀.after events).rules
      let found := r.catalog.search (r.catalog.rank (r.catalog.reach 0)) (r.lexicon.words " ?! ") ["what", "now"]
      (∀ t ∈ r.catalog.triggers.toList, ¬ t.pattern.AllOptional) ∧ found.map (·.candidate.trigger) = some 1 :=
    exists_ok_of_any (by decide +kernel)
  refine ⟨b₀, hnew, ?_⟩
  intro r pool found
  have hcompiled : r.catalog.All (·.pattern.IsCompiled) := compiled_after hnew events
  have hmarks : (lower " ?! ".toList).all (!Unicode.isAlphanumeric ·) = true := by decide +kernel
  have hwords : r.lexicon.words " ?! " = [] := by
    apply r.lexicon.words_eq_nil
    intro c hc
    simpa using List.all_eq_true.mp hmarks c hc
  have hno : r.catalog.OffersNo pool (SpeaksUnasked ["what", "now"]) := by
    intro n e t ho hspeaks
    exact hspoken t (Array.mem_toList_iff.mpr (Array.mem_of_getElem? ho.2)) hspeaks.optional
  obtain ⟨hfallback, -⟩ := Catalog.search_wordless hcompiled hwords 0 ["what", "now"]
  exact ⟨hcompiled, hwords, hno, hfound, (hfallback hno).1⟩

/-- A trigger of one optional group answers the empty message and captures nothing. -/
theorem an_optional_group_answers_without_words :
    ∃ b₀, Bot.new {} = .ok b₀ ∧
      let b := b₀.after [.load {} (.text "a" "+ [x]\n- hey")]
      let r := (b.reply "u" "").1
      b.rules.lexicon.words "" = [] ∧ r.reply = "hey" ∧ r.matched.map (fun m => (m.pattern, m.stars)) = some ("[x]", []) :=
  exists_ok_of_any (by decide +kernel)

end Bot

end Repartee
