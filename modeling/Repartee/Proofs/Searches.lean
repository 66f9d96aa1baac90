/-
  Repartee.Proofs.Searches — what a search comes to, wherever a turn makes it.

  The rules of a bot have a ranking for each of their topics, and the home topic is one of them. So
  a search always has candidates to look through, and what it finds is the best of a pool.

  Proved:
  - What is found has the captures of its trigger, but for a lone `*` without words
    (`answers_or_fallsBack`), and no more was tried than there is (`tried_le_size`).
  - The rules of a bot are ready whatever was loaded (`ready_of_build`, `Consistent.ready`).
  - A search goes through the ranking of a topic that is there (`exists_search`), and notes one step
    (`ensures_find`).
-/

import Repartee.Proofs.BestMatch
import Repartee.Proofs.Invariants
import Repartee.Proofs.Irrelevance
import Repartee.Proofs.Joined.Rulebooks
import Repartee.Proofs.RedirectDepth
import Repartee.Proofs.Runs

namespace Repartee

/-! ## What is found -/

theorem firstFit_lt {α β : Type} {fit : α → Option β} {as : List α} {n : Nat} {found : α × β}
    (h : firstFit fit as = some (n, found)) : n < as.length := by
  induction as generalizing n with
  | nil => cases h
  | cons a as ih =>
    rw [firstFit] at h
    cases hfit : fit a with
    | some b =>
      simp only [hfit, Option.some.injEq, Prod.mk.injEq] at h
      rw [← h.1]
      exact Nat.succ_pos _
    | none =>
      simp only [hfit, Option.map_eq_some_iff, Prod.exists, Prod.mk.injEq] at h
      obtain ⟨m, _, _, hm, rfl, rfl⟩ := h
      exact Nat.succ_lt_succ (ih hm)

theorem Catalog.tried_le_size {c : Catalog} {ranking : Ranking} {words lastReply : List String} {f : Finding}
    (h : c.search ranking words lastReply = some f) : f.tried ≤ ranking.size := by
  rw [search] at h
  rcases hconstrained : firstFit (c.constrainedFit words lastReply) ranking.constrained with _ | ⟨n, e, stars, botStars⟩
  · rcases hordinary : firstFit (c.fit words) ranking.ordinary with _ | ⟨n, e, stars⟩
    · simp only [hconstrained, hordinary, Option.map_eq_some_iff] at h
      obtain ⟨e, -, rfl⟩ := h
      exact Nat.le_refl _
    · have hlt := firstFit_lt hordinary
      simp only [hconstrained, hordinary, Option.some.injEq] at h
      subst h
      show ranking.constrained.length + n + 1 ≤ ranking.constrained.length + ranking.ordinary.length
      omega
  · have hlt := firstFit_lt hconstrained
    simp only [hconstrained, Option.some.injEq] at h
    subst h
    show n + 1 ≤ ranking.constrained.length + ranking.ordinary.length
    omega

/-- The trigger that is found answers, or it is a lone `*`, which takes a message without words. -/
theorem Catalog.answers_or_fallsBack {c : Catalog} {pool : List Candidate} {words lastReply : List String} {f : Finding}
    (h : c.search (c.rank pool) words lastReply = some f) :
    ∃ t, c.triggers[f.candidate.trigger]? = some t ∧
      (Answers words lastReply t f ∨ words = [] ∧ LoneStar t ∧ FallsBack words f) := by
  rcases search_cases c pool words lastReply with
    ⟨n, t, g, hfound, hbest, hanswers⟩ | ⟨hno, ⟨n, t, g, hfound, hbest, hfalls⟩ | ⟨hnone, -⟩⟩
  · cases h.symm.trans hfound
    exact ⟨t, hbest.offers.2, .inl hanswers⟩
  · cases h.symm.trans hfound
    refine ⟨t, hbest.offers.2, .inr ⟨?_, hbest.fits, hfalls⟩⟩
    by_contra hwords
    exact hno _ _ _ hbest.offers (eligible_of_loneStar hbest.fits hwords)
  · cases h.symm.trans hnone

/-! ## Rules that are ready -/

namespace Rulebook

/-- Every topic has the ranking of what it reaches, and there is a home topic. -/
structure Ready (r : Rulebook) : Prop where
  ranked : r.rankings = rankAll r.catalog
  home : ∃ t, r.catalog.topicId? homeTopic = some t

variable {punctuation : Regex} {settings : Settings} {scripts : List Script} {r : Rulebook}

theorem Ready.exists_home (h : r.Ready) : ∃ ranking, r.ranking? homeTopic = some ranking := by
  obtain ⟨t, ht⟩ := h.home
  exact ⟨_, by rw [ranking?_of_rankAll h.ranked, ht, Option.map_some]⟩

theorem Ready.exists_pool (h : r.Ready) {name : String} {ranking : Ranking} (hranking : r.ranking? name = some ranking) :
    ∃ pool, ranking = r.catalog.rank pool := by
  rw [ranking?_of_rankAll h.ranked, Option.map_eq_some_iff] at hranking
  obtain ⟨t, -, rfl⟩ := hranking
  exact ⟨_, rfl⟩

/-- The home topic is there whatever the scripts declare. -/
theorem ready_of_build (h : build punctuation settings scripts = .ok r) : r.Ready := by
  obtain ⟨catalog, hcatalog, rfl⟩ := build_eq_ok.mp h
  obtain ⟨-, rfl⟩ := catalogOf_eq_ok.mp hcatalog
  refine ⟨rfl, ?_⟩
  rw [← List.foldl_flatMap]
  have hhome : ∀ topics : List Script.Topic,
      let c := topics.foldl (declare (scopeOf punctuation settings scripts)) homeCatalog
      c.WellFormed ∧ ∃ t, c.At t homeTopic := by
    intro topics
    refine List.foldlRecOn (motive := fun c : Catalog => c.WellFormed ∧ ∃ t, c.At t homeTopic) _ _
      ⟨wellFormed_homeCatalog, at_homeCatalog.mpr rfl⟩ fun c ⟨hc, t, ht⟩ topic _ => ?_
    have hdeclared := changes_declare (scopeOf punctuation settings scripts) topic hc
    exact ⟨hdeclared.wellFormed, t, hdeclared.kept ht⟩
  obtain ⟨hwell, t, ht⟩ := hhome (scripts.flatMap Script.topics)
  exact ⟨t, hwell.topicId? ht⟩

theorem ready_empty (punctuation : Regex) (settings : Settings) : (empty punctuation settings).Ready := by
  obtain ⟨t, ht⟩ := at_homeCatalog.mpr rfl
  exact ⟨rfl, t, wellFormed_homeCatalog.topicId? ht⟩

end Rulebook

theorem Bot.Consistent.ready {settings : Settings} {b : Bot} (h : Bot.Consistent settings b) : b.rules.Ready := by
  rcases h.rules with hbuild | ⟨-, hempty⟩
  · exact Rulebook.ready_of_build hbuild
  · rw [hempty]
    exact Rulebook.ready_empty b.punctuation settings

/-! ## Searching in a turn -/

namespace Turn

/-- What is found for a text of a user's among the candidates of a topic. -/
def searched (r : Rulebook) (u : User) (ranking : Ranking) (text : String) : Option Finding :=
  r.catalog.search ranking (r.lexicon.words text) (r.lexicon.words ((u.reply? 1).getD undefinedText))

/-- The note of a search. -/
def stepOf (r : Rulebook) (u : User) (ranking : Ranking) (depth : Nat) (text : String) : Step :=
  { input := Text.spaced (r.lexicon.words text)
    topic := u.topic
    matched := (searched r u ranking text).map fun f => r.patternText f.candidate.trigger
    tried := ((searched r u ranking text).map (·.tried)).getD ranking.size
    depth }

/-- The turn once a search is noted. -/
def noting (t : Turn) (step : Step) : Turn := { t with steps := t.steps ++ [step], tried := t.tried + step.tried }

/-- The turn that a search starts from: a user whose topic is unknown has been sent home. -/
def settled (r : Rulebook) (t : Turn) : Turn :=
  if (r.ranking? t.user.topic).isSome then t
  else { t with diagnostics := t.diagnostics ++ [.unknownTopic t.user.topic], user := t.user.setTopic homeTopic }

section Find

variable {s : Scene} {D : Diagnostic → Prop} {I E : Turn → Prop} {depth : Nat} {text : String}

theorem run_searchIn (s : Scene) (ranking : Ranking) (depth : Nat) (text : String) (t : Turn) :
    (searchIn s ranking depth text).run t =
      (searched s.rules t.user ranking text, t.noting (stepOf s.rules t.user ranking depth text)) := rfl

/-- A search goes through the ranking of a topic that is there, the user's own or the home topic. -/
theorem exists_search (hready : s.rules.Ready) (depth : Nat) (text : String) (t : Turn) : ∃ ranking,
    s.rules.ranking? (t.settled s.rules).user.topic = some ranking ∧
      (find s depth text).run t = (searchIn s ranking depth text).run (t.settled s.rules) := by
  simp only [find, StateT.run_bind, StateT.run_get, pure_bind, settled]
  cases htopic : s.rules.ranking? t.user.topic with
  | some ranking => exact ⟨ranking, htopic, rfl⟩
  | none =>
    obtain ⟨ranking, hranking⟩ := hready.exists_home
    refine ⟨ranking, ?_, ?_⟩
    · show s.rules.ranking? (t.user.setTopic homeTopic).topic = some ranking
      rw [topic_setTopic, hranking]
    · rw [hranking]
      rfl

/-- A search that starts from a steady condition comes to what holds of what is found in it. -/
theorem ensures_find (hready : s.rules.Ready) (h : Steady s D I)
    (hD : ∀ topic, D (.unknownTopic topic)) {Q : Option Finding → Turn → Prop}
    (hQ : ∀ t ranking, I t → s.rules.ranking? t.user.topic = some ranking →
      Q (searched s.rules t.user ranking text) (t.noting (stepOf s.rules t.user ranking depth text))) :
    Ensures I Q E (liftM (find s depth text) : Play (Option Finding)) := by
  refine ensures_lift fun t ht => ?_
  obtain ⟨ranking, hranking, hrun⟩ := exists_search hready depth text t
  have hsettled : I (t.settled s.rules) := by
    unfold settled
    split
    · exact ht
    · exact h.setTopic homeTopic (h.diagnose (hD t.user.topic) ht)
  rw [hrun, run_searchIn]
  exact hQ _ ranking hsettled hranking

/-- A redirect beyond the depth allowed is noted and ends the turn. -/
theorem ensures_follow_zero {Q : String → Turn → Prop}
    (h : ∀ t, I t → E { t with diagnostics := t.diagnostics ++ [.redirectTooDeep s.settings.maxDepth] })
    (target : String) : Ensures I Q E (follow s 0 target) := by
  rw [follow]
  constructor
  · intro t a t' _ hrun
    cases hrun
  · intro t e t' ht hrun
    cases hrun
    exact h t ht

end Find

end Turn

end Repartee
