/-
  Repartee.Proofs.RedirectDepth — how deep redirects go, and what happens beyond.

  A redirect is attempted wherever one stands: an `@` line, or a redirect tag in a template, a
  condition, a value, a call or another redirect's target. All of them are calls, so the depth
  guard is a property of the calls of a turn.

  Proved:
  - A redirect too deep is refused, and the abort goes through every caller (`leads_aborted`).
  - A turn aborts only because of such a redirect (`tooDeep_of_aborted`).
  - A chain of redirects is answered if it is no longer than the depth allowed (`answer_chain`).
  - All of this for whole turns (`redirect_guard`).
-/

import Mathlib
import Repartee.Proofs.Ending

namespace Repartee

namespace Turn

/-- In the course of the turn a redirect is attempted at this depth. -/
def Attempts (s : Scene) (user : User) (message : String) (depth : ℕ) : Prop :=
  ∃ n target, ((Machine.step s)^[n] (.start s user message)).running = .redirect depth target

/-! ## Aborts -/

namespace Machine

variable {s : Scene} {m : Machine}

/-- An abort is handed from caller to caller until none waits. -/
theorem leads_aborted (h : m.Aborted) : ∃ c e t, Leads s m ⟨c, .ended (.error e) t, []⟩ := by
  obtain ⟨running, routine, waiting⟩ := m
  obtain ⟨e, t, hr⟩ := h
  cases hr
  induction waiting generalizing running with
  | nil => exact ⟨running, e, t, .refl _⟩
  | cons f waiting ih =>
    obtain ⟨c, e', t', hleads⟩ := ih f.caller
    exact ⟨c, e', t', (leads_step _).trans hleads⟩

theorem step_halted (c : Call) (o : Except Abort String) (t : Turn) :
    step s ⟨c, .ended o t, []⟩ = ⟨c, .ended o t, []⟩ := by
  cases o <;> rfl

/-- A machine comes to one end only. -/
theorem eq_of_leads {d d' : Machine} (h : Leads s m d) (hd : d.step s = d) (h' : Leads s m d') (hd' : d'.step s = d') :
    d = d' := by
  obtain ⟨n, rfl⟩ := h
  obtain ⟨k, rfl⟩ := h'
  rcases Nat.le_total n k with hle | hle
  · obtain ⟨j, rfl⟩ := Nat.exists_eq_add_of_le' hle
    rw [Function.iterate_add_apply, Function.iterate_fixed hd]
  · obtain ⟨j, rfl⟩ := Nat.exists_eq_add_of_le' hle
    rw [Function.iterate_add_apply, Function.iterate_fixed hd']

/-- Before an abort there was a redirect too deep. -/
theorem tooDeep_of_aborted {user : User} {message : String} {n : ℕ}
    (h : ((step s)^[n] (start s user message)).Aborted) :
    ∃ k, ((step s)^[k] (start s user message)).running.TooDeep s := by
  induction n with
  | zero =>
    have hwithin := within_part (s := s) (c := .message message) (Nat.zero_le _) { user } nofun
    exact absurd h (not_aborted_of_within hwithin)
  | succ n ih =>
    have hsound := sound_after s user message n
    rw [Function.iterate_succ_apply'] at h
    rcases aborted_step hsound h with habort | hdeep
    · exact ih habort
    · exact ⟨n + 1, by rwa [Function.iterate_succ_apply']⟩

end Machine

open Machine in
/-- The outcome of a turn is an abort exactly if a redirect is attempted beyond the depth allowed. -/
theorem error_iff_attempts (s : Scene) (user : User) (message : String) :
    (∃ e, ((meaning s (.message message)).run { user }).1 = .error e) ↔
      Attempts s user message (s.settings.maxDepth + 1) := by
  obtain ⟨-, hleads⟩ := leads_call (s := s) (c := .message message) (.inl (Nat.zero_le _)) (t := { user }) nofun
  constructor
  · intro ⟨e, he⟩
    obtain ⟨n, hn⟩ := hleads []
    rw [he] at hn
    obtain ⟨k, target, htarget⟩ := tooDeep_of_aborted (n := n) (s := s) ⟨e, _, congrArg Machine.routine hn⟩
    exact ⟨k, target, htarget⟩
  · intro ⟨k, target, htarget⟩
    have haborted := (sound_after s user message k).aborted ⟨target, htarget⟩
    obtain ⟨c, e, t, hend⟩ := leads_aborted (s := s) haborted
    have hend' := Leads.trans ⟨k, rfl⟩ hend
    have heq := eq_of_leads (hleads []) (step_halted _ _ _) hend' (step_halted _ _ _)
    injection heq with _ hroutine
    injection hroutine with houtcome
    exact ⟨e, houtcome⟩

/-! ## Chains of redirects -/

section Chains

variable {s : Scene} {u v : User}

/-- The template is nothing but this text. -/
def IsText (t : Template) (text : String) : Prop :=
  ∃ texts : List String, t.pieces = texts.map .text ∧ text = texts.foldr (· ++ ·) ""

/-- The ranking that answers a user; one whose topic is unknown is sent home. -/
def rankingFor? (r : Rulebook) (u : User) : Option Ranking := (r.ranking? u.topic).or (r.ranking? homeTopic)

/-- What is found for a text of the user's. -/
def heard? (r : Rulebook) (u : User) (text : String) : Option Finding :=
  (rankingFor? r u).bind fun ranking =>
    r.catalog.search ranking (r.lexicon.words text) (r.lexicon.words ((u.reply? 1).getD undefinedText))

/-- A text of the user's is answered by this trigger. -/
def Hears (r : Rulebook) (u : User) (text : String) (trigger : Trigger) : Prop :=
  ∃ f, heard? r u text = some f ∧ r.catalog.triggers[f.candidate.trigger]? = some trigger

/-- The text is answered by a trigger that redirects, its target by another one, and so on, until after
so many redirects a trigger has one reply of plain text. -/
inductive Chain (r : Rulebook) (u : User) (reply : String) : ℕ → String → Prop
  | last {text : String} {trigger : Trigger} {body : Template} : Hears r u text trigger →
      trigger.redirect = none → trigger.conditions = [] → trigger.replies = [body] → IsText body reply →
      Chain r u reply 0 text
  | link {n : ℕ} {text next : String} {trigger : Trigger} {target : Template} : Hears r u text trigger →
      trigger.redirect = some target → IsText target next → Chain r u reply n (Text.trimmed next) →
      Chain r u reply (n + 1) text

/-- Texts of these users are answered alike. -/
def HeardAlike (r : Rulebook) (u v : User) : Prop := rankingFor? r v = rankingFor? r u ∧ v.reply? 1 = u.reply? 1

theorem topic_setTopic (u : User) (topic : String) : (u.setTopic topic).topic = topic := by
  simp [User.topic, User.setTopic]

theorem run_bind_ok {α β : Type} {x : Play α} {f : α → Play β} {a : α} {t v : Turn} (h : x.run t = (.ok a, v)) :
    (x >>= f).run t = (f a).run v := by
  change (ExceptT.bindCont f (x.run t).1) (x.run t).2 = _
  rw [h]
  rfl

theorem render_isText {t : Template} {text : String} (h : IsText t text) (redirect : String → Play String)
    (captures : Captures) : render s redirect captures t = pure text := by
  obtain ⟨texts, hpieces, rfl⟩ := h
  rw [render, hpieces]
  clear hpieces
  induction texts with
  | nil => rfl
  | cons text texts ih =>
    rw [List.map_cons, renderPieces, List.foldr_cons, ih]
    rfl

theorem find_of_hears {t : Turn} {text : String} {trigger : Trigger} (h : Hears s.rules u text trigger)
    (ht : HeardAlike s.rules u t.user) (depth : ℕ) :
    ∃ f t', (find s depth text).run t = (some f, t') ∧ s.rules.catalog.triggers[f.candidate.trigger]? = some trigger ∧
      HeardAlike s.rules u t'.user := by
  obtain ⟨f, hheard, htrigger⟩ := h
  obtain ⟨hrankings, hreply⟩ := ht
  obtain ⟨ranking, hranking, hsearch⟩ := Option.bind_eq_some_iff.mp hheard
  have hfor : rankingFor? s.rules t.user = some ranking := hrankings.trans hranking
  rw [← hreply] at hsearch
  simp only [find, StateT.run_bind, StateT.run_get, pure_bind]
  cases hown : s.rules.ranking? t.user.topic with
  | some own =>
    have heq : own = ranking := by simpa [rankingFor?, hown] using hfor
    refine ⟨f, _, Prod.ext ?_ rfl, htrigger, hrankings, hreply⟩
    rw [heq]
    exact hsearch
  | none =>
    have hhome : s.rules.ranking? homeTopic = some ranking := by simpa [rankingFor?, hown] using hfor
    simp only [hhome]
    refine ⟨f, _, Prod.ext hsearch rfl, htrigger, ?_, hreply⟩
    change rankingFor? s.rules (t.user.setTopic homeTopic) = _
    rw [rankingFor?, topic_setTopic, hhome, ← hrankings, hfor]
    rfl

theorem follow_succ (s : Scene) (left : ℕ) (target : String) (t : Turn) :
    let noted := { t with redirects := t.redirects ++ [target] }
    let found := (find s (s.settings.maxDepth - left) target).run noted
    (follow s (left + 1) target).run t = (answer s (follow s left) found.1).run found.2 := by
  intro noted found
  rw [follow]
  exact (run_bind_ok (v := noted) rfl).trans (run_bind_ok rfl)

/-- A chain is answered from where its first trigger is found, if enough redirects are left. -/
theorem answer_chain {reply : String} {n : ℕ} {text : String} (h : Chain s.rules u reply n text) (left depth : ℕ) {t : Turn}
    (ht : HeardAlike s.rules u t.user) :
    let found := (find s depth text).run t
    ((answer s (follow s left) found.1).run found.2).1 = if n ≤ left then .ok reply else .error .tooDeep := by
  induction h generalizing left depth t with
  | last hhears hredirect hconditions hreplies hbody =>
    obtain ⟨f, t', hfind, htrigger, -⟩ := find_of_hears hhears ht depth
    rw [hfind, if_pos (Nat.zero_le _)]
    simp only [answer, htrigger, say, hredirect, hconditions, firstHolding, hreplies, pick, pure_bind, liftM_pure,
      render_isText hbody]
    rfl
  | @link n text next trigger target hhears hredirect htarget _ ih =>
    obtain ⟨f, t', hfind, htrigger, halike⟩ := find_of_hears hhears ht depth
    rw [hfind]
    simp only [answer, htrigger, say, hredirect, render_isText htarget, pure_bind]
    cases left with
    | zero =>
      rw [if_neg (Nat.not_succ_le_zero n)]
      rfl
    | succ left =>
      have hnext := ih left (s.settings.maxDepth - left)
        (t := { t' with redirects := t'.redirects ++ [Text.trimmed next] }) halike
      rw [follow_succ]
      simpa only [Nat.add_le_add_iff_right] using hnext

end Chains

/-! ## Whole turns -/

/-- No step is deeper than allowed. The turn aborts exactly if a redirect is attempted beyond that, and then
says nothing but the reply set for it. So a chain of redirects is answered exactly if it is no longer. -/
theorem redirect_guard (s : Scene) (user : User) (message : String) :
    let report := (play s user message).1
    (∀ step ∈ report.steps, step.depth ≤ s.settings.maxDepth) ∧
    (report.aborted = true ↔ Attempts s user message (s.settings.maxDepth + 1)) ∧
    (report.aborted = true → report.reply = s.settings.deepRecursionReply) ∧
    ∀ n reply, Chain s.rules user reply n message →
      report.reply = if n ≤ s.settings.maxDepth then reply else s.settings.deepRecursionReply := by
  intro report
  have htells := tells_play s user message
  obtain ⟨hbounded, -⟩ := leads_call (s := s) (c := .message message) (.inl (Nat.zero_le _)) (t := { user }) nofun
  refine ⟨?_, htells.aborted.trans (error_iff_attempts s user message), fun haborted => ?_, fun n reply hchain => ?_⟩
  · rw [htells.steps]
    exact hbounded
  · obtain ⟨e, he⟩ := htells.aborted.mp haborted
    rw [htells.reply, he]
  · have hanswer : ((meaning s (.message message)).run { user }).1 = _ :=
      answer_chain hchain s.settings.maxDepth 0 (t := { user }) ⟨rfl, rfl⟩
    rw [htells.reply, hanswer]
    by_cases hn : n ≤ s.settings.maxDepth
    · rw [if_pos hn, if_pos hn]
    · rw [if_neg hn, if_neg hn]

/-- Two redirects are answered where two are allowed, and too deep where one is. -/
theorem redirect_guard_two_links :
    let body (text : String) : Template := { source := text, pieces := [.text text], weight := 0 }
    let pattern (word : String) : Pattern := { text := word, items := [.word word], weight := 0 }
    let catalog : Catalog := {
      topics := #[{ name := homeTopic, triggers := [0, 1, 2] }]
      triggers := #[{ pattern := pattern "one", redirect := some (body "two") },
        { pattern := pattern "two", redirect := some (body "three") },
        { pattern := pattern "three", replies := [body "done"] }] }
    let rules : Rulebook := { catalog, rankings := Rulebook.rankAll catalog, lexicon := .standard }
    let scene (allowed : ℕ) : Scene :=
      { rules, macros := {}, settings := { maxDepth := allowed }, draws := fun _ => 0 }
    let user : User := .new "alice"
    Chain rules user "done" 2 "one" ∧ (play (scene 2) user "one").1.reply = "done" ∧
      (play (scene 1) user "one").1.reply = "ERR: Deep Recursion Detected" := by
  intro body pattern catalog rules scene user
  have htext (text : String) : IsText (body text) text := ⟨[text], rfl, by simp⟩
  have hears (text : String) (n : TriggerId) (h : (heard? rules user text).map (·.candidate.trigger) = some n)
      {t : Trigger} (ht : catalog.triggers[n]? = some t) : Hears rules user text t := by
    obtain ⟨f, hf, rfl⟩ := Option.map_eq_some_iff.mp h
    exact ⟨f, hf, ht⟩
  have hchain : Chain rules user "done" 2 "one" := by
    refine .link (hears "one" 0 (by cbv) rfl) rfl (htext "two") ?_
    refine .link (hears _ 1 (by cbv) rfl) rfl (htext "three") ?_
    exact .last (hears _ 2 (by cbv) rfl) rfl rfl rfl (htext "done")
  exact ⟨hchain, (redirect_guard (scene 2) user "one").2.2.2 2 "done" hchain,
    (redirect_guard (scene 1) user "one").2.2.2 2 "done" hchain⟩

end Turn

end Repartee
