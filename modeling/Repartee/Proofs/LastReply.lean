/-
  Repartee.Proofs.LastReply — what a `%` line is compared with.

  The last reply is read in the user's history, at every search of a turn anew. A turn writes to the
  history only when it is over, so all its searches read the same reply: that of the user's turn
  before. The history begins full of the text `undefined`. On a user's first turn this text is what
  a `%` line is compared with, and it can match it: a trigger with a `%` line may answer a user who
  was never replied to (`a_first_message_is_answered_through_a_wildcard`).

  Proved:
  - Searches of a turn read the reply of the turn before, or `undefined` (`User.Remembers.lastReply_eq`).
  - Whatever answers through a `%` line at any depth of any turn does so because that line matches
    the words of this text, with the captures reported (`answered_through_last_reply`).
-/

import Repartee.Proofs.Journal
import Repartee.Proofs.Histories

namespace Repartee

/-- The reply of the last of these turns, latest first; `undefined` if there is none. -/
def lastReply : List (String × String) → String
  | [] => undefinedText
  | (_, reply) :: _ => reply

theorem User.Remembers.lastReply_eq {u : User} {turns : List (String × String)} (h : u.Remembers turns) :
    (u.reply? 1).getD undefinedText = lastReply turns := by
  rw [h.reply? 1]
  cases turns with
  | nil => rfl
  | cons turn turns => rfl

/-- A trigger answers as its `%` line allows: if it has one, the line matches these words with these captures. -/
def Rulebook.Follows (r : Rulebook) (lastReply : List String) (id : TriggerId) (usedPrevious : Bool)
    (botStars : List String) : Prop :=
  ∃ trigger, r.catalog.triggers[id]? = some trigger ∧ usedPrevious = trigger.previous.isSome ∧
    trigger.previous.elim (some []) (·.align lastReply) = some botStars

theorem Rulebook.Ready.follows {r : Rulebook} (h : r.Ready) {topic : String} {ranking : Ranking}
    (hranking : r.ranking? topic = some ranking) {words lastReply : List String} {f : Finding}
    (hfound : r.catalog.search ranking words lastReply = some f) :
    r.Follows lastReply f.candidate.trigger f.usedPrevious f.botStars := by
  obtain ⟨pool, rfl⟩ := h.exists_pool hranking
  obtain ⟨t, ht, hanswers | ⟨-, hlone, hfalls⟩⟩ := Catalog.answers_or_fallsBack hfound
  · exact ⟨t, ht, hanswers.usedPrevious, hanswers.botStars⟩
  · refine ⟨t, ht, ?_, ?_⟩
    · rw [hfalls.usedPrevious, hlone.1]
      rfl
    · rw [hfalls.botStars, hlone.1]
      rfl

namespace Turn

theorem keepable_remembers {s : Scene} (hm : s.macros.Behaved) (turns : List (String × String)) :
    Keepable s (·.Remembers turns) :=
  ⟨fun name text h => h.set name text, fun name h => h.setTopic name, fun call hname h => h.called (hm.resolve? hname) call⟩

/-- The step notes what was found for the text by a user with this last reply. -/
structure Heard (r : Rulebook) (lastReply : String) (text : String) (step : Step) (found : Option Finding) : Prop where
  searched : ∃ ranking, r.ranking? step.topic = some ranking ∧
    r.catalog.search ranking (r.lexicon.words text) (r.lexicon.words lastReply) = found
  matched : step.matched = found.map fun f => r.patternText f.candidate.trigger
  follows : ∀ f ∈ found, r.Follows (r.lexicon.words lastReply) f.candidate.trigger f.usedPrevious f.botStars

theorem Searched.heard {r : Rulebook} (hready : r.Ready) {turns : List (String × String)} {text : String} {step : Step}
    (h : Searched r (·.Remembers turns) text step) : ∃ found, Heard r (lastReply turns) text step found := by
  obtain ⟨u, ranking, hu, hranking, hstep⟩ := h
  have hlast : searched r u ranking text =
      r.catalog.search ranking (r.lexicon.words text) (r.lexicon.words (lastReply turns)) := by
    rw [searched, hu.lastReply_eq]
  refine ⟨searched r u ranking text, ⟨ranking, ?_, hlast.symm⟩, ?_, fun f hf => ?_⟩
  · rw [hstep]
    exact hranking
  · rw [hstep]
    rfl
  · exact hready.follows hranking (hlast.symm.trans hf)

end Turn

namespace Bot

/-- After any run, each search of the next turn reads the same text, the reply of the user's last turn, or
`undefined` if there was none. Who answers through a `%` line, the message or a redirect, has a line that
matches the words of this text. -/
theorem answered_through_last_reply {settings : Settings} {b₀ : Bot} (h : Bot.new settings = .ok b₀) (events : List Event)
    (hbehaved : ∀ e ∈ events, e.Behaved) (user message : String) :
    let b := b₀.after events
    let last := lastReply (b₀.turnsOf user events)
    let r := (b.reply user message).1
    List.Forall₂ (fun text step => ∃ found, Turn.Heard b.rules last text step found) (r.message :: r.redirects) r.steps ∧
      ∀ m ∈ r.matched, b.rules.Follows (b.rules.lexicon.words last) m.trigger m.usedPrevious m.botStars := by
  intro b last r
  have hready := (consistent_after (consistent_new h) events).ready
  have hafter : b.Remembers user (b₀.turnsOf user events) := by
    have hall := remembers_after (remembers_new h user) hbehaved
    rwa [List.append_nil] at hall
  have htold : Turn.Told b.scene (·.Remembers (b₀.turnsOf user events)) r :=
    Turn.told_play (Turn.keepable_remembers hafter.macros _) hready hafter.remembers message
  refine ⟨htold.journal.searches.imp fun text step hstep => hstep.heard hready, fun m hm => ?_⟩
  obtain ⟨u, ranking, hu, hranking, -, hmatched⟩ := htold.first
  rw [hmatched, Option.mem_def, Option.map_eq_some_iff] at hm
  obtain ⟨f, hf, rfl⟩ := hm
  rw [Turn.searched, hu.lastReply_eq] at hf
  exact hready.follows hranking hf

/-- The second message is answered through a `%` line, and a redirect in its reply without one. -/
theorem answered_through_last_reply_canoe :
    let text := "+ knock knock\n- Who is there?\n+ a *\n% * is there\n- <star> <botstar>? \x7b@knock knock\x7d"
    let events := [Event.load {} (.text "a" text), .reply "u" "Knock knock!"]
    ∃ b₀, Bot.new {} = .ok b₀ ∧
      let b := b₀.after events
      let last := lastReply (b₀.turnsOf "u" events)
      let r := (b.reply "u" "A canoe").1
      (last = "Who is there?" ∧ r.reply = "canoe who? Who is there?" ∧
        r.matched.map (fun m => (m.usedPrevious, m.botStars)) = some (true, ["who"])) ∧
      (∀ e ∈ events, e.Behaved) ∧
      List.Forall₂ (fun text step => ∃ found, Turn.Heard b.rules last text step found) (r.message :: r.redirects) r.steps ∧
      ∀ m ∈ r.matched, b.rules.Follows (b.rules.lexicon.words last) m.trigger m.usedPrevious m.botStars := by
  intro text events
  obtain ⟨b₀, hnew, hran⟩ : ∃ b₀, Bot.new {} = .ok b₀ ∧
      (lastReply (b₀.turnsOf "u" events) = "Who is there?" ∧
        ((b₀.after events).reply "u" "A canoe").1.reply = "canoe who? Who is there?" ∧
        ((b₀.after events).reply "u" "A canoe").1.matched.map (fun m => (m.usedPrevious, m.botStars)) =
          some (true, ["who"])) :=
    exists_ok_of_any (by decide +kernel)
  have hbehaved : ∀ e ∈ events, e.Behaved := by simp [events, Event.Behaved]
  exact ⟨b₀, hnew, hran, hbehaved, answered_through_last_reply hnew events hbehaved "u" "A canoe"⟩

/-- A user who was never replied to is answered through a `%` line. -/
theorem a_first_message_is_answered_through_a_wildcard :
    let events := [Event.load {} (.text "a" "+ a\n% *\n- x")]
    ∃ b₀, Bot.new {} = .ok b₀ ∧ b₀.turnsOf "u" events = [] ∧
      let r := ((b₀.after events).reply "u" "a").1
      r.reply = "x" ∧ r.matched.map (fun m => (m.usedPrevious, m.botStars)) = some (true, ["undefined"]) := by
  intro events
  exact exists_ok_of_any (by decide +kernel)

end Bot

end Repartee
