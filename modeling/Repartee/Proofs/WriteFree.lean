/-
  Repartee.Proofs.WriteFree — rules without tags that write.

  Assignments, arithmetic and changes of topic write to the user, and a call may run a macro that
  does. Rules that have none of these can still recall, choose, redirect and go too deep, but what
  they say leaves the user as it was. So does a search, unless the user's topic is unknown. Only
  when the turn is over is it noted.

  Proved:
  - Nothing that such rules render, say or follow writes to the user (`spares_say`,
    `spares_follow`).
  - A turn on such rules does no more than note the match and record the texts (`play_of_writeFree`).
  - What that comes to for the user, the others and the bot (`reply_of_writeFree`).
-/

import Repartee.Proofs.Joined.Rulebooks
import Repartee.Proofs.Rendering
import Repartee.Proofs.Runs

namespace Repartee

/-! ## Tags that write -/

/-- Playing this tag, those in it apart, writes nothing to the user. -/
def Piece.WriteFree : Piece → Prop
  | .set .. | .math .. | .topic _ | .call _ => False
  | _ => True

instance : DecidablePred Piece.WriteFree
  | .set .. | .math .. | .topic _ | .call _ => isFalse id
  | .text _ | .star _ | .botStar _ | .input _ | .reply _ | .get _ | .bot _ | .env _ | .userId | .redirect _ | .random _
  | .recase .. => isTrue trivial

/-- No trigger says anything with a tag that writes. -/
def Rulebook.WriteFree (r : Rulebook) : Prop := ∀ trigger ∈ r.catalog.triggers, trigger.Each Piece.WriteFree

instance : DecidablePred Rulebook.WriteFree := fun r =>
  decidable_of_iff (∀ trigger ∈ r.catalog.triggers.toList, trigger.Each Piece.WriteFree) (by simp [Rulebook.WriteFree])

namespace Turn

/-! ## What leaves the user alone -/

/-- From this user, the play comes to its end with the same user. -/
abbrev Spares {α : Type} (u : User) (p : Play α) : Prop := Agree (· = u) p p

section Spares

variable {s : Scene} {u : User} {redirect : String → Play String}

theorem spares_leaf (captures : Captures) {p : Piece} (hp : p.WriteFree) (hleaf : p.isLeaf = true) :
    Spares u (renderPiece s redirect captures p) := by
  cases p with
  | star index => exact agree_untouched (user_capture captures.stars index)
  | botStar index => exact agree_untouched (user_capture captures.botStars index)
  | input index => exact agree_untouched (user_remembered User.input? index)
  | reply index => exact agree_untouched (user_remembered User.reply? index)
  | topic name => cases hp
  | set | math | call | redirect | random | recase => cases hleaf
  | _ => exact fun t ht => ⟨rfl, ht⟩

theorem spares_say (hredirect : ∀ target, Spares u (redirect target)) (captures : Captures) {trigger : Trigger}
    (htrigger : trigger.Each Piece.WriteFree) : Spares u (say s redirect captures trigger) := by
  have hmirrors : Mirrors (· = u) Piece.WriteFree id captures s s redirect redirect :=
    ⟨fun p hp hleaf => spares_leaf captures hp hleaf, fun _ _ hp => hp.elim, fun _ _ _ hp => hp.elim,
      fun _ hp => hp.elim, fun _ _ _ => agree_untouched fun _ => rfl, hredirect⟩
  have hpick : Spares u (pick s trigger.replies : Play (Option Template)) := by
    refine agree_untouched fun t => ?_
    match trigger.replies with
    | [] => rfl
    | [_] => rfl
    | _ :: _ :: _ => rfl
  have hsay := agree_say hmirrors htrigger hpick rfl
  rwa [Trigger.replace_id] at hsay

theorem spares_answer (hrules : s.rules.WriteFree) (hredirect : ∀ target, Spares u (redirect target))
    (finding : Option Finding) : Spares u (answer s redirect finding) := by
  cases finding with
  | none => exact .pure _
  | some f =>
    rw [answer]
    cases htrigger : s.rules.catalog.triggers[f.candidate.trigger]? with
    | none => exact .pure _
    | some trigger => exact spares_say hredirect _ (hrules trigger (Array.mem_of_getElem? htrigger))

/-- A search of a topic that exists. -/
theorem spares_find (htopic : (s.rules.ranking? u.topic).isSome = true) (depth : Nat) (text : String) :
    Spares u (find s depth text : Play (Option Finding)) := by
  refine agree_lift fun t ht => ?_
  obtain ⟨ranking, hranking⟩ := Option.isSome_iff_exists.mp htopic
  rw [← ht] at hranking
  simp only [find, StateT.run_bind, StateT.run_get, pure_bind, hranking]
  exact ht

/-- However many redirects are followed, and also if there are too many. -/
theorem spares_follow (hrules : s.rules.WriteFree) (htopic : (s.rules.ranking? u.topic).isSome = true) (left : Nat)
    (target : String) : Spares u (follow s left target) := by
  induction left generalizing target with
  | zero => exact fun t ht => ⟨rfl, ht⟩
  | succ left ih =>
    rw [follow]
    refine (agree_untouched fun _ => rfl).bind fun _ => ?_
    exact (spares_find htopic _ target).bind fun finding => spares_answer hrules ih finding

/-- All that a turn does to the user comes after the reply. -/
theorem play_of_writeFree (hrules : s.rules.WriteFree) (htopic : (s.rules.ranking? u.topic).isSome = true)
    (message : String) : (play s u message).2 =
      (noteMatch (play s u message).1.matched u).record message (play s u message).1.reply := by
  have hfound : ((find s 0 message).run { user := u }).2.user = u := (spares_find htopic 0 message { user := u } rfl).2
  have hkept : ∃ v, v = u ∧ (play s u message).2 =
      (noteMatch (play s u message).1.matched v).record message (play s u message).1.reply := by
    unfold play
    rcases hrun : (find s 0 message).run { user := u } with ⟨finding, t⟩
    rw [hrun] at hfound
    have hanswer := spares_answer hrules (spares_follow hrules htopic s.settings.maxDepth) finding t hfound
    -- aborted or not, the turn is noted on the user that the answer leaves
    exact ⟨_, hanswer.2, rfl⟩
  obtain ⟨v, rfl, hplay⟩ := hkept
  exact hplay

end Spares

/-- To note a match is to write one variable. -/
theorem exists_noteMatch (matched : Option Matched) (u : User) : ∃ vars, noteMatch matched u = { u with vars } ∧
    ∀ name ≠ lastMatchVariable, vars.find? name = u.vars.find? name := by
  cases matched with
  | none => exact ⟨_, rfl, fun name hname => Dict.find?_erase_of_ne u.vars hname⟩
  | some m =>
    by_cases herasing : m.pattern = erasingValue
    · exact ⟨_, if_pos herasing, fun name hname => Dict.find?_erase_of_ne u.vars hname⟩
    · exact ⟨_, if_neg herasing, fun name hname => Dict.find?_put_of_ne u.vars m.pattern hname⟩

end Turn

/-! ## Bots -/

namespace Bot

/-- From `b` to `b'` a turn of the user was recorded, and nothing else happened but that its match was noted. -/
structure Recorded (user message : String) (report : Turn.Report) (b b' : Bot) : Prop where
  others : ∀ other ≠ user, b'.roster.existing? other = b.roster.existing? other
  id : (b'.roster.user user).id = (b.roster.user user).id
  vars : ∀ name ≠ lastMatchVariable,
    (b'.roster.user user).vars.find? name = (b.roster.user user).vars.find? name
  topic : (b'.roster.user user).topic = (b.roster.user user).topic
  inputs : (b'.roster.user user).inputs = (b.roster.user user).inputs.push message
  replies : (b'.roster.user user).replies = (b.roster.user user).replies.push report.reply
  rest : b' = { b with roster := b'.roster, turns := b.turns + 1 }

/-- On rules without tags that write, a turn of a user whose topic exists is recorded, and that is all,
whether it finds an answer, follows redirects, goes too deep or none of these. -/
theorem reply_of_writeFree {b : Bot} {punctuation : Regex} {settings : Settings} {scripts : List Script} {user : String}
    (hbuild : Rulebook.build punctuation settings scripts = .ok b.rules) (hrules : b.rules.WriteFree)
    (htopic : (b.rules.catalog.topicId? (b.roster.user user).topic).isSome = true) (message : String) :
    Recorded user message (b.reply user message).1 b (b.reply user message).2 := by
  have hranked : (b.scene.rules.ranking? (b.roster.user user).topic).isSome = true := by
    show (b.rules.ranking? (b.roster.user user).topic).isSome = true
    rw [Rulebook.ranking?_of_build hbuild, Option.isSome_map]
    exact htopic
  have hplay := Turn.play_of_writeFree (show b.scene.rules.WriteFree from hrules) hranked message
  obtain ⟨vars, hnote, hvars⟩ :=
    Turn.exists_noteMatch (Turn.play b.scene (b.roster.user user) message).1.matched (b.roster.user user)
  rw [hnote] at hplay
  have hkept : (b.reply user message).2.roster.user user =
      { b.roster.user user with vars }.record message (b.reply user message).1.reply := by
    unfold reply
    rw [Roster.user_keep, if_pos rfl, hplay]
  have hne : topicVariable ≠ lastMatchVariable := by decide
  refine ⟨?_, ?_, ?_, ?_, ?_, ?_, rfl⟩
  · intro other hother
    unfold reply
    rw [Roster.existing?_keep, if_neg hother]
  · rw [hkept]
    rfl
  · intro name hname
    rw [hkept]
    exact hvars name hname
  · rw [hkept]
    show (vars.find? topicVariable).getD homeTopic = (b.roster.user user).topic
    rw [hvars topicVariable hne]
    rfl
  · rw [hkept]
    rfl
  · rw [hkept]
    rfl

/-- A redirect goes round until the turn aborts, in a topic of the user's own. -/
theorem reply_of_writeFree_round :
    let text := "> topic pub\n+ say *\n* <get name> == Ann => \x7b@say <star> <input1>\x7d\n- <id>\n< topic"
    let events := [Event.load {} (.text "a" text), .setUservars "u" [("topic", "pub"), ("name", "Ann")]]
    ∃ b₀, Bot.new { maxDepth := 2 } = .ok b₀ ∧
      let b := b₀.after events
      (Rulebook.build b.punctuation { maxDepth := 2 } (b.sources.map (·.script)) = .ok b.rules ∧ b.rules.WriteFree ∧
        (b.rules.catalog.topicId? (b.roster.user "u").topic).isSome = true) ∧
      ((b.reply "u" "say it").1.aborted = true ∧ (b.reply "u" "say it").1.topic = "pub") ∧
      Recorded "u" "say it" (b.reply "u" "say it").1 b (b.reply "u" "say it").2 := by
  intro text events
  obtain ⟨b₀, hnew, hrules, htopic, haborted, hlength⟩ : ∃ b₀, Bot.new { maxDepth := 2 } = .ok b₀ ∧
      let b := b₀.after events
      b.rules.WriteFree ∧ (b.rules.catalog.topicId? (b.roster.user "u").topic).isSome = true ∧
      ((b.reply "u" "say it").1.aborted = true ∧ (b.reply "u" "say it").1.topic = "pub") ∧ b.sources.length = 1 :=
    exists_ok_of_any (by decide +kernel)
  have hconsistent := consistent_after (consistent_new hnew) events
  rcases hconsistent.rules with hbuild | ⟨hsources, -⟩
  · exact ⟨b₀, hnew, ⟨hbuild, hrules, htopic⟩, haborted, reply_of_writeFree hbuild hrules htopic "say it"⟩
  · rw [hsources] at hlength
    cases hlength

end Bot

end Repartee
