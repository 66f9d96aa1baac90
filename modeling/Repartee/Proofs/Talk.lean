/-
  Repartee.Proofs.Talk — rules that talk the same.

  Rules may differ in how they are written and still talk the same: whatever bot has them, with
  whatever macros, users and draws, reports the same of every message of every conversation and
  leaves its users the same. Since triggers that are found are the same on both sides, it is
  enough that each says the same as its counterpart, wherever its redirects lead.

  Proved:
  - What a trigger says does not depend on the sources of what it holds (`say_unsourced`).
  - Rules talk the same if their triggers say the same, number by number (`talksAs_of_parallel`).
-/

import Repartee.Proofs.Joined.Turns
import Repartee.Proofs.Runs

namespace Repartee

/-- Both triggers say the same in scenes that prompt the same and draw the same. -/
def Trigger.SaysAs (t t' : Trigger) : Prop :=
  ∀ (s s' : Scene), Turn.Prompts s s' → s.draws = s'.draws →
    ∀ (redirect : String → Play String) (captures : Captures),
      Turn.say s redirect captures t = Turn.say s' redirect captures t'

/-- What happens to a bot while users talk to it. -/
def Bot.visits (messages : List (String × String)) : List Event :=
  messages.map fun (user, message) => .reply user message

/-- No bot reports of a conversation otherwise, or leaves its users otherwise, on these rules than on those. -/
def Rulebook.TalksAs (r r' : Rulebook) : Prop :=
  ∀ (b : Bot) (messages : List (String × String)),
    ({ b with rules := r } : Bot).converse messages = ({ b with rules := r' } : Bot).converse messages ∧
      (({ b with rules := r } : Bot).after (Bot.visits messages)).roster =
        (({ b with rules := r' } : Bot).after (Bot.visits messages)).roster

/-! ## The sources of templates -/

def Template.unsourced (t : Template) : Template := { t with source := "" }

def Condition.unsourced (c : Condition) : Condition :=
  { c with source := "", left := c.left.unsourced, right := c.right.unsourced, body := c.body.unsourced }

/-- The trigger without the texts that its replies, conditions and redirect were read from. -/
def Trigger.unsourced (t : Trigger) : Trigger :=
  { t with
    replies := t.replies.map Template.unsourced
    conditions := t.conditions.map Condition.unsourced
    redirect := t.redirect.map Template.unsourced }

namespace Turn

section Sources

variable (s : Scene) (redirect : String → Play String) (captures : Captures)

theorem firstHolding_unsourced (cs : List Condition) :
    firstHolding s redirect captures (cs.map Condition.unsourced) =
      Option.map Template.unsourced <$> firstHolding s redirect captures cs := by
  induction cs with
  | nil => rfl
  | cons c cs ih =>
    rw [List.map_cons, firstHolding, firstHolding, map_bind]
    refine bind_congr fun left => ?_
    rw [map_bind]
    refine bind_congr fun right => ?_
    by_cases hholds : c.comparison.holds left right = true
    · simp only [Condition.unsourced, hholds, if_true, map_pure, Option.map_some]
    · simp only [Condition.unsourced, hholds, Bool.false_eq_true, if_false]
      exact ih

/-- What a trigger says does not depend on the sources of what it holds. -/
theorem say_unsourced (t : Trigger) : say s redirect captures t.unsourced = say s redirect captures t := by
  rw [say, say, Trigger.unsourced]
  cases t.redirect with
  | some target => rfl
  | none =>
    simp only [Option.map_none, firstHolding_unsourced, bind_map_left]
    refine bind_congr fun body => ?_
    cases body with
    | some body => rfl
    | none =>
      have hpick := pick_map s (f := Template.unsourced) (fun _ => rfl) t.replies
      simp only [Option.map_none, hpick, liftM_map, bind_map_left]
      refine bind_congr fun reply => ?_
      cases reply <;> rfl

end Sources

end Turn

/-! ## Triggers that say the same -/

namespace Trigger.SaysAs

theorem refl (t : Trigger) : t.SaysAs t := by
  intro s s' hprompts hdraws redirect captures
  have hdraw : ∀ n, Turn.draw s n = Turn.draw s' n := fun n => by rw [Turn.draw, Turn.draw, hdraws]
  have hpick : Turn.pick s t.replies = Turn.pick s' t.replies := by
    rw [Turn.pick.eq_def, Turn.pick.eq_def]
    simp only [hdraw]
  exact Turn.say_congr (P := fun _ => True) hprompts (fun _ _ _ => hdraw _) (t.each_of_forall fun _ => trivial) hpick

/-- Triggers say the same that hold the same but for its sources. -/
theorem of_unsourced {t t' : Trigger} (hreplies : t.unsourced.replies = t'.unsourced.replies)
    (hconditions : t.unsourced.conditions = t'.unsourced.conditions)
    (hredirect : t.unsourced.redirect = t'.unsourced.redirect) : t.SaysAs t' := by
  intro s s' hprompts hdraws redirect captures
  rw [refl t s s' hprompts hdraws, ← Turn.say_unsourced s' redirect captures t,
    ← Turn.say_unsourced s' redirect captures t', Turn.say, Turn.say, hreplies, hconditions, hredirect]

end Trigger.SaysAs

/-! ## Conversations -/

namespace Turn

variable {R : Trigger → Trigger → Prop} {s s' : Scene}

theorem play_of_saysAs (h : s.rules.Parallel R s'.rules) (hsame : ∀ t t', R t t' → t.SaysAs t') (hprompts : Prompts s s')
    (hdraws : s.draws = s'.draws) (u : User) (message : String) : play s u message = play s' u message := by
  refine agree_play (I := fun _ => True) (converges_of_parallel h hprompts.settings (fun _ _ => trivial) ?_) trivial
    message
  intro redirect redirect' hredirect captures t t' ht
  have hfollow : redirect = redirect' := funext fun target => agree_true_iff.mp (hredirect target)
  rw [agree_true_iff, ← hfollow]
  exact hsame t t' ht s s' hprompts hdraws redirect captures

end Turn

namespace Rulebook

variable {R : Trigger → Trigger → Prop} {r r' : Rulebook}

/-- A message is answered the same, and nothing but the rules is different afterwards. -/
theorem reply_of_saysAs (h : r.Parallel R r') (hsame : ∀ t t', R t t' → t.SaysAs t') (hvars : r.vars = r'.vars)
    (hglobals : r.globals = r'.globals) (b : Bot) (user message : String) :
    ({ b with rules := r } : Bot).reply user message =
      ((({ b with rules := r' } : Bot).reply user message).1,
        { (({ b with rules := r' } : Bot).reply user message).2 with rules := r }) := by
  have hprompts : Turn.Prompts (Bot.scene { b with rules := r }) (Bot.scene { b with rules := r' }) :=
    ⟨hvars, hglobals, rfl, rfl⟩
  have hplay := Turn.play_of_saysAs h hsame hprompts rfl (b.roster.user user) message
  rw [Bot.reply, Bot.reply]
  dsimp only
  rw [hplay]

/-- Rules talk the same if their triggers say the same, number by number. -/
theorem talksAs_of_parallel (h : r.Parallel R r') (hsame : ∀ t t', R t t' → t.SaysAs t') (hvars : r.vars = r'.vars)
    (hglobals : r.globals = r'.globals) : r.TalksAs r' := by
  intro b messages
  induction messages generalizing b with
  | nil => exact ⟨rfl, rfl⟩
  | cons head rest ih =>
    obtain ⟨user, message⟩ := head
    have hreply := reply_of_saysAs h hsame hvars hglobals b user message
    obtain ⟨hreports, hroster⟩ := ih (({ b with rules := r' } : Bot).reply user message).2
    constructor
    · rw [Bot.converse, Bot.converse, hreply]
      exact congrArg _ hreports
    · change (Bot.after (({ b with rules := r } : Bot).reply user message).2 _).roster = _
      rw [hreply]
      exact hroster

end Rulebook

end Repartee
