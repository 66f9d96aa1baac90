/-
  Repartee.Proofs.Redirects — a redirect may be written in two ways.

  A trigger redirects by its `@` line or by a reply that is one tag in braces, and the tag
  `<@>` is short for `{@<star>}`. The first two are interchangeable on compiled rules: the tag
  trims its target before it reads it, and both trim what the target renders to. The short tag
  may be written out wherever no brace is awaited. Where one is, the brace of the long form would
  close what the short form leaves open.

  Proved:
  - A text and the text trimmed render to the same but for blanks around it (`render_trimmed`).
  - A redirect says what the one reply says that holds it in braces (`saysAs_replying`).
  - Both replacements leave rules that talk the same (`redirects_interchangeable`).
-/

import Repartee.Proofs.Cutting
import Repartee.Proofs.Origins
import Repartee.Proofs.Respelling.Scripts
import Repartee.Proofs.Talk

namespace Repartee

open Text Template
open Unicode (isBlank)

/-! ## Trimming -/

namespace Text

theorem trimmed_between {before after : List Char} (hbefore : ∀ c ∈ before, isBlank c = true)
    (hafter : ∀ c ∈ after, isBlank c = true) (text : String) :
    trimmed (.ofList before ++ text ++ .ofList after) = trimmed text := by
  rw [trimmed, trimmed, String.toList_append, String.toList_append, String.toList_ofList, String.toList_ofList,
    trim_append_blanks hafter, trim_blanks_append hbefore]

end Text

/-! ## A target with blanks around it -/

namespace Turn

section Render

variable (s : Scene) (redirect : String → Play String) (captures : Captures)

theorem renderPieces_append (ps qs : List Piece) : renderPieces s redirect captures (ps ++ qs) = do
    let text ← renderPieces s redirect captures ps
    let rest ← renderPieces s redirect captures qs
    return text ++ rest := by
  induction ps with
  | nil =>
    simp only [List.nil_append, renderPieces, pure_bind, String.empty_append, bind_pure]
  | cons p ps ih =>
    simp only [List.cons_append, renderPieces, ih, bind_assoc, pure_bind, String.append_assoc]

theorem renderPieces_textPiece (run : List Char) :
    renderPieces s redirect captures (textPiece run) = pure (.ofList run.reverse) := by
  cases run with
  | nil => rfl
  | cons c run =>
    rw [textPiece, List.isEmpty_cons, if_neg Bool.false_ne_true, renderPieces, renderPieces, renderPiece, pure_bind,
      pure_bind, String.append_empty]

theorem renderPieces_textPiece_append (run : List Char) (ps : List Piece) :
    renderPieces s redirect captures (textPiece run ++ ps) =
      (.ofList run.reverse ++ ·) <$> renderPieces s redirect captures ps := by
  rw [renderPieces_append, renderPieces_textPiece, pure_bind, map_eq_pure_bind]

theorem renderPieces_append_textPiece (ps : List Piece) (run : List Char) :
    renderPieces s redirect captures (ps ++ textPiece run) =
      (· ++ .ofList run.reverse) <$> renderPieces s redirect captures ps := by
  simp only [renderPieces_append, renderPieces_textPiece, pure_bind, map_eq_pure_bind]

end Render

/-- Of a text that can be read, the text trimmed renders to the same but for blanks around it. -/
theorem render_trimmed {whole : String} (whole' : String) {cs : List Char} {read : List Piece × Option Nat}
    (h : readPieces whole [] cs = .ok read) : ∃ inside before after, readPieces whole' [] (trim cs) = .ok inside ∧
      (∀ c ∈ before, isBlank c = true) ∧ (∀ c ∈ after, isBlank c = true) ∧ ∀ s redirect captures,
        renderPieces s redirect captures read.1 =
          (fun text => .ofList before ++ text ++ .ofList after) <$> renderPieces s redirect captures inside.1 := by
  obtain ⟨before, after, hbefore, hafter, hcs⟩ := exists_trim cs
  rw [hcs, readPieces_blanks hbefore] at h
  -- The blanks before go into the first piece that is read, those after it into the last one.
  cases runsInto_readPieces whole (trim cs ++ after) with
  | error e he => cases (he _).symm.trans h
  | ok first back weight hok =>
    have hread := Except.ok.inj ((hok _).symm.trans h)
    have halike : SameOutcome (Padded after) (readPieces whole' [] (trim cs)) (readPieces whole [] (trim cs ++ after)) :=
      readPieces_alike hafter (Respelled.padded after (trim cs) false)
    rw [hok] at halike
    generalize hinside : readPieces whole' [] (trim cs) = outcome at halike
    cases halike with
    | @ok inside _ hpadded =>
      obtain ⟨front, last, hpieces, hpadded⟩ := hpadded.pieces
      refine ⟨inside, before, after, rfl, hbefore, hafter, fun s redirect captures => ?_⟩
      have hback : renderPieces s redirect captures (textPiece first ++ back) =
          renderPieces s redirect captures (front ++ textPiece (after.reverse ++ last)) := by
        rw [← hpadded, List.append_nil]
      rw [renderPieces_textPiece_append, renderPieces_append_textPiece] at hback
      have hjoined : ∀ text : String, String.ofList (first ++ (before.reverse ++ [])).reverse ++ text =
          String.ofList before ++ (String.ofList first.reverse ++ text) := by
        intro text
        simp only [List.append_nil, List.reverse_append, List.reverse_reverse, String.ofList_append, String.append_assoc]
      rw [← hread, hpieces, renderPieces_textPiece_append, renderPieces_append_textPiece]
      simp only [hjoined, Functor.map_map]
      rw [← Functor.map_map (String.ofList first.reverse ++ ·) (String.ofList before ++ ·), hback, Functor.map_map]
      simp only [List.reverse_append, List.reverse_reverse, String.ofList_append, String.append_assoc]

end Turn

/-! ## The `@` line as a reply -/

section Line

variable {source : String} {target : Template}

/-- A text that can be read can be read between the braces of a redirect, if it has none of its own. -/
theorem Template.read_braced (h : read source = .ok target) (hsource : '}' ∉ source.toList) :
    ∃ reply inside before after, read ("\x7b@" ++ source ++ "\x7d") = .ok reply ∧ reply.pieces = [.redirect inside] ∧
      (∀ c ∈ before, isBlank c = true) ∧ (∀ c ∈ after, isBlank c = true) ∧ ∀ s redirect captures,
        Turn.render s redirect captures target =
          (fun text => .ofList before ++ text ++ .ofList after) <$> Turn.renderPieces s redirect captures inside := by
  obtain ⟨pieces, hpieces, htarget⟩ := bind_eq_ok.mp h
  cases htarget
  obtain ⟨inside, before, after, hinside, hbefore, hafter, hrender⟩ :=
    Turn.render_trimmed ("\x7b@" ++ source ++ "\x7d") hpieces
  have hlist : ("\x7b@" ++ source ++ "\x7d").toList = '{' :: '@' :: (source.toList ++ ['}']) := by
    rw [String.toList_append, String.toList_append]
    rfl
  have hread : readPieces ("\x7b@" ++ source ++ "\x7d") [] ("\x7b@" ++ source ++ "\x7d").toList =
      .ok ([.redirect inside.1], none) := by
    rw [hlist, readPieces_of_tag rfl (tag?_braced hsource []), Tag.meaning, hinside]
    change (readPieces _ [] [] >>= _) = _
    rw [readPieces]
    rfl
  refine ⟨{ source := "\x7b@" ++ source ++ "\x7d", pieces := [.redirect inside.1], weight := 0 }, inside.1, before, after,
    ?_, rfl, hbefore, hafter, hrender⟩
  rw [read, hread]
  rfl

/-- The trigger with nothing but one reply, in place of its redirect and other replies. -/
def Trigger.replying (t : Trigger) (reply : Template) : Trigger := { t with redirect := none, replies := [reply] }

/-- A redirect says what the one reply says that holds it in braces. -/
theorem Trigger.saysAs_replying {trigger : Trigger} (hredirect : trigger.redirect = some target)
    (hconditions : trigger.conditions = []) (h : Template.read source = .ok target) (hsource : '}' ∉ source.toList) :
    ∃ reply, Template.read ("\x7b@" ++ source ++ "\x7d") = .ok reply ∧ trigger.SaysAs (trigger.replying reply) := by
  obtain ⟨reply, inside, before, after, hread, hpieces, hbefore, hafter, hrender⟩ := read_braced h hsource
  refine ⟨reply, hread, fun s s' hprompts hdraws redirect captures => ?_⟩
  have hsay : Turn.render s' redirect captures reply =
      Turn.renderPieces s' redirect captures inside >>= fun text => redirect (trimmed text) := by
    simp only [Turn.render, hpieces, Turn.renderPieces, Turn.renderPiece, pure_bind, String.append_empty, bind_pure]
  rw [SaysAs.refl trigger s s' hprompts hdraws, Turn.say, Turn.say, replying, hredirect, hconditions]
  change (Turn.render s' redirect captures target >>= fun text => redirect (trimmed text)) =
    Turn.render s' redirect captures reply
  rw [hsay, hrender, bind_map_left]
  simp only [trimmed_between hbefore hafter]

end Line

/-! ## Both replacements -/

theorem Template.Alike.unsourced_eq {t t' : Template} (h : t.Alike t') : t.unsourced = t'.unsourced := by
  rw [unsourced, unsourced, h.pieces, h.weight]

theorem Condition.Alike.unsourced_eq {c c' : Condition} (h : c.Alike c') : c.unsourced = c'.unsourced := by
  rw [unsourced, unsourced, h.left.unsourced_eq, h.comparison, h.right.unsourced_eq, h.body.unsourced_eq]

theorem map_eq_of_forall₂ {α β : Type} {T : α → α → Prop} {f : α → β} {as bs : List α} (h : List.Forall₂ T as bs)
    (hf : ∀ a b, T a b → f a = f b) : as.map f = bs.map f := by
  rw [← List.forall₂_eq_eq_eq, List.forall₂_map_left_iff, List.forall₂_map_right_iff]
  exact h.imp hf

/-- Triggers in two spellings say the same. -/
theorem Trigger.Alike.saysAs {t t' : Trigger} (h : t.Alike t') : t.SaysAs t' := by
  refine .of_unsourced (map_eq_of_forall₂ h.replies fun _ _ => Template.Alike.unsourced_eq)
    (map_eq_of_forall₂ h.conditions fun _ _ => Condition.Alike.unsourced_eq) ?_
  change t.redirect.map _ = t'.redirect.map _
  rcases rel_cases h.redirect with ⟨hr, hr'⟩ | ⟨target, target', hr, hr', halike⟩
  · rw [hr, hr']
  · rw [hr, hr', Option.map_some, Option.map_some, halike.unsourced_eq]

theorem Template.read_source {source : String} {target : Template} (h : read source = .ok target) :
    read target.source = .ok target := by
  obtain ⟨pieces, -, htarget⟩ := bind_eq_ok.mp h
  cases htarget
  exact h

/-- A redirect was read from its source. -/
theorem Trigger.inherent_redirect :
    Trigger.Inherent fun t => ∀ target, t.redirect = some target → Template.read target.source = .ok target := by
  refine ⟨fun {scope t v} h target htarget => ?_, fun _ h => h, fun {t v} ht hv target htarget => ?_⟩
  · have hredirect := (Rulebook.parts_of_compiled? h).2
    rw [htarget] at hredirect
    cases hline : t.redirect with
    | none =>
      rw [hline] at hredirect
      cases hredirect
    | some l =>
      rw [hline] at hredirect
      have hcompiled : (Rulebook.compileReply "" l).map some = .ok (some target) := hredirect
      obtain ⟨_, hread, heq⟩ := map_eq_ok.mp hcompiled
      cases heq
      exact read_source (Rulebook.atLine_eq_ok.mp hread)
  · rw [Trigger.merge] at htarget
    cases hnew : v.redirect with
    | none =>
      rw [hnew] at htarget
      exact ht target htarget
    | some new =>
      rw [hnew] at htarget
      exact hv target (hnew.trans htarget)

namespace Rulebook

variable {punctuation : Regex} {settings : Settings} {scripts : List Script} {r : Rulebook}

/-- The rulebook with one trigger changed in what it says. -/
def editTrigger (r : Rulebook) (id : TriggerId) (f : Trigger → Trigger) : Rulebook :=
  { r with catalog := { r.catalog with triggers := r.catalog.triggers.modify id f } }

theorem talksAs_editTrigger {id : TriggerId} {trigger : Trigger} {f : Trigger → Trigger}
    (h : r.catalog.triggers[id]? = some trigger) (hpattern : (f trigger).pattern = trigger.pattern)
    (hprevious : (f trigger).previous = trigger.previous) (hsame : trigger.SaysAs (f trigger)) :
    r.TalksAs (r.editTrigger id f) := by
  refine talksAs_of_parallel (R := Trigger.SaysAs) ⟨⟨rfl, fun i => ?_⟩, rfl, rfl⟩ (fun _ _ hsame => hsame) rfl rfl
  change Option.Rel _ _ (r.catalog.triggers.modify id f)[i]?
  rw [Array.getElem?_modify]
  by_cases heq : id = i
  · subst heq
    rw [if_pos rfl, h]
    exact .some ⟨hpattern.symm, hprevious.symm, hsame⟩
  · rw [if_neg heq]
    cases r.catalog.triggers[i]? with
    | none => exact .none
    | some t => exact .some ⟨rfl, rfl, .refl t⟩

/-- Rules go on talking the same if a trigger without conditions replies with its redirect in braces instead,
and if `<@>` is written out anywhere in replies, conditions and redirects where no brace is awaited. -/
theorem redirects_interchangeable (h : build punctuation settings scripts = .ok r) :
    (∀ (id : TriggerId) (trigger : Trigger) (target : Template), r.catalog.triggers[id]? = some trigger →
      trigger.redirect = some target → trigger.conditions = [] → '}' ∉ target.source.toList →
      ∃ reply, Template.read ("\x7b@" ++ target.source ++ "\x7d") = .ok reply ∧
        r.TalksAs (r.editTrigger id (·.replying reply))) ∧
    ∀ scripts', List.Forall₂ Script.Respelled scripts scripts' →
      ∃ r', build punctuation settings scripts' = .ok r' ∧ r.TalksAs r' := by
  refine ⟨fun id trigger target hid hredirect hconditions hsource => ?_, fun scripts' hscripts => ?_⟩
  · have hread := inherent_of_build Trigger.inherent_redirect h trigger (Array.mem_of_getElem? hid) target hredirect
    obtain ⟨reply, hreply, hsame⟩ := Trigger.saysAs_replying hredirect hconditions hread hsource
    exact ⟨reply, hreply, talksAs_editTrigger hid rfl rfl hsame⟩
  · obtain ⟨r', hr', hparallel, hvars, hglobals⟩ := build_respelled hscripts h
    exact ⟨r', hr', talksAs_of_parallel hparallel (fun _ _ => Trigger.Alike.saysAs) hvars hglobals⟩

/-- One trigger redirects by its line and another by the short tag. -/
theorem redirects_interchangeable_please :
    let rules := fun reply : String => [{ origin := "a", topics := [{ name := homeTopic, line := 0, triggers := [
      { pattern := ⟨"please *", 1⟩, redirect := some ⟨"<star>", 2⟩ },
      { pattern := ⟨"again *", 3⟩, replies := [⟨reply, 4⟩] }] }] : Script }]
    ∃ r trigger target reply r', build Lexicon.standardPunctuation {} (rules "Oh! <@>") = .ok r ∧
      (r.catalog.triggers[0]? = some trigger ∧ trigger.redirect = some target ∧ trigger.conditions = [] ∧
        '}' ∉ target.source.toList) ∧
      Template.read ("\x7b@" ++ target.source ++ "\x7d") = .ok reply ∧ r.TalksAs (r.editTrigger 0 (·.replying reply)) ∧
      List.Forall₂ Script.Respelled (rules "Oh! <@>") (rules "Oh! \x7b@<star>\x7d") ∧
      build Lexicon.standardPunctuation {} (rules "Oh! \x7b@<star>\x7d") = .ok r' ∧ r.TalksAs r' := by
  intro rules
  obtain ⟨r, hr, hany⟩ : ∃ r, build Lexicon.standardPunctuation {} (rules "Oh! <@>") = .ok r ∧
      r.catalog.triggers[0]?.any (fun t => t.conditions.isEmpty && t.redirect.any (·.source = "<star>")) = true :=
    exists_ok_of_any (by decide +kernel)
  obtain ⟨trigger, htrigger, hany⟩ := (Option.any_eq_true _ _).mp hany
  rw [Bool.and_eq_true, List.isEmpty_iff] at hany
  obtain ⟨target, htarget, hsource⟩ := (Option.any_eq_true _ _).mp hany.2
  have hfree : '}' ∉ target.source.toList := by
    rw [of_decide_eq_true hsource]
    decide
  have hspelled : List.Forall₂ Script.Respelled (rules "Oh! <@>") (rules "Oh! \x7b@<star>\x7d") := by
    have hreply : Respelled [] false "Oh! <@>".toList "Oh! \x7b@<star>\x7d".toList :=
      .keep (.keep (.keep (.keep (.redirect .pad))))
    refine .cons ⟨rfl, rfl, rfl, rfl, rfl, .cons ⟨rfl, rfl, rfl, .cons ?_ (.cons ?_ .nil)⟩ .nil⟩ .nil
    · exact ⟨rfl, rfl, .nil, .nil, .some (Respelled.refl _ _)⟩
    · exact ⟨rfl, rfl, .cons hreply .nil, .nil, .none⟩
  obtain ⟨hline, htag⟩ := redirects_interchangeable hr
  obtain ⟨reply, hreply, htalks⟩ := hline 0 trigger target htrigger htarget hany.1 hfree
  obtain ⟨r', hr', htalks'⟩ := htag _ hspelled
  exact ⟨r, trigger, target, reply, r', hr, ⟨htrigger, htarget, hany.1, hfree⟩, hreply, htalks, hspelled, hr',
    htalks'⟩

end Rulebook

/-- With the short form the topic tag has no end and is plain text. The long form brings one. -/
theorem Bot.an_open_topic_tag_is_closed_by_the_long_form :
    ∃ b : Bot, Bot.new {} = .ok b ∧
      let short := (b.load {} (.text "a" "+ say *\n- \x7btopic=x <@>")).1
      let long := (b.load {} (.text "a" "+ say *\n- \x7btopic=x \x7b@<star>\x7d")).1
      (short.reply "u" "say hello").1.reply = "\x7btopic=x ERR: No Reply Matched" ∧
        (long.reply "u" "say hello").1.reply = "" :=
  exists_ok_of_any (by decide +kernel)

end Repartee
