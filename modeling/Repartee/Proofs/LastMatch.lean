/-
  Repartee.Proofs.LastMatch — what a bot remembers about the trigger that answered last.

  The pattern that answered a message is kept as a user variable, where one text erases what it
  is written to and another one stands for a variable that is not set. It is written after the
  reply is rendered, so nothing the turn itself writes there remains.

  Proved:
  - No pattern that compiles has the erasing text (`compile_text_ne_erasing`), and a rulebook has
    compiled patterns only (`compiled_after`).
  - Right after a reply, the last match is the pattern of the trigger that answered, and there is
    none if none did. One pattern is the exception, `undefined`, after which there is none either
    (`last_match_after_reply`).
  - A trigger with that pattern answers and is not remembered
    (`a_trigger_named_undefined_is_not_remembered`).
-/

import Repartee.Proofs.Origins
import Repartee.Proofs.Runs

namespace Repartee

/-! ## Patterns that compile -/

/-- What reading the text of a trigger makes of it. -/
def Pattern.IsCompiled (p : Pattern) : Prop := ∃ scope source, Pattern.compile scope source = .ok p

/-- The erasing text looks like a tag, and a trigger has none. -/
theorem Pattern.compile_text_ne_erasing {p : Pattern} (h : p.IsCompiled) : p.text ≠ erasingValue := by
  obtain ⟨scope, source, hcompile⟩ := h
  intro herasing
  obtain ⟨weight, -, hrest⟩ := bind_eq_ok.mp hcompile
  cases htag : Pattern.firstTag? (Pattern.liftWeights (Text.trim source.toList)).1 with
  | some tag =>
    simp only [htag] at hrest
    cases hrest
  | none =>
    simp only [htag] at hrest
    obtain ⟨items, -, hrest⟩ := bind_eq_ok.mp hrest
    have htext : p.text = String.ofList (Text.trim source.toList) := by
      by_cases hempty : items.isEmpty = true
      · rw [if_pos hempty] at hrest
        cases hrest
      · rw [if_neg hempty] at hrest
        cases hrest
        rfl
    have hsource : Text.trim source.toList = erasingValue.toList := by
      rw [← herasing, htext, String.toList_ofList]
    have hmarked : (Pattern.firstTag? (Pattern.liftWeights erasingValue.toList).1).isSome = true := by decide +kernel
    rw [← hsource, htag] at hmarked
    cases hmarked

/-- A trigger that is merged into another keeps the other's pattern. -/
theorem Trigger.inherent_isCompiled : Trigger.Inherent (·.pattern.IsCompiled) :=
  ⟨fun h => ⟨_, _, (Rulebook.parts_of_compiled? h).1⟩, fun _ h => h, fun h _ => h⟩

namespace Rulebook

/-- What is shown as the pattern of a trigger never erases. -/
theorem patternText_ne_erasing {r : Rulebook} (h : r.catalog.All (·.pattern.IsCompiled)) (id : TriggerId) :
    r.patternText id ≠ erasingValue := by
  rw [patternText]
  cases hid : r.catalog.triggers[id]? with
  | none => decide
  | some trigger => exact Pattern.compile_text_ne_erasing (h trigger (Array.mem_of_getElem? hid))

end Rulebook

/-! ## Right after a reply -/

namespace Turn

/-- The match is noted last, over all that a turn wrote. -/
theorem play_notes (s : Scene) (u : User) (message : String) :
    ∃ v, (play s u message).2 =
      (noteMatch (play s u message).1.matched v).record message (play s u message).1.reply :=
  ⟨_, rfl⟩

theorem matched_of_play {s : Scene} {u : User} {message : String} {m : Matched}
    (h : m ∈ (play s u message).1.matched) : m.pattern = s.rules.patternText m.trigger := by
  obtain ⟨f, -, rfl⟩ := Option.map_eq_some_iff.mp h
  rfl

/-- A pattern is read back once it is noted, unless writing it erases. -/
theorem lastMatch_noteMatch {matched : Option Matched} (h : ∀ m ∈ matched, m.pattern ≠ erasingValue) (u : User) :
    (noteMatch matched u).lastMatch = (matched.map (·.pattern)).getD undefinedText := by
  cases matched with
  | none => simp [noteMatch, User.lastMatch, User.get, User.delete]
  | some m =>
    have hpattern : m.pattern ≠ erasingValue := h m rfl
    simp [noteMatch, User.lastMatch, User.get, User.set, hpattern]

end Turn

namespace Bot

variable {settings : Settings} {b₀ : Bot}

theorem compiled_after (h : Bot.new settings = .ok b₀) (events : List Event) :
    (b₀.after events).rules.catalog.All (·.pattern.IsCompiled) := by
  rcases (consistent_after (consistent_new h) events).rules with hbuild | ⟨-, hempty⟩
  · exact Rulebook.inherent_of_build Trigger.inherent_isCompiled hbuild
  · rw [hempty]
    exact Rulebook.all_homeCatalog

/-- Whatever happened to a bot and whatever a turn does, what it remembers afterwards is the pattern that
answered, but for the one text that stands for a variable that is not set. -/
theorem last_match_after_reply (h : Bot.new settings = .ok b₀) (events : List Event) (user message : String) :
    let (report, b) := (b₀.after events).reply user message
    b.lastMatch? user = (report.matched.map (·.pattern)).filter (· ≠ undefinedText) := by
  have hcompiled := compiled_after h events
  generalize b₀.after events = b at hcompiled ⊢
  obtain ⟨v, hplay⟩ := Turn.play_notes b.scene (b.roster.user user) message
  have hpatterns : ∀ m ∈ (Turn.play b.scene (b.roster.user user) message).1.matched, m.pattern ≠ erasingValue := by
    intro m hm
    rw [Turn.matched_of_play hm]
    exact Rulebook.patternText_ne_erasing hcompiled _
  have hlast := Turn.lastMatch_noteMatch hpatterns v
  simp only [reply, lastMatch?, Roster.existing?, Roster.keep, Dict.find?_put_self, hplay]
  generalize (Turn.play b.scene (b.roster.user user) message).1.matched = matched at hlast ⊢
  change (if (Turn.noteMatch matched v).lastMatch = undefinedText then none
    else some (Turn.noteMatch matched v).lastMatch) = _
  rw [hlast]
  cases matched with
  | none => rfl
  | some m => simp [Option.filter]

/-- The turn goes too deep and erases what it can, and the trigger that answered is remembered. -/
theorem last_match_after_reply_aborted :
    let text := "+ say *\n- <set __lastmatch__=<undef>>\x7b@say <star>\x7d"
    let events := [Event.load {} (.text "a" text)]
    ∃ b₀, Bot.new { maxDepth := 2 } = .ok b₀ ∧
      ((b₀.after events).reply "u" "say it").1.aborted = true ∧
      ((b₀.after events).reply "u" "say it").2.lastMatch? "u" = some "say *" ∧
      let (report, b) := (b₀.after events).reply "u" "say it"
      b.lastMatch? "u" = (report.matched.map (·.pattern)).filter (· ≠ undefinedText) := by
  intro text events
  obtain ⟨b₀, hnew, haborted, hlast⟩ : ∃ b₀, Bot.new { maxDepth := 2 } = .ok b₀ ∧
      ((b₀.after events).reply "u" "say it").1.aborted = true ∧
      ((b₀.after events).reply "u" "say it").2.lastMatch? "u" = some "say *" :=
    exists_ok_of_any (by decide +kernel)
  exact ⟨b₀, hnew, haborted, hlast, last_match_after_reply hnew events "u" "say it"⟩

/-- Its pattern is read back as a variable that is not set. -/
theorem a_trigger_named_undefined_is_not_remembered :
    ∃ b : Bot, Bot.new {} = .ok b ∧
      let loaded := (b.load {} (.text "a" "+ undefined\n- Hi!")).1
      let (report, after) := loaded.reply "u" "undefined"
      report.reply = "Hi!" ∧ report.matched.map (·.pattern) = some "undefined" ∧ after.lastMatch? "u" = none :=
  exists_ok_of_any (by decide +kernel)

end Bot

end Repartee
