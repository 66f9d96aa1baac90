/-
  Repartee.Proofs.Joined — how rule text is cut into sources does not matter.

  Two ways lead from two texts to one rulebook. Either each is read into a script and the catalog
  takes in the topics of both, or the texts are read as one and the reader puts what they declare
  under one name into one topic. Topics come in a different order on these ways and so get different
  numbers. By name they hold the same.

  Proved:
  - Both ways compile or both do not, the rulebooks are alike, and a bot reports the same of every
    conversation on them (`joined_texts_alike`).
-/

import Repartee.Proofs.Joined.Turns

namespace Repartee

namespace Rulebook

open Script (read)

open Script.Reader (atEnd firstCommand?)

/-- Two texts that can be read on their own can be read as one, unless the first leaves something open
or the second begins with a continuation, and mean the same. -/
theorem joined_texts_alike {strict : Bool} {name nameA nameB a b : String} {sa sb : Script} {last : Script.Reader}
    (ha : read strict nameA a = .ok sa) (hb : read strict nameB b = .ok sb) (hend : atEnd strict nameA a = .ok last)
    (hsettled : last.Settled) (hfirst : firstCommand? b ≠ some '^') (punctuation : Regex) (settings : Settings) :
    ∃ s, read strict name (a ++ "\n" ++ b) = .ok s ∧
      ((∃ r, build punctuation settings [sa, sb] = .ok r) ↔ ∃ r', build punctuation settings [s] = .ok r') ∧
      ∀ r r', build punctuation settings [sa, sb] = .ok r → build punctuation settings [s] = .ok r' →
        r.Alike r' ∧ ∀ (bot : Bot) (messages : List (String × String)),
          (Bot.converse { bot with rules := r } messages).map Turn.Report.unnumbered =
            (Bot.converse { bot with rules := r' } messages).map Turn.Report.unnumbered := by
  obtain ⟨first, s, hread, hgathersA, hgathersB⟩ := Script.Reader.read_joined ha hb hend hsettled hfirst name
  refine ⟨s, hread, exists_build_joined hgathersA hgathersB, fun r r' hr hr' => ?_⟩
  have halike := alike_of_joined hgathersA hgathersB hr hr'
  exact ⟨halike, Bot.converse_alike halike⟩

/-- A topic that the second text opens again, with a trigger it has, and a variable it takes back. -/
theorem joined_texts_alike_reopened :
    let a := "! var name = Pim\n> topic shop inherits random\n+ hello\n- Hi!\n< topic"
    let b := "// More.\n! var name = <undef>\n+ bye\n- Bye!\n> topic shop includes bar\n+ hello\n- Welcome!"
    ∃ sa sb last s, (read true "a" a = .ok sa ∧ read true "b" b = .ok sb) ∧
      (atEnd true "a" a = .ok last ∧ last.Settled) ∧ firstCommand? b = some '!' ∧
      read true "both" (a ++ "\n" ++ b) = .ok s ∧
      ∃ r r', (build Lexicon.standardPunctuation {} [sa, sb] = .ok r ∧ build Lexicon.standardPunctuation {} [s] = .ok r') ∧
        r.Alike r' := by
  intro a b
  obtain ⟨sa, ha, hbuilds⟩ : ∃ sa, read true "a" a = .ok sa ∧ (read true "b" b).toOption.any (fun sb =>
      decide ((build Lexicon.standardPunctuation {} [sa, sb]).toOption.isSome = true)) = true :=
    exists_ok_of_any (by decide +kernel)
  obtain ⟨sb, hb, hbuilds⟩ := exists_ok_of_any hbuilds
  obtain ⟨last, hend, hsettled⟩ : ∃ last, atEnd true "a" a = .ok last ∧ last.Settled :=
    exists_ok_of_any (by decide +kernel)
  have hfirst : firstCommand? b = some '!' := by decide +kernel
  have hopen : firstCommand? b ≠ some '^' := by
    rw [hfirst]
    decide
  obtain ⟨s, hs, hboth, halike⟩ := joined_texts_alike ha hb hend hsettled hopen Lexicon.standardPunctuation {}
  obtain ⟨r, hr⟩ : ∃ r, build Lexicon.standardPunctuation {} [sa, sb] = .ok r := by
    cases hbuild : build Lexicon.standardPunctuation {} [sa, sb] with
    | ok r => exact ⟨r, rfl⟩
    | error e => simp [hbuild, Except.toOption] at hbuilds
  obtain ⟨r', hr'⟩ := hboth.mp ⟨r, hr⟩
  exact ⟨sa, sb, last, s, ⟨ha, hb⟩, ⟨hend, hsettled⟩, hfirst, hs, r, r', ⟨hr, hr'⟩, (halike r r' hr hr').1⟩

end Rulebook

end Repartee
