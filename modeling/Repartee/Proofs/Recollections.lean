/-
  Repartee.Proofs.Recollections — which turns `/history` lists.

  The two histories of a user are filled up to nine with the text `undefined`. Listed, they are put
  side by side and numbered, and an entry whose message is that text is taken for filling. So the
  last nine turns are listed under their numbers, but for those in which the user said `undefined`.

  Proved:
  - Side by side the histories hold the last nine turns and then the filling (`zip_lastNine`).
  - `/history` lists the last nine turns, latest first and numbered from 1, but for those whose
    message is `undefined` (`history_lists_turns`). Such a turn is left out, and its number with it
    (`a_message_undefined_is_left_out`).
-/

import Repartee.Proofs.Sessions

namespace Repartee.Shell

/-! ## Entries -/

/-- The last nine of these turns with their numbers, but for those whose message is taken for filling. -/
def listed (turns : List (String × String)) : List ((String × String) × Nat) :=
  ((turns.take historySize).zipIdx 1).filter fun entry => entry.1.1 ≠ undefinedText

def entryText (color : Bool) : (String × String) × Nat → String
  | ((message, reply), n) =>
    line ("  " ++ paint color .gray ("[" ++ toString n ++ "]") ++ " " ++ paint color .cyan message ++ " " ++
      paint color .dim "→") ++ line ("      " ++ reply)

theorem lastNine_eq (texts : List String) :
    lastNine texts = texts.take historySize ++ List.replicate (historySize - texts.length) undefinedText := by
  rw [lastNine, List.take_append, List.take_replicate, Nat.min_eq_left (Nat.sub_le _ _)]

theorem zip_lastNine (turns : List (String × String)) :
    (lastNine (turns.map (·.1))).zip (lastNine (turns.map (·.2))) =
      turns.take historySize ++ List.replicate (historySize - turns.length) (undefinedText, undefinedText) := by
  rw [lastNine_eq, lastNine_eq, List.length_map, List.length_map, ← List.map_take, ← List.map_take,
    List.zip_append (by rw [List.length_map, List.length_map]), List.zip_map', List.map_id', List.zip_replicate']

/-- The filling is never listed. -/
theorem rememberedTurns_eq {inputs replies : History} {turns : List (String × String)}
    (hinputs : inputs.entries = lastNine (turns.map (·.1))) (hreplies : replies.entries = lastNine (turns.map (·.2))) :
    rememberedTurns inputs replies = (listed turns).map fun entry => (entry.2, entry.1.1, entry.1.2) := by
  have hfilling : ∀ entry ∈ (List.replicate (historySize - turns.length) (undefinedText, undefinedText)).zipIdx
      (1 + (turns.take historySize).length), entry.1.1 = undefinedText := by
    intro entry hentry
    have hmem := List.fst_mem_of_mem_zipIdx hentry
    rw [List.eq_of_mem_replicate hmem]
  rw [rememberedTurns, hinputs, hreplies, zip_lastNine, List.zipIdx_append, List.filterMap_append,
    List.filterMap_eq_nil_iff.mpr fun entry hentry => if_pos (hfilling entry hentry), List.append_nil, listed,
    ← List.filterMap_eq_map', List.filterMap_filter]
  refine List.filterMap_congr fun ((message, reply), n) _ => ?_
  by_cases hmessage : message = undefinedText
  · simp only [hmessage, if_true, ne_eq, not_true_eq_false, decide_false, Bool.false_eq_true, if_false]
  · simp only [hmessage, if_false, ne_eq, not_false_eq_true, decide_true, if_true]

theorem historyReport_eq (color : Bool) {inputs replies : History} {turns : List (String × String)}
    (hinputs : inputs.entries = lastNine (turns.map (·.1))) (hreplies : replies.entries = lastNine (turns.map (·.2))) :
    historyReport color inputs replies =
      headline color "History" ++ String.join ((listed turns).map (entryText color)) ++ "\n" := by
  rw [historyReport, rememberedTurns_eq hinputs hreplies, List.map_map]
  rfl

/-- The turns are listed without gaps if no message is taken for filling, and only then. -/
theorem listed_eq_iff {turns : List (String × String)} :
    listed turns = (turns.take historySize).zipIdx 1 ↔ ∀ turn ∈ turns.take historySize, turn.1 ≠ undefinedText := by
  rw [listed, List.filter_eq_self]
  constructor
  · intro hall turn hturn
    rw [← List.zipIdx_map_fst 1 (turns.take historySize)] at hturn
    obtain ⟨entry, hentry, rfl⟩ := List.mem_map.mp hturn
    simpa using hall entry hentry
  · intro hmessages entry hentry
    simpa using hmessages _ (List.fst_mem_of_mem_zipIdx hentry)

namespace Session

theorem request_eq_history_iff {l : String} : request l = .history ↔ Text.trimmed l = "/history" := by
  have hcommand : ∀ ws, command? ws = some .history ↔ ws = ["/history"] := by
    intro ws
    unfold command?
    split <;> simp_all
  have hhistory : Text.IsWord "/history" := Text.isWord_of_all (by decide) (by decide +kernel)
  rw [request_eq_iff (by simp), hcommand, Text.wordsOf_eq_singleton_iff hhistory]

/-- `/history` lists the last nine turns of the user, latest first, but for those whose message is `undefined`. So
all of them are listed, numbered from 1 on without gaps, exactly if there is no such message among them. -/
theorem history_lists_turns {settings : Settings} {b₀ : Bot} (h : Bot.new settings = .ok b₀) (events : List Event)
    (hbehaved : ∀ e ∈ events, e.Behaved) (s : Session) (hs : s.bot = b₀.after events) (files : Files) {l : String}
    (hl : Text.trimmed l = "/history") :
    let turns := b₀.turnsOf s.user events
    s.perform files (request l) = (some s, [.text (
      if s.bot.roster.existing? s.user = none then line "no history yet"
      else headline s.color "History" ++ String.join ((listed turns).map (entryText s.color)) ++ "\n")]) ∧
    (s.bot.roster.existing? s.user = none → turns = []) ∧
    (listed turns = (turns.take 9).zipIdx 1 ↔ ∀ turn ∈ turns.take 9, turn.1 ≠ undefinedText) ∧
    ((turns.take 9).zipIdx 1).map (·.2) = List.range' 1 (min turns.length 9) := by
  intro turns
  have hafter : s.bot.Remembers s.user turns := by
    have hall := Bot.remembers_after (Bot.remembers_new h s.user) hbehaved
    rwa [List.append_nil, ← hs] at hall
  have hreport : s.historyText =
      if s.bot.roster.existing? s.user = none then line "no history yet"
      else headline s.color "History" ++ String.join ((listed turns).map (entryText s.color)) ++ "\n" := by
    rw [historyText, Bot.history?]
    have hremembers := hafter.remembers
    cases hu : s.bot.roster.existing? s.user with
    | none => rfl
    | some u =>
      rw [Roster.user, hu, Option.getD_some] at hremembers
      exact historyReport_eq s.color hremembers.inputs hremembers.replies
  refine ⟨?_, fun hnone => ?_, listed_eq_iff, ?_⟩
  · rw [request_eq_history_iff.mpr hl, ← hreport]
    rfl
  · by_contra hturns
    have hknown := hafter.known hturns
    rw [hnone] at hknown
    cases hknown
  · rw [List.zipIdx_map_snd, List.length_take, Nat.min_comm]

/-- Ten turns, the first of which is forgotten though its message is `undefined`. -/
theorem history_lists_turns_ten :
    let messages := ["undefined", "a", "b", "c", "d", "e", "f", "g", "h", "i"]
    let events := Event.load {} (.text "a" "+ *\n- Hi!") :: messages.map (Event.reply "u")
    ∃ b₀, Bot.new {} = .ok b₀ ∧ (∀ e ∈ events, e.Behaved) ∧
      let s : Session := { bot := b₀.after events, user := "u", verbose := false, color := false }
      let turns := b₀.turnsOf "u" events
      (turns.length = 10 ∧ ∀ turn ∈ turns.take 9, turn.1 ≠ undefinedText) ∧
      Text.trimmed " /history " = "/history" ∧
      s.perform {} (request " /history ") = (some s, [.text (headline false "History" ++
        String.join (((turns.take 9).zipIdx 1).map (entryText false)) ++ "\n")]) ∧
      ((turns.take 9).zipIdx 1).map (·.2) = [1, 2, 3, 4, 5, 6, 7, 8, 9] := by
  intro messages events
  obtain ⟨b₀, hnew, ⟨hlength, hmessages⟩, hexisting⟩ : ∃ b₀, Bot.new {} = .ok b₀ ∧
      ((b₀.turnsOf "u" events).length = 10 ∧ ∀ turn ∈ (b₀.turnsOf "u" events).take 9, turn.1 ≠ undefinedText) ∧
      (b₀.after events).roster.existing? "u" ≠ none :=
    exists_ok_of_any (by decide +kernel)
  have hbehaved : ∀ e ∈ events, e.Behaved := by simp [events, messages, Event.Behaved]
  have htrimmed : Text.trimmed " /history " = "/history" := by decide +kernel
  let s : Session := { bot := b₀.after events, user := "u", verbose := false, color := false }
  obtain ⟨hshown, -, hlisted, hnumbers⟩ := history_lists_turns hnew events hbehaved s rfl {} htrimmed
  rw [if_neg hexisting, hlisted.mpr hmessages] at hshown
  refine ⟨b₀, hnew, hbehaved, ⟨hlength, hmessages⟩, htrimmed, hshown, ?_⟩
  rw [hnumbers, hlength]
  rfl

/-- A turn is left out of the list, and its number with it. -/
theorem a_message_undefined_is_left_out :
    let events := Event.load {} (.text "a" "+ *\n- Hi!") :: ["hello", "undefined", "bye"].map (Event.reply "u")
    ∃ b₀, Bot.new {} = .ok b₀ ∧ b₀.turnsOf "u" events = [("bye", "Hi!"), ("undefined", "Hi!"), ("hello", "Hi!")] ∧
      let s : Session := { bot := b₀.after events, user := "u", verbose := false, color := false }
      (s.perform {} (request "/history")).2 = [.text "\n━━━ History ━━━\n  [1] bye →\n      Hi!\n  [3] hello →\n      Hi!\n\n"] :=
  exists_ok_of_any (by decide +kernel)

end Session

end Repartee.Shell
