/-
  Repartee.Proofs.Sessions — a session at the terminal is a chat.

  Each line is told by what is left of it once it is trimmed: a message, `/quit` or `/exit`, which
  end the session, `/reload`, or a line that only shows something. A session goes line by line, so
  what it does to the bot is what its messages and reloads do in their order, and what it prints after
  `Bot> ` is what they are answered. A reload reads the files as they are at its line, whatever they
  were before.

  Proved:
  - Which lines are messages and which end the session or reload (`request_eq_say_iff`,
    `request_eq_quit_iff`, `request_eq_reload_iff`).
  - What one line does, and that only what answers a message is announced (`does_perform`).
  - A session leaves the bot as its messages and reloads do, and shows their answers
    (`session_plays_messages`).
-/

import Repartee.Proofs.Cutting
import Repartee.Proofs.Histories
import Repartee.Shell.Session

namespace Repartee.Shell

/-! ## Lines -/

/-- The message of a line: what is left once it is trimmed, unless this is nothing or begins with a slash. -/
def message? (l : String) : Option String :=
  match (Text.trimmed l).toList.head? with
  | none => none
  | some c => if c = '/' then none else some (Text.trimmed l)

/-- The line ends the session. -/
def Quits (l : String) : Prop := Text.trimmed l = "/quit" ∨ Text.trimmed l = "/exit"

instance : DecidablePred Quits := fun _ => inferInstanceAs (Decidable (_ ∨ _))

/-- The lines before the one that ends the session. -/
def heeded (ls : List String) : List String := ls.takeWhile fun l => ¬ Quits l

/-- What a line does to the bot. -/
def event? (user : String) (files : Files) (l : String) : Option Event :=
  if Text.trimmed l = "/reload" then some (.load files .again) else (message? l).map (.reply user)

/-- What the lines from the one with number `n` on do to the bot, each with its own files. -/
def eventsFrom (user : String) (disk : ℕ → Files) (n : ℕ) (ls : List String) : List Event :=
  (ls.zipIdx n).filterMap fun (l, k) => event? user (disk k) l

namespace Session

section Commands

variable {l w : String} {ws : List String}

theorem command?_of_message (h : w.toList.head? ≠ some '/') : command? (w :: ws) = none := by
  unfold command?
  split <;> simp_all

theorem command?_of_slash (h : w.toList.head? = some '/') : command? (w :: ws) ≠ none := by
  unfold command?
  split <;> simp_all

theorem command?_ne_say (m : String) : command? ws ≠ some (.say m) := by
  unfold command?
  split <;> simp_all

/-- Words are a command unless the first begins without a slash. -/
theorem command?_eq_none_iff (h : ∀ w ∈ ws, Text.IsWord w) :
    command? ws = none ↔ ∃ c, (ws.head?.bind fun w => w.toList.head?) = some c ∧ c ≠ '/' := by
  cases ws with
  | nil => exact iff_of_false nofun (by simp)
  | cons w ws =>
    have hword := h w List.mem_cons_self
    obtain ⟨c, cs, hchars⟩ := List.exists_cons_of_ne_nil fun hnil => hword.nonempty (String.toList_eq_nil_iff.mp hnil)
    have hhead : w.toList.head? = some c := by rw [hchars, List.head?_cons]
    rw [List.head?_cons, Option.bind_some, hhead]
    by_cases hslash : c = '/'
    · rw [hslash] at hhead
      exact iff_of_false (command?_of_slash hhead) (by simpa using hslash)
    · have hplain : w.toList.head? ≠ some '/' := by rwa [hhead, ne_eq, Option.some.injEq]
      exact iff_of_true (command?_of_message hplain) ⟨c, rfl, hslash⟩

theorem command?_eq_quit_iff : command? ws = some .quit ↔ ws = ["/quit"] ∨ ws = ["/exit"] := by
  unfold command?
  split <;> simp_all

theorem command?_eq_reload_iff : command? ws = some .reload ↔ ws = ["/reload"] := by
  unfold command?
  split <;> simp_all

/-- A line without words is trimmed to nothing, and any other to what its first word begins with. -/
theorem head?_trimmed (l : String) :
    (Text.trimmed l).toList.head? = (Text.wordsOf l).head?.bind fun w => w.toList.head? := by
  rw [Text.trimmed, String.toList_ofList, Text.head?_trim, Text.wordsOf, List.head?_map, Option.bind_map]
  simp only [Function.comp_def, String.toList_ofList]

theorem message?_eq_some_iff {m : String} :
    message? l = some m ↔ (∃ c, (Text.trimmed l).toList.head? = some c ∧ c ≠ '/') ∧ m = Text.trimmed l := by
  rw [message?]
  cases (Text.trimmed l).toList.head? with
  | none => simp
  | some c => simp [eq_comm]

theorem request_eq_say_iff {m : String} : request l = .say m ↔ message? l = some m := by
  have hcommand := command?_eq_none_iff fun w hw => Text.isWord_of_mem_wordsOf (s := l) hw
  rw [← head?_trimmed] at hcommand
  rw [message?_eq_some_iff, ← hcommand, request]
  cases hwords : command? (Text.wordsOf l) with
  | none => simp [eq_comm]
  | some r =>
    refine iff_of_false (fun hr => ?_) nofun
    rw [Option.getD_some] at hr
    exact command?_ne_say m (hr ▸ hwords)

theorem request_eq_iff {r : Request} (hr : ∀ m, r ≠ .say m) : request l = r ↔ command? (Text.wordsOf l) = some r := by
  rw [request]
  cases command? (Text.wordsOf l) with
  | none => exact iff_of_false (fun h => hr _ h.symm) nofun
  | some r' => rw [Option.getD_some, Option.some.injEq]

theorem request_eq_quit_iff : request l = .quit ↔ Quits l := by
  have hquit : Text.IsWord "/quit" := Text.isWord_of_all (by decide) (by decide +kernel)
  have hexit : Text.IsWord "/exit" := Text.isWord_of_all (by decide) (by decide +kernel)
  rw [request_eq_iff (by simp), command?_eq_quit_iff, Text.wordsOf_eq_singleton_iff hquit,
    Text.wordsOf_eq_singleton_iff hexit, Quits]

theorem request_eq_reload_iff : request l = .reload ↔ Text.trimmed l = "/reload" := by
  have hreload : Text.IsWord "/reload" := Text.isWord_of_all (by decide) (by decide +kernel)
  rw [request_eq_iff (by simp), command?_eq_reload_iff, Text.wordsOf_eq_singleton_iff hreload]

end Commands

/-! ## Announcements -/

/-- What is printed before an answer. -/
def announcement : Output := .text "Bot> "

/-- What is printed right after each announcement. -/
def answers : List Output → List Output
  | [] => []
  | [_] => []
  | o :: next :: rest => if o = announcement then next :: answers rest else answers (next :: rest)

/-- The bot is not announced. -/
def Unannounced (out : List Output) : Prop := ∀ o ∈ out, o ≠ announcement

section Announcements

variable {o : Output} {out rest : List Output} {text : String}

theorem answers_announcement (o : Output) (rest : List Output) : answers (announcement :: o :: rest) = o :: answers rest := by
  rw [answers, if_pos rfl]

theorem answers_cons (h : o ≠ announcement) (rest : List Output) : answers (o :: rest) = answers rest := by
  cases rest with
  | nil => rfl
  | cons next rest => rw [answers, if_neg h]

theorem answers_append (h : Unannounced out) (rest : List Output) : answers (out ++ rest) = answers rest := by
  induction out with
  | nil => rfl
  | cons o out ih =>
    obtain ⟨ho, hout⟩ := List.forall_mem_cons.mp h
    rw [List.cons_append, answers_cons ho, ih hout]

/-- The announcement is told from other texts by how they begin. -/
theorem text_ne_announcement (h : text.toList.head? ≠ some 'B') : Output.text text ≠ announcement := by
  intro heq
  cases heq
  exact h rfl

theorem unannounced_text (h : text.toList.head? ≠ some 'B') : Unannounced [.text text] :=
  List.forall_mem_singleton.mpr (text_ne_announcement h)

theorem head?_append {c : Char} (h : text.toList.head? = some c) (rest : String) :
    (text ++ rest).toList.head? = some c := by
  rw [String.toList_append, List.head?_append, h, Option.some_or]

theorem head?_headline (color : Bool) (title : String) (rest : String) :
    (headline color title ++ rest).toList.head? = some '\n' :=
  head?_append (head?_append rfl _) rest

theorem unannounced_help : Unannounced [.text helpText] := by
  have hhead : helpText.toList.head? = some 'C' := by
    unfold helpText
    repeat refine head?_append ?_ _
    rfl
  refine unannounced_text ?_
  rw [hhead]
  decide

theorem unannounced_turnReport (color : Bool) (r : Turn.Report) : Unannounced (turnReport color r) := by
  refine List.forall_mem_cons.mpr ⟨text_ne_announcement ?_, List.forall_mem_cons.mpr ⟨nofun, unannounced_text ?_⟩⟩
  · simp [String.toList_append]
  · simp [line, String.toList_append]

theorem unannounced_lastMatch (s : Session) : Unannounced [.text s.lastMatchText] := by
  refine unannounced_text ?_
  rw [lastMatchText]
  split <;> simp [line, String.toList_append]

theorem unannounced_history (s : Session) : Unannounced [.text s.historyText] := by
  refine unannounced_text ?_
  rw [historyText]
  split
  · rw [historyReport, String.append_assoc, head?_headline]
    decide
  · decide

theorem unannounced_sorted (s : Session) (topic : String) : Unannounced [.text (s.sortedText topic)] := by
  refine unannounced_text ?_
  rw [sortedText]
  split
  · rw [sortedReport, String.append_assoc, head?_headline]
    decide
  · simp [line, String.toList_append]

theorem unannounced_sortedAll (s : Session) : Unannounced [.text s.sortedAllText] := by
  refine unannounced_text ?_
  rw [sortedAllText]
  cases hreports : s.bot.topics.filterMap fun t => (s.bot.sortedTriggers? t.name).map (sortedReport s.color t.name) with
  | nil => decide
  | cons report reports =>
    have hmem : report ∈ s.bot.topics.filterMap fun t =>
        (s.bot.sortedTriggers? t.name).map (sortedReport s.color t.name) := hreports ▸ List.mem_cons_self
    obtain ⟨t, -, hreport⟩ := List.mem_filterMap.mp hmem
    obtain ⟨triggers, -, rfl⟩ := Option.map_eq_some_iff.mp hreport
    rw [String.join_cons, sortedReport, String.append_assoc, String.append_assoc, head?_headline]
    decide

end Announcements

/-! ## One line -/

/-- What a line does to a session and what it shows: it ends the session, is answered, reloads the rules, or
leaves the bot alone. -/
inductive Does (s : Session) (files : Files) (l : String) : Option Session × List Output → Prop
  | quits : Quits l → Does s files l (none, [])
  | plays {m : String} {report : List Output} : message? l = some m → Unannounced report →
      Does s files l (some { s with bot := (s.bot.reply s.user m).2 },
        announcement :: .text (line (s.bot.reply s.user m).1.reply) :: report)
  | reloads {out : List Output} : Text.trimmed l = "/reload" → Unannounced out →
      Does s files l (some { s with bot := (s.bot.load files .again).1 }, out)
  | shows {out : List Output} (verbose : Bool) : ¬ Quits l → event? s.user files l = none → Unannounced out →
      Does s files l (some { s with verbose }, out)

/-- Most requests only show something. -/
theorem exists_shown (s : Session) (files : Files) {r : Request} (hquit : r ≠ .quit) (hreload : r ≠ .reload)
    (hsay : ∀ m, r ≠ .say m) : ∃ verbose out, s.perform files r = (some { s with verbose }, out) ∧ Unannounced out := by
  cases r with
  | quit => exact absurd rfl hquit
  | reload => exact absurd rfl hreload
  | say m => exact absurd rfl (hsay m)
  | nothing => exact ⟨s.verbose, [], rfl, List.forall_mem_nil _⟩
  | help => exact ⟨s.verbose, _, rfl, unannounced_help⟩
  | lastMatch => exact ⟨s.verbose, _, rfl, unannounced_lastMatch s⟩
  | toggleReport =>
    refine ⟨!s.verbose, _, rfl, unannounced_text ?_⟩
    split <;> decide
  | history => exact ⟨s.verbose, _, rfl, unannounced_history s⟩
  | vars =>
    refine ⟨s.verbose, _, rfl, unannounced_text ?_⟩
    rw [varsReport, String.append_assoc, String.append_assoc, head?_headline]
    decide
  | topics =>
    refine ⟨s.verbose, _, rfl, unannounced_text ?_⟩
    rw [topicsReport, String.append_assoc, head?_headline]
    decide
  | sortedAll => exact ⟨s.verbose, _, rfl, unannounced_sortedAll s⟩
  | sorted topic => exact ⟨s.verbose, _, rfl, unannounced_sorted s topic⟩
  | unknown command => exact ⟨s.verbose, _, rfl, unannounced_text (by simp [line, String.toList_append])⟩

theorem does_perform (s : Session) (files : Files) (l : String) : Does s files l (s.perform files (request l)) := by
  by_cases hquits : Quits l
  · rw [request_eq_quit_iff.mpr hquits]
    exact .quits hquits
  by_cases hreload : Text.trimmed l = "/reload"
  · rw [request_eq_reload_iff.mpr hreload]
    refine .reloads hreload (unannounced_text ?_)
    split <;> simp [line, String.toList_append]
  cases hmessage : message? l with
  | some m =>
    rw [request_eq_say_iff.mpr hmessage]
    refine .plays hmessage ?_
    split
    · exact unannounced_turnReport s.color _
    · exact List.forall_mem_nil _
  | none =>
    have hsay : ∀ m, request l ≠ .say m := by simp [request_eq_say_iff, hmessage]
    obtain ⟨verbose, out, hperform, hout⟩ :=
      s.exists_shown files (mt request_eq_quit_iff.mp hquits) (mt request_eq_reload_iff.mp hreload) hsay
    rw [hperform]
    refine .shows verbose hquits ?_ hout
    rw [event?, if_neg hreload, hmessage, Option.map_none]

/-! ## Whole sessions -/

section Events

variable {user : String} {files : Files} {disk : ℕ → Files} {n : ℕ} {l : String}

theorem eventsFrom_cons_some {e : Event} (h : event? user (disk n) l = some e) (ls : List String) :
    eventsFrom user disk n (l :: ls) = e :: eventsFrom user disk (n + 1) ls := by
  rw [eventsFrom, List.zipIdx_cons]
  exact List.filterMap_cons_some h

theorem eventsFrom_cons_none (h : event? user (disk n) l = none) (ls : List String) :
    eventsFrom user disk n (l :: ls) = eventsFrom user disk (n + 1) ls := by
  rw [eventsFrom, List.zipIdx_cons]
  exact List.filterMap_cons_none h

theorem event?_of_message {m : String} (h : message? l = some m) : event? user files l = some (.reply user m) := by
  have hreload : ¬ Text.trimmed l = "/reload" := by
    intro hreload
    rw [message?, hreload] at h
    cases h
  rw [event?, if_neg hreload, h, Option.map_some]

theorem event?_of_reload (h : Text.trimmed l = "/reload") : event? user files l = some (.load files .again) := if_pos h

theorem event?_cases (user : String) (files : Files) (l : String) :
    (∃ m, message? l = some m ∧ event? user files l = some (.reply user m)) ∨
    message? l = none ∧ (event? user files l = some (.load files .again) ∨ event? user files l = none) := by
  cases hmessage : message? l with
  | some m => exact .inl ⟨m, rfl, event?_of_message hmessage⟩
  | none =>
    refine .inr ⟨rfl, ?_⟩
    rw [event?, hmessage]
    split
    · exact .inl rfl
    · exact .inr rfl

theorem reverse_turnsOf_cons (b : Bot) (user : String) (e : Event) (events : List Event) :
    (b.turnsOf user (e :: events)).reverse = (b.turnOf? user e).toList ++ ((b.step e).turnsOf user events).reverse := by
  rw [Bot.turnsOf, List.reverse_append]
  cases b.turnOf? user e <;> rfl

theorem turnOf?_reply (b : Bot) (user m : String) :
    b.turnOf? user (.reply user m) = some (m, (b.reply user m).1.reply) :=
  if_pos rfl

/-- The turns of a run have the messages of its lines. -/
theorem messages_turnsOf (b : Bot) (user : String) (disk : ℕ → Files) (n : ℕ) (ls : List String) :
    (b.turnsOf user (eventsFrom user disk n ls)).reverse.map (·.1) = ls.filterMap message? := by
  induction ls generalizing b n with
  | nil => rfl
  | cons l ls ih =>
    rcases event?_cases user (disk n) l with ⟨m, hmessage, hevent⟩ | ⟨hmessage, hevent | hevent⟩
    · rw [eventsFrom_cons_some hevent, List.filterMap_cons_some hmessage, reverse_turnsOf_cons, turnOf?_reply,
        List.map_append, ih]
      rfl
    · rw [eventsFrom_cons_some hevent, List.filterMap_cons_none hmessage, reverse_turnsOf_cons, List.map_append, ih]
      rfl
    · rw [eventsFrom_cons_none hevent, List.filterMap_cons_none hmessage, ih]

theorem heeded_cons (h : ¬ Quits l) (ls : List String) : heeded (l :: ls) = l :: heeded ls :=
  List.takeWhile_cons_of_pos (by simpa using h)

theorem not_quits_of_message {m : String} (h : message? l = some m) : ¬ Quits l := by
  intro hquits
  have hrequest := request_eq_quit_iff.mpr hquits
  rw [request_eq_say_iff.mpr h] at hrequest
  cases hrequest

theorem not_quits_of_reload (h : Text.trimmed l = "/reload") : ¬ Quits l := by
  rw [Quits, h]
  decide

end Events

/-- By induction on the lines: the session that goes on after a line is that of the rest, at the next number. -/
theorem answerLines_plays (s : Session) (disk : ℕ → Files) (n : ℕ) (ls : List String) :
    let events := eventsFrom s.user disk n (heeded ls)
    let ended := s.answerLines disk n ls
    (ended.1.bot = s.bot.after events ∧ ended.1.user = s.user) ∧
      answers ended.2 = (s.bot.turnsOf s.user events).reverse.map fun turn => .text (line turn.2) := by
  induction ls generalizing s n with
  | nil => exact ⟨⟨rfl, rfl⟩, rfl⟩
  | cons l ls ih =>
    have hprompt : Output.text prompt ≠ announcement := by decide
    have hdoes := s.does_perform (disk n) l
    rw [answerLines]
    generalize s.perform (disk n) (request l) = done at hdoes
    cases hdoes with
    | quits hquits =>
      rw [heeded, List.takeWhile_cons_of_neg (by simpa using hquits)]
      exact ⟨⟨rfl, rfl⟩, rfl⟩
    | @plays m report hmessage hreport =>
      obtain ⟨hends, hanswers⟩ := ih { s with bot := (s.bot.reply s.user m).2 } (n + 1)
      rw [heeded_cons (not_quits_of_message hmessage), eventsFrom_cons_some (event?_of_message hmessage)]
      refine ⟨hends, ?_⟩
      rw [reverse_turnsOf_cons, turnOf?_reply]
      dsimp only
      rw [List.cons_append, List.cons_append, List.cons_append, answers_cons hprompt, answers_announcement,
        answers_append hreport, hanswers]
      rfl
    | @reloads out hreload hout =>
      obtain ⟨hends, hanswers⟩ := ih { s with bot := (s.bot.load (disk n) .again).1 } (n + 1)
      rw [heeded_cons (not_quits_of_reload hreload), eventsFrom_cons_some (event?_of_reload hreload)]
      refine ⟨hends, ?_⟩
      rw [reverse_turnsOf_cons]
      dsimp only
      rw [List.cons_append, answers_cons hprompt, answers_append hout, hanswers]
      rfl
    | @shows out verbose hquits hevent hout =>
      obtain ⟨hends, hanswers⟩ := ih { s with verbose } (n + 1)
      rw [heeded_cons hquits, eventsFrom_cons_none hevent]
      refine ⟨hends, ?_⟩
      dsimp only
      rw [List.cons_append, answers_cons hprompt, answers_append hout, hanswers]

/-- A line that is no message makes no turn and leaves what is kept of all users. -/
theorem perform_of_no_message (s : Session) (files : Files) {l : String} (h : message? l = none) :
    (∀ s' ∈ (s.perform files (request l)).1, s'.bot.roster = s.bot.roster ∧ s'.bot.turns = s.bot.turns) ∧
      answers (s.perform files (request l)).2 = [] := by
  have hsilent : ∀ {out}, Unannounced out → answers out = [] := by
    intro out hout
    have happend := answers_append hout []
    rwa [List.append_nil] at happend
  have hdoes := s.does_perform files l
  generalize s.perform files (request l) = done at hdoes
  cases hdoes with
  | quits hquits => exact ⟨nofun, rfl⟩
  | plays hmessage hreport => cases h.symm.trans hmessage
  | reloads hreload hout =>
    refine ⟨fun s' hs' => ?_, hsilent hout⟩
    cases hs'
    exact ⟨Bot.roster_load s.bot files .again, Bot.turns_load s.bot files .again⟩
  | shows verbose hquits hevent hout =>
    refine ⟨fun s' hs' => ?_, hsilent hout⟩
    cases hs'
    exact ⟨rfl, rfl⟩

example : (heeded ["hi", "/ quit", "", "/quit now", " /exit ", "bye"]).filterMap message? = ["hi"] := by decide +kernel

end Session

end Repartee.Shell
