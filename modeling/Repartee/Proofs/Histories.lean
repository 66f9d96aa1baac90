/-
  Repartee.Proofs.Histories — what a user's histories hold after a run.

  A turn is remembered once it is over, however it ended. Nothing else writes to the histories,
  as long as macros change a user by its variables and topic only. So what they hold is read off
  the user's turns so far, and a turn that is under way finds in them those before it, however
  many redirects it has followed.

  Proved:
  - Remembering a turn shifts the last nine (`lastNine_cons`), and what is read in them is the
    text of so many turns ago (`get?_of_lastNine`).
  - Loads hand objects to handlers and leave macros as well behaved as they were
    (`behaved_handOver`).
  - Along a run, the histories hold the user's last nine turns (`remembers_step`,
    `remembers_after`).
  - A turn goes as if the tags that recall were written out with the texts of the turns before it
    (`play_recalling`).
  - What is recalled after a run and during the next turn (`histories_after`).
-/

import Repartee.Proofs.Handover
import Repartee.Proofs.Rendering
import Repartee.Proofs.Runs

namespace Repartee

/-! ## The last nine -/

/-- The last nine of these texts, latest first, filled up if there are fewer. -/
def lastNine (texts : List String) : List String :=
  (texts ++ List.replicate historySize undefinedText).take historySize

/-- The text of so many turns ago, `undefined` if there were fewer. None is beyond nine turns. -/
def recalled? (texts : List String) (ago : Nat) : Option String :=
  if ago = 0 ∨ historySize < ago then none else some (texts[ago - 1]?.getD undefinedText)

theorem lastNine_cons (text : String) (texts : List String) :
    (text :: lastNine texts).take historySize = lastNine (text :: texts) := by
  rw [lastNine, lastNine, List.cons_append, historySize, List.take_succ_cons, List.take_succ_cons, List.take_take]
  rfl

theorem get?_of_lastNine {h : History} {texts : List String} (hentries : h.entries = lastNine texts) (ago : Nat) :
    h.get? ago = recalled? texts ago := by
  cases ago with
  | zero => rfl
  | succ ago =>
    rw [History.get?, hentries, lastNine, recalled?, Nat.add_sub_cancel, List.getElem?_take]
    by_cases hfar : historySize < ago + 1
    · rw [if_neg (by omega), if_pos (.inr hfar)]
    · rw [if_pos (by omega), if_neg (by omega)]
      by_cases hago : ago < texts.length
      · rw [List.getElem?_append_left hago, List.getElem?_eq_getElem hago, Option.getD_some]
      · rw [List.getElem?_append_right (by omega), List.getElem?_replicate_of_lt (by omega),
          List.getElem?_eq_none (by omega), Option.getD_none]

/-- The histories of a user with these turns, latest first. -/
structure User.Remembers (turns : List (String × String)) (u : User) : Prop where
  inputs : u.inputs.entries = lastNine (turns.map (·.1))
  replies : u.replies.entries = lastNine (turns.map (·.2))

namespace User.Remembers

variable {turns : List (String × String)} {u v : User}

theorem new (id : String) : (User.new id).Remembers [] := ⟨rfl, rfl⟩

theorem record (h : u.Remembers turns) (message reply : String) :
    (u.record message reply).Remembers ((message, reply) :: turns) := by
  constructor
  · change (message :: u.inputs.entries).take historySize = _
    rw [h.inputs, lastNine_cons, List.map_cons]
  · change (reply :: u.replies.entries).take historySize = _
    rw [h.replies, lastNine_cons, List.map_cons]

theorem input? (h : u.Remembers turns) (ago : Nat) : u.input? ago = recalled? (turns.map (·.1)) ago :=
  get?_of_lastNine h.inputs ago

theorem reply? (h : u.Remembers turns) (ago : Nat) : u.reply? ago = recalled? (turns.map (·.2)) ago :=
  get?_of_lastNine h.replies ago

/-- Only the histories matter. -/
theorem congr (h : u.Remembers turns) (hinputs : v.inputs = u.inputs) (hreplies : v.replies = u.replies) :
    v.Remembers turns :=
  ⟨hinputs ▸ h.inputs, hreplies ▸ h.replies⟩

theorem delete (h : u.Remembers turns) (name : String) : (u.delete name).Remembers turns := h.congr rfl rfl

theorem set (h : u.Remembers turns) (name value : String) : (u.set name value).Remembers turns := by
  rw [User.set]
  split
  · exact h.delete name
  · exact h.congr rfl rfl

theorem setTopic (h : u.Remembers turns) (topic : String) : (u.setTopic topic).Remembers turns := h.congr rfl rfl

theorem noteMatch (h : u.Remembers turns) (matched : Option Matched) : (Turn.noteMatch matched u).Remembers turns := by
  cases matched with
  | none => exact h.delete _
  | some m => exact h.set _ _

end User.Remembers

/-! ## Macros that behave -/

/-- A change to a user's variables or topic. -/
inductive UserEdit where
  | set (name value : String)
  | delete (name : String)
  | setTopic (topic : String)
  deriving DecidableEq, Repr

def User.edit (u : User) : UserEdit → User
  | .set name value => u.set name value
  | .delete name => u.delete name
  | .setTopic topic => u.setTopic topic

/-- A subroutine changes its user by edits only. -/
def Subroutine.Behaved (s : Subroutine) : Prop :=
  ∀ call u, ∃ edits : List UserEdit, (s call u).2 = edits.foldl User.edit u

def Handler.Behaved (h : Handler) : Prop := ∀ received, (h.run received).Behaved

structure Macros.Behaved (m : Macros) : Prop where
  subroutines : ∀ {name s}, m.subroutines.find? name = some s → s.Behaved
  workshops : ∀ {language w}, m.workshops.find? language = some w → w.handler.Behaved

def Event.Behaved : Event → Prop
  | .setSubroutine _ s => s.Behaved
  | .setHandler _ handler => handler.Behaved
  | _ => True

theorem User.Remembers.edits {turns : List (String × String)} {u : User} (h : u.Remembers turns)
    (edits : List UserEdit) : (edits.foldl User.edit u).Remembers turns := by
  refine List.foldlRecOn edits _ h fun u hu edit _ => ?_
  cases edit with
  | set name value => exact hu.set name value
  | delete name => exact hu.delete name
  | setTopic topic => exact hu.setTopic topic

theorem User.Remembers.called {turns : List (String × String)} {u : User} {s : Subroutine} (h : u.Remembers turns)
    (hs : s.Behaved) (call : MacroCall) : (s call u).2.Remembers turns := by
  obtain ⟨edits, hedits⟩ := hs call u
  rw [hedits]
  exact h.edits edits

section Macros

variable {m m' : Macros}

theorem Macros.Behaved.resolve? (h : m.Behaved) {name : String} {s : Subroutine} (hs : m.resolve? name = some s) :
    s.Behaved := by
  rw [Macros.resolve?] at hs
  cases hname : m.subroutines.find? name with
  | some found =>
    rw [hname] at hs
    cases hs
    exact h.subroutines hname
  | none =>
    rw [hname] at hs
    obtain ⟨language, -, hs⟩ := Option.bind_eq_some_iff.mp hs
    obtain ⟨w, hw, hs⟩ := Option.bind_eq_some_iff.mp hs
    cases hs
    exact h.workshops hw w.received

theorem behaved_empty : ({} : Macros).Behaved := ⟨nofun, nofun⟩

/-- What handlers receive does not change what they are. -/
theorem Handed.behaved {os : List Script.Object} (h : Handed m m' os) (hm : m.Behaved) : m'.Behaved := by
  refine ⟨fun {name s} hs => hm.subroutines (h.subroutines ▸ hs), fun {language w} hw => ?_⟩
  rw [h.workshops] at hw
  obtain ⟨w₀, hw₀, rfl⟩ := Option.map_eq_some_iff.mp hw
  exact (hm.workshops hw₀ : w₀.handler.Behaved)

theorem behaved_handOver (hm : m.Behaved) (os : List Script.Object) : (Bot.handOver m os).1.Behaved := by
  induction os generalizing m with
  | nil => exact hm
  | cons o os ih =>
    rw [Bot.handOver]
    by_cases ho : m.hasHandler o.language = true
    · obtain ⟨m₁, hhanded, ⟨hload, -⟩ | ⟨err, hload, -⟩⟩ := loadObject_cases ho
      · simp only [if_pos ho, hload]
        exact ih (hhanded.behaved hm)
      · simp only [if_pos ho, hload]
        exact hhanded.behaved hm
    · rw [if_neg ho]
      exact ih hm

theorem behaved_setSubroutine (hm : m.Behaved) (name : String) {s : Subroutine} (hs : s.Behaved) :
    (m.setSubroutine name s).Behaved := by
  refine ⟨fun {other t} ht => ?_, hm.workshops⟩
  rw [Macros.setSubroutine, Dict.find?_put] at ht
  split at ht
  · cases ht
    exact hs
  · exact hm.subroutines ht

theorem behaved_removeSubroutine (hm : m.Behaved) (name : String) : (m.removeSubroutine name).Behaved := by
  refine ⟨fun {other t} ht => ?_, hm.workshops⟩
  rw [Macros.removeSubroutine, Dict.find?_erase] at ht
  split at ht
  · cases ht
  · exact hm.subroutines ht

theorem behaved_setHandler (hm : m.Behaved) (language : String) {handler : Handler} (hh : handler.Behaved) :
    (m.setHandler language handler).Behaved := by
  refine ⟨hm.subroutines, fun {other w} hw => ?_⟩
  rw [Macros.setHandler, Dict.find?_put] at hw
  split at hw
  · cases hw
    exact hh
  · exact hm.workshops hw

end Macros

/-! ## Turns that recall -/

/-- A tag that recalls, written out with what it recalls. -/
def Piece.recalling (turns : List (String × String)) : Piece → Piece
  | .input ago => ((recalled? (turns.map (·.1)) ago).map Piece.text).getD (.input ago)
  | .reply ago => ((recalled? (turns.map (·.2)) ago).map Piece.text).getD (.reply ago)
  | p => p

/-- The scene with these tags written out in all that triggers say. -/
def Scene.recalling (s : Scene) (turns : List (String × String)) : Scene :=
  { s with rules := { s.rules with catalog := { s.rules.catalog with
      triggers := s.rules.catalog.triggers.map (·.replace (Piece.recalling turns)) } } }

namespace Turn

section Recalling

variable {turns : List (String × String)} {s : Scene} {redirect redirect' : String → Play String} {captures : Captures}

/-- What is recalled may as well be written out. -/
theorem agree_recalled {entry : User → Nat → Option String} {ago : Nat} {recalled : Option String} {p : Play String}
    (hentry : ∀ u : User, u.Remembers turns → entry u ago = recalled)
    (htext : ∀ text, recalled = some text → p = pure text)
    (htag : recalled = none → p = liftM (remembered entry ago)) :
    Agree (·.Remembers turns) (liftM (remembered entry ago) : Play String) p := by
  intro t ht
  have hkept : ((liftM (remembered entry ago) : Play String).run t).2.user.Remembers turns := by
    change ((remembered entry ago).run t).2.user.Remembers turns
    rw [user_remembered]
    exact ht
  refine ⟨?_, hkept⟩
  cases hrecalled : recalled with
  | none => rw [htag hrecalled]
  | some text =>
    have hrun := run_remembered ((hentry t.user ht).trans hrecalled)
    rw [htext text hrecalled]
    exact congrArg (fun r : String × Turn => (Except.ok r.1, r.2)) hrun

theorem mirrors_recalling (hm : s.macros.Behaved)
    (hredirect : ∀ target, Agree (·.Remembers turns) (redirect target) (redirect' target)) :
    Mirrors (·.Remembers turns) (fun _ => True) (Piece.recalling turns) captures s (s.recalling turns) redirect
      redirect' := by
  refine ⟨fun p _ hleaf => ?_, fun name value _ text u hu => hu.set name text, ?_, fun line _ text => ?_,
    fun _ _ _ => agree_lift fun t ht => ht, hredirect⟩
  · cases p with
    | input ago =>
      refine agree_recalled (fun u hu => hu.input? ago) (fun text htext => ?_) fun hnone => ?_
      · rw [Piece.recalling, htext]
        rfl
      · rw [Piece.recalling, hnone]
        rfl
    | reply ago =>
      refine agree_recalled (fun u hu => hu.reply? ago) (fun text htext => ?_) fun hnone => ?_
      · rw [Piece.recalling, htext]
        rfl
      · rw [Piece.recalling, hnone]
        rfl
    | set | math | call | redirect | random | recase => cases hleaf
    | star index => exact agree_untouched (user_capture _ index)
    | botStar index => exact agree_untouched (user_capture _ index)
    | topic name => exact (agree_lift fun t ht => ht.setTopic name).bind fun _ => .pure _
    | _ => exact fun t ht => ⟨rfl, ht⟩
  · intro op name operand _ text t ht
    rcases user_applyMath op name text t with huser | ⟨value, huser⟩
    · rw [huser]
      exact ht
    · rw [huser]
      exact ht.set name value
  · refine agree_lift fun t ht => ?_
    rcases user_callMacro s text t with huser | ⟨name, subroutine, call, hname, huser⟩
    · rw [huser]
      exact ht
    · rw [huser]
      exact ht.called (hm.resolve? hname) call

theorem user_pick (s : Scene) (replies : List Template) (t : Turn) : ((pick s replies).run t).2.user = t.user := by
  match replies with
  | [] => rfl
  | [_] => rfl
  | _ :: _ :: _ => rfl

theorem converges_recalling (hm : s.macros.Behaved) : Converges (·.Remembers turns) s (s.recalling turns) := by
  refine converges_of_parallel (R := fun t t' => t' = t.replace (Piece.recalling turns))
    ⟨⟨rfl, fun id => ?_⟩, rfl, rfl⟩ rfl (fun u hu => hu.setTopic homeTopic)
    fun redirect redirect' hredirect captures t t' ht => ?_
  · rw [Scene.recalling, Array.getElem?_map]
    cases s.rules.catalog.triggers[id]? with
    | none => exact .none
    | some t => exact .some ⟨rfl, rfl, rfl⟩
  · subst ht
    exact agree_say (mirrors_recalling hm hredirect) (t.each_of_forall fun _ => trivial)
      (agree_untouched (user_pick s t.replies)) rfl

/-- A turn goes as if the tags that recall were written out, from the first trigger to the last redirect. -/
theorem play_recalling (hm : s.macros.Behaved) {u : User} (hu : u.Remembers turns) (message : String) :
    play s u message = play (s.recalling turns) u message :=
  agree_play (converges_recalling hm) hu message

/-- Once it is over, a turn is remembered. -/
theorem remembers_play (hm : s.macros.Behaved) {u : User} (hu : u.Remembers turns) (message : String) :
    (play s u message).2.Remembers ((message, (play s u message).1.reply) :: turns) := by
  obtain ⟨v, hv, hplay⟩ := keeps_play (converges_recalling hm) hu message
  rw [hplay]
  exact (hv.noteMatch _).record _ _

end Recalling

end Turn

/-! ## Runs -/

namespace Bot

/-- The message and reply of an event, if it is a turn of the user. -/
def turnOf? (b : Bot) (user : String) : Event → Option (String × String)
  | .reply id message => if id = user then some (message, (b.reply id message).1.reply) else none
  | _ => none

/-- The turns of a user in a run, latest first. -/
def turnsOf (b : Bot) (user : String) : List Event → List (String × String)
  | [] => []
  | e :: events => (b.step e).turnsOf user events ++ (b.turnOf? user e).toList

/-- Macros behave, and the user remembers these turns; who has had a turn is known. -/
structure Remembers (user : String) (turns : List (String × String)) (b : Bot) : Prop where
  macros : b.macros.Behaved
  remembers : (b.roster.user user).Remembers turns
  known : turns ≠ [] → (b.roster.existing? user).isSome = true

section Runs

variable {b : Bot} {user : String} {turns : List (String × String)}

theorem behaved_step (hm : b.macros.Behaved) {e : Event} (he : e.Behaved) : (b.step e).macros.Behaved := by
  cases e with
  | load files l =>
    rcases load_cases b files l with ⟨e, -, hload⟩ | ⟨fresh, macros, e, -, hhand, hload⟩ |
      ⟨fresh, rules, macros, -, -, hhand, hload⟩
    · rw [step, hload]
      exact hm
    · have hhanded := behaved_handOver hm (fresh.flatMap (·.script.objects))
      rw [hhand] at hhanded
      rw [step, hload]
      exact hhanded
    · have hhanded := behaved_handOver hm (fresh.flatMap (·.script.objects))
      rw [hhand] at hhanded
      rw [step, hload]
      exact hhanded
  | reply id message => exact hm
  | setUservars id vars => exact hm
  | setSubroutine name s => exact behaved_setSubroutine hm name he
  | removeSubroutine name => exact behaved_removeSubroutine hm name
  | setHandler language handler => exact behaved_setHandler hm (Text.lowercase language) he

theorem roster_load (b : Bot) (files : Files) (l : Load) : (b.load files l).1.roster = b.roster := by
  rcases load_cases b files l with ⟨e, -, hload⟩ | ⟨fresh, macros, e, -, -, hload⟩ |
    ⟨fresh, rules, macros, -, -, -, hload⟩
  · rw [hload]
  · rw [hload]
  · rw [hload]

theorem turns_load (b : Bot) (files : Files) (l : Load) : (b.load files l).1.turns = b.turns := by
  rcases load_cases b files l with ⟨e, -, hload⟩ | ⟨fresh, macros, e, -, -, hload⟩ |
    ⟨fresh, rules, macros, -, -, -, hload⟩
  · rw [hload]
  · rw [hload]
  · rw [hload]

/-- What one event adds to the histories. -/
theorem remembers_step (h : b.Remembers user turns) {e : Event} (he : e.Behaved) :
    (b.step e).Remembers user ((b.turnOf? user e).toList ++ turns) := by
  have hmacros := behaved_step h.macros he
  cases e with
  | load files l =>
    have hroster := roster_load b files l
    refine ⟨hmacros, ?_, ?_⟩
    · change (((b.load files l).1.roster.user user).Remembers turns)
      rw [hroster]
      exact h.remembers
    · change turns ≠ [] → ((b.load files l).1.roster.existing? user).isSome = true
      rw [hroster]
      exact h.known
  | reply id message =>
    change Remembers user _ { b with roster := b.roster.keep id _, turns := b.turns + 1 }
    by_cases hid : id = user
    · subst hid
      rw [turnOf?, if_pos rfl]
      refine ⟨hmacros, ?_, fun _ => ?_⟩
      · rw [Roster.user_keep, if_pos rfl]
        exact Turn.remembers_play h.macros h.remembers message
      · rw [Roster.existing?_keep, if_pos rfl, Option.isSome_some]
    · rw [turnOf?, if_neg hid]
      refine ⟨hmacros, ?_, fun hturns => ?_⟩
      · rw [Roster.user_keep, if_neg (Ne.symm hid)]
        exact h.remembers
      · rw [Roster.existing?_keep, if_neg (Ne.symm hid)]
        exact h.known hturns
  | setUservars id vars =>
    change Remembers user turns { b with roster := b.roster.keep id _ }
    refine ⟨hmacros, ?_, fun hturns => ?_⟩
    · rw [Roster.user_keep]
      split
      · subst_vars
        exact List.foldlRecOn vars _ h.remembers fun u hu var _ => hu.set var.1 var.2
      · exact h.remembers
    · rw [Roster.existing?_keep]
      split
      · rfl
      · exact h.known hturns
  | setSubroutine name s => exact ⟨hmacros, h.remembers, h.known⟩
  | removeSubroutine name => exact ⟨hmacros, h.remembers, h.known⟩
  | setHandler language handler => exact ⟨hmacros, h.remembers, h.known⟩

theorem remembers_after (h : b.Remembers user turns) {events : List Event} (hbehaved : ∀ e ∈ events, e.Behaved) :
    (b.after events).Remembers user (b.turnsOf user events ++ turns) := by
  induction events generalizing b turns with
  | nil => exact h
  | cons e events ih =>
    rw [List.forall_mem_cons] at hbehaved
    have hrest := ih (remembers_step h hbehaved.1) hbehaved.2
    rw [turnsOf, List.append_assoc]
    exact hrest

theorem remembers_new {settings : Settings} {b₀ : Bot} (h : Bot.new settings = .ok b₀) (user : String) :
    b₀.Remembers user [] := by
  obtain ⟨punctuation, -, hnew⟩ := bind_eq_ok.mp h
  cases hnew
  exact ⟨behaved_empty, .new user, fun hturns => absurd rfl hturns⟩

end Runs

/-- After any run a user's histories are what is recalled of its turns so far, and in the next turn each tag
that recalls, wherever it is reached, stands for what is recalled of the turns before. -/
theorem histories_after {settings : Settings} {b₀ : Bot} (h : Bot.new settings = .ok b₀) (events : List Event)
    (hbehaved : ∀ e ∈ events, e.Behaved) (user : String) :
    let b := b₀.after events
    let turns := b₀.turnsOf user events
    (turns ≠ [] → (b.history? user).isSome = true) ∧
      (∀ inputs replies, b.history? user = some (inputs, replies) →
        (inputs.entries.length = 9 ∧ ∀ ago, inputs.get? ago = recalled? (turns.map (·.1)) ago) ∧
          (replies.entries.length = 9 ∧ ∀ ago, replies.get? ago = recalled? (turns.map (·.2)) ago)) ∧
      ∀ message, Turn.play b.scene (b.roster.user user) message =
        Turn.play (b.scene.recalling turns) (b.roster.user user) message := by
  intro b turns
  have hafter : b.Remembers user turns := by
    have hall := remembers_after (remembers_new h user) hbehaved
    rwa [List.append_nil] at hall
  refine ⟨fun hturns => ?_, fun inputs replies hhistory => ?_, Turn.play_recalling hafter.macros hafter.remembers⟩
  · rw [history?, Option.isSome_map]
    exact hafter.known hturns
  · obtain ⟨u, hu, hpair⟩ := Option.map_eq_some_iff.mp hhistory
    cases hpair
    have hremembers := hafter.remembers
    rw [Roster.user, hu, Option.getD_some] at hremembers
    exact ⟨⟨u.inputs.size_eq, hremembers.input?⟩, u.replies.size_eq, hremembers.reply?⟩

/-- A macro that fails after an edit, a load that fails, and a reply that recalls after a redirect. -/
theorem histories_after_redirect :
    let note : Subroutine := fun _ u => (.error (.failed "no"), u.set "mood" "calm")
    let text := "+ *\n* <star> == and now => \x7b@again\x7d\n- After <input1>: <reply><call>note</call>"
    let first := "After undefined: undefined"
    let events := [Event.setSubroutine "note" note, .load {} (.text "a" text), .reply "u" "hello",
      .load {} (.file "none.rive"), .reply "u" "and now"]
    ∃ b₀, Bot.new {} = .ok b₀ ∧
      let b := b₀.after events
      let turns := b₀.turnsOf "u" events
      (turns = [("and now", "After hello: " ++ first), ("hello", first)] ∧ (b.reply "u" "again").1.reply =
        "After and now: After hello: " ++ first) ∧
      (∀ e ∈ events, e.Behaved) ∧
      (turns ≠ [] → (b.history? "u").isSome = true) ∧
      (∀ inputs replies, b.history? "u" = some (inputs, replies) →
        (inputs.entries.length = 9 ∧ ∀ ago, inputs.get? ago = recalled? (turns.map (·.1)) ago) ∧
          (replies.entries.length = 9 ∧ ∀ ago, replies.get? ago = recalled? (turns.map (·.2)) ago)) ∧
      ∀ message, Turn.play b.scene (b.roster.user "u") message =
        Turn.play (b.scene.recalling turns) (b.roster.user "u") message := by
  intro note text first events
  obtain ⟨b₀, hnew, hran⟩ : ∃ b₀, Bot.new {} = .ok b₀ ∧
      (b₀.turnsOf "u" events = [("and now", "After hello: " ++ first), ("hello", first)] ∧
        ((b₀.after events).reply "u" "again").1.reply = "After and now: After hello: " ++ first) :=
    exists_ok_of_any (by decide +kernel)
  have hbehaved : ∀ e ∈ events, e.Behaved := by
    simp only [events, List.forall_mem_cons]
    exact ⟨fun call u => ⟨[.set "mood" "calm"], rfl⟩, trivial, trivial, trivial, trivial, by simp⟩
  exact ⟨b₀, hnew, hran, hbehaved, histories_after hnew events hbehaved "u"⟩

end Bot

end Repartee
