/-
  Repartee.Proofs.Isolation — what users share does not show.

  All users talk to one bot: its rules, its macros, one count of turns and the draws that go with
  it. A turn reads and writes the user it answers and nothing else of the roster, and the count
  shows in its draws alone. Rules that leave nothing to chance take no draw that could turn out
  two ways. So what a user's operations come to is settled by that user's operations.

  Proved:
  - On rules that leave nothing to chance a turn is the same whatever the draws
    (`play_of_certain`).
  - What an operation of a user comes to depends on the rules, the macros and that user, and it
    leaves all others as they were (`Matching.perform`, `Matching.perform_other`).
  - In any interleaving of the operations of all users, each user's answers and what is kept of
    the user are those of its own operations alone, and queries leave no trace
    (`users_isolated`).
-/

import Repartee.Proofs.Loading
import Repartee.Proofs.Rendering

namespace Repartee

/-! ## Rules that leave nothing to chance -/

/-- No choice between alternatives. -/
def Piece.Certain : Piece → Prop
  | .random alternatives => alternatives.length ≤ 1
  | _ => True

instance : DecidablePred Piece.Certain
  | .random _ => inferInstanceAs (Decidable (_ ≤ 1))
  | .text _ | .star _ | .botStar _ | .input _ | .reply _ | .get _ | .bot _ | .env _ | .userId | .set .. | .math ..
  | .topic _ | .call _ | .redirect _ | .recase .. => isTrue trivial

/-- No choice between replies, and none within anything that is said. -/
def Trigger.Certain (t : Trigger) : Prop := t.replies.length ≤ 1 ∧ t.Each Piece.Certain

instance : DecidablePred Trigger.Certain := fun t =>
  inferInstanceAs (Decidable (t.replies.length ≤ 1 ∧ t.Each Piece.Certain))

def Rulebook.Certain (r : Rulebook) : Prop := ∀ trigger ∈ r.catalog.triggers, trigger.Certain

instance : DecidablePred Rulebook.Certain := fun r =>
  decidable_of_iff (∀ trigger ∈ r.catalog.triggers.toList, trigger.Certain) (by simp [Rulebook.Certain])

namespace Turn

variable {s s' : Scene}

/-- Every draw from one alternative is the same. -/
theorem draw_one (s s' : Scene) : draw s 1 = draw s' 1 := by
  have hmod : ∀ n : Nat, n % 1 = 0 := Nat.mod_one
  simp only [draw, hmod]

theorem pick_of_certain {replies : List Template} (h : replies.length ≤ 1) : pick s replies = pick s' replies := by
  match replies, h with
  | [], _ => rfl
  | [_], _ => rfl

/-- Turns on rules that leave nothing to chance do not depend on the draws. -/
theorem play_of_certain (h : s.rules.Certain) (draws : Draws) (u : User) (message : String) :
    play s u message = play { s with draws } u message := by
  have hparallel : s.rules.Parallel (fun t t' => t = t' ∧ t.Certain) s.rules := by
    refine ⟨⟨rfl, fun id => ?_⟩, rfl, rfl⟩
    cases hid : s.rules.catalog.triggers[id]? with
    | none => exact .none
    | some t => exact .some ⟨rfl, rfl, rfl, h t (Array.mem_of_getElem? hid)⟩
  have hconverges : Converges (fun _ => True) s { s with draws } := by
    refine converges_of_parallel hparallel rfl (fun _ _ => trivial) fun redirect redirect' hredirect captures t t' ht => ?_
    obtain ⟨rfl, hreplies, hpieces⟩ := ht
    have hsame : redirect = redirect' := funext fun target => agree_true_iff.mp (hredirect target)
    rw [agree_true_iff, ← hsame]
    have hprompts : Prompts s { s with draws } := ⟨rfl, rfl, rfl, rfl⟩
    refine say_congr hprompts (fun alternatives hone hne => ?_) hpieces (pick_of_certain hreplies)
    have hlength : alternatives.length = 1 := by
      have hpos := List.length_pos_iff.mpr hne
      have hle : alternatives.length ≤ 1 := hone
      omega
    rw [hlength, draw_one]
  exact agree_play hconverges trivial message

end Turn

/-! ## Operations of users -/

/-- What is done in the name of a user. -/
inductive Operation where
  | reply (message : String)
  | setUservar (name value : String)
  | setUservars (vars : List (String × String))
  | uservar (name : String)
  | uservars
  | history
  | lastMatch
  deriving DecidableEq, Repr

def Operation.isQuery : Operation → Bool
  | .uservar _ | .uservars | .history | .lastMatch => true
  | .reply _ | .setUservar .. | .setUservars _ => false

/-- What an operation comes to. -/
inductive Answer where
  | report (r : Turn.Report)
  | done
  | text (value : String)
  | vars (all : Option (Dict String))
  | histories (both : Option (History × History))
  | pattern (matched : Option String)
  deriving DecidableEq, Repr

namespace Bot

def perform (b : Bot) (user : String) : Operation → Answer × Bot
  | .reply message =>
    let (report, b) := b.reply user message
    (.report report, b)
  | .setUservar name value => (.done, b.setUservar user name value)
  | .setUservars vars => (.done, b.setUservars user vars)
  | .uservar name => (.text (b.uservar user name), b)
  | .uservars => (.vars (b.uservars? user), b)
  | .history => (.histories (b.history? user), b)
  | .lastMatch => (.pattern (b.lastMatch? user), b)

/-- Perform operations of any users in order; each answer is told whose it is. -/
def performAll (b : Bot) : List (String × Operation) → List (String × Answer) × Bot
  | [] => ([], b)
  | (user, op) :: ops =>
    let (answer, b) := b.perform user op
    let (answers, b) := b.performAll ops
    ((user, answer) :: answers, b)

/-- Two bots with the same rules, under which nothing is left to chance, and the same of one user. -/
structure Matching (user : String) (b b' : Bot) : Prop where
  certain : b.rules.Certain
  rules : b.rules = b'.rules
  macros : b.macros = b'.macros
  settings : b.settings = b'.settings
  existing : b.roster.existing? user = b'.roster.existing? user

namespace Matching

variable {b b' : Bot} {user other : String}

/-- Draws and turns do not count. -/
theorem redrawn (h : b.rules.Certain) (user : String) (draws : Nat → Draws) (turns : Nat) :
    Matching user b { b with draws, turns } :=
  ⟨h, rfl, rfl, rfl, rfl⟩

theorem user_eq (h : Matching user b b') : b.roster.user user = b'.roster.user user := by
  rw [Roster.user, Roster.user, h.existing]

theorem play_eq (h : Matching user b b') (message : String) :
    Turn.play b.scene (b.roster.user user) message = Turn.play b'.scene (b'.roster.user user) message := by
  have hscene : b'.scene = { b.scene with draws := b'.scene.draws } := by
    simp only [scene, h.rules, h.macros, h.settings]
  rw [Turn.play_of_certain (s := b.scene) h.certain b'.scene.draws, ← hscene, h.user_eq]

/-- Keeping the same of the user on both sides. -/
theorem keep (h : Matching user b b') (u : User) (turns turns' : Nat) :
    Matching user { b with roster := b.roster.keep user u, turns }
      { b' with roster := b'.roster.keep user u, turns := turns' } :=
  ⟨h.certain, h.rules, h.macros, h.settings, by rw [Roster.existing?_keep, Roster.existing?_keep, if_pos rfl, if_pos rfl]⟩

/-- Keeping something of another user on one side. -/
theorem keep_other (h : Matching user b b') (hother : user ≠ other) (u : User) (turns : Nat) :
    Matching user { b with roster := b.roster.keep other u, turns } b' :=
  ⟨h.certain, h.rules, h.macros, h.settings, by rw [Roster.existing?_keep, if_neg hother, h.existing]⟩

/-- The same operation of the user comes to the same on both sides. -/
theorem perform (h : Matching user b b') (op : Operation) :
    (b.perform user op).1 = (b'.perform user op).1 ∧ Matching user (b.perform user op).2 (b'.perform user op).2 := by
  have hwrite : ∀ vars, Matching user (b.setUservars user vars) (b'.setUservars user vars) := by
    intro vars
    rw [setUservars, setUservars, h.user_eq]
    exact h.keep _ b.turns b'.turns
  cases op with
  | reply message =>
    simp only [Bot.perform, Bot.reply, h.play_eq message]
    exact ⟨trivial, h.keep _ _ _⟩
  | setUservar name value => exact ⟨rfl, hwrite [(name, value)]⟩
  | setUservars vars => exact ⟨rfl, hwrite vars⟩
  | uservar name => exact ⟨by simp only [Bot.perform, uservar, h.existing], h⟩
  | uservars => exact ⟨by simp only [Bot.perform, uservars?, h.existing], h⟩
  | history => exact ⟨by simp only [Bot.perform, history?, h.existing], h⟩
  | lastMatch => exact ⟨by simp only [Bot.perform, lastMatch?, h.existing], h⟩

/-- What is done in the name of another user does not matter. -/
theorem perform_other (h : Matching user b b') (hother : user ≠ other) (op : Operation) :
    Matching user (b.perform other op).2 b' := by
  cases op with
  | reply message => exact h.keep_other hother _ _
  | setUservar name value => exact h.keep_other hother _ b.turns
  | setUservars vars => exact h.keep_other hother _ b.turns
  | uservar | uservars | history | lastMatch => exact h

/-- In an interleaving the user's operations come to what they come to alone. -/
theorem performAll (h : Matching user b b') (ops : List (String × Operation)) :
    (b.performAll ops).1.filter (·.1 = user) = (b'.performAll (ops.filter (·.1 = user))).1 ∧
      Matching user (b.performAll ops).2 (b'.performAll (ops.filter (·.1 = user))).2 := by
  induction ops generalizing b b' with
  | nil => exact ⟨rfl, h⟩
  | cons entry ops ih =>
    obtain ⟨id, op⟩ := entry
    by_cases hid : id = user
    · subst hid
      obtain ⟨hanswer, hnext⟩ := h.perform op
      obtain ⟨hanswers, hlast⟩ := ih hnext
      simp only [Bot.performAll, List.filter_cons, decide_true, if_true, hanswer, hanswers]
      exact ⟨trivial, hlast⟩
    · obtain ⟨hanswers, hlast⟩ := ih (h.perform_other (Ne.symm hid) op)
      simp only [Bot.performAll, List.filter_cons, hid, decide_false, Bool.false_eq_true, if_false, hanswers]
      exact ⟨trivial, hlast⟩

end Matching

theorem perform_of_isQuery (b : Bot) (user : String) {op : Operation} (h : op.isQuery = true) :
    (b.perform user op).2 = b := by
  cases op with
  | reply | setUservar | setUservars => cases h
  | uservar | uservars | history | lastMatch => rfl

/-- Without the queries the bot ends up the same. -/
theorem performAll_without_queries (b : Bot) (ops : List (String × Operation)) :
    (b.performAll ops).2 = (b.performAll (ops.filter (!·.2.isQuery))).2 := by
  induction ops generalizing b with
  | nil => rfl
  | cons entry ops ih =>
    obtain ⟨user, op⟩ := entry
    by_cases hquery : op.isQuery = true
    · simp only [performAll, List.filter_cons, hquery, Bool.not_true, Bool.false_eq_true, if_false]
      rw [perform_of_isQuery b user hquery, ih]
    · simp only [Bool.not_eq_true] at hquery
      simp only [performAll, List.filter_cons, hquery, Bool.not_false, if_true]
      exact ih _

/-- On rules that leave nothing to chance, every user gets the answers and ends up in the state that its own
operations lead to, on any bot with the same rules; and the bot ends up as if nobody had asked. -/
theorem users_isolated {b b' : Bot} (user : String) (h : Matching user b b') (ops : List (String × Operation)) :
    (b.performAll ops).1.filter (·.1 = user) = (b'.performAll (ops.filter (·.1 = user))).1 ∧
      (b.performAll ops).2.roster.existing? user = (b'.performAll (ops.filter (·.1 = user))).2.roster.existing? user ∧
      (b.performAll ops).2 = (b.performAll (ops.filter (!·.2.isQuery))).2 := by
  obtain ⟨hanswers, hlast⟩ := h.performAll ops
  exact ⟨hanswers, hlast.existing, b.performAll_without_queries ops⟩

/-- Two users who tell their names in turn, the second one asked for it before. -/
theorem users_isolated_two_names :
    let text := "+ *\n* <get name> != undefined => Hello <get name>\n- \x7brandom\x7dHi\x7b/random\x7d<set name=<star>>"
    let ops := [("a", Operation.reply "ann"), ("b", .uservar "name"), ("b", .reply "bob"), ("a", .reply "eve")]
    ∃ b₀, Bot.new {} = .ok b₀ ∧
      let b := (b₀.load {} (.text "a" text)).1
      let b' := { b with draws := .ofSeed 7, turns := 3 }
      ((b.performAll ops).2.uservar "a" "name" = "ann" ∧ (b.performAll ops).2.uservar "b" "name" = "bob") ∧
      Matching "a" b b' ∧
      (b.performAll ops).1.filter (·.1 = "a") = (b'.performAll (ops.filter (·.1 = "a"))).1 ∧
      (b.performAll ops).2.roster.existing? "a" = (b'.performAll (ops.filter (·.1 = "a"))).2.roster.existing? "a" ∧
      (b.performAll ops).2 = (b.performAll (ops.filter (!·.2.isQuery))).2 := by
  intro text ops
  obtain ⟨b₀, hnew, hcertain, hnames⟩ : ∃ b₀, Bot.new {} = .ok b₀ ∧
      (b₀.load {} (.text "a" text)).1.rules.Certain ∧
      (((b₀.load {} (.text "a" text)).1.performAll ops).2.uservar "a" "name" = "ann" ∧
        ((b₀.load {} (.text "a" text)).1.performAll ops).2.uservar "b" "name" = "bob") :=
    exists_ok_of_any (by decide +kernel)
  have hmatching := Matching.redrawn hcertain "a" (.ofSeed 7) 3
  exact ⟨b₀, hnew, hnames, hmatching, users_isolated "a" hmatching ops⟩

end Bot

end Repartee
