/-
  Repartee.Proofs.Joined.Turns — a turn on rules that are alike.

  Of its rules a turn reads the variables, the lexicon, what rankings offer and what the trigger
  that answers holds. Numbers of topics and triggers serve to look these up and are never shown,
  but for the one in the report.

  Proved:
  - A search comes to what it comes to by what candidates are (`seen_searchIn`, `seen_find`).
  - A trigger and a redirect say the same on rules that are alike (`say_alike`, `follow_alike`).
  - So does a turn, and so does every turn of a conversation (`play_alike`, `converse_alike`).
-/

import Repartee.Bot.Basic
import Repartee.Proofs.Joined.Rulebooks
import Repartee.Proofs.Rendering

namespace Repartee

/-- The same scene, but for the numbers of topics and triggers. -/
structure Scene.Alike (s s' : Scene) : Prop where
  rules : s.rules.Alike s'.rules
  macros : s.macros = s'.macros
  settings : s.settings = s'.settings
  draws : s.draws = s'.draws

/-- What is reported of the trigger that answered, but for its number. -/
def Matched.unnumbered (m : Matched) : Matched := { m with trigger := 0 }

/-- The pattern of a candidate as written. -/
def Sight.patternText (s : Sight) : String := (s.trigger.map (·.pattern.text)).getD ""

namespace Turn

variable {s s' : Scene}

/-! ## Searching -/

/-- `searchIn` by what candidates are. -/
def searchSeen (lexicon : Lexicon) (ranking : SeenRanking) (depth : Nat) (text : String) : Act (Option SeenFinding) := do
  let user := (← get).user
  let words := lexicon.words text
  let lastReply := lexicon.words ((user.reply? 1).getD undefinedText)
  let finding := ranking.search words lastReply
  let step : Step :=
    { input := Text.spaced words
      topic := user.topic
      matched := finding.map (·.sight.patternText)
      tried := (finding.map (·.tried)).getD ranking.size
      depth }
  modify fun t => { t with steps := t.steps ++ [step], tried := t.tried + step.tried }
  return finding

/-- `find` by what candidates are. -/
def findSeen (lexicon : Lexicon) (ranking? : String → Option SeenRanking) (depth : Nat) (text : String) :
    Act (Option SeenFinding) := do
  let topic := (← get).user.topic
  match ranking? topic with
  | some ranking => searchSeen lexicon ranking depth text
  | none =>
    diagnose (.unknownTopic topic)
    editUser (·.setTopic homeTopic)
    match ranking? homeTopic with
    | some ranking => searchSeen lexicon ranking depth text
    | none => return none

theorem patternText_sight (r : Rulebook) (e : Candidate) : (r.catalog.sight e).patternText = r.patternText e.trigger := by
  rw [Sight.patternText, Catalog.sight, Rulebook.patternText, Option.map_map]
  rfl

theorem seen_searchIn (s : Scene) (ranking : Ranking) (depth : Nat) (text : String) :
    Option.map s.rules.catalog.seenFinding <$> searchIn s ranking depth text =
      searchSeen s.rules.lexicon (s.rules.catalog.seenRanking ranking) depth text := by
  have hpattern : (fun f : Finding => s.rules.patternText f.candidate.trigger) =
      (·.sight.patternText) ∘ s.rules.catalog.seenFinding := funext fun f => (patternText_sight s.rules f.candidate).symm
  have hsize : (s.rules.catalog.seenRanking ranking).size = ranking.size := by
    simp [SeenRanking.size, Ranking.size, Catalog.seenRanking]
  rw [searchIn, searchSeen]
  simp only [map_bind, map_pure, ← Catalog.seenFinding_search, Option.map_map, hpattern, hsize]
  rfl

theorem seen_find (s : Scene) (depth : Nat) (text : String) :
    Option.map s.rules.catalog.seenFinding <$> find s depth text =
      findSeen s.rules.lexicon (fun name => (s.rules.ranking? name).map s.rules.catalog.seenRanking) depth text := by
  rw [find, findSeen, map_bind]
  refine bind_congr fun t => ?_
  dsimp only
  cases s.rules.ranking? t.user.topic with
  | some ranking => exact seen_searchIn s ranking depth text
  | none =>
    simp only [map_bind]
    refine bind_congr fun _ => bind_congr fun _ => ?_
    cases s.rules.ranking? homeTopic with
    | some ranking => exact seen_searchIn s ranking depth text
    | none => rfl

theorem find_alike (h : s.Alike s') (depth : Nat) (text : String) :
    Option.map s.rules.catalog.seenFinding <$> find s depth text =
      Option.map s'.rules.catalog.seenFinding <$> find s' depth text := by
  rw [seen_find, seen_find, h.rules.lexicon, funext h.rules.rankings]

/-! ## Answering -/

theorem draw_alike (h : s.Alike s') (n : Nat) : draw s n = draw s' n := by
  rw [draw, draw, h.draws]

theorem pick_alike (h : s.Alike s') (replies : List Template) : pick s replies = pick s' replies := by
  rw [pick.eq_def, pick.eq_def]
  simp only [draw_alike h]

theorem prompts_of_alike (h : s.Alike s') : Prompts s s' := ⟨h.rules.vars, h.rules.globals, h.macros, h.settings⟩

theorem say_alike (h : s.Alike s') (redirect : String → Play String) (captures : Captures) (trigger : Trigger) :
    say s redirect captures trigger = say s' redirect captures trigger :=
  say_congr (P := fun _ => True) (prompts_of_alike h) (fun _ _ _ => draw_alike h _)
    (trigger.each_of_forall fun _ => trivial) (pick_alike h trigger.replies)

/-- `answer` by what the candidate is. -/
def answerSeen (s : Scene) (redirect : String → Play String) : Option SeenFinding → Play String
  | none => return s.settings.noMatchReply
  | some f =>
    match f.sight.trigger with
    | some trigger => say s redirect ⟨f.stars, f.botStars⟩ trigger
    | none => return s.settings.noMatchReply

theorem answer_eq (s : Scene) (redirect : String → Play String) (finding : Option Finding) :
    answer s redirect finding = answerSeen s redirect (finding.map s.rules.catalog.seenFinding) := by
  cases finding with
  | none => rfl
  | some f =>
    simp only [answer, answerSeen, Option.map_some, Catalog.seenFinding, Catalog.sight]
    cases s.rules.catalog.triggers[f.candidate.trigger]? with
    | none => rfl
    | some trigger => rfl

theorem answerSeen_alike (h : s.Alike s') (redirect : String → Play String) (finding : Option SeenFinding) :
    answerSeen s redirect finding = answerSeen s' redirect finding := by
  cases finding with
  | none => rw [answerSeen, answerSeen, h.settings]
  | some f => simp only [answerSeen, say_alike h, h.settings]

theorem bind_answer (s : Scene) (redirect : String → Play String) (found : Act (Option Finding)) :
    (liftM found >>= answer s redirect : Play String) =
      liftM (Option.map s.rules.catalog.seenFinding <$> found) >>= answerSeen s redirect := by
  rw [liftM_map, bind_map_left]
  exact bind_congr fun finding => answer_eq s redirect finding

theorem follow_alike (h : s.Alike s') (left : Nat) : follow s left = follow s' left := by
  induction left with
  | zero =>
    funext target
    rw [follow, follow, h.settings]
  | succ left ih =>
    funext target
    rw [follow, follow]
    refine bind_congr fun _ => ?_
    have hfind := find_alike h (s.settings.maxDepth - left) target
    change liftM _ >>= answer s _ = liftM _ >>= answer s' _
    rw [bind_answer, bind_answer, hfind, ih, h.settings]
    exact bind_congr fun finding => answerSeen_alike h _ finding

/-! ## Whole turns -/

/-- A report, but for the number of the trigger that answered. -/
def Report.unnumbered (r : Report) : Report := { r with matched := r.matched.map Matched.unnumbered }

/-- `matchedBy` by what the candidate is. -/
def matchedSeen (f : SeenFinding) : Matched :=
  { trigger := 0
    pattern := f.sight.patternText
    topic := f.sight.source
    stars := f.stars
    botStars := f.botStars
    usedPrevious := f.usedPrevious }

theorem unnumbered_matchedBy (r : Rulebook) (finding : Option Finding) :
    (finding.map (matchedBy r)).map Matched.unnumbered = (finding.map r.catalog.seenFinding).map matchedSeen := by
  cases finding with
  | none => rfl
  | some f =>
    simp only [Option.map_some, Matched.unnumbered, matchedBy, matchedSeen, Catalog.seenFinding, patternText_sight]
    rfl

theorem noteMatch_unnumbered (matched : Option Matched) (u : User) :
    noteMatch (matched.map Matched.unnumbered) u = noteMatch matched u := by
  cases matched <;> rfl

/-- Rules that are alike make the same of a turn. -/
theorem play_alike (h : s.Alike s') (user : User) (message : String) :
    (play s user message).1.unnumbered = (play s' user message).1.unnumbered ∧
      (play s user message).2 = (play s' user message).2 := by
  have hfind : (Option.map s.rules.catalog.seenFinding <$> find s 0 message).run { user } =
      (Option.map s'.rules.catalog.seenFinding <$> find s' 0 message).run { user } := by rw [find_alike h]
  rw [StateT.run_map, StateT.run_map] at hfind
  rw [play, play]
  generalize (find s 0 message).run { user } = found at hfind ⊢
  generalize (find s' 0 message).run { user } = found' at hfind ⊢
  obtain ⟨finding, t⟩ := found
  obtain ⟨finding', t'⟩ := found'
  obtain ⟨hseen, rfl⟩ := Prod.mk.inj hfind
  have hanswer : answer s (follow s s.settings.maxDepth) finding =
      answer s' (follow s' s'.settings.maxDepth) finding' := by
    rw [answer_eq, answer_eq, hseen, follow_alike h, h.settings, answerSeen_alike h]
  have hmatched : (finding.map (matchedBy s.rules)).map Matched.unnumbered =
      (finding'.map (matchedBy s'.rules)).map Matched.unnumbered := by
    rw [unnumbered_matchedBy, unnumbered_matchedBy, hseen]
  have hnote : noteMatch (finding.map (matchedBy s.rules)) = noteMatch (finding'.map (matchedBy s'.rules)) := by
    funext u
    rw [← noteMatch_unnumbered, hmatched, noteMatch_unnumbered]
  dsimp only
  rw [hanswer, h.settings, hnote]
  generalize (answer s' (follow s' s'.settings.maxDepth) finding').run t = ended
  obtain ⟨result, t⟩ := ended
  refine ⟨?_, rfl⟩
  simp only [Report.unnumbered, hmatched]

end Turn

namespace Bot

/-- What is reported of the messages of a conversation, each of some user. -/
def converse (b : Bot) : List (String × String) → List Turn.Report
  | [] => []
  | (user, message) :: rest => (b.reply user message).1 :: converse (b.reply user message).2 rest

/-- A bot reports the same of a conversation on rules that are alike. -/
theorem converse_alike {r r' : Rulebook} (h : r.Alike r') (b : Bot) (messages : List (String × String)) :
    (converse { b with rules := r } messages).map Turn.Report.unnumbered =
      (converse { b with rules := r' } messages).map Turn.Report.unnumbered := by
  induction messages generalizing b with
  | nil => rfl
  | cons head rest ih =>
    obtain ⟨user, message⟩ := head
    have hscene : Scene.Alike (scene { b with rules := r }) (scene { b with rules := r' }) := ⟨h, rfl, rfl, rfl⟩
    obtain ⟨hreport, huser⟩ := Turn.play_alike hscene (b.roster.user user) message
    have hrest := ih { b with
      roster := b.roster.keep user (Turn.play (scene { b with rules := r }) (b.roster.user user) message).2
      turns := b.turns + 1 }
    rw [converse, converse, List.map_cons, List.map_cons]
    refine congrArg₂ List.cons hreport ?_
    rw [reply, reply]
    dsimp only
    rw [← huser]
    exact hrest

end Bot

end Repartee
