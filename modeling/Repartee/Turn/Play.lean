/-
  Repartee.Turn.Play — playing a turn.

  The message is matched in the user's topic, or in the home topic if the user's is unknown.
  The trigger that answers follows its redirect if it has one; otherwise its first condition
  that holds is said, otherwise one of its replies, picked by weight. A redirect is answered
  the same way with one redirect less to go; when none is left the turn ends.
-/

import Repartee.Turn.Render

namespace Repartee

namespace Turn

/-! ## Searching -/

/-- Search the ranking of a topic for the words of a text. -/
def searchIn (s : Scene) (ranking : Ranking) (depth : Nat) (text : String) : Act (Option Finding) := do
  let user := (← get).user
  let words := s.rules.lexicon.words text
  let lastReply := s.rules.lexicon.words ((user.reply? 1).getD undefinedText)
  let finding := s.rules.catalog.search ranking words lastReply
  let step : Step :=
    { input := Text.spaced words
      topic := user.topic
      matched := finding.map fun f => s.rules.patternText f.candidate.trigger
      tried := (finding.map (·.tried)).getD ranking.size
      depth }
  modify fun t => { t with steps := t.steps ++ [step], tried := t.tried + step.tried }
  return finding

/-- Search the user's topic. A topic that does not exist sends the user home. -/
def find (s : Scene) (depth : Nat) (text : String) : Act (Option Finding) := do
  let topic := (← get).user.topic
  match s.rules.ranking? topic with
  | some ranking => searchIn s ranking depth text
  | none =>
    diagnose (.unknownTopic topic)
    editUser (·.setTopic homeTopic)
    match s.rules.ranking? homeTopic with
    | some ranking => searchIn s ranking depth text
    | none => return none

/-! ## Answering -/

/-- The weight of a reply among the others; none counts as one. -/
def share (t : Template) : Nat := max t.weight 1

/-- One of the replies, picked by weight. A single one needs no draw. -/
def pick (s : Scene) : List Template → Act (Option Template)
  | [] => return none
  | [reply] => return some reply
  | replies => do
    let draw ← draw s (totalShare (replies.map share))
    return (shareOf (replies.map share) draw).bind (replies[·]?)

/-- The body of the first condition that holds. -/
def firstHolding (s : Scene) (redirect : String → Play String) (captures : Captures) :
    List Condition → Play (Option Template)
  | [] => return none
  | c :: cs => do
    let left ← render s redirect captures c.left
    let right ← render s redirect captures c.right
    if c.comparison.holds left right then return some c.body
    else firstHolding s redirect captures cs

/-- What a trigger says; `redirect` answers the redirects in it. -/
def say (s : Scene) (redirect : String → Play String) (captures : Captures) (trigger : Trigger) :
    Play String :=
  match trigger.redirect with
  | some target => do
    let target ← render s redirect captures target
    redirect (Text.trimmed target)
  | none => do
    match ← firstHolding s redirect captures trigger.conditions with
    | some body => render s redirect captures body
    | none =>
      match ← pick s trigger.replies with
      | some reply => render s redirect captures reply
      | none => return s.settings.noReplyFound

/-- What is said to a finding. -/
def answer (s : Scene) (redirect : String → Play String) : Option Finding → Play String
  | none => return s.settings.noMatchReply
  | some f =>
    match s.rules.catalog.triggers[f.candidate.trigger]? with
    | some trigger => say s redirect ⟨f.stars, f.botStars⟩ trigger
    | none => return s.settings.noMatchReply

/-- Answer the target of a redirect, with so many redirects left. -/
def follow (s : Scene) : Nat → String → Play String
  | 0, _ => do
    diagnose (.redirectTooDeep s.settings.maxDepth)
    throw .tooDeep
  | left + 1, target => do
    modify fun t => { t with redirects := t.redirects ++ [target] }
    let finding ← find s (s.settings.maxDepth - left) target
    answer s (follow s left) finding

def matchedBy (r : Rulebook) (f : Finding) : Matched :=
  { trigger := f.candidate.trigger
    pattern := r.patternText f.candidate.trigger
    topic := r.catalog.topicName f.candidate.source
    stars := f.stars
    botStars := f.botStars
    usedPrevious := f.usedPrevious }

/-! ## The whole turn -/

/-- What a turn did. -/
structure Report where
  message : String
  reply : String
  /-- The user's topic after the turn. -/
  topic : String
  matched : Option Matched
  redirects : List String
  diagnostics : List Diagnostic
  aborted : Bool
  steps : List Step
  /-- How many candidates all searches tried. -/
  tried : Nat
  deriving DecidableEq, Repr

/-- Note the pattern that answered, or that none did. -/
def noteMatch (matched : Option Matched) (u : User) : User :=
  match matched with
  | some m => u.set lastMatchVariable m.pattern
  | none => u.delete lastMatchVariable

/-- Answer a message of a user. -/
def play (s : Scene) (user : User) (message : String) : Report × User :=
  let (finding, t) := (find s 0 message).run { user }
  let (result, t) := (answer s (follow s s.settings.maxDepth) finding).run t
  let (reply, aborted) := match result with
    | .ok reply => (reply, false)
    | .error _ => (s.settings.deepRecursionReply, true)
  let matched := finding.map (matchedBy s.rules)
  let user := (noteMatch matched t.user).record message reply
  ({ message, reply, topic := user.topic, matched, redirects := t.redirects,
     diagnostics := t.diagnostics, aborted, steps := t.steps, tried := t.tried }, user)

end Turn

end Repartee
