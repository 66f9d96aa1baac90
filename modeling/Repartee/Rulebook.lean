/-
  Repartee.Rulebook — the rules of all loaded scripts, compiled.

  Scripts are merged in load order. A later definition overrides an earlier one of its name,
  and the value `<undef>` takes one back. Arrays and substitutions are merged before any
  trigger is compiled, so a trigger can use those of a later script. The catalog always has
  the home topic, and every topic has its ranking.
-/

import Repartee.Catalog.Search
import Repartee.LoadError
import Repartee.Pattern.Reader
import Repartee.Settings.Basic
import Repartee.Template.Reader

namespace Repartee

structure Rulebook where
  catalog : Catalog
  /-- The ranking of each topic, by its number. -/
  rankings : Array Ranking
  lexicon : Lexicon
  /-- What `<bot>` reads. -/
  vars : Dict String := ∅
  /-- What `<env>` reads. -/
  globals : Dict String := ∅
  arrays : Dict (List String) := ∅
  version : Option String := none

namespace Rulebook

/-! ## Definitions -/

/-- Apply definitions in order. -/
def define (d : Dict String) (definitions : List (String × String)) : Dict String :=
  definitions.foldl (fun d (name, value) => if value = erasingValue then d.erase name else d.put name value) d

/-- Merge one kind of definition over all scripts. -/
def merged (scripts : List Script) (part : Script → List (String × String)) : Dict String :=
  scripts.foldl (fun d s => define d (part s)) ∅

/-- The substitutions of the scripts, and on top of them those of the settings. -/
def substitutions (settings : Settings) (scripts : List Script) : Dict String :=
  settings.substitutions.entries.foldl (fun d (key, value) => d.put (Text.lowercase key) value)
    (merged scripts Script.subs)

def arraysOf (scripts : List Script) : Dict (List String) :=
  scripts.foldl (fun d s => d.putAll s.arrays) ∅

/-- The version that the last script with one declares. -/
def versionOf (scripts : List Script) : Option String :=
  scripts.foldl (fun v s => s.version <|> v) none

/-! ## Topics and triggers -/

/-- Name the line of a script that has a fault. -/
def atLine {α : Type} (origin : String) (l : Line) (result : Except RuleFault α) : Except LoadError α :=
  result.mapError (.rule origin l.number)

def compilePattern (scope : Pattern.Scope) (origin : String) (l : Line) : Except LoadError Pattern :=
  atLine origin l (Pattern.compile scope l.text)

def compileReply (origin : String) (l : Line) : Except LoadError Template :=
  atLine origin l (Template.read l.text)

def compileCondition (origin : String) (l : Line) : Except LoadError Condition :=
  atLine origin l (Condition.read l.text)

def compileTrigger (scope : Pattern.Scope) (origin : String) (t : Script.Trigger) :
    Except LoadError Trigger := do
  let pattern ← compilePattern scope origin t.pattern
  let previous ← t.previous.mapM (compilePattern scope origin)
  let replies ← t.replies.mapM (compileReply origin)
  let conditions ← t.conditions.mapM (compileCondition origin)
  let redirect ← t.redirect.mapM (compileReply origin)
  .ok { pattern, previous, replies, conditions, redirect }

/-- Add edges from a topic to others by name; new names become topics. -/
def addEdges (add : Catalog → TopicId → TopicId → Catalog) (t : TopicId) (c : Catalog)
    (names : List String) : Catalog :=
  names.foldl (fun c name => let (c, other) := c.addTopic name; add c t other) c

def addTriggers (scope : Pattern.Scope) (origin : String) (t : TopicId) (c : Catalog)
    (triggers : List Script.Trigger) : Except LoadError Catalog :=
  triggers.foldlM (fun c trigger => do
    let compiled ← compileTrigger scope origin trigger
    .ok (c.addTrigger t compiled).1) c

def addTopic (scope : Pattern.Scope) (origin : String) (c : Catalog) (topic : Script.Topic) :
    Except LoadError Catalog :=
  let (c, t) := c.addTopic topic.name
  let c := addEdges Catalog.addInclude t c topic.includes
  let c := addEdges Catalog.addInherit t c topic.inherits
  addTriggers scope origin t c topic.triggers

/-- A catalog with nothing but the home topic. -/
def homeCatalog : Catalog := (({} : Catalog).addTopic homeTopic).1

def catalogOf (scope : Pattern.Scope) (scripts : List Script) : Except LoadError Catalog :=
  scripts.foldlM (fun c s => s.topics.foldlM (addTopic scope s.origin) c) homeCatalog

def rankAll (c : Catalog) : Array Ranking :=
  (Array.range c.topics.size).map fun t => c.rank (c.reach t)

/-- Compile scripts, in load order. -/
def build (punctuation : Regex) (settings : Settings) (scripts : List Script) :
    Except LoadError Rulebook := do
  let lexicon := Lexicon.ofPairs punctuation (substitutions settings scripts).entries
  let arrays := arraysOf scripts
  let catalog ← catalogOf { arrays, lexicon } scripts
  .ok {
    catalog
    rankings := rankAll catalog
    lexicon
    vars := merged scripts Script.vars
    globals := merged scripts Script.globals
    arrays
    version := versionOf scripts }

/-- The rulebook before anything is loaded. -/
def empty (punctuation : Regex) (settings : Settings) : Rulebook :=
  { catalog := homeCatalog
    rankings := rankAll homeCatalog
    lexicon := Lexicon.ofPairs punctuation settings.substitutions.entries }

def ranking? (r : Rulebook) (topic : String) : Option Ranking := do
  let t ← r.catalog.topicId? topic
  r.rankings[t]?

/-- The pattern of a trigger as written. -/
def patternText (r : Rulebook) (t : TriggerId) : String :=
  (r.catalog.triggers[t]?.map (·.pattern.text)).getD ""

end Rulebook

end Repartee
