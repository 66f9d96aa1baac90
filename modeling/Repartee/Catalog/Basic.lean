/-
  Repartee.Catalog.Basic — topics and the triggers they hold.

  Topics and triggers are numbered in the order they come in, and refer to each other by
  number. A topic can include others, whose triggers rank with its own, and inherit others,
  whose triggers come after. A trigger is known within its topic by its pattern and its `%`
  line as written; a second one with the same key adds its replies and conditions to the first,
  and its redirect replaces the first one's.
-/

import Repartee.Pattern.Basic
import Repartee.Template.Basic

namespace Repartee

abbrev TopicId := Nat

abbrev TriggerId := Nat

/-- A compiled trigger and everything it can answer with. -/
structure Trigger where
  pattern : Pattern
  previous : Option Pattern := none
  replies : List Template := []
  conditions : List Condition := []
  redirect : Option Template := none
  /-- The topic that declares it. -/
  topic : TopicId := 0
  deriving Repr

namespace Trigger

/-- What tells the triggers of a topic apart. -/
def key (t : Trigger) : String × Option String := (t.pattern.text, t.previous.map (·.text))

/-- A trigger that takes in another one of the same key. -/
def merge (t other : Trigger) : Trigger :=
  { t with
    replies := t.replies ++ other.replies
    conditions := t.conditions ++ other.conditions
    redirect := other.redirect <|> t.redirect }

end Trigger

structure Topic where
  name : String
  /-- Its own triggers, in the order they were first declared. -/
  triggers : List TriggerId := []
  includes : List TopicId := []
  inherits : List TopicId := []
  deriving DecidableEq, Repr, Inhabited

structure Catalog where
  topics : Array Topic := #[]
  triggers : Array Trigger := #[]
  deriving Repr, Inhabited

namespace Catalog

def topicId? (c : Catalog) (name : String) : Option TopicId := c.topics.findIdx? (·.name = name)

/-- The topic of a name, added at the end if there is none. -/
def addTopic (c : Catalog) (name : String) : Catalog × TopicId :=
  match c.topicId? name with
  | some t => (c, t)
  | none => ({ c with topics := c.topics.push { name } }, c.topics.size)

/-- The trigger of a topic that has the given key. -/
def triggerWithKey? (c : Catalog) (t : TopicId) (key : String × Option String) : Option TriggerId :=
  (c.topics[t]?.map (·.triggers)).getD [] |>.find? fun id => c.triggers[id]?.any (·.key = key)

/-- Add a trigger to a topic; the number is that of the trigger which now holds it. -/
def addTrigger (c : Catalog) (t : TopicId) (trigger : Trigger) : Catalog × TriggerId :=
  match c.triggerWithKey? t trigger.key with
  | some id => ({ c with triggers := c.triggers.modify id (·.merge trigger) }, id)
  | none =>
    let id := c.triggers.size
    ({ topics := c.topics.modify t fun topic => { topic with triggers := topic.triggers ++ [id] }
       triggers := c.triggers.push { trigger with topic := t } }, id)

def pushUnique (ids : List TopicId) (id : TopicId) : List TopicId :=
  if ids.contains id then ids else ids ++ [id]

def addInclude (c : Catalog) (t other : TopicId) : Catalog :=
  { c with topics := c.topics.modify t fun topic => { topic with includes := pushUnique topic.includes other } }

def addInherit (c : Catalog) (t other : TopicId) : Catalog :=
  { c with topics := c.topics.modify t fun topic => { topic with inherits := pushUnique topic.inherits other } }

def topicName (c : Catalog) (t : TopicId) : String := (c.topics[t]?.map (·.name)).getD ""

def ownTriggers (c : Catalog) (t : TopicId) : List TriggerId := (c.topics[t]?.map (·.triggers)).getD []

def includesOf (c : Catalog) (t : TopicId) : List TopicId := (c.topics[t]?.map (·.includes)).getD []

def inheritsOf (c : Catalog) (t : TopicId) : List TopicId := (c.topics[t]?.map (·.inherits)).getD []

end Catalog

end Repartee
