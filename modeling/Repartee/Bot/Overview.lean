/-
  Repartee.Bot.Overview — what a bot shows of its rules.
-/

import Repartee.Bot.Basic

namespace Repartee

/-- A trigger as written, with what ranks it. -/
structure TriggerOverview where
  pattern : String
  /-- The topic that declares it. -/
  topic : String
  previous : Option String
  replies : List String
  conditions : List String
  redirect : Option String
  weight : Nat
  category : Pattern.Category
  deriving DecidableEq, Repr

structure TopicOverview where
  name : String
  includes : List String
  inherits : List String
  /-- Its own triggers, in the order they were declared. -/
  triggers : List TriggerOverview
  deriving DecidableEq, Repr

namespace Catalog

def triggerOverview (c : Catalog) (t : Trigger) : TriggerOverview :=
  { pattern := t.pattern.text
    topic := c.topicName t.topic
    previous := t.previous.map (·.text)
    replies := t.replies.map (·.source)
    conditions := t.conditions.map (·.source)
    redirect := t.redirect.map (·.source)
    weight := t.pattern.weight
    category := t.pattern.category }

def triggerOverviews (c : Catalog) (ids : List TriggerId) : List TriggerOverview :=
  ids.filterMap fun id => c.triggers[id]?.map c.triggerOverview

def topicOverview (c : Catalog) (t : Topic) : TopicOverview :=
  { name := t.name
    includes := t.includes.map c.topicName
    inherits := t.inherits.map c.topicName
    triggers := c.triggerOverviews t.triggers }

end Catalog

namespace Bot

/-- All topics, in the order they were first named. -/
def topics (b : Bot) : List TopicOverview := b.rules.catalog.topics.toList.map b.rules.catalog.topicOverview

/-- The triggers of a topic in the order they are tried. -/
def sortedTriggers? (b : Bot) (topic : String) : Option (List TriggerOverview) :=
  (b.rules.ranking? topic).map fun r => b.rules.catalog.triggerOverviews (r.all.map (·.trigger))

def version? (b : Bot) : Option String := b.rules.version

end Bot

end Repartee
