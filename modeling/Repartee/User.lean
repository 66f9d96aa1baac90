/-
  Repartee.User — what the bot remembers about a user.

  Variables are texts by name; the topic is one of them. Writing `<undef>` to a variable
  erases it. The last nine messages and replies are kept, latest first; a slot that no turn has
  filled yet reads `undefined`. A roster holds the users by their ids and creates one the first
  time it is addressed.
-/

import Repartee.Dict
import Repartee.Reserved

namespace Repartee

/-- How many turns are remembered. -/
def historySize : Nat := 9

structure History where
  /-- Latest first. -/
  entries : List String
  size_eq : entries.length = historySize := by rfl
  deriving DecidableEq, Repr

namespace History

def empty : History := { entries := List.replicate historySize undefinedText }

/-- Put a text in front; the oldest one is forgotten. -/
def push (h : History) (text : String) : History :=
  { entries := (text :: h.entries).take historySize
    size_eq := by simp [h.size_eq, historySize] }

/-- The entry at an index from 1 to 9. -/
def get? (h : History) : Nat → Option String
  | 0 => none
  | i + 1 => h.entries[i]?

end History

structure User where
  id : String
  vars : Dict String
  inputs : History := .empty
  replies : History := .empty
  deriving DecidableEq, Repr

namespace User

/-- A user that is seen for the first time. -/
def new (id : String) : User := { id, vars := Dict.put ∅ topicVariable homeTopic }

def get (u : User) (name : String) : String := (u.vars.find? name).getD undefinedText

def delete (u : User) (name : String) : User := { u with vars := u.vars.erase name }

def set (u : User) (name value : String) : User :=
  if value = erasingValue then u.delete name else { u with vars := u.vars.put name value }

def topic (u : User) : String := (u.vars.find? topicVariable).getD homeTopic

/-- Any text can be a topic, also one that would erase a variable. -/
def setTopic (u : User) (topic : String) : User := { u with vars := u.vars.put topicVariable topic }

def lastMatch (u : User) : String := u.get lastMatchVariable

def input? (u : User) (index : Nat) : Option String := u.inputs.get? index

def reply? (u : User) (index : Nat) : Option String := u.replies.get? index

/-- Remember a turn. -/
def record (u : User) (message reply : String) : User :=
  { u with inputs := u.inputs.push message, replies := u.replies.push reply }

end User

structure Roster where
  users : Dict User := ∅
  deriving DecidableEq, Repr

namespace Roster

/-- A user that has been seen. -/
def existing? (r : Roster) (id : String) : Option User := r.users.find? id

/-- A user by its id, new if it has not been seen. -/
def user (r : Roster) (id : String) : User := (r.existing? id).getD (.new id)

/-- Keep a user where the one of an id is kept. -/
def keep (r : Roster) (id : String) (u : User) : Roster := { users := r.users.put id u }

def store (r : Roster) (u : User) : Roster := r.keep u.id u

/-- The ids of all users, in ascending order. -/
def ids (r : Roster) : List String := r.users.keys

theorem existing?_keep (r : Roster) (id other : String) (u : User) :
    (r.keep id u).existing? other = if other = id then some u else r.existing? other :=
  Dict.find?_put r.users id other u

theorem user_keep (r : Roster) (id other : String) (u : User) :
    (r.keep id u).user other = if other = id then u else r.user other := by
  rw [user, existing?_keep]
  split
  · rfl
  · rfl

end Roster

end Repartee
