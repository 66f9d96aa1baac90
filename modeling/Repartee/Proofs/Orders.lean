/-
  Repartee.Proofs.Orders — what a command asks of a reader.

  The mark and the body of a command say what is to be done, whichever reader it comes to. The
  reader decides only whether it does so: inside a begin block it passes over all but `>` and `<`,
  and a strict reader refuses what is odd.

  Proved:
  - To act on a command is to carry out its order (`act_eq`).
  - Mode and waiting command make no difference to it (`act_turnTo`), and no command waits but what
    waited before (`act_pending`).
-/

import Repartee.Script.Reader

namespace Repartee.Script

open Text

/-- What is to be done. -/
inductive Order where
  | version (value : String)
  | joiner (joiner : Joiner)
  | global (name value : String)
  | var (name value : String)
  | sub (name value : String)
  | array (name : String) (items : List String)
  | openTopic (name : String) (header : List String)
  | openObject (name language : String)
  | openBegin
  | closeTopic
  | closeBegin
  | trigger (text : String)
  | attachment (mark : Char) (text : String)
  /-- Refused by every reader. -/
  | impossible (fault : Fault)
  /-- Refused by a strict reader, and passed over by others. -/
  | odd (fault : Fault)

namespace Reader

def definitionOf (body : List Char) : Order :=
  let (kindChars, rest) := (cutOnce Unicode.isBlank body).getD (body, [])
  let (nameChars, valueChars) := nameAndValue rest
  let kind := String.ofList kindChars
  let name := String.ofList nameChars
  let value := String.ofList valueChars
  if kind = "version" then .version value
  else if kind = "local" then
    match joinerNamed? name value with
    | some joiner => .joiner joiner
    | none => .odd (.unknownLocal name value)
  else if kind = "global" then .global name value
  else if kind = "var" then .var name value
  else if kind = "sub" then .sub (lowercase name) value
  else if kind = "array" then .array name (arrayItems valueChars)
  else .odd (.unknownDefinition kind)

def openingOf (body : List Char) : Order :=
  match (words body).map String.ofList with
  | "topic" :: header =>
    match header with
    | [] => .impossible .unnamedTopic
    | name :: edges => .openTopic name edges
  | "object" :: header =>
    match header with
    | name :: language :: _ => .openObject name (lowercase language)
    | _ => .impossible .incompleteObject
  | "begin" :: _ => .openBegin
  | kind => .odd (.unknownBlock (kind.headD ""))

def closingOf (body : List Char) : Order :=
  match (words body).map String.ofList with
  | "topic" :: _ => .closeTopic
  | "begin" :: _ => .closeBegin
  | kind => .odd (.unexpectedClose (kind.headD ""))

def orderOf (c : Command) : Order :=
  if c.mark = '!' then definitionOf c.body
  else if c.mark = '>' then openingOf c.body
  else if c.mark = '<' then closingOf c.body
  else if c.mark = '+' then if c.body.isEmpty then .impossible .emptyTrigger else .trigger (.ofList c.body)
  else if isAttachment c.mark then .attachment c.mark (.ofList c.body)
  else .odd (.unknownCommand c.mark)

def carryOut (r : Reader) (line : Nat) : Order → Except SyntaxError Reader
  | .version value => .ok { r with script := { r.script with version := some value } }
  | .joiner joiner => .ok { r with joiner }
  | .global name value => .ok { r with script := { r.script with globals := r.script.globals ++ [(name, value)] } }
  | .var name value => .ok { r with script := { r.script with vars := r.script.vars ++ [(name, value)] } }
  | .sub name value => .ok { r with script := { r.script with subs := r.script.subs ++ [(name, value)] } }
  | .array name items => .ok { r with script := { r.script with arrays := r.script.arrays ++ [(name, items)] } }
  | .openTopic name header => r.openTopic name header line
  | .openObject name language => .ok { r with mode := .object { name, language, code := "", line } }
  | .openBegin => .ok { r with inBegin := true }
  | .closeTopic => .ok { r with current := 0 }
  | .closeBegin => .ok { r with inBegin := false }
  | .trigger text =>
    .ok (r.editTopic r.current fun t => { t with triggers := t.triggers ++ [{ pattern := ⟨text, line⟩ }] })
  | .attachment mark text =>
    if r.currentTopic.triggers.isEmpty then .error ⟨line, .outsideTrigger mark⟩
    else .ok (r.editTopic r.current fun t => { t with triggers := editLast (attach mark ⟨text, line⟩) t.triggers })
  | .impossible fault => .error ⟨line, fault⟩
  | .odd fault => r.complain line fault

theorem define_eq (r : Reader) (body : List Char) (line : Nat) :
    r.define body line = r.carryOut line (definitionOf body) := by
  simp only [define, definitionOf]
  generalize joinerNamed? _ _ = joiner
  cases joiner with
  | none =>
    simp only [apply_ite (r.carryOut line)]
    rfl
  | some joiner =>
    simp only [apply_ite (r.carryOut line)]
    rfl

theorem openBlock_eq (r : Reader) (body : List Char) (line : Nat) :
    r.openBlock body line = r.carryOut line (openingOf body) := by
  rw [openBlock, openingOf]
  cases (words body).map String.ofList with
  | nil => rfl
  | cons kind header =>
    by_cases htopic : kind = "topic"
    · subst htopic
      cases header with
      | nil => rfl
      | cons name edges => rfl
    · by_cases hobject : kind = "object"
      · subst hobject
        rcases header with _ | ⟨name, _ | ⟨language, rest⟩⟩
        · rfl
        · rfl
        · rfl
      · by_cases hbegin : kind = "begin"
        · rw [hbegin]
          rfl
        · simp [htopic, hobject, hbegin, carryOut]

theorem closeBlock_eq (r : Reader) (body : List Char) (line : Nat) :
    r.closeBlock body line = r.carryOut line (closingOf body) := by
  rw [closeBlock, closingOf]
  cases (words body).map String.ofList with
  | nil => rfl
  | cons kind header =>
    by_cases htopic : kind = "topic"
    · rw [htopic]
      rfl
    · by_cases hbegin : kind = "begin"
      · rw [hbegin]
        rfl
      · simp [htopic, hbegin, carryOut]

/-- Whether the reader passes over commands of this mark. -/
def passesOver (r : Reader) (mark : Char) : Bool := r.inBegin && mark ≠ '<' && mark ≠ '>'

theorem act_eq (r : Reader) (c : Command) :
    r.act c = if r.passesOver c.mark then .ok r else r.carryOut c.line (orderOf c) := by
  simp only [act, passesOver, orderOf, define_eq, openBlock_eq, closeBlock_eq, apply_ite (r.carryOut c.line)]
  rfl

/-- Go on in the topic at an index, as its header leaves it; a stray word in the header keeps the reader
where it is. -/
def goOn (r : Reader) (index line : Nat) : Topic × Option String → Except SyntaxError Reader
  | (topic, some word) => (r.editTopic index fun _ => topic).complain line (.strayHeaderWord word)
  | (topic, none) => .ok { r.editTopic index fun _ => topic with current := index }

theorem openTopic_eq (r : Reader) (name : String) (header : List String) (line : Nat) :
    r.openTopic name header line =
      let located := r.locate (lowercase name) line
      located.1.goOn located.2 line (readEdges (located.1.script.topics.getD located.2 default) none header) := by
  simp only [openTopic]
  generalize readEdges _ none header = found
  obtain ⟨topic, _ | word⟩ := found
  · rfl
  · rfl

theorem complain_eq_ok {r r' : Reader} {line : Nat} {fault : Fault} :
    r.complain line fault = .ok r' ↔ r.strict = false ∧ r' = r := by
  rw [complain]
  cases r.strict with
  | true => exact ⟨nofun, nofun⟩
  | false => exact ⟨fun h => ⟨rfl, (Except.ok.inj h).symm⟩, fun h => congrArg Except.ok h.2.symm⟩

/-! ## What orders leave alone -/

/-- The reader in another mode, with another command waiting. -/
def turnTo (r : Reader) (mode : Mode) (pending : Option Command) : Reader := { r with mode, pending }

section Turned

variable (r : Reader) (m : Mode) (p : Option Command) (line : Nat)

theorem complain_turnTo (fault : Fault) :
    (r.turnTo m p).complain line fault = (r.complain line fault).map (·.turnTo m p) := by
  rw [complain, complain]
  change (if r.strict = true then _ else _) = _
  by_cases h : r.strict = true
  · rw [if_pos h, if_pos h]
    rfl
  · rw [if_neg h, if_neg h]
    rfl

theorem locate_turnTo (name : String) :
    (r.turnTo m p).locate name line = ((r.locate name line).1.turnTo m p, (r.locate name line).2) := by
  have hscript : (r.turnTo m p).script = r.script := rfl
  rw [locate, locate, hscript]
  cases r.script.topics.findIdx? (·.name = name) with
  | some index => rfl
  | none => rfl

theorem goOn_turnTo (index : Nat) (found : Topic × Option String) :
    (r.turnTo m p).goOn index line found = (r.goOn index line found).map (·.turnTo m p) := by
  obtain ⟨topic, _ | word⟩ := found
  · rfl
  · exact complain_turnTo (r.editTopic index fun _ => topic) m p line (.strayHeaderWord word)

theorem openTopic_turnTo (name : String) (header : List String) :
    (r.turnTo m p).openTopic name header line = (r.openTopic name header line).map (·.turnTo m p) := by
  rw [openTopic_eq, openTopic_eq, locate_turnTo]
  exact goOn_turnTo _ m p line _ _

/-- Orders but to open an object neither see nor change what a line is part of and what waits. -/
theorem carryOut_turnTo {o : Order} (h : ∀ name language, o ≠ .openObject name language) :
    (r.turnTo m p).carryOut line o = (r.carryOut line o).map (·.turnTo m p) := by
  cases o with
  | openObject name language => exact absurd rfl (h name language)
  | openTopic name header => exact openTopic_turnTo r m p line name header
  | attachment mark text =>
    rw [carryOut, carryOut]
    change (if r.currentTopic.triggers.isEmpty = true then _ else _) = _
    by_cases hnone : r.currentTopic.triggers.isEmpty = true
    · rw [if_pos hnone, if_pos hnone]
      rfl
    · rw [if_neg hnone, if_neg hnone]
      rfl
  | odd fault => exact complain_turnTo r m p line fault
  | _ => rfl

end Turned

theorem definitionOf_ne_openObject (body : List Char) (name language : String) :
    definitionOf body ≠ .openObject name language := by
  simp only [definitionOf]
  repeat' split
  all_goals nofun

theorem closingOf_ne_openObject (body : List Char) (name language : String) :
    closingOf body ≠ .openObject name language := by
  rw [closingOf]
  split <;> nofun

variable {r r' : Reader} {c : Command}

theorem orderOf_ne_openObject (h : c.mark ≠ '>') (name language : String) : orderOf c ≠ .openObject name language := by
  rw [orderOf, if_neg h]
  by_cases hdefine : c.mark = '!'
  · rw [if_pos hdefine]
    exact definitionOf_ne_openObject c.body name language
  · rw [if_neg hdefine]
    by_cases hclose : c.mark = '<'
    · rw [if_pos hclose]
      exact closingOf_ne_openObject c.body name language
    · rw [if_neg hclose]
      repeat' split
      all_goals nofun

theorem act_turnTo (r : Reader) (m : Mode) (p : Option Command) (h : c.mark ≠ '>') :
    (r.turnTo m p).act c = (r.act c).map (·.turnTo m p) := by
  rw [act_eq, act_eq, carryOut_turnTo r m p c.line (orderOf_ne_openObject h)]
  change (if r.passesOver c.mark = true then _ else _) = _
  by_cases hpass : r.passesOver c.mark = true
  · rw [if_pos hpass, if_pos hpass]
    rfl
  · rw [if_neg hpass, if_neg hpass]

theorem carryOut_pending {line : Nat} {o : Order} (h : r.carryOut line o = .ok r') : r'.pending = r.pending := by
  by_cases hobject : ∃ name language, o = .openObject name language
  · obtain ⟨name, language, rfl⟩ := hobject
    cases h
    rfl
  · have hturn := carryOut_turnTo r r.mode r.pending line (o := o) fun name language ho => hobject ⟨name, language, ho⟩
    change r.carryOut line o = _ at hturn
    rw [h] at hturn
    have hsame : r' = r'.turnTo r.mode r.pending := Except.ok.inj hturn
    rw [hsame]
    rfl

theorem act_pending (h : r.act c = .ok r') : r'.pending = r.pending := by
  rw [act_eq] at h
  by_cases hpass : r.passesOver c.mark = true
  · rw [if_pos hpass] at h
    cases h
    rfl
  · rw [if_neg hpass] at h
    exact carryOut_pending h

end Reader

end Repartee.Script
