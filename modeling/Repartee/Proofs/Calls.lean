/-
  Repartee.Proofs.Calls — a turn as a machine with a stack of calls.

  Answering a message asks a trigger what it says; the trigger renders templates; a template
  renders those nested in it and answers redirects; a redirect asks a trigger again, one deeper.
  `part` says what each of these does by itself. Where it needs another one it calls it and goes
  on with its text. Nothing here recurs on what is called: the machine runs one part at a time
  and keeps the callers that wait for it on a stack.

  Proved:
  - A part comes to what the turn makes of its call, if the calls in it do (`played_part`).
-/

import Mathlib.Logic.Function.Iterate
import Repartee.Turn.Play

namespace Repartee

namespace Turn

/-! ## Calls and what makes them -/

/-- A part of a turn, as it is called by another. -/
inductive Call where
  | message (text : String)
  | redirect (depth : Nat) (target : String)
  | trigger (depth : Nat) (captures : Captures) (trigger : Trigger)
  | template (depth : Nat) (captures : Captures) (pieces : List Piece)

/-- How a part goes on: it has ended, or it calls another part and goes on with its text. -/
inductive Routine (α : Type) where
  | ended (outcome : Except Abort α) (t : Turn)
  | calls (callee : Call) (t : Turn) (resume : String → Turn → Routine α)

/-- A part that has not begun. -/
def Part (α : Type) := Turn → Routine α

namespace Part

variable {α β : Type}

def bindRoutine (k : α → Part β) : Routine α → Routine β
  | .ended (.ok a) t => k a t
  | .ended (.error e) t => .ended (.error e) t
  | .calls c t resume => .calls c t fun text t => bindRoutine k (resume text t)

instance : Monad Part where
  pure a t := .ended (.ok a) t
  bind p k t := bindRoutine k (p t)

/-- What calls no other part. -/
def alone (p : Play α) : Part α := fun t => .ended (p.run t).1 (p.run t).2

/-- Nothing but a call. -/
def call (c : Call) : Part String := fun t => .calls c t fun text t => .ended (.ok text) t

end Part

open Turn.Part (alone call)

/-! ## The parts -/

/-- A piece; those not named here hold no template. -/
def piecePart (s : Scene) (depth : Nat) (captures : Captures) : Piece → Part String
  | .set name value => do
    let value ← call (.template depth captures value)
    alone (editUser (·.set name value))
    return ""
  | .math op name operand => do
    let operand ← call (.template depth captures operand)
    alone (applyMath op name operand)
    return ""
  | .call line => do
    let line ← call (.template depth captures line)
    alone (callMacro s line)
  | .redirect target => do
    let target ← call (.template depth captures target)
    call (.redirect (depth + 1) (Text.trimmed target))
  | .random alternatives => do
    if alternatives.isEmpty then return ""
    let i ← alone (draw s alternatives.length)
    match alternatives[i]? with
    | some ps => call (.template depth captures ps)
    | none => return ""
  | .recase r body => do
    let text ← call (.template depth captures body)
    return r.apply text
  | p => alone (renderPiece s (fun _ => return "") captures p)

def templatePart (s : Scene) (depth : Nat) (captures : Captures) : List Piece → Part String
  | [] => return ""
  | p :: ps => do
    let text ← piecePart s depth captures p
    let rest ← templatePart s depth captures ps
    return text ++ rest

def holdingPart (depth : Nat) (captures : Captures) : List Condition → Part (Option Template)
  | [] => return none
  | c :: cs => do
    let left ← call (.template depth captures c.left.pieces)
    let right ← call (.template depth captures c.right.pieces)
    if c.comparison.holds left right then return some c.body else holdingPart depth captures cs

def triggerPart (s : Scene) (depth : Nat) (captures : Captures) (trigger : Trigger) : Part String :=
  match trigger.redirect with
  | some target => do
    let target ← call (.template depth captures target.pieces)
    call (.redirect (depth + 1) (Text.trimmed target))
  | none => do
    match ← holdingPart depth captures trigger.conditions with
    | some body => call (.template depth captures body.pieces)
    | none =>
      match ← alone (pick s trigger.replies) with
      | some reply => call (.template depth captures reply.pieces)
      | none => return s.settings.noReplyFound

def findingPart (s : Scene) (depth : Nat) : Option Finding → Part String
  | none => return s.settings.noMatchReply
  | some f =>
    match s.rules.catalog.triggers[f.candidate.trigger]? with
    | some trigger => call (.trigger depth ⟨f.stars, f.botStars⟩ trigger)
    | none => return s.settings.noMatchReply

/-- What a call does by itself. Only here a redirect is found too deep. -/
def part (s : Scene) : Call → Part String
  | .message text => do
    let finding ← alone (find s 0 text)
    findingPart s 0 finding
  | .redirect depth target =>
    if s.settings.maxDepth < depth then
      alone do
        diagnose (.redirectTooDeep s.settings.maxDepth)
        throw .tooDeep
    else do
      alone (modify fun t => { t with redirects := t.redirects ++ [target] })
      let finding ← alone (find s depth target)
      findingPart s depth finding
  | .trigger depth captures trigger => triggerPart s depth captures trigger
  | .template depth captures ps => templatePart s depth captures ps

/-! ## The machine -/

/-- A part that waits for the text of a call. -/
structure Frame where
  caller : Call
  resume : String → Turn → Routine String

structure Machine where
  running : Call
  routine : Routine String
  /-- The caller of what is running first. -/
  waiting : List Frame

namespace Machine

/-- A call puts its caller on the stack; an end hands its text, or the abort, to the caller. -/
def step (s : Scene) (m : Machine) : Machine :=
  match m.routine, m.waiting with
  | .calls c t resume, waiting => ⟨c, part s c t, ⟨m.running, resume⟩ :: waiting⟩
  | .ended (.ok text) t, f :: waiting => ⟨f.caller, f.resume text t, waiting⟩
  | .ended (.error e) t, f :: waiting => ⟨f.caller, .ended (.error e) t, waiting⟩
  | .ended _ _, [] => m

/-- The machine at the start of a turn. -/
def start (s : Scene) (user : User) (message : String) : Machine :=
  ⟨.message message, part s (.message message) { user }, []⟩

/-- Some number of steps leads from one machine to another. -/
def Leads (s : Scene) (m m' : Machine) : Prop := ∃ n, (step s)^[n] m = m'

end Machine

/-! ## What calls come to -/

/-- What the turn makes of a call. -/
def meaning (s : Scene) : Call → Play String
  | .message text => do
    let finding ← find s 0 text
    answer s (follow s s.settings.maxDepth) finding
  | .redirect depth target => follow s (s.settings.maxDepth + 1 - depth) target
  | .trigger depth captures trigger => say s (follow s (s.settings.maxDepth - depth)) captures trigger
  | .template depth captures ps => renderPieces s (follow s (s.settings.maxDepth - depth)) captures ps

namespace Part

variable {α β : Type}

/-- What a routine comes to if every call comes to its meaning. -/
def outcome (s : Scene) : Routine α → Except Abort α × Turn
  | .ended o t => (o, t)
  | .calls c t resume =>
    match (meaning s c).run t with
    | (.ok text, t) => outcome s (resume text t)
    | (.error e, t) => (.error e, t)

/-- A part as it is played if every call is played by its meaning. -/
def played (s : Scene) (p : Part α) : Play α := ExceptT.mk fun t => outcome s (p t)

@[simp] theorem played_pure (s : Scene) (a : α) : played s (pure a : Part α) = pure a := rfl

@[simp] theorem played_alone (s : Scene) (p : Play α) : played s (alone p) = p := rfl

@[simp] theorem played_call (s : Scene) (c : Call) : played s (call c) = meaning s c := by
  funext t
  simp only [played, call, outcome, ExceptT.mk]
  rcases h : (meaning s c).run t with ⟨_ | text, t'⟩
  · exact h.symm
  · exact h.symm

theorem outcome_bindRoutine (s : Scene) (k : α → Part β) (r : Routine α) :
    outcome s (bindRoutine k r) = match outcome s r with
      | (.ok a, t) => outcome s (k a t)
      | (.error e, t) => (.error e, t) := by
  induction r with
  | ended o t => cases o <;> rfl
  | calls c t resume ih =>
    simp only [bindRoutine, outcome]
    rcases (meaning s c).run t with ⟨_ | text, t'⟩
    · rfl
    · exact ih text t'

@[simp] theorem played_bind (s : Scene) (p : Part α) (k : α → Part β) :
    played s (p >>= k) = played s p >>= fun a => played s (k a) := by
  funext t
  refine (outcome_bindRoutine s k (p t)).trans ?_
  simp only [played, bind, ExceptT.bind, ExceptT.mk, StateT.bind]
  rcases outcome s (p t) with ⟨_ | a, t'⟩ <;> rfl

end Part

open Turn.Part (played played_bind played_alone played_call)

theorem renderNth_eq (s : Scene) (redirect : String → Play String) (captures : Captures)
    (alternatives : List (List Piece)) (i : Nat) :
    renderNth s redirect captures alternatives i =
      match alternatives[i]? with
      | some ps => renderPieces s redirect captures ps
      | none => return "" := by
  induction alternatives generalizing i with
  | nil => rfl
  | cons ps alternatives ih =>
    cases i with
    | zero => rfl
    | succ i => rw [renderNth, ih, List.getElem?_cons_succ]

theorem played_piecePart (s : Scene) (depth : Nat) (captures : Captures) (p : Piece) :
    played s (piecePart s depth captures p) =
      renderPiece s (follow s (s.settings.maxDepth - depth)) captures p := by
  cases p with
  | redirect target => simp [piecePart, renderPiece, meaning, Nat.add_sub_add_right]
  | random alternatives =>
    rw [piecePart, renderPiece]
    split
    · rfl
    · simp only [played_bind, played_alone]
      refine bind_congr fun i => ?_
      rw [renderNth_eq]
      cases alternatives[i]? with
      | none => rfl
      | some ps => simp [meaning]
  | _ => simp [piecePart, renderPiece, meaning]

theorem played_templatePart (s : Scene) (depth : Nat) (captures : Captures) (ps : List Piece) :
    played s (templatePart s depth captures ps) =
      renderPieces s (follow s (s.settings.maxDepth - depth)) captures ps := by
  induction ps with
  | nil => rfl
  | cons p ps ih => simp [templatePart, renderPieces, played_piecePart, ih]

theorem played_holdingPart (s : Scene) (depth : Nat) (captures : Captures) (cs : List Condition) :
    played s (holdingPart depth captures cs) =
      firstHolding s (follow s (s.settings.maxDepth - depth)) captures cs := by
  induction cs with
  | nil => rfl
  | cons c cs ih =>
    simp only [holdingPart, firstHolding, played_bind, played_call, meaning, render]
    refine bind_congr fun left => bind_congr fun right => ?_
    split
    · rfl
    · exact ih

theorem played_triggerPart (s : Scene) (depth : Nat) (captures : Captures) (trigger : Trigger) :
    played s (triggerPart s depth captures trigger) =
      say s (follow s (s.settings.maxDepth - depth)) captures trigger := by
  rw [triggerPart, say]
  cases trigger.redirect with
  | some target => simp [meaning, render, Nat.add_sub_add_right]
  | none =>
    simp only [played_bind, played_holdingPart]
    refine bind_congr fun held => ?_
    cases held with
    | some body => simp [meaning, render]
    | none =>
      simp only [played_bind, played_alone]
      refine bind_congr fun picked => ?_
      cases picked with
      | some reply => simp [meaning, render]
      | none => rfl

theorem played_findingPart (s : Scene) (depth : Nat) (finding : Option Finding) :
    played s (findingPart s depth finding) = answer s (follow s (s.settings.maxDepth - depth)) finding := by
  cases finding with
  | none => rfl
  | some f =>
    rw [findingPart, answer]
    cases s.rules.catalog.triggers[f.candidate.trigger]? with
    | none => rfl
    | some trigger => simp [meaning]

/-- Every call comes to what its part comes to when the calls in it do. -/
theorem played_part (s : Scene) (c : Call) : played s (part s c) = meaning s c := by
  cases c with
  | message text => simp [part, meaning, played_findingPart]
  | trigger depth captures trigger => exact played_triggerPart s depth captures trigger
  | template depth captures ps => exact played_templatePart s depth captures ps
  | redirect depth target =>
    rw [part, meaning]
    by_cases h : s.settings.maxDepth < depth
    · rw [if_pos h, Nat.sub_eq_zero_of_le h]
      rfl
    · have hleft : s.settings.maxDepth + 1 - depth = s.settings.maxDepth - depth + 1 := by omega
      have hdepth : s.settings.maxDepth - (s.settings.maxDepth - depth) = depth := by omega
      rw [if_neg h, hleft, follow]
      simp only [played_bind, played_alone, played_findingPart, hdepth]

end Turn

end Repartee
