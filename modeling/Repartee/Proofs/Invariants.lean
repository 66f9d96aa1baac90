/-
  Repartee.Proofs.Invariants — what a turn keeps.

  Tags do little to a turn: they write to the user, take draws and leave diagnostics of their own
  kind. A condition on turns that none of this breaks is steady. It is then kept by all that is
  rendered and said, as long as the answers to redirects keep it, so that an induction on the
  redirects left only has to look at searches and at the end of a turn too deep.

  Proved:
  - What a play ensures is put together from what its parts do (`Ensures.bind`).
  - Single tags keep a steady condition (`keeps_capture` to `keeps_callMacro`).
  - Rendering keeps a steady condition (`keeps_renderPieces`), and so does what a trigger says
    (`keeps_say`).
-/

import Repartee.Proofs.Rendering

namespace Repartee

/-- A diagnostic that a piece can leave, apart from those in it. -/
def Piece.MayLeave (captures : Captures) : Piece → Diagnostic → Prop
  | .star index, d => (index = 0 ∨ captures.stars.length < index) ∧ d = .starOutOfRange index captures.stars.length
  | .botStar index, d =>
    (index = 0 ∨ captures.botStars.length < index) ∧ d = .starOutOfRange index captures.botStars.length
  | .input index, d | .reply index, d => d = .historyOutOfRange index
  | .math _ name _, d => d = .divisionByZero name ∨ ∃ value, d = .notANumber name value
  | .call _, d => ∃ name, d = .undefinedMacro name ∨ ∃ error, d = .macroFailed name error
  | _, _ => False

namespace Turn

variable {α β : Type}

/-! ## Before and after -/

/-- From a turn that meets a condition, a play comes to a result and a turn as they should be, or it
aborts in a turn that meets another condition. -/
structure Ensures (I : Turn → Prop) (Q : α → Turn → Prop) (E : Turn → Prop) (p : Play α) : Prop where
  ended : ∀ {t a t'}, I t → p.run t = (.ok a, t') → Q a t'
  aborted : ∀ {t e t'}, I t → p.run t = (.error e, t') → E t'

/-- A play ends in the condition it began in, unless it aborts. -/
abbrev Keeps (I E : Turn → Prop) (p : Play α) : Prop := Ensures I (fun _ => I) E p

section Ensures

variable {I I' E : Turn → Prop} {Q Q' : α → Turn → Prop} {R : β → Turn → Prop} {p : Play α} {k : α → Play β}

/-- What never aborts ensures what it does. -/
theorem ensures_lift {x : Act α} (h : ∀ t, I t → Q (x.run t).1 (x.run t).2) : Ensures I Q E (liftM x : Play α) := by
  constructor
  · intro t a t' ht hrun
    cases hrun
    exact h t ht
  · intro t e t' _ hrun
    cases hrun

theorem Ensures.of_lift {x : Act α} (h : Ensures I Q E (liftM x : Play α)) {t : Turn} (ht : I t) :
    Q (x.run t).1 (x.run t).2 := h.ended ht rfl

theorem keeps_lift {x : Act α} (h : ∀ t, I t → I (x.run t).2) : Keeps I E (liftM x : Play α) := ensures_lift h

theorem ensures_pure {a : α} (h : ∀ t, I t → Q a t) : Ensures I Q E (pure a) := ensures_lift (x := pure a) h

theorem keeps_pure (a : α) : Keeps I E (pure a) := ensures_pure fun _ ht => ht

/-- What leaves the turn alone keeps any condition. -/
theorem keeps_untouched (h : ∀ t, ∃ a, p.run t = (.ok a, t)) : Keeps I E p := by
  constructor
  · intro t a t' ht hrun
    obtain ⟨b, hp⟩ := h t
    cases hp.symm.trans hrun
    exact ht
  · intro t e t' _ hrun
    obtain ⟨b, hp⟩ := h t
    cases hp.symm.trans hrun

theorem Ensures.bind (h : Ensures I Q E p) (hk : ∀ a, Ensures (Q a) R E (k a)) : Ensures I R E (p >>= k) := by
  constructor
  · intro t b t' ht hrun
    rw [run_bind] at hrun
    cases hp : p.run t with
    | mk o u =>
      cases o with
      | error e =>
        rw [hp] at hrun
        cases hrun
      | ok a =>
        rw [hp] at hrun
        exact (hk a).ended (h.ended ht hp) hrun
  · intro t e t' ht hrun
    rw [run_bind] at hrun
    cases hp : p.run t with
    | mk o u =>
      rw [hp] at hrun
      cases o with
      | error e =>
        cases hrun
        exact h.aborted ht hp
      | ok a => exact (hk a).aborted (h.ended ht hp) hrun

theorem Ensures.imp (h : Ensures I Q E p) (hI : ∀ t, I' t → I t) (hQ : ∀ a t, Q a t → Q' a t) : Ensures I' Q' E p :=
  ⟨fun ht hrun => hQ _ _ (h.ended (hI _ ht) hrun), fun ht hrun => h.aborted (hI _ ht) hrun⟩

/-- What the condition says apart from the turn may be used to say what is ensured. -/
theorem ensures_of_fact {P : Prop} (h : P → Ensures I Q E p) : Ensures (fun t => I t ∧ P) Q E p :=
  ⟨fun ht hrun => (h ht.2).ended ht.1 hrun, fun ht hrun => (h ht.2).aborted ht.1 hrun⟩

end Ensures

/-! ## Tags -/

/-- What tags do to a turn, redirects apart, keeps a condition, if they leave no diagnostics but some. -/
structure Steady (s : Scene) (D : Diagnostic → Prop) (I : Turn → Prop) : Prop where
  draw : ∀ {t : Turn}, I t → I { t with drawn := t.drawn + 1 }
  diagnose : ∀ {t : Turn} {d}, D d → I t → I { t with diagnostics := t.diagnostics ++ [d] }
  set : ∀ {t : Turn} (name text : String), I t → I { t with user := t.user.set name text }
  setTopic : ∀ {t : Turn} (name : String), I t → I { t with user := t.user.setTopic name }
  call : ∀ {t : Turn} {name subroutine} (call : MacroCall), s.macros.resolve? name = some subroutine → I t →
    I { t with user := (subroutine call t.user).2 }

section Steady

variable {s : Scene} {D : Diagnostic → Prop} {I E : Turn → Prop}

theorem keeps_capture (h : Steady s D I) (captures : List String) (index : Nat)
    (hD : index = 0 ∨ captures.length < index → D (.starOutOfRange index captures.length)) :
    Keeps I E (liftM (capture captures index) : Play String) := by
  refine keeps_lift fun t ht => ?_
  cases index with
  | zero => exact h.diagnose (hD (.inl rfl)) ht
  | succ index =>
    rw [capture]
    cases hcapture : captures[index]? with
    | none =>
      have hlength := List.getElem?_eq_none_iff.mp hcapture
      exact h.diagnose (hD (.inr (by omega))) ht
    | some text => exact ht

theorem keeps_remembered (h : Steady s D I) (entry : User → Nat → Option String) (index : Nat)
    (hD : D (.historyOutOfRange index)) : Keeps I E (liftM (remembered entry index) : Play String) := by
  refine keeps_lift fun t ht => ?_
  rw [remembered]
  simp only [StateT.run_bind, StateT.run_get, pure_bind]
  cases entry t.user index with
  | none => exact h.diagnose hD ht
  | some text => exact ht

theorem keeps_applyMath (h : Steady s D I) (op : MathOp) (name operand : String)
    (hD : ∀ d, (d = .divisionByZero name ∨ ∃ value, d = .notANumber name value) → D d) :
    Keeps I E (liftM (applyMath op name operand) : Play Unit) := by
  refine keeps_lift fun t ht => ?_
  rw [applyMath]
  simp only [StateT.run_bind, StateT.run_get, pure_bind]
  split
  · exact h.diagnose (hD _ (.inr ⟨_, rfl⟩)) ht
  · exact h.diagnose (hD _ (.inr ⟨_, rfl⟩)) ht
  · split
    · exact h.diagnose (hD _ (.inl rfl)) ht
    · exact h.set name _ ht

theorem keeps_callMacro (h : Steady s D I) (line : String)
    (hD : ∀ d, (∃ name, d = .undefinedMacro name ∨ ∃ error, d = .macroFailed name error) → D d) :
    Keeps I E (liftM (callMacro s line) : Play String) := by
  refine keeps_lift fun t ht => ?_
  rw [callMacro]
  cases Text.wordsOf line with
  | nil => exact h.diagnose (hD _ ⟨"", .inl rfl⟩) ht
  | cons name args =>
    cases hname : s.macros.resolve? name with
    | none =>
      simp only [hname]
      exact h.diagnose (hD _ ⟨name, .inl rfl⟩) ht
    | some subroutine =>
      let call : MacroCall := { name, args, expired := s.settings.macroTimeout == some 0 }
      have hcalled := h.call call hname ht
      simp only [hname, StateT.run_bind, StateT.run_get, pure_bind]
      cases (subroutine call t.user).1 with
      | ok text => exact hcalled
      | error e => exact h.diagnose (hD _ ⟨name, .inr ⟨e, rfl⟩⟩) hcalled

/-! ## Rendering -/

variable {redirect : String → Play String} {captures : Captures}

mutual

theorem keeps_renderPiece (h : Steady s D I) (hredirect : ∀ target, Keeps I E (redirect target)) (p : Piece)
    (hp : p.Each fun p => ∀ d, p.MayLeave captures d → D d) : Keeps I E (renderPiece s redirect captures p) := by
  cases p with
  | set name value =>
    rw [renderPiece]
    refine (keeps_renderPieces h hredirect value hp.2).bind fun text => ?_
    exact (keeps_lift fun t => h.set name text).bind fun _ => keeps_pure _
  | math op name operand =>
    rw [renderPiece]
    refine (keeps_renderPieces h hredirect operand hp.2).bind fun text => ?_
    exact (keeps_applyMath h op name text hp.1).bind fun _ => keeps_pure _
  | call line =>
    rw [renderPiece]
    refine (keeps_renderPieces h hredirect line hp.2).bind fun text => ?_
    exact keeps_callMacro h text hp.1
  | redirect target =>
    rw [renderPiece]
    exact (keeps_renderPieces h hredirect target hp.2).bind fun text => hredirect _
  | random alternatives =>
    rw [renderPiece]
    split
    · exact keeps_pure _
    · exact (keeps_lift fun t => h.draw).bind fun i => keeps_renderNth h hredirect alternatives hp.2 i
  | recase r body =>
    rw [renderPiece]
    exact (keeps_renderPieces h hredirect body hp.2).bind fun _ => keeps_pure _
  | star index => exact keeps_capture h captures.stars index fun hindex => hp _ ⟨hindex, rfl⟩
  | botStar index => exact keeps_capture h captures.botStars index fun hindex => hp _ ⟨hindex, rfl⟩
  | input index => exact keeps_remembered h User.input? index (hp _ rfl)
  | reply index => exact keeps_remembered h User.reply? index (hp _ rfl)
  | topic name => exact (keeps_lift fun t => h.setTopic name).bind fun _ => keeps_pure _
  | _ => exact keeps_untouched fun t => ⟨_, rfl⟩

/-- What is rendered keeps a steady condition, if what is answered to redirects does. -/
theorem keeps_renderPieces (h : Steady s D I) (hredirect : ∀ target, Keeps I E (redirect target)) (ps : List Piece)
    (hps : eachPiece (fun p => ∀ d, p.MayLeave captures d → D d) ps) :
    Keeps I E (renderPieces s redirect captures ps) := by
  cases ps with
  | nil => exact keeps_pure _
  | cons p ps =>
    rw [renderPieces]
    exact (keeps_renderPiece h hredirect p hps.1).bind fun _ =>
      (keeps_renderPieces h hredirect ps hps.2).bind fun _ => keeps_pure _

theorem keeps_renderNth (h : Steady s D I) (hredirect : ∀ target, Keeps I E (redirect target))
    (alternatives : List (List Piece)) (hall : eachAlternative (fun p => ∀ d, p.MayLeave captures d → D d) alternatives)
    (i : Nat) : Keeps I E (renderNth s redirect captures alternatives i) := by
  cases alternatives with
  | nil => exact keeps_pure _
  | cons ps alternatives =>
    cases i with
    | zero => exact keeps_renderPieces h hredirect ps hall.1
    | succ i => exact keeps_renderNth h hredirect alternatives hall.2 i

end

/-! ## What a trigger says -/

/-- What holds is the body of one of the conditions. -/
theorem ensures_firstHolding (h : Steady s D I) (hredirect : ∀ target, Keeps I E (redirect target)) (cs : List Condition)
    (hcs : ∀ c ∈ cs, eachPiece (fun p => ∀ d, p.MayLeave captures d → D d) c.left.pieces ∧
      eachPiece (fun p => ∀ d, p.MayLeave captures d → D d) c.right.pieces) :
    Ensures I (fun held t => I t ∧ ∀ body ∈ held, ∃ c ∈ cs, body = c.body) E (firstHolding s redirect captures cs) := by
  induction cs with
  | nil => exact ensures_pure fun t ht => ⟨ht, by simp⟩
  | cons c cs ih =>
    rw [List.forall_mem_cons] at hcs
    obtain ⟨⟨hleft, hright⟩, hrest⟩ := hcs
    rw [firstHolding]
    refine (keeps_renderPieces h hredirect c.left.pieces hleft).bind fun left =>
      (keeps_renderPieces h hredirect c.right.pieces hright).bind fun right => ?_
    split
    · refine ensures_pure fun t ht => ⟨ht, fun body hbody => ⟨c, List.mem_cons_self, ?_⟩⟩
      exact (Option.mem_some_iff.mp hbody).symm
    · refine (ih hrest).imp (fun t ht => ht) fun held t hheld => ⟨hheld.1, fun body hbody => ?_⟩
      obtain ⟨c', hc', hbody⟩ := hheld.2 body hbody
      exact ⟨c', List.mem_cons_of_mem c hc', hbody⟩

theorem ensures_pick (h : Steady s D I) (replies : List Template) :
    Ensures I (fun picked t => I t ∧ ∀ reply ∈ picked, reply ∈ replies) E
      (liftM (pick s replies) : Play (Option Template)) := by
  refine ensures_lift fun t ht => ⟨?_, fun reply hreply => mem_of_pick hreply⟩
  match replies with
  | [] => exact ht
  | [_] => exact ht
  | _ :: _ :: _ => exact h.draw ht

/-- What a trigger says keeps a steady condition, if what is answered to redirects does. -/
theorem keeps_say (h : Steady s D I) (hredirect : ∀ target, Keeps I E (redirect target)) {trigger : Trigger}
    (htrigger : trigger.Each fun p => ∀ d, p.MayLeave captures d → D d) :
    Keeps I E (say s redirect captures trigger) := by
  rw [say]
  cases htarget : trigger.redirect with
  | some target =>
    exact (keeps_renderPieces h hredirect target.pieces (htrigger.redirect target htarget)).bind fun text => hredirect _
  | none =>
    refine (ensures_firstHolding h hredirect trigger.conditions fun c hc =>
      ⟨(htrigger.conditions c hc).1, (htrigger.conditions c hc).2.1⟩).bind fun held => ?_
    cases held with
    | some body =>
      refine ensures_of_fact fun hheld => ?_
      obtain ⟨c, hc, rfl⟩ := hheld body rfl
      exact keeps_renderPieces h hredirect c.body.pieces (htrigger.conditions c hc).2.2
    | none =>
      refine ((ensures_pick h trigger.replies).imp (fun t ht => ht.1) fun picked t ht => ht).bind fun picked => ?_
      cases picked with
      | none => exact ensures_pure fun t ht => ht.1
      | some reply =>
        refine ensures_of_fact fun hpicked => ?_
        exact keeps_renderPieces h hredirect reply.pieces (htrigger.replies reply (hpicked reply rfl))

end Steady

end Turn

end Repartee
