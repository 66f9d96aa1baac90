/-
  Repartee.Proofs.Redrawing — one play from two draws.

  A turn adds to its notes and counts its draws, and reads neither. So a play that goes on from
  the middle of a turn comes to what it would come to at the beginning of one, with the same user
  and the draws that are left, and what it notes stands behind what was noted before. And no draw
  matters to it but those it takes.

  Both relate a play in a scene with some draws to the same play in the scene with others. A
  relation that acts without draws, draws, aborts and sequences keep is kept by all that is
  rendered, said and followed; so each of the two is shown for these four only.

  Proved:
  - All that turns do without drawing depends on the user alone (`plain_capture` to `plain_find`).
  - A relation that single acts keep is kept by rendering, saying and following
    (`related_renderPieces`, `related_say`, `related_follow`).
  - Going on from a turn is beginning one with the draws that remain (`redraws_resumes`).
  - A play that takes no more than so many draws does not depend on the others (`redraws_heeds`).
-/

import Repartee.Proofs.Searches

namespace Repartee

namespace Turn

variable {α β : Type}

/-! ## Going on -/

/-- The turn that goes on from this one as another did from its beginning. -/
def andThen (t₀ t : Turn) : Turn where
  user := t.user
  drawn := t₀.drawn + t.drawn
  diagnostics := t₀.diagnostics ++ t.diagnostics
  redirects := t₀.redirects ++ t.redirects
  steps := t₀.steps ++ t.steps
  tried := t₀.tried + t.tried

@[simp] theorem user_andThen (t₀ t : Turn) : (t₀.andThen t).user = t.user := rfl

@[simp] theorem drawn_andThen (t₀ t : Turn) : (t₀.andThen t).drawn = t₀.drawn + t.drawn := rfl

theorem andThen_begin (t : Turn) : t.andThen { user := t.user } = t := by
  simp [andThen]

theorem begin_andThen (u : User) (t : Turn) : ({ user := u } : Turn).andThen t = t := by
  simp [andThen]

theorem andThen_assoc (t₀ t₁ t₂ : Turn) : (t₀.andThen t₁).andThen t₂ = t₀.andThen (t₁.andThen t₂) := by
  simp [andThen, Nat.add_assoc]

/-! ## Acts without draws -/

/-- What the act comes to and what it adds to a turn depends on the user alone, and it takes no draw. -/
structure Plain (x : Act α) : Prop where
  drawn : ∀ u, (x.run { user := u }).2.drawn = 0
  run : ∀ t, x.run t = ((x.run { user := t.user }).1, t.andThen (x.run { user := t.user }).2)

theorem plain_pure (a : α) : Plain (pure a : Act α) :=
  ⟨fun _ => rfl, fun t => congrArg (Prod.mk a) t.andThen_begin.symm⟩

/-- An act that writes to the user and adds notes. -/
theorem plain_modify (f : Turn → Turn) (hdrawn : ∀ u, (f { user := u }).drawn = 0)
    (hadds : ∀ t, f t = t.andThen (f { user := t.user })) : Plain (modify f : Act Unit) :=
  ⟨hdrawn, fun t => congrArg (Prod.mk ()) (hadds t)⟩

theorem plain_diagnose (d : Diagnostic) : Plain (diagnose d) :=
  plain_modify _ (fun _ => rfl) fun t => by simp [andThen]

theorem plain_editUser (f : User → User) : Plain (editUser f) :=
  plain_modify _ (fun _ => rfl) fun t => by simp [andThen]

/-- For each user the act may be another one. -/
theorem plain_of_user {x : Act α} (h : ∀ u, ∃ y : Act α, Plain y ∧ ∀ t, t.user = u → x.run t = y.run t) : Plain x := by
  constructor
  · intro u
    obtain ⟨y, hy, hrun⟩ := h u
    rw [hrun { user := u } rfl]
    exact hy.drawn u
  · intro t
    obtain ⟨y, hy, hrun⟩ := h t.user
    rw [hrun t rfl, hrun { user := t.user } rfl]
    exact hy.run t

theorem Plain.bind {x : Act α} {k : α → Act β} (hx : Plain x) (hk : ∀ a, Plain (k a)) : Plain (x >>= k) := by
  have hrun : ∀ t, (x >>= k).run t =
      (k (x.run { user := t.user }).1).run (t.andThen (x.run { user := t.user }).2) := by
    intro t
    rw [StateT.run_bind, hx.run t]
    rfl
  constructor
  · intro u
    rw [hrun, (hk _).run, begin_andThen, drawn_andThen, hx.drawn, (hk _).drawn]
  · intro t
    rw [hrun, hrun, (hk _).run, begin_andThen, (hk _).run (x.run { user := t.user }).2, andThen_assoc]
    rfl

theorem plain_noted (d : Diagnostic) (text : String) : Plain (do diagnose d; return text) :=
  (plain_diagnose d).bind fun _ => plain_pure text

theorem plain_capture (captures : List String) (index : Nat) : Plain (capture captures index) := by
  cases index with
  | zero => exact plain_noted _ ""
  | succ index =>
    rw [capture]
    cases captures[index]? with
    | none => exact plain_noted _ ""
    | some text => exact plain_pure text

theorem plain_remembered (entry : User → Nat → Option String) (index : Nat) : Plain (remembered entry index) := by
  refine plain_of_user fun u => ?_
  cases hentry : entry u index with
  | none =>
    refine ⟨_, plain_noted (.historyOutOfRange index) "", fun t ht => ?_⟩
    simp only [remembered, StateT.run_bind, StateT.run_get, pure_bind, ht, hentry]
  | some text =>
    refine ⟨_, plain_pure text, fun t ht => ?_⟩
    exact run_remembered (ht ▸ hentry)

section Math

variable {op : MathOp} {name operand : String} {t : Turn} {a b : Float}

theorem run_applyMath_of_current (h : Decimal.float? (Text.trimmed (currentText t.user name)) = none) :
    (applyMath op name operand).run t = (diagnose (.notANumber name (currentText t.user name))).run t := by
  simp only [applyMath, StateT.run_bind, StateT.run_get, pure_bind, h]

theorem run_applyMath_of_operand (ha : Decimal.float? (Text.trimmed (currentText t.user name)) = some a)
    (h : Decimal.float? (Text.trimmed operand) = none) :
    (applyMath op name operand).run t = (diagnose (.notANumber name operand)).run t := by
  simp only [applyMath, StateT.run_bind, StateT.run_get, pure_bind, ha, h]

theorem run_applyMath_of_zero (ha : Decimal.float? (Text.trimmed (currentText t.user name)) = some a)
    (hb : Decimal.float? (Text.trimmed operand) = some b) (h : op = .div ∧ (b == 0.0) = true) :
    (applyMath op name operand).run t = (diagnose (.divisionByZero name)).run t := by
  simp only [applyMath, StateT.run_bind, StateT.run_get, pure_bind, ha, hb, if_pos h]

theorem run_applyMath_of_numbers (ha : Decimal.float? (Text.trimmed (currentText t.user name)) = some a)
    (hb : Decimal.float? (Text.trimmed operand) = some b) (h : ¬ (op = .div ∧ (b == 0.0) = true)) :
    (applyMath op name operand).run t = (editUser (·.set name (Decimal.written (compute op a b)))).run t := by
  simp only [applyMath, StateT.run_bind, StateT.run_get, pure_bind, ha, hb, if_neg h]

end Math

theorem plain_applyMath (op : MathOp) (name operand : String) : Plain (applyMath op name operand) := by
  refine plain_of_user fun u => ?_
  cases ha : Decimal.float? (Text.trimmed (currentText u name)) with
  | none => exact ⟨_, plain_diagnose _, fun t ht => ht ▸ run_applyMath_of_current (ht ▸ ha)⟩
  | some a =>
    cases hb : Decimal.float? (Text.trimmed operand) with
    | none => exact ⟨_, plain_diagnose _, fun t ht => run_applyMath_of_operand (ht ▸ ha) hb⟩
    | some b =>
      by_cases hzero : op = .div ∧ (b == 0.0) = true
      · exact ⟨_, plain_diagnose _, fun t ht => run_applyMath_of_zero (ht ▸ ha) hb hzero⟩
      · exact ⟨_, plain_editUser _, fun t ht => run_applyMath_of_numbers (ht ▸ ha) hb hzero⟩

section Calls

variable {s : Scene} {line name : String} {args : List String}

theorem callMacro_of_unnamed (h : Text.wordsOf line = []) :
    callMacro s line = (do diagnose (.undefinedMacro ""); return "") := by
  simp only [callMacro, h]

theorem callMacro_of_undefined (h : Text.wordsOf line = name :: args) (hname : s.macros.resolve? name = none) :
    callMacro s line = (do diagnose (.undefinedMacro name); return "") := by
  simp only [callMacro, h, hname]

end Calls

theorem plain_callMacro (s : Scene) (line : String) : Plain (callMacro s line) := by
  cases hline : Text.wordsOf line with
  | nil =>
    rw [callMacro_of_unnamed hline]
    exact plain_noted _ ""
  | cons name args =>
    cases hname : s.macros.resolve? name with
    | none =>
      rw [callMacro_of_undefined hline hname]
      exact plain_noted _ ""
    | some subroutine =>
      -- the subroutine sees the user and hands back another, as an edit does
      let call : MacroCall := { name, args, expired := s.settings.macroTimeout == some 0 }
      have hedit : Plain (editUser fun u => (subroutine call u).2) := plain_editUser _
      refine plain_of_user fun u => ?_
      cases hresult : (subroutine call u).1 with
      | ok text =>
        refine ⟨_, hedit.bind fun _ => plain_pure text, fun t ht => ?_⟩
        subst ht
        simp only [callMacro, hline, hname, StateT.run_bind, StateT.run_get, pure_bind]
        rw [hresult]
        rfl
      | error e =>
        refine ⟨_, hedit.bind fun _ => plain_noted (.macroFailed name e) "", fun t ht => ?_⟩
        subst ht
        simp only [callMacro, hline, hname, StateT.run_bind, StateT.run_get, pure_bind]
        rw [hresult]
        rfl

theorem plain_searchIn (s : Scene) (ranking : Ranking) (depth : Nat) (text : String) :
    Plain (searchIn s ranking depth text) := by
  refine plain_of_user fun u => ?_
  have hnote : Plain (modify (noting · (stepOf s.rules u ranking depth text)) : Act Unit) :=
    plain_modify _ (fun _ => rfl) fun t => by simp [noting, andThen]
  refine ⟨_, hnote.bind fun _ => plain_pure (searched s.rules u ranking text), fun t ht => ?_⟩
  rw [run_searchIn, ht]
  rfl

theorem plain_find (s : Scene) (depth : Nat) (text : String) : Plain (find s depth text) := by
  refine plain_of_user fun u => ?_
  cases htopic : s.rules.ranking? u.topic with
  | some ranking =>
    refine ⟨_, plain_searchIn s ranking depth text, fun t ht => ?_⟩
    simp only [find, StateT.run_bind, StateT.run_get, pure_bind, ht, htopic]
  | none =>
    have hsent : ∀ {x : Act (Option Finding)}, Plain x → Plain (do
        diagnose (.unknownTopic u.topic)
        editUser (·.setTopic homeTopic)
        x) := fun hx => (plain_diagnose _).bind fun _ => (plain_editUser _).bind fun _ => hx
    cases hhome : s.rules.ranking? homeTopic with
    | some ranking =>
      refine ⟨_, hsent (plain_searchIn s ranking depth text), fun t ht => ?_⟩
      simp only [find, StateT.run_bind, StateT.run_get, pure_bind, ht, htopic, hhome]
    | none =>
      refine ⟨_, hsent (plain_pure none), fun t ht => ?_⟩
      simp only [find, StateT.run_bind, StateT.run_get, pure_bind, ht, htopic, hhome]

theorem run_lift (x : Act α) (t : Turn) : (liftM x : Play α).run t = (.ok (x.run t).1, (x.run t).2) := rfl

/-! ## Plays that are put together alike -/

/-- A relation of plays in a scene with some draws to plays in the same scene with others. All ways in
which a turn puts plays together keep it. -/
structure Redraws (s : Scene) (draws : Draws) (R : ∀ α : Type, Play α → Play α → Prop) : Prop where
  plain : ∀ {α : Type} {x : Act α}, Plain x → R α (liftM x) (liftM x)
  draw : ∀ n, R Nat (liftM (draw s n)) (liftM (draw { s with draws } n))
  abort : ∀ {α : Type} (e : Abort), R α (throw e) (throw e)
  bind : ∀ {α β : Type} {p q : Play α} {k l : α → Play β}, R α p q → (∀ a, R β (k a) (l a)) → R β (p >>= k) (q >>= l)

section Related

variable {s : Scene} {draws : Draws} {R : ∀ α : Type, Play α → Play α → Prop}
  {redirect redirect' : String → Play String} {captures : Captures}

theorem Redraws.pure (h : Redraws s draws R) (a : α) : R α (pure a) (pure a) := h.plain (plain_pure a)

/-- Reading something of the user. -/
theorem plain_ask (f : User → α) : Plain (do let t ← get; return f t.user) :=
  plain_of_user fun u => ⟨_, plain_pure (f u), fun t ht => by subst ht; rfl⟩

mutual

theorem related_renderPiece (h : Redraws s draws R) (hredirect : ∀ target, R String (redirect target) (redirect' target))
    (p : Piece) : R String (renderPiece s redirect captures p) (renderPiece { s with draws } redirect' captures p) := by
  cases p with
  | text text => exact h.pure text
  | star index => exact h.plain (plain_capture captures.stars index)
  | botStar index => exact h.plain (plain_capture captures.botStars index)
  | input index => exact h.plain (plain_remembered User.input? index)
  | reply index => exact h.plain (plain_remembered User.reply? index)
  | get name => exact h.plain (plain_ask (·.get name))
  | bot name => exact h.pure _
  | env name => exact h.pure _
  | userId => exact h.plain (plain_ask (·.id))
  | topic name => exact h.bind (h.plain (plain_editUser _)) fun _ => h.pure ""
  | set name value =>
    rw [renderPiece, renderPiece]
    exact h.bind (related_renderPieces h hredirect value) fun _ => h.bind (h.plain (plain_editUser _)) fun _ => h.pure ""
  | math op name operand =>
    rw [renderPiece, renderPiece]
    exact h.bind (related_renderPieces h hredirect operand) fun _ =>
      h.bind (h.plain (plain_applyMath op name _)) fun _ => h.pure ""
  | call line =>
    rw [renderPiece, renderPiece]
    exact h.bind (related_renderPieces h hredirect line) fun text => h.plain (plain_callMacro s text)
  | redirect target =>
    rw [renderPiece, renderPiece]
    exact h.bind (related_renderPieces h hredirect target) fun _ => hredirect _
  | random alternatives =>
    rw [renderPiece, renderPiece]
    split
    · exact h.pure ""
    · exact h.bind (h.draw _) fun i => related_renderNth h hredirect alternatives i
  | recase r body =>
    rw [renderPiece, renderPiece]
    exact h.bind (related_renderPieces h hredirect body) fun text => h.pure (r.apply text)

theorem related_renderPieces (h : Redraws s draws R) (hredirect : ∀ target, R String (redirect target) (redirect' target))
    (ps : List Piece) :
    R String (renderPieces s redirect captures ps) (renderPieces { s with draws } redirect' captures ps) := by
  cases ps with
  | nil => exact h.pure ""
  | cons p ps =>
    rw [renderPieces, renderPieces]
    exact h.bind (related_renderPiece h hredirect p) fun _ => h.bind (related_renderPieces h hredirect ps) fun _ => h.pure _

theorem related_renderNth (h : Redraws s draws R) (hredirect : ∀ target, R String (redirect target) (redirect' target))
    (alternatives : List (List Piece)) (i : Nat) :
    R String (renderNth s redirect captures alternatives i)
      (renderNth { s with draws } redirect' captures alternatives i) := by
  cases alternatives with
  | nil => exact h.pure ""
  | cons ps alternatives =>
    cases i with
    | zero => exact related_renderPieces h hredirect ps
    | succ i => exact related_renderNth h hredirect alternatives i

end

theorem related_firstHolding (h : Redraws s draws R) (hredirect : ∀ target, R String (redirect target) (redirect' target))
    (cs : List Condition) : R (Option Template) (firstHolding s redirect captures cs)
      (firstHolding { s with draws } redirect' captures cs) := by
  induction cs with
  | nil => exact h.pure none
  | cons c cs ih =>
    refine h.bind (related_renderPieces h hredirect c.left.pieces) fun left =>
      h.bind (related_renderPieces h hredirect c.right.pieces) fun right => ?_
    split
    · exact h.pure (some c.body)
    · exact ih

theorem related_pick (h : Redraws s draws R) (replies : List Template) :
    R (Option Template) (liftM (pick s replies)) (liftM (pick { s with draws } replies)) := by
  match replies with
  | [] => exact h.pure none
  | [reply] => exact h.pure (some reply)
  | first :: second :: rest =>
    have hpick : ∀ s : Scene, (liftM (pick s (first :: second :: rest)) : Play (Option Template)) = do
        let i ← draw s (totalShare ((first :: second :: rest).map share))
        return (shareOf ((first :: second :: rest).map share) i).bind ((first :: second :: rest)[·]?) := fun _ => rfl
    rw [hpick, hpick]
    exact h.bind (h.draw _) fun _ => h.pure _

theorem related_say (h : Redraws s draws R) (hredirect : ∀ target, R String (redirect target) (redirect' target))
    (trigger : Trigger) : R String (say s redirect captures trigger) (say { s with draws } redirect' captures trigger) := by
  rw [say, say]
  cases trigger.redirect with
  | some target => exact h.bind (related_renderPieces h hredirect target.pieces) fun _ => hredirect _
  | none =>
    refine h.bind (related_firstHolding h hredirect trigger.conditions) fun held => ?_
    cases held with
    | some body => exact related_renderPieces h hredirect body.pieces
    | none =>
      refine h.bind (related_pick h trigger.replies) fun picked => ?_
      cases picked with
      | some reply => exact related_renderPieces h hredirect reply.pieces
      | none => exact h.pure s.settings.noReplyFound

theorem related_answer (h : Redraws s draws R) (hredirect : ∀ target, R String (redirect target) (redirect' target))
    (finding : Option Finding) : R String (answer s redirect finding) (answer { s with draws } redirect' finding) := by
  cases finding with
  | none => exact h.pure s.settings.noMatchReply
  | some f =>
    rw [answer, answer]
    cases s.rules.catalog.triggers[f.candidate.trigger]? with
    | some trigger => exact related_say h hredirect trigger
    | none => exact h.pure s.settings.noMatchReply

/-- At every depth, by induction on the redirects left. -/
theorem related_follow (h : Redraws s draws R) (left : Nat) (target : String) :
    R String (follow s left target) (follow { s with draws } left target) := by
  induction left generalizing target with
  | zero => exact h.bind (h.plain (plain_diagnose _)) fun _ => h.abort .tooDeep
  | succ left ih =>
    have hnote : Plain (modify fun t => { t with redirects := t.redirects ++ [target] } : Act Unit) :=
      plain_modify _ (fun _ => rfl) fun t => by simp [andThen]
    exact h.bind (h.plain hnote) fun _ => h.bind (h.plain (plain_find s _ target)) fun finding => related_answer h ih finding

end Related

/-! ## Going on with the draws that are left -/

/-- Going on from a turn, the one play comes to what the other comes to at the beginning of one. -/
def Resumes (t₀ : Turn) (α : Type) (p q : Play α) : Prop :=
  ∀ t, p.run (t₀.andThen t) = ((q.run t).1, t₀.andThen (q.run t).2)

/-- Draws once those are taken that a turn has taken. -/
def remaining (draws : Draws) (t : Turn) : Draws := fun n => draws (t.drawn + n)

theorem redraws_resumes (s : Scene) (t₀ : Turn) : Redraws s (remaining s.draws t₀) (Resumes t₀) where
  plain {_ x} hx t := by
    rw [run_lift, run_lift, hx.run (t₀.andThen t), hx.run t, user_andThen, andThen_assoc]
  draw _ _ := rfl
  abort _ _ := rfl
  bind {_ _ p q k l} hp hk t := by
    rw [run_bind, run_bind, hp t]
    rcases q.run t with ⟨e | a, t'⟩
    · rfl
    · exact hk a t'

/-! ## Draws that are not taken -/

/-- No draw is given back, and if no more than so many are taken in the end, both plays come to the same. -/
structure Heeds (k : Nat) (α : Type) (p q : Play α) : Prop where
  grows : ∀ t, t.drawn ≤ (p.run t).2.drawn
  same : ∀ t, (p.run t).2.drawn ≤ k → q.run t = p.run t

theorem redraws_heeds {s : Scene} {draws : Draws} {k : Nat} (h : ∀ n < k, draws n = s.draws n) :
    Redraws s draws (Heeds k) where
  plain {_ x} hx := by
    refine ⟨fun t => ?_, fun _ _ => rfl⟩
    rw [run_lift, hx.run t]
    exact Nat.le_add_right _ _
  draw n := by
    refine ⟨fun t => Nat.le_succ t.drawn, fun t hk => ?_⟩
    change (Except.ok (draws t.drawn % n), _) = (Except.ok (s.draws t.drawn % n), _)
    rw [h t.drawn hk]
  abort _ := ⟨fun t => Nat.le_refl t.drawn, fun _ _ => rfl⟩
  bind {_ _ p q k l} hp hk := by
    constructor
    · intro t
      have hgrows := hp.grows t
      rw [run_bind]
      rcases hrun : p.run t with ⟨e | a, t'⟩
      · rwa [hrun] at hgrows
      · rw [hrun] at hgrows
        exact Nat.le_trans hgrows ((hk a).grows t')
    · intro t hle
      have hsame := hp.same t
      rw [run_bind] at hle
      rw [run_bind, run_bind]
      rcases hrun : p.run t with ⟨e | a, t'⟩
      · rw [hrun] at hle hsame
        rw [hsame hle]
      · rw [hrun] at hle hsame
        rw [hsame (Nat.le_trans ((hk a).grows t') hle)]
        exact (hk a).same t' hle

end Turn

end Repartee
