/-
  Repartee.Proofs.Rendering — two turns side by side.

  Two turns can differ in their scenes, in the pieces they render or in what answers their
  redirects, and still go the same way. Wherever they could part, some condition on the user has
  to hold, and both keep it: this is `Agree`. Rendering takes the agreement of what it does at
  single pieces to all pieces, answering takes it to triggers, and following to redirects of any
  depth, so that whoever compares two turns compares single pieces only.

  Proved:
  - Plays that agree step by step agree (`Agree.bind`).
  - What single tags can do to the user (`user_applyMath`, `user_callMacro`).
  - Rendering agrees if it does at every piece (`agree_renderPieces`), and so does what a trigger
    says (`agree_say`).
  - Turns agree that search alike and answer what they find alike (`agree_follow`, `agree_play`),
    as they do if their rules differ only in what triggers say (`converges_of_parallel`).
  - What a trigger says depends on its scene by tags, macros and draws only (`say_congr`).
-/

import Repartee.Turn.Play

namespace Repartee

/-! ## Pieces in pieces -/

mutual

/-- A piece and all pieces in it have a property. -/
def Piece.Each (P : Piece → Prop) : Piece → Prop
  | .set name value => P (.set name value) ∧ eachPiece P value
  | .math op name operand => P (.math op name operand) ∧ eachPiece P operand
  | .call line => P (.call line) ∧ eachPiece P line
  | .redirect target => P (.redirect target) ∧ eachPiece P target
  | .random alternatives => P (.random alternatives) ∧ eachAlternative P alternatives
  | .recase r body => P (.recase r body) ∧ eachPiece P body
  | p => P p

def eachPiece (P : Piece → Prop) : List Piece → Prop
  | [] => True
  | p :: ps => p.Each P ∧ eachPiece P ps

def eachAlternative (P : Piece → Prop) : List (List Piece) → Prop
  | [] => True
  | ps :: alternatives => eachPiece P ps ∧ eachAlternative P alternatives

end

mutual

/-- A piece with others in the place of those in it that hold none. -/
def Piece.replace (f : Piece → Piece) : Piece → Piece
  | .set name value => .set name (replacePieces f value)
  | .math op name operand => .math op name (replacePieces f operand)
  | .call line => .call (replacePieces f line)
  | .redirect target => .redirect (replacePieces f target)
  | .random alternatives => .random (replaceAlternatives f alternatives)
  | .recase r body => .recase r (replacePieces f body)
  | p => f p

def replacePieces (f : Piece → Piece) : List Piece → List Piece
  | [] => []
  | p :: ps => p.replace f :: replacePieces f ps

def replaceAlternatives (f : Piece → Piece) : List (List Piece) → List (List Piece)
  | [] => []
  | ps :: alternatives => replacePieces f ps :: replaceAlternatives f alternatives

end

/-- A piece that holds no other. -/
def Piece.isLeaf : Piece → Bool
  | .set .. | .math .. | .call _ | .redirect _ | .random _ | .recase .. => false
  | _ => true

def Template.replace (f : Piece → Piece) (t : Template) : Template := { t with pieces := replacePieces f t.pieces }

def Condition.replace (f : Piece → Piece) (c : Condition) : Condition :=
  { c with left := c.left.replace f, right := c.right.replace f, body := c.body.replace f }

def Trigger.replace (f : Piece → Piece) (t : Trigger) : Trigger :=
  { t with
    replies := t.replies.map (·.replace f)
    conditions := t.conditions.map (·.replace f)
    redirect := t.redirect.map (·.replace f) }

/-- Every piece of a trigger has a property. -/
structure Trigger.Each (P : Piece → Prop) (t : Trigger) : Prop where
  replies : ∀ reply ∈ t.replies, eachPiece P reply.pieces
  conditions : ∀ c ∈ t.conditions, eachPiece P c.left.pieces ∧ eachPiece P c.right.pieces ∧ eachPiece P c.body.pieces
  redirect : ∀ target ∈ t.redirect, eachPiece P target.pieces

section Pieces

variable {P : Piece → Prop}

mutual

def Piece.decidableEach [DecidablePred P] : (p : Piece) → Decidable (p.Each P)
  | .set _ value => @instDecidableAnd _ _ inferInstance (decidableEachPiece value)
  | .math _ _ operand => @instDecidableAnd _ _ inferInstance (decidableEachPiece operand)
  | .call line => @instDecidableAnd _ _ inferInstance (decidableEachPiece line)
  | .redirect target => @instDecidableAnd _ _ inferInstance (decidableEachPiece target)
  | .random alternatives => @instDecidableAnd _ _ inferInstance (decidableEachAlternative alternatives)
  | .recase _ body => @instDecidableAnd _ _ inferInstance (decidableEachPiece body)
  | .text s => inferInstanceAs (Decidable (P (.text s)))
  | .star i => inferInstanceAs (Decidable (P (.star i)))
  | .botStar i => inferInstanceAs (Decidable (P (.botStar i)))
  | .input i => inferInstanceAs (Decidable (P (.input i)))
  | .reply i => inferInstanceAs (Decidable (P (.reply i)))
  | .get name => inferInstanceAs (Decidable (P (.get name)))
  | .bot name => inferInstanceAs (Decidable (P (.bot name)))
  | .env name => inferInstanceAs (Decidable (P (.env name)))
  | .userId => inferInstanceAs (Decidable (P .userId))
  | .topic name => inferInstanceAs (Decidable (P (.topic name)))

def decidableEachPiece [DecidablePred P] : (ps : List Piece) → Decidable (eachPiece P ps)
  | [] => isTrue trivial
  | p :: ps => @instDecidableAnd _ _ p.decidableEach (decidableEachPiece ps)

def decidableEachAlternative [DecidablePred P] : (alternatives : List (List Piece)) → Decidable (eachAlternative P alternatives)
  | [] => isTrue trivial
  | ps :: alternatives => @instDecidableAnd _ _ (decidableEachPiece ps) (decidableEachAlternative alternatives)

end

instance [DecidablePred P] : DecidablePred (eachPiece P) := decidableEachPiece

instance [DecidablePred P] : DecidablePred (Trigger.Each P) := fun t =>
  decidable_of_iff ((∀ reply ∈ t.replies, eachPiece P reply.pieces) ∧
    (∀ c ∈ t.conditions, eachPiece P c.left.pieces ∧ eachPiece P c.right.pieces ∧ eachPiece P c.body.pieces) ∧
    ∀ target ∈ t.redirect, eachPiece P target.pieces)
    ⟨fun h => ⟨h.1, h.2.1, h.2.2⟩, fun h => ⟨h.replies, h.conditions, h.redirect⟩⟩

mutual

theorem each_of_forall (h : ∀ p, P p) (p : Piece) : p.Each P := by
  cases p with
  | set name value => exact ⟨h _, eachPiece_of_forall h value⟩
  | math op name operand => exact ⟨h _, eachPiece_of_forall h operand⟩
  | call line => exact ⟨h _, eachPiece_of_forall h line⟩
  | redirect target => exact ⟨h _, eachPiece_of_forall h target⟩
  | random alternatives => exact ⟨h _, eachAlternative_of_forall h alternatives⟩
  | recase r body => exact ⟨h _, eachPiece_of_forall h body⟩
  | _ => exact h _

theorem eachPiece_of_forall (h : ∀ p, P p) (ps : List Piece) : eachPiece P ps := by
  cases ps with
  | nil => trivial
  | cons p ps => exact ⟨each_of_forall h p, eachPiece_of_forall h ps⟩

theorem eachAlternative_of_forall (h : ∀ p, P p) (alternatives : List (List Piece)) :
    eachAlternative P alternatives := by
  cases alternatives with
  | nil => trivial
  | cons ps alternatives => exact ⟨eachPiece_of_forall h ps, eachAlternative_of_forall h alternatives⟩

end

theorem Trigger.each_of_forall (h : ∀ p, P p) (t : Trigger) : t.Each P :=
  ⟨fun _ _ => eachPiece_of_forall h _,
    fun _ _ => ⟨eachPiece_of_forall h _, eachPiece_of_forall h _, eachPiece_of_forall h _⟩,
    fun _ _ => eachPiece_of_forall h _⟩

mutual

theorem Piece.Each.imp {Q : Piece → Prop} (h : ∀ p, P p → Q p) (p : Piece) (hp : p.Each P) : p.Each Q := by
  cases p with
  | set name value => exact ⟨h _ hp.1, eachPiece_imp h value hp.2⟩
  | math op name operand => exact ⟨h _ hp.1, eachPiece_imp h operand hp.2⟩
  | call line => exact ⟨h _ hp.1, eachPiece_imp h line hp.2⟩
  | redirect target => exact ⟨h _ hp.1, eachPiece_imp h target hp.2⟩
  | random alternatives => exact ⟨h _ hp.1, eachAlternative_imp h alternatives hp.2⟩
  | recase r body => exact ⟨h _ hp.1, eachPiece_imp h body hp.2⟩
  | _ => exact h _ hp

theorem eachPiece_imp {Q : Piece → Prop} (h : ∀ p, P p → Q p) (ps : List Piece) (hps : eachPiece P ps) :
    eachPiece Q ps := by
  cases ps with
  | nil => trivial
  | cons p ps => exact ⟨Piece.Each.imp h p hps.1, eachPiece_imp h ps hps.2⟩

theorem eachAlternative_imp {Q : Piece → Prop} (h : ∀ p, P p → Q p) (alternatives : List (List Piece))
    (hall : eachAlternative P alternatives) : eachAlternative Q alternatives := by
  cases alternatives with
  | nil => trivial
  | cons ps alternatives => exact ⟨eachPiece_imp h ps hall.1, eachAlternative_imp h alternatives hall.2⟩

end

theorem Trigger.Each.imp {Q : Piece → Prop} (h : ∀ p, P p → Q p) {t : Trigger} (ht : t.Each P) : t.Each Q :=
  ⟨fun reply hreply => eachPiece_imp h _ (ht.replies reply hreply),
    fun c hc => (ht.conditions c hc).imp (eachPiece_imp h _) (And.imp (eachPiece_imp h _) (eachPiece_imp h _)),
    fun target htarget => eachPiece_imp h _ (ht.redirect target htarget)⟩

mutual

theorem Piece.replace_id (p : Piece) : p.replace id = p := by
  cases p with
  | set name value => rw [Piece.replace, replacePieces_id value]
  | math op name operand => rw [Piece.replace, replacePieces_id operand]
  | call line => rw [Piece.replace, replacePieces_id line]
  | redirect target => rw [Piece.replace, replacePieces_id target]
  | random alternatives => rw [Piece.replace, replaceAlternatives_id alternatives]
  | recase r body => rw [Piece.replace, replacePieces_id body]
  | _ => rfl

theorem replacePieces_id (ps : List Piece) : replacePieces id ps = ps := by
  cases ps with
  | nil => rfl
  | cons p ps => rw [replacePieces, Piece.replace_id p, replacePieces_id ps]

theorem replaceAlternatives_id (alternatives : List (List Piece)) : replaceAlternatives id alternatives = alternatives := by
  cases alternatives with
  | nil => rfl
  | cons ps alternatives => rw [replaceAlternatives, replacePieces_id ps, replaceAlternatives_id alternatives]

end

theorem Template.replace_id (t : Template) : t.replace id = t := by rw [Template.replace, replacePieces_id]

theorem Condition.replace_id (c : Condition) : c.replace id = c := by
  simp only [Condition.replace, Template.replace_id]

theorem Trigger.replace_id (t : Trigger) : t.replace id = t := by
  simp only [Trigger.replace, Template.replace_id, Condition.replace_id, List.map_id', Option.map_id']

theorem length_replaceAlternatives (f : Piece → Piece) (alternatives : List (List Piece)) :
    (replaceAlternatives f alternatives).length = alternatives.length := by
  induction alternatives with
  | nil => rfl
  | cons ps alternatives ih => rw [replaceAlternatives, List.length_cons, List.length_cons, ih]

end Pieces

namespace Turn

/-! ## Plays that agree -/

variable {α β γ : Type}

/-- From every turn whose user meets a condition, both plays come to the same, with a user that
still meets it. -/
def Agree (I : User → Prop) (p q : Play α) : Prop :=
  ∀ t, I t.user → p.run t = q.run t ∧ I (p.run t).2.user

theorem run_bind (p : Play α) (k : α → Play β) (t : Turn) :
    (p >>= k).run t = match p.run t with
      | (.ok a, t) => (k a).run t
      | (.error e, t) => (.error e, t) := by
  change ExceptT.bindCont k (p.run t).1 (p.run t).2 = _
  rcases p.run t with ⟨_ | a, t'⟩
  · rfl
  · rfl

section Agree

variable {I : User → Prop} {p q : Play α} {k l : α → Play β}

theorem Agree.pure (a : α) : Agree I (pure a) (pure a) := fun _ ht => ⟨rfl, ht⟩

/-- What follows has to agree on what can come of the first play only. -/
theorem Agree.bind_of {Q : α → Prop} (h : Agree I p q) (hQ : ∀ t a t', p.run t = (.ok a, t') → Q a)
    (hk : ∀ a, Q a → Agree I (k a) (l a)) : Agree I (p >>= k) (q >>= l) := by
  intro t ht
  obtain ⟨heq, hkept⟩ := h t ht
  rw [run_bind, run_bind, ← heq]
  rcases hrun : p.run t with ⟨_ | a, t'⟩
  · rw [hrun] at hkept
    exact ⟨rfl, hkept⟩
  · rw [hrun] at hkept
    exact hk a (hQ t a t' hrun) t' hkept

theorem Agree.bind (h : Agree I p q) (hk : ∀ a, Agree I (k a) (l a)) : Agree I (p >>= k) (q >>= l) :=
  h.bind_of (Q := fun _ => True) (fun _ _ _ _ => trivial) fun a _ => hk a

/-- What never aborts agrees with itself if it keeps the condition. -/
theorem agree_lift {x : Act α} (h : ∀ t, I t.user → I (x.run t).2.user) : Agree I (liftM x : Play α) (liftM x) :=
  fun t ht => ⟨rfl, h t ht⟩

/-- What leaves the user alone keeps any condition. -/
theorem agree_untouched {x : Act α} (h : ∀ t, (x.run t).2.user = t.user) : Agree I (liftM x : Play α) (liftM x) :=
  agree_lift fun t ht => by
    rw [h t]
    exact ht

/-- Without a condition, to agree is to be equal. -/
theorem agree_true_iff : Agree (fun _ => True) p q ↔ p = q := by
  constructor
  · intro h
    funext t
    exact (h t trivial).1
  · intro h t _
    exact ⟨by rw [h], trivial⟩

end Agree

/-! ## What tags do to the user -/

theorem user_capture (captures : List String) (index : Nat) (t : Turn) :
    ((capture captures index).run t).2.user = t.user := by
  cases index with
  | zero => rfl
  | succ index =>
    rw [capture]
    cases captures[index]? with
    | none => rfl
    | some text => rfl

theorem run_remembered {entry : User → Nat → Option String} {ago : Nat} {text : String} {t : Turn}
    (h : entry t.user ago = some text) : (remembered entry ago).run t = (text, t) := by
  rw [remembered]
  simp only [StateT.run_bind, StateT.run_get, pure_bind, h]
  rfl

theorem user_remembered (entry : User → Nat → Option String) (ago : Nat) (t : Turn) :
    ((remembered entry ago).run t).2.user = t.user := by
  rw [remembered]
  simp only [StateT.run_bind, StateT.run_get, pure_bind]
  cases entry t.user ago with
  | none => rfl
  | some text => rfl

/-- Arithmetic writes its variable or nothing. -/
theorem user_applyMath (op : MathOp) (name operand : String) (t : Turn) :
    ((applyMath op name operand).run t).2.user = t.user ∨
      ∃ value, ((applyMath op name operand).run t).2.user = t.user.set name value := by
  rw [applyMath]
  simp only [StateT.run_bind, StateT.run_get, pure_bind]
  split
  · exact .inl rfl
  · exact .inl rfl
  · split
    · exact .inl rfl
    · exact .inr ⟨_, rfl⟩

/-- A call changes the user as the subroutine does that it calls. -/
theorem user_callMacro (s : Scene) (line : String) (t : Turn) :
    ((callMacro s line).run t).2.user = t.user ∨
      ∃ name subroutine call, s.macros.resolve? name = some subroutine ∧
        ((callMacro s line).run t).2.user = (subroutine call t.user).2 := by
  rw [callMacro]
  cases Text.wordsOf line with
  | nil => exact .inl rfl
  | cons name args =>
    cases hname : s.macros.resolve? name with
    | none =>
      simp only [hname]
      exact .inl rfl
    | some subroutine =>
      let call : MacroCall := { name, args, expired := s.settings.macroTimeout == some 0 }
      refine .inr ⟨name, subroutine, call, hname, ?_⟩
      simp only [hname, StateT.run_bind, StateT.run_get, pure_bind]
      cases (subroutine call t.user).1 with
      | ok text => rfl
      | error e => rfl

/-! ## Rendering -/

/-- Two scenes, each with an answer to redirects, are alike at all single pieces with a property, once
those that hold no others are replaced. -/
structure Mirrors (I : User → Prop) (P : Piece → Prop) (f : Piece → Piece) (captures : Captures) (s s' : Scene)
    (redirect redirect' : String → Play String) : Prop where
  leaf : ∀ p, P p → p.isLeaf = true → Agree I (renderPiece s redirect captures p) (renderPiece s' redirect' captures (f p))
  set : ∀ name value, P (.set name value) → ∀ text (u : User), I u → I (u.set name text)
  math : ∀ op name operand, P (.math op name operand) → ∀ text t, I t.user → I ((applyMath op name text).run t).2.user
  call : ∀ line, P (.call line) → ∀ text, Agree I (callMacro s text : Play String) (callMacro s' text)
  random : ∀ alternatives, P (.random alternatives) → alternatives ≠ [] →
    Agree I (draw s alternatives.length : Play Nat) (draw s' alternatives.length)
  redirect : ∀ target, Agree I (redirect target) (redirect' target)

section Render

variable {I : User → Prop} {P : Piece → Prop} {f : Piece → Piece} {captures : Captures} {s s' : Scene}
  {redirect redirect' : String → Play String}

mutual

theorem agree_renderPiece (h : Mirrors I P f captures s s' redirect redirect') (p : Piece) (hp : p.Each P) :
    Agree I (renderPiece s redirect captures p) (renderPiece s' redirect' captures (p.replace f)) := by
  cases p with
  | set name value =>
    rw [Piece.replace, renderPiece, renderPiece]
    refine (agree_renderPieces h value hp.2).bind fun text => ?_
    exact (agree_lift fun t => h.set name value hp.1 text t.user).bind fun _ => .pure _
  | math op name operand =>
    rw [Piece.replace, renderPiece, renderPiece]
    refine (agree_renderPieces h operand hp.2).bind fun text => ?_
    exact (agree_lift (h.math op name operand hp.1 text)).bind fun _ => .pure _
  | call line =>
    rw [Piece.replace, renderPiece, renderPiece]
    exact (agree_renderPieces h line hp.2).bind (h.call line hp.1)
  | redirect target =>
    rw [Piece.replace, renderPiece, renderPiece]
    exact (agree_renderPieces h target hp.2).bind fun text => h.redirect _
  | random alternatives =>
    rw [Piece.replace, renderPiece, renderPiece]
    cases alternatives with
    | nil => exact .pure _
    | cons ps alternatives =>
      have hdraw := h.random (ps :: alternatives) hp.1 (List.cons_ne_nil ps alternatives)
      rw [length_replaceAlternatives]
      exact hdraw.bind fun i => agree_renderNth h (ps :: alternatives) hp.2 i
  | recase r body =>
    rw [Piece.replace, renderPiece, renderPiece]
    exact (agree_renderPieces h body hp.2).bind fun _ => .pure _
  | _ => exact h.leaf _ hp rfl

/-- Rendering agrees if it does at every single piece. -/
theorem agree_renderPieces (h : Mirrors I P f captures s s' redirect redirect') (ps : List Piece) (hps : eachPiece P ps) :
    Agree I (renderPieces s redirect captures ps) (renderPieces s' redirect' captures (replacePieces f ps)) := by
  cases ps with
  | nil => exact .pure _
  | cons p ps =>
    rw [replacePieces, renderPieces, renderPieces]
    exact (agree_renderPiece h p hps.1).bind fun _ => (agree_renderPieces h ps hps.2).bind fun _ => .pure _

theorem agree_renderNth (h : Mirrors I P f captures s s' redirect redirect') (alternatives : List (List Piece))
    (hall : eachAlternative P alternatives) (i : Nat) :
    Agree I (renderNth s redirect captures alternatives i)
      (renderNth s' redirect' captures (replaceAlternatives f alternatives) i) := by
  cases alternatives with
  | nil => exact .pure _
  | cons ps alternatives =>
    cases i with
    | zero => exact agree_renderPieces h ps hall.1
    | succ i => exact agree_renderNth h alternatives hall.2 i

end

/-! ## What a trigger says -/

theorem agree_render (h : Mirrors I P f captures s s' redirect redirect') (t : Template) (ht : eachPiece P t.pieces) :
    Agree I (render s redirect captures t) (render s' redirect' captures (t.replace f)) :=
  agree_renderPieces h t.pieces ht

/-- Of the condition that holds, a replacement is found in the place of the body. -/
theorem agree_firstHolding (h : Mirrors I P f captures s s' redirect redirect') (cs : List Condition)
    (hcs : ∀ c ∈ cs, eachPiece P c.left.pieces ∧ eachPiece P c.right.pieces ∧ eachPiece P c.body.pieces)
    {k l : Option Template → Play String} (hnone : Agree I (k none) (l none))
    (hsome : ∀ t, eachPiece P t.pieces → Agree I (k (some t)) (l (some (t.replace f)))) :
    Agree I (firstHolding s redirect captures cs >>= k)
      (firstHolding s' redirect' captures (cs.map (·.replace f)) >>= l) := by
  induction cs with
  | nil =>
    simp only [List.map_nil, firstHolding, pure_bind]
    exact hnone
  | cons c cs ih =>
    rw [List.forall_mem_cons] at hcs
    obtain ⟨⟨hleft, hright, hbody⟩, hrest⟩ := hcs
    simp only [List.map_cons, firstHolding, bind_assoc]
    refine (agree_render h c.left hleft).bind fun left => (agree_render h c.right hright).bind fun right => ?_
    by_cases hholds : c.comparison.holds left right = true
    · simp only [Condition.replace, hholds, if_true, pure_bind]
      exact hsome c.body hbody
    · simp only [Condition.replace, hholds, Bool.false_eq_true, if_false]
      exact ih hrest

/-- The same place is picked among replies of the same shares. -/
theorem pick_map (s : Scene) {f : Template → Template} (hf : ∀ t, share (f t) = share t) (replies : List Template) :
    pick s (replies.map f) = Option.map f <$> pick s replies := by
  cases replies with
  | nil => rfl
  | cons first rest =>
    cases rest with
    | nil => rfl
    | cons second rest =>
      have hshare : ((first :: second :: rest).map f).map share = (first :: second :: rest).map share := by
        rw [List.map_map]
        exact List.map_congr_left fun t _ => hf t
      have hpick : ∀ ts : List Template, 2 ≤ ts.length → pick s ts = do
          let i ← draw s (totalShare (ts.map share))
          return (shareOf (ts.map share) i).bind (ts[·]?) := by
        intro ts hts
        match ts, hts with
        | _ :: _ :: _, _ => rfl
      rw [hpick _ (by simp), hpick _ (by simp), hshare, map_bind]
      refine bind_congr fun i => ?_
      rw [map_pure, Option.map_bind]
      congr 2
      funext place
      rw [List.getElem?_map]
      rfl

theorem pick_replace (s : Scene) (f : Piece → Piece) (replies : List Template) :
    pick s (replies.map (·.replace f)) = Option.map (·.replace f) <$> pick s replies :=
  pick_map s (f := (·.replace f)) (fun _ => rfl) replies

theorem mem_of_pick {s : Scene} {replies : List Template} {reply : Template} {t : Turn}
    (h : (pick s replies t).1 = some reply) : reply ∈ replies := by
  match replies, h with
  | [_], h =>
    cases h
    exact List.mem_singleton_self _
  | first :: second :: rest, h =>
    obtain ⟨i, -, hi⟩ := Option.bind_eq_some_iff.mp h
    exact List.mem_of_getElem? hi

/-- What a trigger says agrees if rendering does at every single piece. -/
theorem agree_say (h : Mirrors I P f captures s s' redirect redirect') {trigger : Trigger} (htrigger : trigger.Each P)
    (hpick : Agree I (pick s trigger.replies : Play (Option Template)) (pick s' trigger.replies))
    (hsettings : s.settings = s'.settings) :
    Agree I (say s redirect captures trigger) (say s' redirect' captures (trigger.replace f)) := by
  rw [say, say, Trigger.replace]
  cases hredirect : trigger.redirect with
  | some target =>
    have htarget : eachPiece P target.pieces := htrigger.redirect target hredirect
    exact (agree_render h target htarget).bind fun text => h.redirect _
  | none =>
    refine agree_firstHolding h trigger.conditions htrigger.conditions ?_ (agree_render h)
    simp only [pick_replace, liftM_map, bind_map_left]
    have hmem : ∀ t picked t', (liftM (pick s trigger.replies) : Play (Option Template)).run t = (.ok picked, t') →
        ∀ reply ∈ picked, reply ∈ trigger.replies := by
      intro t picked t' hrun reply hreply
      cases hrun
      exact mem_of_pick hreply
    refine hpick.bind_of hmem fun picked hpicked => ?_
    cases picked with
    | none =>
      rw [hsettings]
      exact .pure _
    | some reply => exact agree_render h reply (htrigger.replies reply (hpicked reply rfl))

end Render

/-! ## Whole turns -/

section Turns

variable {I : User → Prop} {s s' : Scene}

/-- Searching looks at the user and may send it home. -/
theorem keeps_find (hhome : ∀ u, I u → I (u.setTopic homeTopic)) (s : Scene) (depth : Nat) (text : String) {t : Turn}
    (ht : I t.user) : I ((find s depth text).run t).2.user := by
  have hsearch : ∀ (ranking : Ranking) (t : Turn), ((searchIn s ranking depth text).run t).2.user = t.user :=
    fun _ _ => rfl
  simp only [find, StateT.run_bind, StateT.run_get, pure_bind]
  cases s.rules.ranking? t.user.topic with
  | some ranking => exact (hsearch ranking t).symm ▸ ht
  | none =>
    cases s.rules.ranking? homeTopic with
    | some ranking => exact hhome _ ht
    | none => exact hhome _ ht

/-- Both scenes find the same, and answer it alike wherever they answer redirects alike. -/
structure Converges (I : User → Prop) (s s' : Scene) : Prop where
  home : ∀ u, I u → I (u.setTopic homeTopic)
  settings : s.settings = s'.settings
  find : find s = find s'
  matched : matchedBy s.rules = matchedBy s'.rules
  answer : ∀ redirect redirect', (∀ target, Agree I (redirect target) (redirect' target)) →
    ∀ finding, Agree I (answer s redirect finding) (answer s' redirect' finding)

theorem agree_follow (h : Converges I s s') (left : Nat) (target : String) :
    Agree I (follow s left target) (follow s' left target) := by
  induction left generalizing target with
  | zero =>
    rw [follow, follow, h.settings]
    exact fun t ht => ⟨rfl, ht⟩
  | succ left ih =>
    rw [follow, follow, h.settings, h.find]
    refine (agree_lift fun t ht => ht).bind fun _ => ?_
    have hfind := agree_lift fun t => keeps_find h.home s' (s'.settings.maxDepth - left) target (t := t)
    exact hfind.bind (h.answer _ _ ih)

/-- From a user that meets the condition, both scenes make the same of a message. -/
theorem agree_play (h : Converges I s s') {u : User} (hu : I u) (message : String) :
    play s u message = play s' u message := by
  have hfound := keeps_find h.home s' 0 message (t := { user := u }) hu
  rw [play, play, h.find, h.matched, h.settings]
  rcases hrun : (find s' 0 message).run { user := u } with ⟨finding, t⟩
  rw [hrun] at hfound
  obtain ⟨heq, -⟩ := h.answer _ _ (agree_follow h s'.settings.maxDepth) finding t hfound
  dsimp only
  rw [heq]

/-- The user that a turn leaves behind met the condition until the turn was noted. -/
theorem keeps_play (h : Converges I s s') {u : User} (hu : I u) (message : String) :
    ∃ v, I v ∧ (play s u message).2 =
      (noteMatch (play s u message).1.matched v).record message (play s u message).1.reply := by
  have hfound := keeps_find h.home s 0 message (t := { user := u }) hu
  rw [play]
  rcases hrun : (find s 0 message).run { user := u } with ⟨finding, t⟩
  rw [hrun] at hfound
  obtain ⟨-, hkept⟩ := h.answer _ _ (agree_follow h s.settings.maxDepth) finding t hfound
  exact ⟨_, hkept, rfl⟩

end Turns

end Turn

/-! ## Rules that differ in what triggers say -/

/-- The same topics, and triggers that are related at each number and have the same patterns. -/
structure Catalog.Parallel (R : Trigger → Trigger → Prop) (c c' : Catalog) : Prop where
  topics : c.topics = c'.topics
  triggers : ∀ id : TriggerId, Option.Rel (fun t t' => t.pattern = t'.pattern ∧ t.previous = t'.previous ∧ R t t')
    c.triggers[id]? c'.triggers[id]?

/-- The same rules, but for what triggers say. -/
structure Rulebook.Parallel (R : Trigger → Trigger → Prop) (r r' : Rulebook) : Prop where
  catalog : r.catalog.Parallel R r'.catalog
  rankings : r.rankings = r'.rankings
  lexicon : r.lexicon = r'.lexicon

namespace Catalog.Parallel

variable {R : Trigger → Trigger → Prop} {c c' : Catalog}

theorem topicId? (h : c.Parallel R c') : c.topicId? = c'.topicId? := by
  funext name
  rw [Catalog.topicId?, Catalog.topicId?, h.topics]

theorem topicName (h : c.Parallel R c') : c.topicName = c'.topicName := by
  funext t
  rw [Catalog.topicName, Catalog.topicName, h.topics]

/-- At a number there are triggers on both sides or on none. -/
theorem cases_at (h : c.Parallel R c') (id : TriggerId) :
    (c.triggers[id]? = none ∧ c'.triggers[id]? = none) ∨
      ∃ t t', c.triggers[id]? = some t ∧ c'.triggers[id]? = some t' ∧ t.pattern = t'.pattern ∧
        t.previous = t'.previous ∧ R t t' := by
  have hrel := h.triggers id
  generalize c.triggers[id]? = o at hrel ⊢
  generalize c'.triggers[id]? = o' at hrel ⊢
  cases hrel with
  | none => exact .inl ⟨rfl, rfl⟩
  | some hrel => exact .inr ⟨_, _, rfl, rfl, hrel⟩

theorem fit (h : c.Parallel R c') (words : List String) : c.fit words = c'.fit words := by
  funext e
  rw [Catalog.fit, Catalog.fit]
  rcases h.cases_at e.trigger with ⟨ht, ht'⟩ | ⟨t, t', ht, ht', hpattern, -⟩
  · rw [ht, ht']
  · rw [ht, ht', Option.bind_some, Option.bind_some, hpattern]

theorem constrainedFit (h : c.Parallel R c') (words lastReply : List String) :
    c.constrainedFit words lastReply = c'.constrainedFit words lastReply := by
  funext e
  rw [Catalog.constrainedFit, Catalog.constrainedFit]
  rcases h.cases_at e.trigger with ⟨ht, ht'⟩ | ⟨t, t', ht, ht', hpattern, hprevious, -⟩
  · rw [ht, ht']
  · simp only [ht, ht', Option.bind_eq_bind, Option.bind_some, hpattern, hprevious]

theorem search (h : c.Parallel R c') (ranking : Ranking) (words lastReply : List String) :
    c.search ranking words lastReply = c'.search ranking words lastReply := by
  rw [Catalog.search, Catalog.search, h.constrainedFit, h.fit]

end Catalog.Parallel

namespace Rulebook.Parallel

variable {R : Trigger → Trigger → Prop} {r r' : Rulebook}

theorem ranking? (h : r.Parallel R r') : r.ranking? = r'.ranking? := by
  funext name
  rw [Rulebook.ranking?, Rulebook.ranking?, h.catalog.topicId?, h.rankings]

theorem patternText (h : r.Parallel R r') : r.patternText = r'.patternText := by
  funext id
  rw [Rulebook.patternText, Rulebook.patternText]
  rcases h.catalog.cases_at id with ⟨ht, ht'⟩ | ⟨t, t', ht, ht', hpattern, -⟩
  · rw [ht, ht']
  · rw [ht, ht', Option.map_some, Option.map_some, hpattern]

end Rulebook.Parallel

namespace Turn

section Parallel

variable {I : User → Prop} {R : Trigger → Trigger → Prop} {s s' : Scene}

theorem searchIn_parallel (h : s.rules.Parallel R s'.rules) (ranking : Ranking) (depth : Nat) (text : String) :
    searchIn s ranking depth text = searchIn s' ranking depth text := by
  simp only [searchIn, h.lexicon, h.catalog.search, h.patternText]

theorem find_parallel (h : s.rules.Parallel R s'.rules) : find s = find s' := by
  funext depth text
  simp only [find, h.ranking?, searchIn_parallel h]

theorem matchedBy_parallel (h : s.rules.Parallel R s'.rules) : matchedBy s.rules = matchedBy s'.rules := by
  funext f
  simp only [matchedBy, h.patternText, h.catalog.topicName]

/-- Turns converge if related triggers say the same wherever redirects are answered alike. -/
theorem converges_of_parallel (h : s.rules.Parallel R s'.rules) (hsettings : s.settings = s'.settings)
    (hhome : ∀ u, I u → I (u.setTopic homeTopic))
    (hsay : ∀ redirect redirect', (∀ target, Agree I (redirect target) (redirect' target)) → ∀ captures t t', R t t' →
      Agree I (say s redirect captures t) (say s' redirect' captures t')) : Converges I s s' := by
  refine ⟨hhome, hsettings, find_parallel h, matchedBy_parallel h, fun redirect redirect' hredirect finding => ?_⟩
  cases finding with
  | none =>
    rw [answer, answer, hsettings]
    exact .pure _
  | some f =>
    rw [answer, answer, hsettings]
    rcases h.catalog.cases_at f.candidate.trigger with ⟨ht, ht'⟩ | ⟨t, t', ht, ht', -, -, hrel⟩
    · rw [ht, ht']
      exact .pure _
    · rw [ht, ht']
      exact hsay redirect redirect' hredirect _ t t' hrel

end Parallel

/-! ## Scenes that prompt the same -/

/-- The same is read by tags and macros, whatever the draws. -/
structure Prompts (s s' : Scene) : Prop where
  vars : s.rules.vars = s'.rules.vars
  globals : s.rules.globals = s'.rules.globals
  macros : s.macros = s'.macros
  settings : s.settings = s'.settings

section Prompts

variable {P : Piece → Prop} {captures : Captures} {s s' : Scene} {redirect : String → Play String}

theorem callMacro_congr (h : Prompts s s') (line : String) : callMacro s line = callMacro s' line := by
  rw [callMacro, callMacro, h.macros, h.settings]

theorem mirrors_of_prompts (h : Prompts s s') (hdraw : ∀ alternatives, P (.random alternatives) → alternatives ≠ [] →
    draw s alternatives.length = draw s' alternatives.length) :
    Mirrors (fun _ => True) P id captures s s' redirect redirect := by
  refine ⟨fun p _ hleaf => ?_, fun _ _ _ _ _ _ => trivial, fun _ _ _ _ _ _ _ => trivial, fun line _ text => ?_,
    fun alternatives hp hne => ?_, fun _ => agree_true_iff.mpr rfl⟩
  · rw [agree_true_iff]
    cases p with
    | bot name => simp only [renderPiece, h.vars, id]
    | env name => simp only [renderPiece, h.globals, id]
    | set | math | call | redirect | random | recase => cases hleaf
    | _ => rfl
  · rw [agree_true_iff, callMacro_congr h]
  · rw [agree_true_iff, hdraw alternatives hp hne]

/-- What a trigger says depends on its scene by tags, macros and draws only. -/
theorem say_congr (h : Prompts s s') (hdraw : ∀ alternatives, P (.random alternatives) → alternatives ≠ [] →
    draw s alternatives.length = draw s' alternatives.length) {trigger : Trigger} (htrigger : trigger.Each P)
    (hpick : pick s trigger.replies = pick s' trigger.replies) :
    say s redirect captures trigger = say s' redirect captures trigger := by
  have hmirrors : Mirrors (fun _ => True) P id captures s s' redirect redirect := mirrors_of_prompts h hdraw
  have hagree := agree_say hmirrors htrigger (agree_true_iff.mpr (by rw [hpick])) h.settings
  rwa [Trigger.replace_id, agree_true_iff] at hagree

end Prompts

end Turn

end Repartee
