/-
  Repartee.Proofs.Calls.Measure — calls get smaller.

  A call is measured by the redirects that may still follow it, and then by the size of what it
  says or renders. A redirect lowers the first. Everything else stays at its depth: a message or
  redirect asks a trigger, a trigger renders one of its templates, a template one nested in it.

  Proved:
  - What a part does by itself (`within_part`): up to the depth allowed it ends with a text, calls
    only what is smaller, and notes no step that is too deep. A redirect beyond that depth only
    aborts (`part_of_tooDeep`).
  - So every call comes back to its caller, with what the turn gives (`leads_call`).
-/

import Mathlib.Algebra.Order.BigOperators.Group.List
import Mathlib.Data.ENat.Basic
import Mathlib.Data.Prod.Lex
import Repartee.Proofs.Calls

namespace Repartee

namespace Turn

open Turn.Part

/-! ## What a part does by itself -/

def Call.depth : Call → ℕ
  | .message _ => 0
  | .redirect depth _ => depth
  | .trigger depth .. => depth
  | .template depth .. => depth

mutual

/-- How many pieces there are, those nested in others included. -/
def pieceSize : Piece → ℕ
  | .set _ value => 1 + piecesSize value
  | .math _ _ operand => 1 + piecesSize operand
  | .call line => 1 + piecesSize line
  | .redirect target => 1 + piecesSize target
  | .random alternatives => 1 + alternativesSize alternatives
  | .recase _ body => 1 + piecesSize body
  | _ => 1

def piecesSize : List Piece → ℕ
  | [] => 0
  | p :: ps => pieceSize p + piecesSize ps

def alternativesSize : List (List Piece) → ℕ
  | [] => 0
  | ps :: alternatives => piecesSize ps + alternativesSize alternatives

end

/-- All templates a trigger can render. -/
def templatesOf (t : Trigger) : List Template :=
  t.redirect.toList ++ t.conditions.flatMap (fun c => [c.left, c.right, c.body]) ++ t.replies

def triggerSize (t : Trigger) : ℕ := 1 + ((templatesOf t).map (piecesSize ·.pieces)).sum

/-- The size of what is said or rendered; a message or redirect may be answered by any trigger. -/
def Call.size : Call → ℕ∞
  | .message _ => ⊤
  | .redirect _ _ => ⊤
  | .trigger _ _ t => triggerSize t
  | .template _ _ ps => piecesSize ps

/-- How many redirects may still follow, and then the size. -/
def Call.measure (s : Scene) (c : Call) : ℕ ×ₗ ℕ∞ := toLex (s.settings.maxDepth + 1 - c.depth, c.size)

def Call.TooDeep (s : Scene) (c : Call) : Prop := ∃ target, c = .redirect (s.settings.maxDepth + 1) target

/-- Within the depth allowed, or just beyond it. -/
def Call.Near (s : Scene) (c : Call) : Prop := c.depth ≤ s.settings.maxDepth ∨ c.TooDeep s

/-- No step was noted beyond the depth allowed. -/
def Bounded (s : Scene) (t : Turn) : Prop := ∀ step ∈ t.steps, step.depth ≤ s.settings.maxDepth

/-- The routine ends with a result that is `Q`, calls nothing but `P`, and notes no step too deep. -/
inductive Routine.Within {α : Type} (s : Scene) (P : Call → Prop) (Q : α → Prop) : Routine α → Prop
  | ended {a : α} {t : Turn} : Bounded s t → Q a → Within s P Q (.ended (.ok a) t)
  | calls {c : Call} {t : Turn} {resume : String → Turn → Routine α} : Bounded s t → P c →
      (∀ text t, Bounded s t → Within s P Q (resume text t)) → Within s P Q (.calls c t resume)

namespace Part

variable {α β : Type} {s : Scene} {P : Call → Prop} {Q : α → Prop} {R : β → Prop}

def Within (s : Scene) (P : Call → Prop) (Q : α → Prop) (p : Part α) : Prop :=
  ∀ t, Bounded s t → (p t).Within s P Q

theorem within_pure {a : α} (h : Q a) : Within s P Q (pure a : Part α) := fun _ ht => .ended ht h

theorem within_call {c : Call} (h : P c) : Within s P (fun _ => True) (call c) :=
  fun _ ht => .calls ht h fun _ _ ht' => .ended ht' trivial

theorem within_bindRoutine {k : α → Part β} (hk : ∀ a, Q a → Within s P R (k a)) {r : Routine α}
    (hr : r.Within s P Q) : (bindRoutine k r).Within s P R := by
  induction hr with
  | ended ht ha => exact hk _ ha _ ht
  | calls ht hc _ ih => exact .calls ht hc ih

theorem within_bind {p : Part α} {k : α → Part β} (hp : Within s P Q p) (hk : ∀ a, Q a → Within s P R (k a)) :
    Within s P R (p >>= k) := fun t ht => within_bindRoutine hk (hp t ht)

/-- It comes to a result that is `Q`, and no step is noted on the way. -/
def Quiet (Q : α → Prop) (p : Play α) : Prop :=
  ∀ t, (∃ a, (p.run t).1 = .ok a ∧ Q a) ∧ (p.run t).2.steps = t.steps

theorem within_alone {p : Play α} (h : Quiet Q p) : Within s P Q (alone p) := by
  intro t ht
  obtain ⟨⟨a, ha, hq⟩, hsteps⟩ := h t
  rw [alone, ha]
  refine .ended ?_ hq
  rw [Bounded, hsteps]
  exact ht

theorem quiet_lift {a : Act α} (h : ∀ t, (a.run t).2.steps = t.steps) : Quiet (fun _ => True) (liftM a : Play α) :=
  fun t => ⟨⟨(a.run t).1, rfl, trivial⟩, h t⟩

end Part

theorem steps_capture (captures : List String) (i : ℕ) (t : Turn) : ((capture captures i).run t).2.steps = t.steps := by
  cases i with
  | zero => rfl
  | succ i =>
    rw [capture]
    cases captures[i]? <;> rfl

theorem steps_remembered (entry : User → ℕ → Option String) (i : ℕ) (t : Turn) :
    ((remembered entry i).run t).2.steps = t.steps := by
  simp only [remembered, StateT.run_bind, StateT.run_get, pure_bind]
  cases entry t.user i <;> rfl

theorem steps_applyMath (op : MathOp) (name operand : String) (t : Turn) :
    ((applyMath op name operand).run t).2.steps = t.steps := by
  simp only [applyMath, StateT.run_bind, StateT.run_get, pure_bind]
  split
  · rfl
  · rfl
  · split
    · rfl
    · rfl

theorem steps_callMacro (s : Scene) (line : String) (t : Turn) : ((callMacro s line).run t).2.steps = t.steps := by
  rw [callMacro]
  split
  · rfl
  · split
    · rfl
    · simp only [StateT.run_bind, StateT.run_get, pure_bind]
      split
      · rfl
      · rfl

theorem piecesSize_le_of_mem {alternatives : List (List Piece)} {ps : List Piece} (h : ps ∈ alternatives) :
    piecesSize ps ≤ alternativesSize alternatives := by
  induction alternatives with
  | nil => cases h
  | cons qs alternatives ih =>
    rw [alternativesSize]
    rcases List.mem_cons.mp h with rfl | h
    · omega
    · have := ih h
      omega

theorem piecesSize_lt_triggerSize {t : Trigger} {template : Template} (h : template ∈ templatesOf t) :
    piecesSize template.pieces < triggerSize t := by
  have hle := List.single_le_sum (fun _ _ => Nat.zero_le _) _ (List.mem_map_of_mem (f := (piecesSize ·.pieces)) h)
  rw [triggerSize]
  omega

section Parts

variable {s : Scene} {P : Call → Prop} {depth : ℕ} {captures : Captures}

theorem within_piecePart {p : Piece}
    (hnested : ∀ ps, piecesSize ps < pieceSize p → P (.template depth captures ps))
    (hredirect : ∀ target, P (.redirect (depth + 1) target)) :
    Within s P (fun _ => True) (piecePart s depth captures p) := by
  cases p with
  | set name value =>
    rw [piecePart]
    refine within_bind (within_call (hnested value (by rw [pieceSize]; omega))) fun value _ => ?_
    exact within_bind (within_alone (quiet_lift fun _ => rfl)) fun _ _ => within_pure trivial
  | math op name operand =>
    rw [piecePart]
    refine within_bind (within_call (hnested operand (by rw [pieceSize]; omega))) fun operand _ => ?_
    exact within_bind (within_alone (quiet_lift (steps_applyMath op name operand))) fun _ _ => within_pure trivial
  | call line =>
    rw [piecePart]
    refine within_bind (within_call (hnested line (by rw [pieceSize]; omega))) fun line _ => ?_
    exact within_alone (quiet_lift (steps_callMacro s line))
  | redirect target =>
    rw [piecePart]
    refine within_bind (within_call (hnested target (by rw [pieceSize]; omega))) fun target _ => ?_
    exact within_call (hredirect _)
  | random alternatives =>
    rw [piecePart]
    split
    · exact within_pure trivial
    · refine within_bind (within_alone (quiet_lift fun _ => rfl)) fun i _ => ?_
      cases hi : alternatives[i]? with
      | none => exact within_pure trivial
      | some ps =>
        have hle := piecesSize_le_of_mem (List.mem_of_getElem? hi)
        exact within_call (hnested ps (by rw [pieceSize]; omega))
  | recase r body =>
    rw [piecePart]
    refine within_bind (within_call (hnested body (by rw [pieceSize]; omega))) fun text _ => ?_
    exact within_pure trivial
  | star index => exact within_alone (quiet_lift (steps_capture _ index))
  | botStar index => exact within_alone (quiet_lift (steps_capture _ index))
  | input index => exact within_alone (quiet_lift (steps_remembered _ index))
  | reply index => exact within_alone (quiet_lift (steps_remembered _ index))
  | _ => exact within_alone fun _ => ⟨⟨_, rfl, trivial⟩, rfl⟩

theorem within_templatePart {ps : List Piece}
    (hnested : ∀ qs, piecesSize qs < piecesSize ps → P (.template depth captures qs))
    (hredirect : ∀ target, P (.redirect (depth + 1) target)) :
    Within s P (fun _ => True) (templatePart s depth captures ps) := by
  induction ps with
  | nil => exact within_pure trivial
  | cons p ps ih =>
    have hp : Within s P (fun _ => True) (piecePart s depth captures p) :=
      within_piecePart (fun qs hqs => hnested qs (by rw [piecesSize]; omega)) hredirect
    have hps : Within s P (fun _ => True) (templatePart s depth captures ps) :=
      ih fun qs hqs => hnested qs (by rw [piecesSize]; omega)
    rw [templatePart]
    exact within_bind hp fun text _ => within_bind hps fun rest _ => within_pure trivial

theorem within_holdingPart {cs : List Condition}
    (h : ∀ c ∈ cs, ∀ t ∈ [c.left, c.right, c.body], P (.template depth captures t.pieces)) :
    Within s P (fun held => ∀ body ∈ held, P (.template depth captures body.pieces))
      (holdingPart depth captures cs) := by
  induction cs with
  | nil => exact within_pure nofun
  | cons c cs ih =>
    obtain ⟨hc, hcs⟩ := List.forall_mem_cons.mp h
    have hleft := hc c.left (by simp)
    have hright := hc c.right (by simp)
    rw [holdingPart]
    refine within_bind (within_call hleft) fun left _ => within_bind (within_call hright) fun right _ => ?_
    split
    · refine within_pure fun body hbody => ?_
      rw [← Option.mem_some_iff.mp hbody]
      exact hc c.body (by simp)
    · exact ih hcs

/-- What is picked is one of the replies. -/
theorem quiet_pick (s : Scene) (replies : List Template) :
    Quiet (fun picked => ∀ reply ∈ picked, reply ∈ replies) (liftM (pick s replies) : Play (Option Template)) := by
  rcases replies with _ | ⟨reply, _ | ⟨other, replies⟩⟩
  · exact fun _ => ⟨⟨_, rfl, nofun⟩, rfl⟩
  · exact fun _ => ⟨⟨_, rfl, by simp⟩, rfl⟩
  · refine fun t => ⟨⟨_, rfl, fun picked hpicked => ?_⟩, rfl⟩
    obtain ⟨i, -, hi⟩ := Option.bind_eq_some_iff.mp hpicked
    exact List.mem_of_getElem? hi

theorem within_triggerPart {trigger : Trigger}
    (h : ∀ t ∈ templatesOf trigger, P (.template depth captures t.pieces))
    (hredirect : ∀ target, P (.redirect (depth + 1) target)) :
    Within s P (fun _ => True) (triggerPart s depth captures trigger) := by
  rw [triggerPart]
  cases hr : trigger.redirect with
  | some target =>
    have htarget := h target (by simp [templatesOf, hr])
    exact within_bind (within_call htarget) fun text _ => within_call (hredirect _)
  | none =>
    have hconditions : ∀ c ∈ trigger.conditions, ∀ t ∈ [c.left, c.right, c.body],
        P (.template depth captures t.pieces) := by
      intro c hc t ht
      refine h t ?_
      simp only [templatesOf, List.mem_append, List.mem_flatMap]
      exact .inl (.inr ⟨c, hc, ht⟩)
    refine within_bind (within_holdingPart hconditions) fun held hheld => ?_
    cases held with
    | some body => exact within_call (hheld body rfl)
    | none =>
      refine within_bind (within_alone (quiet_pick s trigger.replies)) fun picked hpicked => ?_
      cases picked with
      | some reply => exact within_call (h reply (by simp [templatesOf, hpicked reply rfl]))
      | none => exact within_pure trivial

theorem within_findingPart {finding : Option Finding} (h : ∀ captures trigger, P (.trigger depth captures trigger)) :
    Within s P (fun _ => True) (findingPart s depth finding) := by
  cases finding with
  | none => exact within_pure trivial
  | some f =>
    rw [findingPart]
    cases s.rules.catalog.triggers[f.candidate.trigger]? with
    | some trigger => exact within_call (h _ trigger)
    | none => exact within_pure trivial

theorem bounded_searchIn {t : Turn} (ht : Bounded s t) (h : depth ≤ s.settings.maxDepth) (ranking : Ranking)
    (text : String) : Bounded s ((searchIn s ranking depth text).run t).2 := by
  intro step hstep
  rcases List.mem_append.mp hstep with hmem | hmem
  · exact ht step hmem
  · rw [List.mem_singleton.mp hmem]
    exact h

/-- A search notes a step at its own depth. -/
theorem bounded_find {t : Turn} (ht : Bounded s t) (h : depth ≤ s.settings.maxDepth) (text : String) :
    Bounded s ((find s depth text).run t).2 := by
  simp only [find, StateT.run_bind, StateT.run_get, pure_bind]
  split
  · exact bounded_searchIn ht h _ _
  · split
    · exact bounded_searchIn (t := { t with
        user := t.user.setTopic homeTopic
        diagnostics := t.diagnostics ++ [.unknownTopic t.user.topic] }) ht h _ _
    · exact ht

theorem within_find (h : depth ≤ s.settings.maxDepth) (text : String) :
    Within s P (fun _ => True) (alone (find s depth text)) :=
  fun _ ht => .ended (bounded_find ht h text) trivial

end Parts

/-! ## The measure -/

/-- What a call may call: nothing deeper than just too deep, and only what is smaller. -/
def Callable (s : Scene) (c c' : Call) : Prop := c'.Near s ∧ c'.measure s < c.measure s

section Measure

variable {s : Scene} {c c' : Call}

theorem callable_of_size (hdepth : c'.depth = c.depth) (hc : c.depth ≤ s.settings.maxDepth) (hsize : c'.size < c.size) :
    Callable s c c' := by
  refine ⟨.inl (hdepth ▸ hc), ?_⟩
  rw [Call.measure, Call.measure, hdepth, Prod.Lex.toLex_lt_toLex]
  exact .inr ⟨rfl, hsize⟩

theorem callable_redirect (hc : c.depth ≤ s.settings.maxDepth) (target : String) :
    Callable s c (.redirect (c.depth + 1) target) := by
  refine ⟨?_, ?_⟩
  · rcases Nat.lt_or_eq_of_le hc with h | h
    · exact .inl h
    · exact .inr ⟨target, by rw [h]⟩
  · rw [Call.measure, Call.measure, Prod.Lex.toLex_lt_toLex]
    have hlt : s.settings.maxDepth + 1 - (c.depth + 1) < s.settings.maxDepth + 1 - c.depth := by omega
    exact .inl hlt

theorem not_tooDeep (hc : c.depth ≤ s.settings.maxDepth) : ¬ c.TooDeep s := by
  intro ⟨target, htarget⟩
  rw [htarget, Call.depth] at hc
  omega

/-- Within the depth allowed a part ends with a text, calls only what it may, and notes no step too deep. -/
theorem within_part (hc : c.depth ≤ s.settings.maxDepth) : Within s (Callable s c) (fun _ => True) (part s c) := by
  cases c with
  | message text =>
    refine within_bind (within_find hc text) fun finding _ => within_findingPart fun captures trigger => ?_
    exact callable_of_size rfl hc (ENat.natCast_lt_top _)
  | redirect depth target =>
    have hnot : ¬ s.settings.maxDepth < depth := Nat.not_lt.mpr hc
    rw [part, if_neg hnot]
    refine within_bind (within_alone (quiet_lift fun _ => rfl)) fun _ _ => ?_
    refine within_bind (within_find hc target) fun finding _ => within_findingPart fun captures trigger => ?_
    exact callable_of_size rfl hc (ENat.natCast_lt_top _)
  | trigger depth captures trigger =>
    refine within_triggerPart (fun t ht => ?_) (callable_redirect hc)
    exact callable_of_size rfl hc (Nat.cast_lt.mpr (piecesSize_lt_triggerSize ht))
  | template depth captures ps =>
    refine within_templatePart (fun qs hqs => ?_) (callable_redirect hc)
    exact callable_of_size rfl hc (Nat.cast_lt.mpr hqs)

/-- A redirect too deep does nothing but abort. -/
theorem part_of_tooDeep (h : c.TooDeep s) (t : Turn) :
    ∃ t', part s c t = .ended (.error .tooDeep) t' ∧ t'.steps = t.steps := by
  obtain ⟨target, rfl⟩ := h
  rw [part, if_pos (Nat.lt_succ_self _)]
  exact ⟨_, rfl, rfl⟩

end Measure

/-! ## Coming back from a call -/

namespace Machine

variable {s : Scene} {m m' m'' : Machine}

theorem Leads.refl (m : Machine) : Leads s m m := ⟨0, rfl⟩

theorem Leads.trans (h : Leads s m m') (h' : Leads s m' m'') : Leads s m m'' := by
  obtain ⟨n, rfl⟩ := h
  obtain ⟨k, rfl⟩ := h'
  exact ⟨k + n, Function.iterate_add_apply _ _ _ _⟩

theorem leads_step (m : Machine) : Leads s m (m.step s) := ⟨1, rfl⟩

end Machine

section Runs

open Machine

variable {s : Scene}

/-- A routine comes to its outcome if the calls in it come back with their meanings. -/
theorem leads_routine {c : Call} {r : Routine String} (hr : r.Within s (Callable s c) fun _ => True)
    (ih : ∀ c', Callable s c c' → ∀ t, Bounded s t → Bounded s ((meaning s c').run t).2 ∧ ∀ waiting,
      Leads s ⟨c', part s c' t, waiting⟩ ⟨c', .ended ((meaning s c').run t).1 ((meaning s c').run t).2, waiting⟩) :
    Bounded s (outcome s r).2 ∧ ∀ waiting,
      Leads s ⟨c, r, waiting⟩ ⟨c, .ended (outcome s r).1 (outcome s r).2, waiting⟩ := by
  induction hr with
  | ended ht _ => exact ⟨ht, fun _ => .refl _⟩
  | @calls c' t resume ht hc _ ihr =>
    obtain ⟨hbounded, hleads⟩ := ih c' hc t ht
    rw [outcome]
    rcases hm : (meaning s c').run t with ⟨e | text, t'⟩
    · rw [hm] at hbounded hleads
      refine ⟨hbounded, fun waiting => ?_⟩
      exact (leads_step _).trans ((hleads _).trans (leads_step _))
    · rw [hm] at hbounded hleads
      obtain ⟨hb, hl⟩ := ihr text t' hbounded
      refine ⟨hb, fun waiting => ?_⟩
      exact (leads_step _).trans ((hleads _).trans ((leads_step _).trans (hl waiting)))

/-- A call comes back to whatever waits for it, with what the turn gives. -/
theorem leads_call {c : Call} (hc : c.Near s) {t : Turn} (ht : Bounded s t) :
    Bounded s ((meaning s c).run t).2 ∧ ∀ waiting,
      Leads s ⟨c, part s c t, waiting⟩ ⟨c, .ended ((meaning s c).run t).1 ((meaning s c).run t).2, waiting⟩ := by
  induction hm : c.measure s using WellFoundedLT.induction generalizing c t with
  | ind m ih =>
    have hmeaning : (meaning s c).run t = outcome s (part s c t) := by rw [← played_part]; rfl
    rw [hmeaning]
    rcases hc with hdepth | hdeep
    · refine leads_routine (within_part hdepth t ht) fun c' hc' t' ht' => ?_
      exact ih _ (hm ▸ hc'.2) hc'.1 ht' rfl
    · obtain ⟨t', hpart, hsteps⟩ := part_of_tooDeep hdeep t
      rw [hpart, outcome]
      refine ⟨?_, fun _ => .refl _⟩
      rw [Bounded, hsteps]
      exact ht

end Runs

end Turn

end Repartee
