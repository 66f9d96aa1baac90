/-
  Repartee.Proofs.Shares — replies picked by weight.

  Each reply has a share of the draws, the greater of its weight and one, and the shares lie one
  after the other: a draw falls to the position whose range contains it. What a trigger says once
  no condition holds takes one draw for the reply and leaves the others to what the reply renders.

  Draws are any sequence of numbers here. What a play may come to is told by the draws that it
  has not taken yet: those taken are as they are, and the others may be any.

  Proved:
  - The replies of every rulebook have weights of 32 bits (`Trigger.inherent_weights`).
  - A draw falls to the position whose cumulative range contains it (`shareOf_eq_some_iff`), and to
    each position fall as many draws as its share (`card_shareOf`).
  - Picking is finding the place of the next draw (`run_pick`).
  - What a trigger without redirect may say once no condition holds is what its replies may come to,
    and so is what a turn answers that finds the trigger (`replies_picked_by_weight`).
-/

import Mathlib.Data.Set.Lattice
import Mathlib.Order.Interval.Finset.Nat
import Repartee.Proofs.Nesting
import Repartee.Proofs.Origins
import Repartee.Proofs.Redrawing

namespace Repartee

/-! ## Weights as they are written -/

theorem Decimal.natural_lt {bound n : Nat} {cs : List Char} (h : natural bound cs = some n) : n < bound := by
  simp only [natural, Option.ite_none_left_eq_some, Option.ite_none_right_eq_some, Option.some.injEq] at h
  obtain ⟨-, hlt, rfl⟩ := h
  exact hlt

namespace Template

theorem weight_lt_of_meaning {whole : String} {t : Tag} {w : Nat} (h : t.meaning whole = .ok (none, some w)) :
    w < Decimal.bound32 := by
  obtain ⟨value, rfl⟩ := eq_weight_of_meaning h
  rw [Tag.meaning] at h
  cases hvalue : Decimal.natural Decimal.bound32 value with
  | none =>
    rw [hvalue] at h
    cases h
  | some w =>
    rw [hvalue] at h
    cases h
    exact Decimal.natural_lt hvalue

theorem weight_lt_of_readPieces {whole : String} {run cs : List Char} {pieces : List Piece} {w : Nat}
    (h : readPieces whole run cs = .ok (pieces, some w)) : w < Decimal.bound32 := by
  induction hn : cs.length using Nat.strongRecOn generalizing cs run pieces with
  | _ n ih =>
    subst hn
    cases cs with
    | nil =>
      rw [readPieces] at h
      cases h
    | cons c rest =>
      cases he : escape? (c :: rest) with
      | some found =>
        rw [readPieces_of_escape he] at h
        exact ih _ (escape?_length he) h rfl
      | none =>
        cases ht : tag? (c :: rest) with
        | none =>
          rw [readPieces_of_plain he ht] at h
          exact ih _ (Nat.lt_succ_self _) h rfl
        | some found =>
          rw [readPieces_of_tag he ht, bind_eq_ok] at h
          obtain ⟨⟨piece, weight⟩, hmeaning, h⟩ := h
          have hlater : ∀ {run pieces}, readPieces whole run found.2 = .ok (pieces, some w) → w < Decimal.bound32 :=
            fun hafter => ih _ (shorter_tag? ht).1 hafter rfl
          cases piece with
          | some p =>
            obtain ⟨⟨_, _⟩, hafter, h⟩ := bind_eq_ok.mp h
            cases h
            exact hlater hafter
          | none =>
            -- a later weight of the level counts, and if there is none, this one
            obtain ⟨⟨_, later⟩, hafter, h⟩ := bind_eq_ok.mp h
            cases later with
            | some later =>
              cases h
              exact hlater hafter
            | none =>
              cases h
              exact weight_lt_of_meaning hmeaning

theorem weight_lt_of_read {source : String} {t : Template} (h : read source = .ok t) : t.weight < 2 ^ 32 := by
  obtain ⟨⟨pieces, weight⟩, hpieces, ht⟩ := bind_eq_ok.mp h
  cases ht
  cases weight with
  | none => exact Nat.two_pow_pos 32
  | some w => exact weight_lt_of_readPieces hpieces

end Template

/-- Weights are numbers of 32 bits. -/
theorem Trigger.inherent_weights : Trigger.Inherent fun t => ∀ reply ∈ t.replies, reply.weight < 2 ^ 32 := by
  refine ⟨fun {scope t v} h reply hreply => ?_, fun _ h => h, fun {t v} ht hv => List.forall_mem_append.mpr ⟨ht, hv⟩⟩
  have hcompiled : Rulebook.compileTrigger scope "" t = .ok v := Rulebook.compileTrigger_eq_ok.mpr h
  obtain ⟨pattern, -, hrest⟩ := bind_eq_ok.mp hcompiled
  obtain ⟨previous, -, hrest⟩ := bind_eq_ok.mp hrest
  obtain ⟨replies, hreplies, hrest⟩ := bind_eq_ok.mp hrest
  obtain ⟨conditions, -, hrest⟩ := bind_eq_ok.mp hrest
  obtain ⟨redirect, -, hrest⟩ := bind_eq_ok.mp hrest
  cases hrest
  have hmem : (Except.ok reply : Except LoadError Template) ∈ t.replies.map (Rulebook.compileReply "") := by
    rw [mapM_eq_ok.mp hreplies]
    exact List.mem_map_of_mem hreply
  obtain ⟨line, -, hread⟩ := List.mem_map.mp hmem
  exact Template.weight_lt_of_read (Rulebook.atLine_eq_ok.mp hread)

/-! ## Shares -/

section Shares

variable {ws : List Nat} {draw i : Nat}

theorem totalShare_take_succ (h : i < ws.length) : totalShare (ws.take (i + 1)) = totalShare (ws.take i) + ws[i] := by
  induction ws generalizing i with
  | nil => cases h
  | cons w ws ih =>
    cases i with
    | zero => simp [totalShare]
    | succ i =>
      have hsucc := ih (Nat.lt_of_succ_lt_succ h)
      simp only [List.take_succ_cons, totalShare, hsucc, List.getElem_cons_succ]
      omega

theorem totalShare_take_le (ws : List Nat) (i : Nat) : totalShare (ws.take i) ≤ totalShare ws := by
  induction ws generalizing i with
  | nil => simp [totalShare]
  | cons w ws ih =>
    cases i with
    | zero => simp [totalShare]
    | succ i => exact Nat.add_le_add_left (ih i) w

theorem totalShare_le {m : Nat} (h : ∀ w ∈ ws, w ≤ m) : totalShare ws ≤ ws.length * m := by
  induction ws with
  | nil => exact Nat.zero_le _
  | cons w ws ih =>
    have hw := h w List.mem_cons_self
    have hrest := ih fun v hv => h v (List.mem_cons_of_mem w hv)
    rw [totalShare, List.length_cons, Nat.succ_mul]
    omega

/-- The draw falls to the position whose range, from the shares before it on, contains it. -/
theorem shareOf_eq_some_iff : shareOf ws draw = some i ↔
    i < ws.length ∧ totalShare (ws.take i) ≤ draw ∧ draw < totalShare (ws.take (i + 1)) := by
  induction ws generalizing draw i with
  | nil => simp [shareOf]
  | cons w ws ih =>
    rw [shareOf]
    by_cases hfirst : draw < w
    · rw [if_pos hfirst]
      cases i with
      | zero => simp [totalShare, hfirst]
      | succ i =>
        simp only [List.take_succ_cons, totalShare, Option.some.injEq, Nat.zero_ne_add_one, false_iff]
        omega
    · rw [if_neg hfirst]
      cases i with
      | zero => simp [totalShare, hfirst]
      | succ i =>
        simp only [Option.map_eq_some_iff, Nat.add_right_cancel_iff, exists_eq_right, ih, List.length_cons,
          List.take_succ_cons, totalShare]
        omega

/-- No draw below the sum is out of range. -/
theorem exists_shareOf (h : draw < totalShare ws) : ∃ i, shareOf ws draw = some i := by
  induction ws generalizing draw with
  | nil => cases h
  | cons w ws ih =>
    rw [shareOf]
    by_cases hfirst : draw < w
    · exact ⟨0, if_pos hfirst⟩
    · rw [totalShare] at h
      have hrest : draw - w < totalShare ws := by omega
      obtain ⟨i, hi⟩ := ih hrest
      exact ⟨i + 1, by rw [if_neg hfirst, hi]; rfl⟩

/-- To a position fall as many draws as its share. -/
theorem card_shareOf (h : i < ws.length) :
    ((Finset.range (totalShare ws)).filter fun draw => shareOf ws draw = some i).card = ws[i] := by
  have hrange : (Finset.range (totalShare ws)).filter (fun draw => shareOf ws draw = some i) =
      Finset.Ico (totalShare (ws.take i)) (totalShare (ws.take (i + 1))) := by
    ext draw
    have hle := totalShare_take_le ws (i + 1)
    simp only [Finset.mem_filter, Finset.mem_range, Finset.mem_Ico, shareOf_eq_some_iff]
    omega
  rw [hrange, Nat.card_Ico, totalShare_take_succ h, Nat.add_sub_cancel_left]

end Shares

/-- Draws of which the first so many are those of one sequence, and the rest are another. -/
def Draws.splice (first : Draws) (k : Nat) (rest : Draws) : Draws := fun n => if n < k then first n else rest (n - k)

theorem Draws.splice_of_lt {first rest : Draws} {k n : Nat} (h : n < k) : first.splice k rest n = first n := if_pos h

theorem Draws.splice_add (first rest : Draws) (k n : Nat) : first.splice k rest (k + n) = rest n := by
  rw [splice, if_neg (by omega), Nat.add_sub_cancel_left]

namespace Turn

/-! ## Picking -/

section Picking

variable {replies : List Template} {draw i : Nat}

/-- The place of the reply to which a draw falls. -/
def placeOf (replies : List Template) (draw : Nat) : Option Nat :=
  shareOf (replies.map share) (draw % totalShare (replies.map share))

/-- How many draws it takes to pick one of the replies. -/
def drawsToPick (replies : List Template) : Nat := if replies.length ≤ 1 then 0 else 1

theorem one_le_share (reply : Template) : 1 ≤ share reply := Nat.le_max_right _ _

theorem totalShare_pos (h : replies ≠ []) : 0 < totalShare (replies.map share) := by
  cases replies with
  | nil => exact absurd rfl h
  | cons reply replies =>
    have hone := one_le_share reply
    rw [List.map_cons, totalShare]
    omega

/-- Every draw falls to a reply. -/
theorem exists_placeOf (h : replies ≠ []) (draw : Nat) : ∃ i, ∃ _ : i < replies.length, placeOf replies draw = some i := by
  obtain ⟨i, hi⟩ := exists_shareOf (Nat.mod_lt draw (totalShare_pos h))
  exact ⟨i, by simpa using (shareOf_eq_some_iff.mp hi).1, hi⟩

/-- To every reply falls some draw. -/
theorem exists_draw (h : i < replies.length) : ∃ draw, placeOf replies draw = some i := by
  have hlength : i < (replies.map share).length := by rwa [List.length_map]
  have hone : 1 ≤ (replies.map share)[i] := by
    rw [List.getElem_map]
    exact one_le_share _
  have hle := totalShare_take_le (replies.map share) (i + 1)
  have hsucc := totalShare_take_succ hlength
  refine ⟨totalShare ((replies.map share).take i), ?_⟩
  rw [placeOf, Nat.mod_eq_of_lt (by omega), shareOf_eq_some_iff]
  exact ⟨hlength, Nat.le_refl _, by omega⟩

theorem card_placeOf (h : i < replies.length) :
    ((Finset.range (totalShare (replies.map share))).filter fun draw => placeOf replies draw = some i).card =
      max replies[i].weight 1 := by
  have hfilter : (Finset.range (totalShare (replies.map share))).filter (fun draw => placeOf replies draw = some i) =
      (Finset.range (totalShare (replies.map share))).filter fun draw => shareOf (replies.map share) draw = some i := by
    refine Finset.filter_congr fun draw hdraw => ?_
    rw [placeOf, Nat.mod_eq_of_lt (Finset.mem_range.mp hdraw)]
  rw [hfilter, card_shareOf (by rwa [List.length_map]), List.getElem_map, share]

theorem totalShare_lt (hlength : replies.length < 2 ^ 32) (hweights : ∀ reply ∈ replies, reply.weight < 2 ^ 32) :
    totalShare (replies.map share) < 2 ^ 64 := by
  have hle : totalShare (replies.map share) ≤ (replies.map share).length * 2 ^ 32 := by
    refine totalShare_le fun w hw => ?_
    obtain ⟨reply, hreply, rfl⟩ := List.mem_map.mp hw
    exact Nat.max_le.mpr ⟨Nat.le_of_lt (hweights reply hreply), by decide⟩
  rw [List.length_map] at hle
  omega

/-- A single reply is picked without a draw, and it is the one to which every draw falls. -/
theorem run_pick (s : Scene) (replies : List Template) (t : Turn) : (pick s replies).run t =
    ((placeOf replies (s.draws t.drawn)).bind (replies[·]?), { t with drawn := t.drawn + drawsToPick replies }) := by
  match replies with
  | [] => rfl
  | [reply] =>
    obtain ⟨i, hi, hplace⟩ := exists_placeOf (List.cons_ne_nil reply []) (s.draws t.drawn)
    have hzero : i = 0 := by simpa using hi
    rw [hplace, hzero]
    rfl
  | first :: second :: rest =>
    have htaken : drawsToPick (first :: second :: rest) = 1 := if_neg (by simp)
    rw [htaken]
    rfl

end Picking

/-! ## What a play may come to -/

section Outcomes

variable {α β : Type} {s : Scene} {k : Nat}

/-- All that a play may come to if so many draws are those of the scene and the others are any. -/
def outcomes (s : Scene) (k : Nat) (result : Scene → α) : Set α :=
  { r | ∃ draws : Draws, (∀ n < k, draws n = s.draws n) ∧ result { s with draws } = r }

theorem outcomes_congr {result result' : Scene → α}
    (h : ∀ draws : Draws, (∀ n < k, draws n = s.draws n) → result { s with draws } = result' { s with draws }) :
    outcomes s k result = outcomes s k result' := by
  ext r
  refine exists_congr fun draws => and_congr_right fun hsame => ?_
  rw [h draws hsame]

theorem outcomes_image (f : α → β) (result : Scene → α) :
    outcomes s k (fun s => f (result s)) = f '' outcomes s k result := by
  ext r
  constructor
  · rintro ⟨draws, hsame, rfl⟩
    exact ⟨_, ⟨draws, hsame, rfl⟩, rfl⟩
  · rintro ⟨_, ⟨draws, hsame, rfl⟩, rfl⟩
    exact ⟨draws, hsame, rfl⟩

theorem outcomes_const (a : α) : outcomes s k (fun _ => a) = {a} := by
  ext r
  constructor
  · rintro ⟨_, -, rfl⟩
    rfl
  · rintro rfl
    exact ⟨s.draws, fun _ _ => rfl, rfl⟩

end Outcomes

/-- All that a template may come to for a user, whatever is drawn. -/
def renderings (s : Scene) (left : Nat) (captures : Captures) (u : User) (body : Template) : Set (Except Abort String) :=
  outcomes s 0 fun s => ((render s (follow s left) captures body).run { user := u }).1

/-- All that a trigger may say from a turn on, the first draws being as they are. -/
def sayings (s : Scene) (k left : Nat) (captures : Captures) (trigger : Trigger) (t : Turn) : Set (Except Abort String) :=
  outcomes s k fun s => ((say s (follow s left) captures trigger).run t).1

/-- What the user is answered. -/
def replyOf (settings : Settings) : Except Abort String → String
  | .ok reply => reply
  | .error _ => settings.deepRecursionReply

section Sayings

variable {s : Scene} {trigger : Trigger} {left : Nat} {captures : Captures} {t t₁ : Turn}

/-- Rendering from a turn comes to what it comes to at the beginning of one, with the draws that are left. -/
theorem render_resumed (s : Scene) (left : Nat) (captures : Captures) (body : Template) (t : Turn) :
    let s' := { s with draws := remaining s.draws t }
    ((render s (follow s left) captures body).run t).1 =
      ((render s' (follow s' left) captures body).run { user := t.user }).1 := by
  intro s'
  have hresumes : Resumes t String (renderPieces s (follow s left) captures body.pieces) _ :=
    related_renderPieces (redraws_resumes s t) (related_follow (redraws_resumes s t) left) body.pieces
  have hrun := hresumes { user := t.user }
  rw [andThen_begin] at hrun
  rw [render, hrun, render]

/-- Once no condition holds, the next draw picks the reply, and the draws after it are for what it renders. -/
theorem said_of_none_holding (hredirect : trigger.redirect = none)
    (hnone : (firstHolding s (follow s left) captures trigger.conditions).run t = (.ok none, t₁)) {draws : Draws}
    (hsame : ∀ n < t₁.drawn, draws n = s.draws n) :
    let s' := { s with draws }
    let later := { s with draws := fun n => draws (t₁.drawn + drawsToPick trigger.replies + n) }
    ((say s' (follow s' left) captures trigger).run t).1 =
      match (placeOf trigger.replies (draws t₁.drawn)).bind (trigger.replies[·]?) with
      | some reply => ((render later (follow later left) captures reply).run { user := t₁.user }).1
      | none => .ok s.settings.noReplyFound := by
  intro s' later
  have hheeds : Heeds t₁.drawn _ (firstHolding s (follow s left) captures trigger.conditions) _ :=
    related_firstHolding (redraws_heeds hsame) (related_follow (redraws_heeds hsame) left) trigger.conditions
  have hnone' : (firstHolding s' (follow s' left) captures trigger.conditions).run t = (.ok none, t₁) := by
    rw [← hnone]
    exact hheeds.same t (by rw [hnone])
  simp only [say, hredirect]
  rw [run_bind, hnone']
  dsimp only
  rw [run_bind, run_lift, run_pick]
  dsimp only
  cases (placeOf trigger.replies (draws t₁.drawn)).bind (trigger.replies[·]?) with
  | none => rfl
  | some reply => exact render_resumed s' left captures reply _

theorem sayings_of_replies (hredirect : trigger.redirect = none) (hreplies : trigger.replies ≠ [])
    (hnone : (firstHolding s (follow s left) captures trigger.conditions).run t = (.ok none, t₁)) :
    sayings s t₁.drawn left captures trigger t = ⋃ reply ∈ trigger.replies, renderings s left captures t₁.user reply := by
  ext r
  simp only [Set.mem_iUnion, exists_prop]
  constructor
  · rintro ⟨draws, hsame, rfl⟩
    obtain ⟨i, hi, hplace⟩ := exists_placeOf hreplies (draws t₁.drawn)
    refine ⟨trigger.replies[i], List.getElem_mem hi, fun n => draws (t₁.drawn + drawsToPick trigger.replies + n),
      fun n hn => absurd hn (Nat.not_lt_zero n), ?_⟩
    dsimp only
    rw [said_of_none_holding hredirect hnone hsame, hplace, Option.bind_some, List.getElem?_eq_getElem hi]
  · rintro ⟨reply, hreply, draws, -, rfl⟩
    obtain ⟨i, hi, rfl⟩ := List.getElem_of_mem hreply
    obtain ⟨draw, hdraw⟩ := exists_draw hi
    -- the draws taken, the one that falls to the reply if it needs one, and those with which it is rendered
    let spliced := s.draws.splice t₁.drawn (Draws.splice (fun _ => draw) (drawsToPick trigger.replies) draws)
    have hsame : ∀ n < t₁.drawn, spliced n = s.draws n := fun n hn => Draws.splice_of_lt hn
    have hlater : (fun n => spliced (t₁.drawn + drawsToPick trigger.replies + n)) = draws := by
      funext n
      rw [Nat.add_assoc]
      exact (Draws.splice_add _ _ _ _).trans (Draws.splice_add _ _ _ _)
    have hplace : placeOf trigger.replies (spliced t₁.drawn) = some i := by
      by_cases hone : trigger.replies.length ≤ 1
      · obtain ⟨j, hj, hplace⟩ := exists_placeOf hreplies (spliced t₁.drawn)
        rw [hplace, show j = i by omega]
      · have hnext : spliced t₁.drawn = draw :=
          (Draws.splice_add _ _ _ 0).trans (Draws.splice_of_lt (by rw [drawsToPick, if_neg hone]; exact Nat.one_pos))
        rw [hnext, hdraw]
    refine ⟨spliced, hsame, ?_⟩
    dsimp only
    rw [said_of_none_holding hredirect hnone hsame, hplace, Option.bind_some, List.getElem?_eq_getElem hi, hlater]

theorem sayings_of_no_replies (hredirect : trigger.redirect = none) (hreplies : trigger.replies = [])
    (hnone : (firstHolding s (follow s left) captures trigger.conditions).run t = (.ok none, t₁)) :
    sayings s t₁.drawn left captures trigger t = {.ok s.settings.noReplyFound} := by
  have hsaid : sayings s t₁.drawn left captures trigger t = outcomes s t₁.drawn fun _ => .ok s.settings.noReplyFound := by
    refine outcomes_congr fun draws hsame => ?_
    rw [said_of_none_holding hredirect hnone hsame, hreplies]
    rfl
  rw [hsaid, outcomes_const]

end Sayings

/-- A turn that finds a trigger tells the user what the trigger says. -/
theorem reply_play_of_found {s : Scene} {u : User} {message : String} {f : Finding} {trigger : Trigger} {t : Turn}
    (hfind : (find s 0 message).run { user := u } = (some f, t))
    (htrigger : s.rules.catalog.triggers[f.candidate.trigger]? = some trigger) :
    (play s u message).1.reply =
      replyOf s.settings ((say s (follow s s.settings.maxDepth) ⟨f.stars, f.botStars⟩ trigger).run t).1 := by
  have hanswer : answer s (follow s s.settings.maxDepth) (some f) =
      say s (follow s s.settings.maxDepth) ⟨f.stars, f.botStars⟩ trigger := by
    rw [answer, htrigger]
  rw [← hanswer]
  obtain ⟨result, t', hrun⟩ : ∃ result t', (answer s (follow s s.settings.maxDepth) (some f)).run t = (result, t') :=
    ⟨_, _, rfl⟩
  simp only [play, hfind, hrun]
  cases result with
  | ok reply => rfl
  | error e => rfl

theorem outcomes_play_of_found {s : Scene} {u : User} {message : String} {f : Finding} {trigger : Trigger} {t : Turn}
    (hfind : (find s 0 message).run { user := u } = (some f, t))
    (htrigger : s.rules.catalog.triggers[f.candidate.trigger]? = some trigger) (k : Nat) :
    outcomes s k (fun s => (play s u message).1.reply) =
      replyOf s.settings '' sayings s k s.settings.maxDepth ⟨f.stars, f.botStars⟩ trigger t := by
  rw [sayings, ← outcomes_image]
  exact outcomes_congr fun draws _ => reply_play_of_found (s := { s with draws }) hfind htrigger

/-- The replies of a trigger share the draws by their weights, and once no condition holds what it may say is
what any of its replies may come to. So it is for the whole turn if the message finds the trigger. -/
theorem replies_picked_by_weight {s : Scene} {trigger : Trigger} (hredirect : trigger.redirect = none)
    (hlength : trigger.replies.length < 2 ^ 32) (hweights : ∀ reply ∈ trigger.replies, reply.weight < 2 ^ 32) :
    let replies := trigger.replies
    let total := totalShare (replies.map share)
    (total < 2 ^ 64 ∧
      (∀ i (h : i < replies.length),
        ((Finset.range total).filter fun draw => placeOf replies draw = some i).card = max replies[i].weight 1) ∧
      (replies ≠ [] → ∀ draws t, ∃ i, ∃ h : i < replies.length, placeOf replies (draws t.drawn) = some i ∧
        ((pick { s with draws } replies).run t).1 = some replies[i])) ∧
    (∀ left captures t t₁, (firstHolding s (follow s left) captures trigger.conditions).run t = (.ok none, t₁) →
      sayings s t₁.drawn left captures trigger t =
        if replies = [] then {.ok s.settings.noReplyFound}
        else ⋃ reply ∈ replies, renderings s left captures t₁.user reply) ∧
    ∀ u message f t t₁, (find s 0 message).run { user := u } = (some f, t) →
      s.rules.catalog.triggers[f.candidate.trigger]? = some trigger →
      (firstHolding s (follow s s.settings.maxDepth) ⟨f.stars, f.botStars⟩ trigger.conditions).run t = (.ok none, t₁) →
      outcomes s t₁.drawn (fun s => (play s u message).1.reply) =
        if replies = [] then {s.settings.noReplyFound}
        else ⋃ reply ∈ replies,
          replyOf s.settings '' renderings s s.settings.maxDepth ⟨f.stars, f.botStars⟩ t₁.user reply := by
  intro replies total
  refine ⟨⟨totalShare_lt hlength hweights, fun i h => card_placeOf h, fun hreplies draws t => ?_⟩,
    fun left captures t t₁ hnone => ?_, fun u message f t t₁ hfind htrigger hnone => ?_⟩
  · obtain ⟨i, h, hplace⟩ := exists_placeOf hreplies (draws t.drawn)
    refine ⟨i, h, hplace, ?_⟩
    rw [run_pick]
    show (placeOf replies (draws t.drawn)).bind (replies[·]?) = _
    rw [hplace, Option.bind_some, List.getElem?_eq_getElem h]
  · by_cases hreplies : replies = []
    · rw [if_pos hreplies, sayings_of_no_replies hredirect hreplies hnone]
    · rw [if_neg hreplies, sayings_of_replies hredirect hreplies hnone]
  · rw [outcomes_play_of_found hfind htrigger]
    by_cases hreplies : replies = []
    · rw [if_pos hreplies, sayings_of_no_replies hredirect hreplies hnone, Set.image_singleton, replyOf]
    · rw [if_neg hreplies, sayings_of_replies hredirect hreplies hnone]
      simp only [Set.image_iUnion, replies]

/-- The greatest weight beside none, after a condition that takes a draw and does not hold. -/
theorem replies_picked_by_weight_extremes :
    let rules := [{ origin := "a", topics := [{ name := homeTopic, line := 0, triggers := [{
      pattern := ⟨"hi", 1⟩
      conditions := [⟨"\x7brandom\x7dx|y\x7b/random\x7d == z => never", 2⟩]
      replies := [⟨"a\x7bweight=4294967295\x7d", 3⟩, ⟨"\x7brandom\x7db|c\x7b/random\x7d", 4⟩] }] }] : Script }]
    ∃ r trigger f t t₁, Rulebook.build Lexicon.standardPunctuation {} rules = .ok r ∧
      let s : Scene := { rules := r, macros := {}, settings := {}, draws := id }
      let u := User.new "u"
      (trigger.redirect = none ∧ trigger.replies.length = 2 ∧ ∀ reply ∈ trigger.replies, reply.weight < 2 ^ 32) ∧
      ((find s 0 "hi").run { user := u } = (some f, t) ∧ r.catalog.triggers[f.candidate.trigger]? = some trigger ∧
        (firstHolding s (follow s s.settings.maxDepth) ⟨f.stars, f.botStars⟩ trigger.conditions).run t = (.ok none, t₁) ∧
        t₁.drawn = 1) ∧
      (totalShare (trigger.replies.map share) = 2 ^ 32 ∧ placeOf trigger.replies (2 ^ 32 - 1) = some 1) ∧
      "c" ∈ outcomes s 1 fun s => (play s u "hi").1.reply := by
  intro rules
  let scene (r : Rulebook) : Scene := { rules := r, macros := {}, settings := {}, draws := id }
  let later (r : Rulebook) : Scene := { rules := r, macros := {}, settings := {}, draws := fun _ => 1 }
  let u := User.new "u"
  obtain ⟨r, hr, hany⟩ : ∃ r, Rulebook.build Lexicon.standardPunctuation {} rules = .ok r ∧
      (r.catalog.triggers[0]?.any fun trigger => ((find (scene r) 0 "hi").run { user := u }).1.any fun f =>
        let held := (firstHolding (scene r) (follow (scene r) 50) ⟨f.stars, f.botStars⟩ trigger.conditions).run
          ((find (scene r) 0 "hi").run { user := u }).2
        let said (reply : Template) :=
          ((render (later r) (follow (later r) 50) ⟨f.stars, f.botStars⟩ reply).run { user := held.2.user }).1
        (f.candidate.trigger == 0 && held.1.toOption.any Option.isNone && held.2.drawn == 1) &&
          (trigger.redirect.isNone && trigger.replies.length == 2) &&
          (totalShare (trigger.replies.map share) == 2 ^ 32 && placeOf trigger.replies (2 ^ 32 - 1) == some 1) &&
          trigger.replies.any fun reply => (said reply).toOption == some "c") = true :=
    exists_ok_of_any (by decide +kernel)
  obtain ⟨trigger, htrigger, hany⟩ := (Option.any_eq_true _ _).mp hany
  obtain ⟨f, hfound, hany⟩ := (Option.any_eq_true _ _).mp hany
  simp only [Bool.and_eq_true, beq_iff_eq, Option.isNone_iff_eq_none, List.any_eq_true] at hany
  obtain ⟨⟨⟨⟨⟨hid, hheld⟩, hdrawn⟩, hredirect, hlength⟩, htotal, hplace⟩, reply, hreply, hsaid⟩ := hany
  obtain ⟨t, hfind⟩ : ∃ t, (find (scene r) 0 "hi").run { user := u } = (some f, t) := ⟨_, Prod.ext hfound rfl⟩
  rw [hfind] at hheld hdrawn hsaid
  obtain ⟨held, t₁, hrun⟩ : ∃ held t₁,
      (firstHolding (scene r) (follow (scene r) 50) ⟨f.stars, f.botStars⟩ trigger.conditions).run t = (held, t₁) := ⟨_, _, rfl⟩
  rw [hrun] at hheld hdrawn hsaid
  have hnone : held = .ok none := by
    match held, hheld with
    | .ok none, _ => rfl
  rw [hnone] at hrun
  have hweights := Rulebook.inherent_of_build Trigger.inherent_weights hr trigger (Array.mem_of_getElem? htrigger)
  have htrigger' : r.catalog.triggers[f.candidate.trigger]? = some trigger := hid ▸ htrigger
  refine ⟨r, trigger, f, t, t₁, hr, ⟨hredirect, hlength, hweights⟩, ⟨hfind, htrigger', hrun, hdrawn⟩, ⟨htotal, hplace⟩, ?_⟩
  have houtcomes := (replies_picked_by_weight (s := scene r) hredirect (by rw [hlength]; decide) hweights).2.2
    u "hi" f t t₁ hfind htrigger' hrun
  rw [if_neg (List.ne_nil_of_mem hreply), hdrawn] at houtcomes
  rw [houtcomes]
  obtain ⟨answer, hanswer⟩ : ∃ answer,
      ((render (later r) (follow (later r) 50) ⟨f.stars, f.botStars⟩ reply).run { user := t₁.user }).1 = answer := ⟨_, rfl⟩
  rw [hanswer] at hsaid
  have hc : answer = .ok "c" := by
    cases answer with
    | error e => cases hsaid
    | ok text => exact congrArg Except.ok (Option.some.inj hsaid)
  exact Set.mem_iUnion₂.mpr ⟨reply, hreply, .ok "c", ⟨fun _ => 1, fun n hn => absurd hn (Nat.not_lt_zero n), hanswer.trans hc⟩, rfl⟩

end Turn

end Repartee
